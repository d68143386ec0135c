import WireGui.Lib.Transactions
import WireGui.Pages.AdminSettings

/-!
# Two edits of identity providers at once

Each handler reads the configuration, makes the new list out of the one it has read, and writes it
back in one transaction.  `run_editsKept_iff` says in which runs of two handlers both edits are kept.
-/

namespace WireGui

/-- A handler for an edit, and what time it is. -/
structure ProviderHandler where
  edit : ProviderEdit
  now : ℕ

/-- Where a handler is: it has been called, has read the configuration, has sent its update, has
committed or has failed. -/
inductive ProviderPhase where
  | called
  | loaded (config : Configuration)
  | sent (config : Configuration)
  | committed
  | failed
  deriving DecidableEq

/-- The handler has read this configuration and has not committed yet. -/
def ProviderPhase.Read (config : Configuration) (phase : ProviderPhase) : Prop :=
  phase = .loaded config ∨ phase = .sent config

section Programs

variable (l : ProviderList) (h : ProviderHandler)

/-- The list that a handler makes of what it has read. -/
def ProviderHandler.list (config : Configuration) : Option (List Provider) :=
  some (h.edit.applyTo (config.providers l))

/-- There is something to be sent. -/
def ProviderHandler.Changes (config : Configuration) : Prop :=
  h.list l config ≠ config.providers l ∨ h.now ≠ config.updatedAt

instance : DecidablePred (h.Changes l) := fun config => by
  unfold ProviderHandler.Changes; infer_instance

/-- What the transaction has written: the columns that differ from what was read. -/
def ProviderHandler.write (config stored : Configuration) : Configuration :=
  { stored.setProviders l
      (Tx.written (config.providers l) (h.list l config) (stored.providers l)) with
    updatedAt := Tx.written config.updatedAt h.now stored.updatedAt }

/-- **The statements of the handlers** that save and delete providers. -/
def ProviderHandler.prog : ProviderPhase → Tx.Stmt Configuration ProviderPhase
  | .called => .query .loaded
  | .loaded config =>
    if h.Changes l config then .lock (.sent config) else .commit (h.write l config) .committed
  | .sent config => .commit (h.write l config) .committed
  | .committed | .failed => .stop

/-- The configuration that a handler has read which commits next. -/
def ProviderHandler.committing : ProviderPhase → Option Configuration
  | .loaded config => if h.Changes l config then none else some config
  | .sent config => some config
  | .called | .committed | .failed => none

end Programs

abbrev providerProgs (l : ProviderList) (hs : Bool → ProviderHandler) (i : Bool) :
    ProviderPhase → Tx.Stmt Configuration ProviderPhase :=
  (hs i).prog l

/-- The two handlers, one after the other statement. -/
abbrev editNext (l : ProviderList) (hs : Bool → ProviderHandler) :
    Tx.Event Bool → Tx.State Bool Configuration ProviderPhase →
      Tx.State Bool Configuration ProviderPhase :=
  Tx.Event.next (providerProgs l hs) .failed

/-- **Both edits are kept**: each is in effect, and all other entries are as they were. -/
structure EditsKept (l : ProviderList) (hs : Bool → ProviderHandler) (before after : Configuration) :
    Prop where
  applied : ∀ i, (hs i).edit.Applied ((after.providers l).getD [])
  others : ((after.providers l).getD []).filter (fun p => ∀ i, p.get "id" ≠ (hs i).edit.id) =
    ((before.providers l).getD []).filter fun p => ∀ i, p.get "id" ≠ (hs i).edit.id

/-- **No list goes back that is out of date**, unless the handler has nothing to do for the list it
has read or the edit of the other one is in effect there. -/
def CommitsFresh (l : ProviderList) (hs : Bool → ProviderHandler) (e : Tx.Event Bool)
    (s : Tx.State Bool Configuration ProviderPhase) : Prop :=
  match e with
  | .step i => ∀ config ∈ (hs i).committing l (s.procs i),
      s.store.providers l = config.providers l ∨ (hs i).edit.Idle (config.providers l) ∨
        (hs !i).edit.Applied ((config.providers l).getD [])
  | .rollback _ => True

instance (l : ProviderList) (hs : Bool → ProviderHandler) (e : Tx.Event Bool)
    (s : Tx.State Bool Configuration ProviderPhase) : Decidable (CommitsFresh l hs e s) := by
  unfold CommitsFresh; cases e <;> infer_instance

section Steps

variable {l : ProviderList} {h : ProviderHandler} {hs : Bool → ProviderHandler}
  {s : Tx.State Bool Configuration ProviderPhase} {i : Bool} {e : Tx.Event Bool}
  {config before stored : Configuration} {phase : ProviderPhase}

@[simp] lemma providers_setProviders {ps : Option (List Provider)} :
    (config.setProviders l ps).providers l = ps := by
  cases l <;> rfl

lemma providers_write : (h.write l config stored).providers l =
    Tx.written (config.providers l) (h.list l config) (stored.providers l) := by
  have hset : ∀ c : Configuration, ∀ t, ({ c with updatedAt := t } : Configuration).providers l =
      c.providers l := by
    intro c t
    cases l <;> rfl
  rw [ProviderHandler.write, hset, providers_setProviders]

/-- What was read last is replaced by the new list. -/
lemma providers_write_fresh (hfresh : stored.providers l = config.providers l) :
    (h.write l config stored).providers l = h.list l config := by
  rw [providers_write, hfresh, Tx.written_self]

lemma committing_eq_some_iff : h.committing l phase = some config ↔
    phase = .sent config ∨ phase = .loaded config ∧ ¬ h.Changes l config := by
  unfold ProviderHandler.committing
  split
  next c =>
    split
    next hch => simpa using fun he => he ▸ hch
    next hch => simpa using fun he => he ▸ hch
  next c => simp
  next => simp
  next => simp
  next => simp

/-- A commit. -/
lemma next_of_commits (hc : (hs i).committing l (s.procs i) = some config) :
    editNext l hs (.step i) s =
      { (s.goto i .committed).release i with store := (hs i).write l config s.store } := by
  refine Tx.next_commit ?_
  rcases committing_eq_some_iff.1 hc with hc | ⟨hc, hno⟩
  · show (hs i).prog l (s.procs i) = _
    rw [hc]
    rfl
  · show (hs i).prog l (s.procs i) = _
    rw [hc]
    exact if_neg hno

lemma read_of_committing (hc : h.committing l phase = some config) : phase.Read config :=
  (committing_eq_some_iff.1 hc).symm.imp And.left id

/-- **A statement that is no commit** leaves the configuration alone, and nobody reads anything but
what is stored. -/
lemma next_of_not_commits
    (hno : ∀ i, e = .step i → (hs i).committing l (s.procs i) = none) :
    (editNext l hs e s).store = s.store ∧
      ∀ j, ((editNext l hs e s).procs j = .committed ↔ s.procs j = .committed) ∧
        ∀ config, ((editNext l hs e s).procs j).Read config →
          (s.procs j).Read config ∨ config = s.store := by
  -- where a handler ends up, the others being where they were
  have hgoto : ∀ (i : Bool) (phase : ProviderPhase), phase ≠ .committed →
      s.procs i ≠ .committed →
      (∀ config, phase.Read config → (s.procs i).Read config ∨ config = s.store) →
      ∀ j, ((s.goto i phase).procs j = .committed ↔ s.procs j = .committed) ∧
        ∀ config, ((s.goto i phase).procs j).Read config →
          (s.procs j).Read config ∨ config = s.store := by
    intro i phase hphase hi hread j
    by_cases hj : j = i
    · subst hj
      rw [Tx.procs_goto_self]
      exact ⟨iff_of_false hphase hi, hread⟩
    · rw [Tx.procs_goto_of_ne hj]
      exact ⟨Iff.rfl, fun _ => .inl⟩
  have hsame : ∀ j, (s.procs j = .committed ↔ s.procs j = .committed) ∧
      ∀ config, (s.procs j).Read config → (s.procs j).Read config ∨ config = s.store :=
    fun j => ⟨Iff.rfl, fun _ => .inl⟩
  cases e with
  | step i =>
    have hno := hno i rfl
    simp only [editNext, Tx.Event.next, providerProgs]
    cases hp : s.procs i with
    | called =>
      refine ⟨rfl, hgoto i (.loaded s.store) (by simp) (by simp [hp]) fun config hr => .inr ?_⟩
      rcases hr with hr | hr
      · exact (ProviderPhase.loaded.inj hr).symm
      · cases hr
    | loaded c =>
      have hch : (hs i).Changes l c := by
        by_contra hch
        rw [committing_eq_some_iff.2 (.inr ⟨hp, hch⟩)] at hno
        cases hno
      simp only [ProviderHandler.prog, if_pos hch]
      split
      · refine ⟨rfl, hgoto i (.sent c) (by simp) (by simp [hp]) fun config hr => .inl ?_⟩
        rcases hr with hr | hr
        · cases hr
        · rw [hp, ProviderPhase.sent.inj hr]
          exact .inl rfl
      · exact ⟨rfl, hsame⟩
    | sent c =>
      rw [committing_eq_some_iff.2 (.inl hp)] at hno
      cases hno
    | committed => exact ⟨rfl, hsame⟩
    | failed => exact ⟨rfl, hsame⟩
  | rollback i =>
    have hfail : s.procs i ≠ .committed → _ := fun hi =>
      hgoto i .failed (by simp) hi fun config hr => by rcases hr with hr | hr <;> cases hr
    simp only [editNext, Tx.Event.next, providerProgs]
    cases hp : s.procs i with
    | called => exact ⟨rfl, hfail (by simp [hp])⟩
    | loaded c =>
      simp only [ProviderHandler.prog]
      split_ifs
      · exact ⟨rfl, hfail (by simp [hp])⟩
      · exact ⟨rfl, hfail (by simp [hp])⟩
    | sent c => exact ⟨rfl, hfail (by simp [hp])⟩
    | committed => exact ⟨rfl, hsame⟩
    | failed => exact ⟨rfl, hsame⟩

/-- **The second commit.**  Both edits are kept just if it does not undo the first one. -/
lemma editsKept_write_iff (hids : (hs false).edit.id ≠ (hs true).edit.id)
    (hstored : stored.providers l = some ((hs i).edit.applyTo (before.providers l)))
    (hread : config.providers l = before.providers l ∨ config.providers l = stored.providers l) :
    EditsKept l hs before ((hs !i).write l config stored) ↔
      stored.providers l = config.providers l ∨ (hs !i).edit.Idle (config.providers l) ∨
        (hs i).edit.Applied ((config.providers l).getD []) := by
  have hne : (hs i).edit.id ≠ (hs !i).edit.id := by
    cases i
    · exact hids
    · exact hids.symm
  have hall : ∀ {P : Bool → Prop}, (∀ j, P j) ↔ P i ∧ P !i := by
    intro P
    cases i <;> simp [Bool.forall_bool, and_comm]
  have hothers : ∀ (j : Bool) (ps : Option (List Provider)),
      ((hs j).edit.applyTo ps).filter (fun p => ∀ i, p.get "id" ≠ (hs i).edit.id) =
        (ps.getD []).filter fun p => ∀ i, p.get "id" ≠ (hs i).edit.id := fun j ps =>
    ProviderEdit.filter_applyTo fun p hp => of_decide_eq_true hp j
  have happ : (hs i).edit.Applied ((hs i).edit.applyTo (before.providers l)) :=
    ProviderEdit.applied_applyTo
  by_cases hfresh : stored.providers l = config.providers l
  · -- the second handler has read what the first one has written
    refine iff_of_true ?_ (.inl hfresh)
    have hafter := providers_write_fresh (h := hs !i) hfresh
    rw [ProviderHandler.list, ← hfresh, hstored] at hafter
    refine ⟨hall.2 ⟨?_, ?_⟩, ?_⟩
    · rw [hafter, Option.getD_some, ProviderEdit.applied_applyTo_iff hne]
      exact happ
    · rw [hafter, Option.getD_some]
      exact ProviderEdit.applied_applyTo
    · rw [hafter, Option.getD_some, hothers, Option.getD_some, hothers]
  · have hbefore := hread.resolve_right fun h => hfresh h.symm
    have hafter : ((hs !i).write l config stored).providers l = _ := providers_write
    rw [Tx.written, ProviderHandler.list, hbefore] at hafter
    rw [hbefore, or_iff_right (hbefore ▸ hfresh)]
    by_cases hidle : (hs !i).edit.Idle (before.providers l)
    · -- nothing is sent
      refine iff_of_true ?_ (.inl hidle)
      rw [if_pos (ProviderEdit.applyTo_eq_iff.2 hidle), hstored] at hafter
      refine ⟨hall.2 ⟨?_, ?_⟩, ?_⟩
      · rw [hafter, Option.getD_some]
        exact happ
      · rw [hafter, Option.getD_some, ProviderEdit.applied_applyTo_iff hne.symm]
        exact hidle.applied
      · rw [hafter, Option.getD_some, hothers]
    · rw [if_neg (mt ProviderEdit.applyTo_eq_iff.1 hidle)] at hafter
      rw [or_iff_right hidle]
      constructor
      · intro hkept
        have hi := hkept.applied i
        rwa [hafter, Option.getD_some, ProviderEdit.applied_applyTo_iff hne] at hi
      · intro hi
        refine ⟨hall.2 ⟨?_, ?_⟩, ?_⟩
        · rwa [hafter, Option.getD_some, ProviderEdit.applied_applyTo_iff hne]
        · rw [hafter, Option.getD_some]
          exact ProviderEdit.applied_applyTo
        · rw [hafter, Option.getD_some, hothers]

lemma commitsFresh_iff (hc : (hs i).committing l (s.procs i) = some config) :
    CommitsFresh l hs (.step i) s ↔
      s.store.providers l = config.providers l ∨ (hs i).edit.Idle (config.providers l) ∨
        (hs !i).edit.Applied ((config.providers l).getD []) := by
  rw [CommitsFresh, hc]
  simp

lemma commitsFresh_of_not_commits
    (hno : ∀ i, e = .step i → (hs i).committing l (s.procs i) = none) :
    CommitsFresh l hs e s := by
  cases e with
  | step i =>
    rw [CommitsFresh, hno i rfl]
    exact fun _ hc => by cases hc
  | rollback i => trivial

/-- A statement is a commit or not. -/
lemma commits_or_not (l : ProviderList) (hs : Bool → ProviderHandler) (e : Tx.Event Bool)
    (s : Tx.State Bool Configuration ProviderPhase) :
    (∃ i config, e = .step i ∧ (hs i).committing l (s.procs i) = some config) ∨
      ∀ i, e = .step i → (hs i).committing l (s.procs i) = none := by
  by_cases h : ∃ i config, e = .step i ∧ (hs i).committing l (s.procs i) = some config
  · exact .inl h
  · refine .inr fun i he => Option.eq_none_iff_forall_ne_some.2 fun config hc => ?_
    exact h ⟨i, config, he, hc⟩

/-! ### Runs -/

/-- Nobody has committed. -/
structure NoneCommitted (before : Configuration)
    (s : Tx.State Bool Configuration ProviderPhase) : Prop where
  store : s.store = before
  procs : ∀ j, s.procs j ≠ .committed
  read : ∀ j config, (s.procs j).Read config → config = before

/-- The handler `i` has committed, and the other one has not. -/
structure OneCommitted (l : ProviderList) (hs : Bool → ProviderHandler) (before : Configuration)
    (i : Bool) (s : Tx.State Bool Configuration ProviderPhase) : Prop where
  store : s.store.providers l = some ((hs i).edit.applyTo (before.providers l))
  committed : s.procs i = .committed
  other : s.procs (!i) ≠ .committed
  read : ∀ config, (s.procs !i).Read config →
    config.providers l = before.providers l ∨ config.providers l = s.store.providers l

/-- When both have committed, nothing happens any more. -/
lemma final_of_committed (l : ProviderList) (hs : Bool → ProviderHandler)
    (hdone : ∀ j, s.procs j = .committed) (events : List (Tx.Event Bool)) :
    Run.final (editNext l hs) events s = s ∧
      Run.Throughout (editNext l hs) (CommitsFresh l hs) events s := by
  induction events with
  | nil => exact ⟨rfl, trivial⟩
  | cons e events ih =>
    have hnext : editNext l hs e s = s := by
      cases e with
      | step j => simp only [editNext, Tx.Event.next, hdone j, providerProgs, ProviderHandler.prog]
      | rollback j =>
        simp only [editNext, Tx.Event.next, hdone j, providerProgs, ProviderHandler.prog]
    refine ⟨by rw [Run.final, hnext, ih.1], commitsFresh_of_not_commits fun j _ => ?_,
      hnext.symm ▸ ih.2⟩
    rw [hdone j]
    rfl

/-- **From the first commit on.** -/
lemma editsKept_iff_of_oneCommitted (hids : (hs false).edit.id ≠ (hs true).edit.id)
    (events : List (Tx.Event Bool)) (hone : OneCommitted l hs before i s)
    (hdone : ∀ j, (Run.final (editNext l hs) events s).procs j = .committed) :
    EditsKept l hs before (Run.final (editNext l hs) events s).store ↔
      Run.Throughout (editNext l hs) (CommitsFresh l hs) events s := by
  induction events generalizing s with
  | nil => exact absurd (hdone !i) hone.other
  | cons e events ih =>
    rw [Run.final] at hdone ⊢
    rw [Run.Throughout]
    rcases commits_or_not l hs e s with ⟨j, config, rfl, hc⟩ | hno
    · obtain rfl : j = !i := by
        by_contra hj
        obtain rfl : j = i := by
          revert hj
          cases i <;> cases j <;> simp
        rw [hone.committed] at hc
        cases hc
      have hnext := next_of_commits hc
      have hboth : ∀ j, (editNext l hs (.step !i) s).procs j = .committed := by
        intro j
        rw [hnext]
        by_cases hj : j = !i
        · subst hj
          exact Tx.procs_goto_self
        · obtain rfl : j = i := by
            revert hj
            cases i <;> cases j <;> simp
          exact (Tx.procs_goto_of_ne hj).trans hone.committed
      obtain ⟨hfinal, hrest⟩ := final_of_committed l hs hboth events
      rw [hfinal, and_iff_left hrest, commitsFresh_iff hc, Bool.not_not, hnext]
      exact editsKept_write_iff hids hone.store (hone.read config (read_of_committing hc))
    · obtain ⟨hstore, hprocs⟩ := next_of_not_commits hno
      rw [and_iff_right (commitsFresh_of_not_commits hno)]
      refine ih ⟨by rw [hstore]; exact hone.store, (hprocs i).1.2 hone.committed,
        fun hc => hone.other ((hprocs !i).1.1 hc), fun config hr => ?_⟩ hdone
      rw [hstore]
      rcases (hprocs !i).2 config hr with hr | rfl
      · exact hone.read config hr
      · exact .inr rfl

/-- **From the beginning on.** -/
lemma editsKept_iff_of_noneCommitted (hids : (hs false).edit.id ≠ (hs true).edit.id)
    (events : List (Tx.Event Bool)) (hnone : NoneCommitted before s)
    (hdone : ∀ j, (Run.final (editNext l hs) events s).procs j = .committed) :
    EditsKept l hs before (Run.final (editNext l hs) events s).store ↔
      Run.Throughout (editNext l hs) (CommitsFresh l hs) events s := by
  induction events generalizing s with
  | nil => exact absurd (hdone false) (hnone.procs false)
  | cons e events ih =>
    rw [Run.final] at hdone ⊢
    rw [Run.Throughout]
    rcases commits_or_not l hs e s with ⟨i, config, rfl, hc⟩ | hno
    · obtain rfl := hnone.read i config (read_of_committing hc)
      have hnext := next_of_commits hc
      have hne : (!i) ≠ i := by simp
      rw [and_iff_right ((commitsFresh_iff hc).2 (.inl (by rw [hnone.store])))]
      refine editsKept_iff_of_oneCommitted (i := i) hids events ⟨?_, ?_, ?_, ?_⟩ hdone
      · rw [hnext]
        exact providers_write_fresh (by rw [hnone.store])
      · rw [hnext]
        exact Tx.procs_goto_self
      · rw [hnext]
        exact fun h => hnone.procs (!i) ((Tx.procs_goto_of_ne hne).symm.trans h)
      · intro config' hr
        rw [hnext] at hr
        refine .inl ?_
        rw [hnone.read (!i) config' ((Tx.procs_goto_of_ne hne) ▸ hr)]
    · obtain ⟨hstore, hprocs⟩ := next_of_not_commits hno
      rw [and_iff_right (commitsFresh_of_not_commits hno)]
      refine ih ⟨hstore.trans hnone.store, fun j hc => hnone.procs j ((hprocs j).1.1 hc),
        fun j config hr => ?_⟩ hdone
      rcases (hprocs j).2 config hr with hr | rfl
      · exact hnone.read j config hr
      · exact hnone.store

/-- **In which runs two edits are both kept**: those in which no handler commits a list that it has
made of an outdated one, unless it has nothing to do or the other edit was in effect already. -/
theorem run_editsKept_iff (l : ProviderList) (hs : Bool → ProviderHandler)
    (hids : (hs false).edit.id ≠ (hs true).edit.id) (config : Configuration)
    (events : List (Tx.Event Bool))
    (hdone : ∀ i, (Run.final (editNext l hs) events ⟨config, fun _ => .called, none⟩).procs i =
      .committed) :
    EditsKept l hs config
        (Run.final (editNext l hs) events ⟨config, fun _ => .called, none⟩).store ↔
      Run.Throughout (editNext l hs) (CommitsFresh l hs) events
        ⟨config, fun _ => .called, none⟩ := by
  refine editsKept_iff_of_noneCommitted hids events ⟨rfl, fun _ => nofun, fun _ _ hr => ?_⟩ hdone
  rcases hr with hr | hr <;> cases hr

end Steps

/-! Two admins add a provider each. -/

def newProvider (id : String) : OidcForm where
  id := id
  label := "Sign in"
  scope := "openid"
  clientId := "wiregui"
  clientSecret := "secret"
  discovery := "https://idp.example.com/.well-known/openid-configuration"
  autoCreate := false

def twoDialogs (second : Bool) : ProviderHandler where
  edit := .save (newProvider (if second then "b" else "a")).provider
  now := if second then 2 else 1

def noProviders : Tx.State Bool Configuration ProviderPhase where
  store := { updatedAt := 0 }
  procs := fun _ => .called
  holder := none

/-- Both read before either of them commits. -/
def editsAtOnce : List (Tx.Event Bool) :=
  [.step false, .step true, .step false, .step false, .step true, .step true]

def editsInTurn : List (Tx.Event Bool) :=
  [.step false, .step false, .step false, .step true, .step true, .step true]

example : saveOidcProvider (newProvider "a") = some (twoDialogs false).edit := by decide

lemma committed_editsAtOnce :
    ∀ i, (Run.final (editNext .oidc twoDialogs) editsAtOnce noProviders).procs i = .committed := by
  decide

lemma committed_editsInTurn :
    ∀ i, (Run.final (editNext .oidc twoDialogs) editsInTurn noProviders).procs i = .committed := by
  decide

/-- **The first provider is gone**, though its handler has committed. -/
theorem run_edit_lost :
    (twoDialogs false).edit.id ≠ (twoDialogs true).edit.id ∧
      (∀ i, (Run.final (editNext .oidc twoDialogs) editsAtOnce noProviders).procs i = .committed) ∧
      ¬ EditsKept .oidc twoDialogs noProviders.store
        (Run.final (editNext .oidc twoDialogs) editsAtOnce noProviders).store := by
  refine ⟨by decide, committed_editsAtOnce, fun hkept => ?_⟩
  have hfinal : (Run.final (editNext .oidc twoDialogs) editsAtOnce noProviders).store.providers .oidc =
      some [(newProvider "b").provider] := by decide
  have hfirst := hkept.applied false
  rw [hfinal] at hfirst
  exact absurd hfirst (by decide)

theorem run_editsKept_iff_inTurn :
    EditsKept .oidc twoDialogs noProviders.store
      (Run.final (editNext .oidc twoDialogs) editsInTurn noProviders).store := by
  exact (run_editsKept_iff .oidc twoDialogs (by decide) noProviders.store editsInTurn
    committed_editsInTurn).2 (by decide)

end WireGui
