import Mathlib.Data.Nat.Notation
import Mathlib.Logic.Function.Basic
import WireGui.Lib.Run

/-!
# Transactions

Processes that run one transaction each over a shared store, under READ COMMITTED and one statement
at a time.  A query sees what is committed.  A row that a transaction has updated is locked up to its
end, and who wants to update it waits.  What a transaction has written shows when it commits.

An `Outline` says what a process knows after each of its statements; `Outline.always` is the rule
for what holds in every run.

The store `σ`, the states `π` of a process and the processes `ι` are arbitrary types.
-/

namespace Tx

/-- What is in a column after a row that was loaded has been written back: only columns that have
changed since it was loaded are sent. -/
def written {α : Type} [DecidableEq α] (loaded new stored : α) : α :=
  if new = loaded then stored else new

/-- Nobody else has written the column. -/
@[simp] lemma written_self {α : Type} [DecidableEq α] (loaded new : α) :
    written loaded new loaded = new := by
  unfold written
  split
  next h => exact h.symm
  next => rfl

/-- What a process does next, and where it goes from there. -/
inductive Stmt (σ π : Type) where
  | query (k : σ → π)
  | lock (k : π)
  | commit (write : σ → σ) (k : π)
  | stop

structure State (ι σ π : Type) where
  store : σ
  procs : ι → π
  holder : Option ι

/-- A process executes its next statement, or its transaction fails. -/
inductive Event (ι : Type) where
  | step (i : ι)
  | rollback (i : ι)

section Next

variable {ι σ π : Type} [DecidableEq ι]

def State.goto (i : ι) (p : π) (s : State ι σ π) : State ι σ π :=
  { s with procs := Function.update s.procs i p }

/-- The transaction of the process ends. -/
def State.release (i : ι) (s : State ι σ π) : State ι σ π :=
  { s with holder := if s.holder = some i then none else s.holder }

variable (prog : ι → π → Stmt σ π) (failed : π)

/-- One statement.  A process that has to wait tries again when it is its turn next. -/
def Event.next : Event ι → State ι σ π → State ι σ π
  | .step i, s =>
    match prog i (s.procs i) with
    | .query k => s.goto i (k s.store)
    | .lock k => if s.holder = none ∨ s.holder = some i then { s.goto i k with holder := some i } else s
    | .commit write k => { (s.goto i k).release i with store := write s.store }
    | .stop => s
  | .rollback i, s =>
    match prog i (s.procs i) with
    | .stop => s
    | _ => (s.goto i failed).release i

/-- **What every process knows**: `A i b c p` in state `p` over the store `c`, where `b` says whether
it has the lock.  `G` holds of every store. -/
structure Outline (G : σ → Prop) (A : ι → Bool → σ → π → Prop) : Prop where
  query : ∀ {i b c p k}, G c → A i b c p → prog i p = .query k → A i b c (k c)
  lock : ∀ {i b c p k}, G c → A i b c p → prog i p = .lock k → A i true c k
  commit : ∀ {i b c p write k}, G c → A i b c p → prog i p = .commit write k →
    G (write c) ∧ A i false (write c) k
  /-- No commit takes from another process what it knows. -/
  free : ∀ {i j b b' c p write k q}, ¬ (b = true ∧ b' = true) → G c → A i b c p →
    prog i p = .commit write k → A j b' c q → A j b' (write c) q
  rollback : ∀ {i b c p}, A i b c p → A i false c failed

/-- The store is good, and every process is right in what it knows. -/
structure State.Sound (G : σ → Prop) (A : ι → Bool → σ → π → Prop) (s : State ι σ π) : Prop where
  store : G s.store
  procs : ∀ i, A i (decide (s.holder = some i)) s.store (s.procs i)

variable {prog failed} {G : σ → Prop} {A : ι → Bool → σ → π → Prop} {s : State ι σ π} {i j : ι}

lemma procs_goto_self {p : π} : (s.goto i p).procs i = p := Function.update_self ..

lemma procs_goto_of_ne {p : π} (h : j ≠ i) : (s.goto i p).procs j = s.procs j :=
  Function.update_of_ne h ..

lemma next_query {k : σ → π} (h : prog i (s.procs i) = .query k) :
    (Event.step i).next prog failed s = s.goto i (k s.store) := by
  simp only [Event.next, h]

lemma next_lock {k : π} (h : prog i (s.procs i) = .lock k) (hfree : s.holder = none) :
    (Event.step i).next prog failed s = { s.goto i k with holder := some i } := by
  simp only [Event.next, h, hfree, true_or, if_true]

lemma next_commit {write : σ → σ} {k : π} (h : prog i (s.procs i) = .commit write k) :
    (Event.step i).next prog failed s =
      { (s.goto i k).release i with store := write s.store } := by
  simp only [Event.next, h]

/-- A process that has come to its end stays there. -/
lemma final_stop (h : prog i (s.procs i) = .stop) (n : ℕ) :
    Run.final (Event.next prog failed) (List.replicate n (.step i)) s = s := by
  induction n with
  | zero => rfl
  | succ n ih =>
    have hnext : (Event.step i).next prog failed s = s := by
      simp only [Event.next, h]
    rw [List.replicate_succ, Run.final, hnext, ih]

/-- A process whose last statement is a commit. -/
lemma final_commit {write : σ → σ} {k : π} (h : prog i (s.procs i) = .commit write k)
    (hk : prog i k = .stop) (n : ℕ) :
    (Run.final (Event.next prog failed) (List.replicate (n + 1) (.step i)) s).store =
        write s.store ∧
      (Run.final (Event.next prog failed) (List.replicate (n + 1) (.step i)) s).procs i = k := by
  rw [List.replicate_succ, Run.final, next_commit h]
  have hat : ({ (s.goto i k).release i with store := write s.store } : State ι σ π).procs i = k :=
    procs_goto_self
  rw [final_stop (by rw [hat, hk])]
  exact ⟨rfl, hat⟩

lemma holder_release_self : ((s.release i).holder = some i) = False := by
  unfold State.release
  split <;> simp_all

lemma holder_release_of_ne (h : j ≠ i) :
    ((s.release i).holder = some j) = (s.holder = some j) := by
  unfold State.release
  split
  next hi => simp [hi, h.symm]
  next => rfl

/-- **A process ends its transaction**, when the store has become `c`. -/
lemma State.Sound.release {p : π} {c : σ} (hg : G c) (hi : A i false c p)
    (hfree : ∀ j, j ≠ i → A j (decide (s.holder = some j)) c (s.procs j)) :
    State.Sound G A { (s.goto i p).release i with store := c } where
  store := hg
  procs j := by
    by_cases hj : j = i
    · subst hj
      simp only [holder_release_self, decide_false]
      exact (procs_goto_self (s := s)).symm ▸ hi
    · simp only [holder_release_of_ne hj]
      exact (procs_goto_of_ne (s := s) (p := p) hj).symm ▸ hfree j hj

/-- **One statement** keeps what everybody knows. -/
theorem Outline.next (ho : Outline prog failed G A) (e : Event ι) (hs : s.Sound G A) :
    (e.next prog failed s).Sound G A := by
  cases e with
  | step i =>
    have hi := hs.procs i
    simp only [Event.next]
    split
    next k hk =>
      refine ⟨hs.store, fun j => ?_⟩
      by_cases hj : j = i
      · subst hj
        rw [procs_goto_self]
        exact ho.query hs.store hi hk
      · rw [procs_goto_of_ne hj]
        exact hs.procs j
    next k hk =>
      split
      next hfree =>
        refine ⟨hs.store, fun j => ?_⟩
        by_cases hj : j = i
        · subst hj
          rw [procs_goto_self, decide_eq_true rfl]
          exact ho.lock hs.store hi hk
        · -- nobody else had the lock before
          have hold := hs.procs j
          have hbefore : s.holder ≠ some j := by
            rcases hfree with h | h <;> rw [h]
            · exact nofun
            · exact fun he => hj (Option.some.inj he).symm
          have hafter : some i ≠ some j := fun he => hj (Option.some.inj he).symm
          rw [decide_eq_false hbefore] at hold
          rw [procs_goto_of_ne hj, decide_eq_false hafter]
          exact hold
      next => exact hs
    next write k hk =>
      obtain ⟨hg, hp⟩ := ho.commit hs.store hi hk
      refine State.Sound.release hg hp fun j hj => ?_
      refine ho.free ?_ hs.store hi hk (hs.procs j)
      rintro ⟨hb, hb'⟩
      exact hj (Option.some.inj ((of_decide_eq_true hb').symm.trans (of_decide_eq_true hb)))
    next => exact hs
  | rollback i =>
    simp only [Event.next]
    split
    · exact hs
    · exact State.Sound.release hs.store (ho.rollback (hs.procs i)) fun j _ => hs.procs j

/-- **What holds in every run** of any number of processes: what everybody knows. -/
theorem Outline.always (ho : Outline prog failed G A) (hs : s.Sound G A) (events : List (Event ι)) :
    Run.Always (Event.next prog failed) (State.Sound G A) events s :=
  Run.always_of_step (A := fun _ _ => True) (fun e _ hs _ => ho.next e hs) hs
    (Run.throughout_of_forall fun _ _ => trivial)

end Next

/-! ### Processes that make no difference -/

/-- Two statements that do the same, as far as `R` looks at the store and `P` at the process. -/
def Stmt.Related {σ π : Type} (R : σ → σ → Prop) (P : π → π → Prop) : Stmt σ π → Stmt σ π → Prop
  | .query k, .query k' => ∀ c c', R c c' → P (k c) (k' c')
  | .commit write k, .commit write' k' => (∀ c c', R c c' → R (write c) (write' c')) ∧ P k k'
  | .stop, .stop => True
  | _, _ => False

/-- A statement whose effect `R` does not see; `D` is what the process knows. -/
def Stmt.Harmless {σ π : Type} (R : σ → σ → Prop) (D : π → Prop) : Stmt σ π → Prop
  | .query k => ∀ c c', R c c' → D (k c)
  | .commit write k => (∀ c c', R c c' → R (write c) c') ∧ D k
  | .stop => True
  | .lock _ => False

def Event.proc {ι : Type} : Event ι → ι
  | .step i | .rollback i => i

section Erase

variable {ι σ π : Type} [DecidableEq ι] {prog : ι → π → Stmt σ π} {failed : π} {keep : ι → Bool}
  {R : σ → σ → Prop} {P : ι → π → π → Prop} {D : ι → π → Prop}

/-- A state, and one in which the processes that are not kept have done nothing. -/
structure State.Erases (keep : ι → Bool) (R : σ → σ → Prop) (P : ι → π → π → Prop)
    (D : ι → π → Prop) (s s' : State ι σ π) : Prop where
  store : R s.store s'.store
  kept : ∀ i, keep i = true → P i (s.procs i) (s'.procs i)
  left : ∀ i, keep i = false → D i (s.procs i)
  free : s.holder = none ∧ s'.holder = none

variable {s s' : State ι σ π} {i : ι} {p p' : π} {c c' : σ}

lemma State.release_of_free (h : s.holder = none) : s.release i = s := by
  unfold State.release
  rw [h, ite_self, ← h]

lemma State.Erases.goto_kept (h : s.Erases keep R P D s') (hi : keep i = true) (hp : P i p p')
    (hc : R c c') : State.Erases keep R P D { s.goto i p with store := c }
      { s'.goto i p' with store := c' } where
  store := hc
  kept j hj := by
    by_cases hji : j = i
    · subst hji
      exact (procs_goto_self (s := s)).symm ▸ (procs_goto_self (s := s')).symm ▸ hp
    · exact (procs_goto_of_ne (s := s) (p := p) hji).symm ▸
        (procs_goto_of_ne (s := s') (p := p') hji).symm ▸ h.kept j hj
  left j hj := by
    have hji : j ≠ i := fun hji => by simp [hji, hi] at hj
    exact (procs_goto_of_ne (s := s) (p := p) hji).symm ▸ h.left j hj
  free := h.free

lemma State.Erases.goto_left (h : s.Erases keep R P D s') (hi : keep i = false) (hp : D i p)
    (hc : R c s'.store) : State.Erases keep R P D { s.goto i p with store := c } s' where
  store := hc
  kept j hj := by
    have hji : j ≠ i := fun hji => by simp [hji, hi] at hj
    exact (procs_goto_of_ne (s := s) (p := p) hji).symm ▸ h.kept j hj
  left j hj := by
    by_cases hji : j = i
    · subst hji
      exact (procs_goto_self (s := s)).symm ▸ hp
    · exact (procs_goto_of_ne (s := s) (p := p) hji).symm ▸ h.left j hj
  free := h.free

/-- One statement of a process that is kept. -/
lemma State.Erases.next_kept (hfailed : ∀ i, P i failed failed)
    (hkept : ∀ i p p', keep i = true → P i p p' → (prog i p).Related R (P i) (prog i p'))
    (h : s.Erases keep R P D s') (e : Event ι) (he : keep e.proc = true) :
    (e.next prog failed s).Erases keep R P D (e.next prog failed s') := by
  cases e with
  | step i =>
    have hrel := hkept i _ _ he (h.kept i he)
    unfold Event.next
    dsimp only
    cases hp : prog i (s.procs i) <;> cases hp' : prog i (s'.procs i) <;> rw [hp, hp'] at hrel <;>
      try exact hrel.elim
    case query.query k k' => exact h.goto_kept he (hrel _ _ h.store) h.store
    case commit.commit write k write' k' =>
      dsimp only
      rw [State.release_of_free (s := s.goto i k) h.free.1,
        State.release_of_free (s := s'.goto i k') h.free.2]
      exact h.goto_kept he hrel.2 (hrel.1 _ _ h.store)
    case stop.stop => exact h
  | rollback i =>
    have hrel := hkept i _ _ he (h.kept i he)
    have hroll : State.Erases keep R P D ((s.goto i failed).release i)
        ((s'.goto i failed).release i) := by
      rw [State.release_of_free (s := s.goto i failed) h.free.1,
        State.release_of_free (s := s'.goto i failed) h.free.2]
      exact h.goto_kept he (hfailed i) h.store
    unfold Event.next
    dsimp only
    cases hp : prog i (s.procs i) <;> cases hp' : prog i (s'.procs i) <;> rw [hp, hp'] at hrel <;>
      try exact hrel.elim
    case query.query => exact hroll
    case commit.commit => exact hroll
    case stop.stop => exact h

/-- One statement of a process that is left out. -/
lemma State.Erases.next_left (hfailed : ∀ i, D i failed)
    (hleft : ∀ i p, keep i = false → D i p → (prog i p).Harmless R (D i))
    (h : s.Erases keep R P D s') (e : Event ι) (he : keep e.proc = false) :
    (e.next prog failed s).Erases keep R P D s' := by
  cases e with
  | step i =>
    have hrel := hleft i _ he (h.left i he)
    unfold Event.next
    dsimp only
    cases hp : prog i (s.procs i) <;> rw [hp] at hrel
    case query k => exact h.goto_left he (hrel _ _ h.store) h.store
    case lock k => exact hrel.elim
    case commit write k =>
      dsimp only
      rw [State.release_of_free (s := s.goto i k) h.free.1]
      exact h.goto_left he hrel.2 (hrel.1 _ _ h.store)
    case stop => exact h
  | rollback i =>
    have hrel := hleft i _ he (h.left i he)
    have hroll : State.Erases keep R P D ((s.goto i failed).release i) s' := by
      rw [State.release_of_free (s := s.goto i failed) h.free.1]
      exact h.goto_left he (hfailed i) h.store
    unfold Event.next
    dsimp only
    cases hp : prog i (s.procs i) <;> rw [hp] at hrel
    case query => exact hroll
    case lock => exact hrel.elim
    case commit => exact hroll
    case stop => exact h

/-- **Processes that make no difference**: what `R` sees of the store in the end is there as well
without them. -/
theorem erases_final (hfailed : ∀ i, P i failed failed ∧ D i failed)
    (hkept : ∀ i p p', keep i = true → P i p p' → (prog i p).Related R (P i) (prog i p'))
    (hleft : ∀ i p, keep i = false → D i p → (prog i p).Harmless R (D i))
    (h : s.Erases keep R P D s') (events : List (Event ι)) :
    (Run.final (Event.next prog failed) events s).Erases keep R P D
      (Run.final (Event.next prog failed) (events.filter fun e => keep e.proc) s') :=
  Run.final_filter (R := State.Erases keep R P D) (p := fun e => keep e.proc)
    (fun e _ _ he hs => hs.next_kept (fun i => (hfailed i).1) hkept e he)
    (fun e _ _ he hs => hs.next_left (fun i => (hfailed i).2) hleft e he) h

end Erase

end Tx
