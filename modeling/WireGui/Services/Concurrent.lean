import WireGui.Lib.Run
import WireGui.Api.Rules
import WireGui.Services.InSync

/-!
# Rebuilds of one user's chain that run at the same time

Each change of a user's rules starts a rebuild in a task of its own.  A rebuild reads the rules,
then the devices, lists the chains and applies its batch, and other tasks may come in between any
two of these steps.  A schedule says which task takes the next step.

`rebuilds_converge_iff` says for which schedules the chain ends up as the rules in the database and
no batch is refused.
-/

namespace WireGui

open Nft (IsName)

/-- How far a task has come: its change is to be committed, is committed, its rebuild has read the
rules, the devices too, has listed the chains, has applied its batch. -/
inductive Phase where
  | pending
  | committed
  | rules (rules : List RuleEntry)
  | entry (entry : Entry)
  | listed (entry : Entry) (orphaned : Finset String)
  | finished (accepted : Bool)

/-- The database, the table and the tasks, one for each `i : ι`. -/
structure Tasks (ι : Type) extends State where
  phase : ι → Phase

section Schedule

variable {ι : Type} [DecidableEq ι] (nft : FrontEnd) (order : ι → SetOrders)
  (change : ι → List Rule → List Rule) (u : Uuid)

/-- The batch of the rebuild, with the orphaned chains as they were listed. -/
def applyBatch (i : ι) (e : Entry) (orphaned : Finset String) (t : Table) : Except String Table :=
  nftBatch nft (rebuildCommands [e] (order i orphaned).toList) t

/-- **The next step of the task `i`**: of its commit and of `_rebuild_user_chain` after it. -/
def Tasks.next (i : ι) (s : Tasks ι) : Tasks ι :=
  match s.phase i with
  | .pending =>
    { s with
      db := { s.db with rules := change i s.db.rules }
      phase := Function.update s.phase i .committed }
  | .committed =>
    { s with phase := Function.update s.phase i (.rules ((s.db.userRules u).map Rule.entry)) }
  | .rules rules =>
    { s with
      phase := Function.update s.phase i
        (.entry ⟨u.str, (s.db.userDevices u).map Device.entry, rules⟩) }
  | .entry e =>
    { s with phase := Function.update s.phase i (.listed e (orphanedChains s.fw [e])) }
  | .listed e orphaned =>
    let result := applyBatch nft order i e orphaned s.fw
    { s with
      fw := orKeep s.fw result
      phase := Function.update s.phase i (.finished result.isOk) }
  | .finished _ => s

/-- The chains that the task `i` is about to remove are still there. -/
def Intact (i : ι) (s : Tasks ι) : Prop :=
  ∀ e orphaned, s.phase i = .listed e orphaned → ∀ c ∈ orphaned, c ∈ s.fw.chains

/-- The entry of the last batch that is applied under the schedule. -/
def lastApplied : List ι → Tasks ι → Option Entry
  | [], _ => none
  | i :: sched, s =>
    (lastApplied sched (s.next nft order change u i)).or <|
      match s.phase i with
      | .listed e _ => some e
      | _ => none

end Schedule

/-! ### What a task holds -/

/-- The rows a task has read are well formed, and the chains it has listed are user chains other
than its own. -/
def Phase.Ok (u : Uuid) : Phase → Prop
  | .rules rs => ∀ r ∈ rs, ∃ rule, r.meaning = some rule
  | .entry e => e.userId = u.str ∧ e.WellFormed
  | .listed e orphaned => e.userId = u.str ∧ e.WellFormed ∧
      ∀ c ∈ orphaned, IsUserChain c ∧ IsName c ∧ e.chain ≠ c
  | _ => True

section Apply

variable {nft : FrontEnd} {t : Table} {e : Entry} {orphaned : List String}

/-- **A batch whose orphans are there** is accepted and leaves its rules in its chain. -/
lemma nftBatch_of_intact (ht : BaseSetup t) (he : e.WellFormed)
    (ho : ∀ c ∈ orphaned, IsUserChain c ∧ IsName c ∧ e.chain ≠ c) (hd : orphaned.Nodup)
    (hin : ∀ c ∈ orphaned, c ∈ t.chains) :
    ∃ t' rules, nftBatch nft (rebuildCommands [e] orphaned) t = .ok t' ∧ BaseSetup t' ∧
      nft.rules e.chain e.ruleLines = some rules ∧
      t'.chains.lookup e.chain = some ⟨none, rules⟩ := by
  obtain ⟨ps, hps, hplans⟩ := plans_of_wellFormed nft (List.forall_mem_singleton.2 he)
  have hread := batch_rebuildCommands nft hps (List.forall_mem_singleton.2 he.name)
    fun c hc => (ho c hc).2.1
  obtain ⟨p, hp, rfl⟩ : ∃ p, e.plan nft = some p ∧ ps = [p] := by
    obtain ⟨p, ps', hp, hps', rfl⟩ := List.forall₂_cons_left_iff.1 (List.mapM_eq_some_iff.1 hps)
    exact ⟨p, hp, by rw [List.forall₂_nil_left_iff.1 hps']⟩
  obtain ⟨hchain, hrules, -⟩ := (plan_eq_some_iff nft).1 hp
  have hrem : Nft.Removable IsUserChain t.chains [p] orphaned :=
    { nodup := hd
      managed := fun c hc => (ho c hc).1
      mem := hin
      unplanned := fun c hc q hq => by
        rw [List.mem_singleton.1 hq, hchain]
        exact (ho c hc).2.2 }
  obtain ⟨t', ht'⟩ := Nft.exists_load_rebuild ht.toManaged hplans hrem
  have hrun := Nft.load_eq_some_iff.1 ht'
  have hlook := Nft.lookup_rebuild ht.toManaged hplans hrun
  have hforward : "forward" ∉ orphaned := fun hf => absurd (ho _ hf).1 (by decide)
  refine ⟨t', p.rules, nftBatch_eq_ok_iff.2 ⟨_, hread, ht'⟩, ?_, hrules, ?_⟩
  · have hname : ∀ q ∈ [p], IsName q.chain := List.forall_mem_singleton.2 (hchain ▸ he.name)
    exact ht.rebuild hplans hname hforward hrun
  · have hnot : e.chain ∉ orphaned := fun ho' => (ho _ ho').2.2 rfl
    have hcf := e.isUserChain_chain.ne_forward
    have hplanned : Nft.plannedRules e.chain [p] = some p.rules := by
      rw [← hchain]
      exact Nft.plannedRules_of_mem (by simp) List.mem_cons_self
    rw [hlook, if_neg hnot, if_neg hcf, hplanned]

/-- **A batch with an orphan that is gone** is refused. -/
lemma nftBatch_of_gone (he : e.WellFormed)
    (ho : ∀ c ∈ orphaned, IsUserChain c ∧ IsName c ∧ e.chain ≠ c) {c : String} (hc : c ∈ orphaned)
    (hgone : c ∉ t.chains) : ∃ err, nftBatch nft (rebuildCommands [e] orphaned) t = .error err := by
  obtain ⟨ps, hps, -⟩ := plans_of_wellFormed nft (List.forall_mem_singleton.2 he)
  have hread := batch_rebuildCommands nft hps (List.forall_mem_singleton.2 he.name)
    fun c hc => (ho c hc).2.1
  cases hb : nftBatch nft (rebuildCommands [e] orphaned) t with
  | error err => exact ⟨err, rfl⟩
  | ok t' =>
    obtain ⟨cmds, hread', hl⟩ := nftBatch_eq_ok_iff.1 hb
    obtain rfl := Option.some.inj (hread.symm.trans hread')
    refine absurd (Nft.mem_of_run_flush (Nft.load_eq_some_iff.1 hl) (c := c) ?_ fun b hb => ?_)
      hgone
    · refine List.mem_append_right _ (List.mem_flatMap.2 ⟨c, hc, List.mem_cons_self⟩)
    · -- the only chain that is made is the entry's own
      simp only [Nft.rebuild, Nft.removal, List.mem_append, List.mem_flatMap, List.mem_map,
        List.mem_cons, List.not_mem_nil, or_false, reduceCtorEq, and_false, exists_false] at hb
      obtain ⟨p, hp, hbp⟩ := hb
      obtain ⟨f, hf, hfp⟩ := List.exists_of_mem_mapM hps hp
      obtain rfl := List.mem_singleton.1 hf
      have hpc : p.chain = c := (Option.some.inj (Nft.chain_of_mem_cmds hbp)).symm
      exact (ho c hc).2.2 ((plan_chain hfp).symm.trans hpc)

end Apply

/-! ### Steps -/

/-- The base setup is there, and so is what the tasks need of what they hold. -/
structure Tasks.Ok {ι : Type} (u : Uuid) (s : Tasks ι) : Prop where
  base : BaseSetup s.fw
  phases : ∀ i, (s.phase i).Ok u

section Steps

variable {ι : Type} {nft : FrontEnd} {order : ι → SetOrders}
  {change : ι → List Rule → List Rule} {u : Uuid} {i : ι} {s : Tasks ι} {e : Entry}
  {orphaned : Finset String}

lemma chain_of_userId (h : e.userId = u.str) : e.chain = chainOf u := by
  rw [Entry.chain, h, chainOf]

/-- A batch whose orphans are there leaves the rules of its entry in the user's chain. -/
lemma applyBatch_of_intact (nft : FrontEnd) (order : ι → SetOrders) (hs : s.Ok u)
    (hi : s.phase i = .listed e orphaned)
    (hin : ∀ c ∈ orphaned, c ∈ s.fw.chains) :
    ∃ t' rules, applyBatch nft order i e orphaned s.fw = .ok t' ∧ BaseSetup t' ∧
      nft.rules (chainOf u) e.ruleLines = some rules ∧
      t'.chains.lookup (chainOf u) = some ⟨none, rules⟩ := by
  have hp := hs.phases i
  rw [hi] at hp
  obtain ⟨hid, he, ho⟩ := hp
  rw [← chain_of_userId hid]
  exact nftBatch_of_intact hs.base he (fun c hc => ho c (((order i orphaned).mem_iff c).1 hc))
    (order i orphaned).nodup fun c hc => hin c (((order i orphaned).mem_iff c).1 hc)

/-- A batch with an orphan that is gone is refused. -/
lemma applyBatch_of_gone (nft : FrontEnd) (order : ι → SetOrders) (hs : s.Ok u)
    (hi : s.phase i = .listed e orphaned) {c : String} (hc : c ∈ orphaned)
    (hgone : c ∉ s.fw.chains) : ∃ err, applyBatch nft order i e orphaned s.fw = .error err := by
  have hp := hs.phases i
  rw [hi] at hp
  obtain ⟨-, he, ho⟩ := hp
  exact nftBatch_of_gone he (fun c hc => ho c (((order i orphaned).mem_iff c).1 hc))
    (((order i orphaned).mem_iff c).2 hc) hgone

lemma intact_of_ne (h : ∀ e orphaned, s.phase i ≠ .listed e orphaned) : Intact i s :=
  fun e orphaned hi => absurd hi (h e orphaned)

variable [DecidableEq ι]

/-- Only a task that applies its batch touches the table. -/
lemma next_fw (h : ∀ e orphaned, s.phase i ≠ .listed e orphaned) :
    (s.next nft order change u i).fw = s.fw := by
  unfold Tasks.next
  split
  case h_5 e orphaned hi => exact absurd hi (h e orphaned)
  all_goals rfl

lemma next_listed (hi : s.phase i = .listed e orphaned) :
    s.next nft order change u i =
      { s with
        fw := orKeep s.fw (applyBatch nft order i e orphaned s.fw)
        phase := Function.update s.phase i
          (.finished (applyBatch nft order i e orphaned s.fw).isOk) } := by
  unfold Tasks.next
  rw [hi]

lemma next_phase_of_ne {j : ι} (hij : j ≠ i) :
    (s.next nft order change u i).phase j = s.phase j := by
  unfold Tasks.next
  split
  case h_6 => rfl
  all_goals exact Function.update_of_ne hij _ _

/-- A task that has finished stays so. -/
lemma next_finished {j : ι} {b : Bool} (h : s.phase j = .finished b) :
    (s.next nft order change u i).phase j = .finished b := by
  by_cases hij : j = i
  · subst hij
    unfold Tasks.next
    rw [h]
    exact h
  · rw [next_phase_of_ne hij, h]

/-- A task finishes by applying its batch. -/
lemma finished_of_next {j : ι} {b : Bool}
    (h : (s.next nft order change u i).phase j = .finished b) :
    s.phase j = .finished b ∨ ∃ e orphaned, s.phase i = .listed e orphaned ∧
      b = (applyBatch nft order i e orphaned s.fw).isOk := by
  by_cases hij : j = i
  · subst hij
    unfold Tasks.next at h
    split at h
    case h_5 e orphaned hi =>
      dsimp only at h
      rw [Function.update_self] at h
      exact .inr ⟨e, orphaned, hi, (Phase.finished.inj h).symm⟩
    case h_6 => exact .inl h
    all_goals
      dsimp only at h
      rw [Function.update_self] at h
      cases h
  · exact .inl (next_phase_of_ne hij ▸ h)

/-- The steps of a task that no other task comes in between are `rebuildUserChain`. -/
theorem fw_of_undisturbed (hi : s.phase i = .committed) :
    (Run.final (Tasks.next nft order change u) [i, i, i, i] s).fw =
      rebuildUserChain nft (order i) s.db u s.fw := by
  simp only [Run.final, Tasks.next, hi, Function.update_self]
  rfl

/-- If no other task comes in, the chains that were listed are there. -/
lemma intact_of_undisturbed (hi : s.phase i = .pending) :
    Run.Throughout (Tasks.next nft order change u) Intact [i, i, i, i, i] s := by
  refine ⟨intact_of_ne (by simp [hi]), ?_⟩
  have h₁ : (s.next nft order change u i).phase i = .committed := by simp [Tasks.next, hi]
  generalize s.next nft order change u i = s₁ at h₁ ⊢
  refine ⟨intact_of_ne (by simp [h₁]), ?_⟩
  obtain ⟨rules, h₂⟩ : ∃ rules, (s₁.next nft order change u i).phase i = .rules rules := by
    simp [Tasks.next, h₁]
  generalize s₁.next nft order change u i = s₂ at h₂ ⊢
  refine ⟨intact_of_ne (by simp [h₂]), ?_⟩
  obtain ⟨e, h₃⟩ : ∃ e, (s₂.next nft order change u i).phase i = .entry e := by
    simp [Tasks.next, h₂]
  generalize s₂.next nft order change u i = s₃ at h₃ ⊢
  refine ⟨intact_of_ne (by simp [h₃]), ?_, trivial⟩
  -- the last step finds the table as the one before it
  intro e' orphaned h₄ c hc
  simp only [Tasks.next, h₃, Function.update_self] at h₄ ⊢
  cases h₄
  exact (mem_orphanedChains.1 hc).1.1

/-- **Each step keeps the setup**, while the rows of the user are well formed. -/
lemma Tasks.ok_next (hs : s.Ok u) (hrows : (s.db.userEntry u).WellFormed) :
    (s.next nft order change u i).Ok u := by
  have hupd : ∀ p : Phase, p.Ok u → ∀ j, (Function.update s.phase i p j).Ok u := fun p hp =>
    (Function.forall_update_iff s.phase (p := fun _ q => Phase.Ok u q)).2
      ⟨hp, fun j _ => hs.phases j⟩
  unfold Tasks.next
  split
  case h_1 => exact ⟨hs.base, hupd _ trivial⟩
  case h_2 => exact ⟨hs.base, hupd _ hrows.rules⟩
  case h_3 rs hi =>
    have hrs := hs.phases i
    rw [hi] at hrs
    exact ⟨hs.base, hupd _ ⟨rfl, hrows.name, hrows.devices, hrs⟩⟩
  case h_4 e hi =>
    have he := hs.phases i
    rw [hi] at he
    refine ⟨hs.base, hupd _ ⟨he.1, he.2, fun c hc => ?_⟩⟩
    obtain ⟨⟨hct, hcu⟩, hne⟩ := mem_orphanedChains.1 hc
    exact ⟨hcu, hs.base.names c hct hcu, hne e List.mem_cons_self⟩
  case h_5 e orphaned hi =>
    refine ⟨?_, hupd _ trivial⟩
    by_cases hin : ∀ c ∈ orphaned, c ∈ s.fw.chains
    · obtain ⟨t', -, hok, ht', -⟩ := applyBatch_of_intact nft order hs hi hin
      simp only [hok]
      exact ht'
    · push Not at hin
      obtain ⟨c, hc, hgone⟩ := hin
      obtain ⟨err, herr⟩ := applyBatch_of_gone nft order hs hi hc hgone
      simp only [herr]
      exact hs.base
  case h_6 => exact hs

end Steps

/-! ### Runs -/

section Runs

variable {ι : Type} [DecidableEq ι] {nft : FrontEnd} {order : ι → SetOrders}
  {change : ι → List Rule → List Rule} {u : Uuid} {sched : List ι} {s : Tasks ι}

/-- While every orphan is still there when it is removed, no batch is refused, and the chain is as
the last batch left it. -/
lemma run_of_intact (hs : s.Ok u)
    (hrows : Run.Always (Tasks.next nft order change u) (fun s => (s.db.userEntry u).WellFormed)
      sched s)
    (hin : Run.Throughout (Tasks.next nft order change u) Intact sched s) :
    (∀ i, (Run.final (Tasks.next nft order change u) sched s).phase i = .finished false →
      s.phase i = .finished false) ∧
    (lastApplied nft order change u sched s = none →
      (Run.final (Tasks.next nft order change u) sched s).fw = s.fw) ∧
    ∀ e, lastApplied nft order change u sched s = some e →
      ∃ rules, nft.rules (chainOf u) e.ruleLines = some rules ∧
        (Run.final (Tasks.next nft order change u) sched s).fw.chains.lookup (chainOf u) =
          some ⟨none, rules⟩ := by
  induction sched generalizing s with
  | nil => exact ⟨fun i h => h, fun _ => rfl, fun e h => by cases h⟩
  | cons i sched ih =>
    obtain ⟨hfalse, hnone, hsome⟩ :=
      ih (Tasks.ok_next hs hrows.1) hrows.2 hin.2
    refine ⟨fun j hj => ?_, fun h => ?_, fun e h => ?_⟩
    · rcases finished_of_next (hfalse j hj) with h | ⟨e, orphaned, hi, hb⟩
      · exact h
      · obtain ⟨t', -, hok, -⟩ := applyBatch_of_intact nft order hs hi
          (hin.1 e orphaned hi)
        rw [hok] at hb
        cases hb
    · rw [lastApplied, Option.or_eq_none_iff] at h
      refine (hnone h.1).trans (next_fw fun e orphaned hi => ?_)
      rw [hi] at h
      cases h.2
    · rw [lastApplied, Option.or_eq_some_iff] at h
      rcases h with h | ⟨hlater, h⟩
      · exact hsome e h
      · split at h
        case h_1 e' orphaned hi =>
          cases h
          obtain ⟨t', rules, hok, -, hr, hl⟩ :=
            applyBatch_of_intact nft order hs hi (hin.1 e orphaned hi)
          have hfw : (s.next nft order change u i).fw = t' := by
            rw [next_listed hi, hok]
            rfl
          have hfin : (Run.final (Tasks.next nft order change u) (i :: sched) s).fw = t' :=
            (hnone hlater).trans hfw
          rw [hfin]
          exact ⟨rules, hr, hl⟩
        case h_2 => cases h

/-- A task whose orphan is gone is refused, and that remains. -/
lemma refused_of_not_intact (hs : s.Ok u)
    (hrows : Run.Always (Tasks.next nft order change u) (fun s => (s.db.userEntry u).WellFormed)
      sched s)
    (hin : ¬ Run.Throughout (Tasks.next nft order change u) Intact sched s) :
    ∃ i, (Run.final (Tasks.next nft order change u) sched s).phase i = .finished false := by
  induction sched generalizing s with
  | nil => exact absurd trivial hin
  | cons i sched ih =>
    by_cases hi : Intact i s
    · exact ih (Tasks.ok_next hs hrows.1) hrows.2 fun h => hin ⟨hi, h⟩
    · unfold Intact at hi
      push Not at hi
      obtain ⟨e, orphaned, hlisted, c, hc, hgone⟩ := hi
      obtain ⟨err, herr⟩ := applyBatch_of_gone nft order hs hlisted hc hgone
      have hstable : ∀ j (s : Tasks ι), s.phase i = .finished false →
          (s.next nft order change u j).phase i = .finished false := fun _ _ h => next_finished h
      have hrefused : (s.next nft order change u i).phase i = .finished false := by
        rw [next_listed hlisted, herr]
        exact Function.update_self i (Phase.finished false) s.phase
      have hfin : (Run.final (Tasks.next nft order change u) sched
          (s.next nft order change u i)).phase i = .finished false :=
        Run.final_of_stable hstable hrefused
      exact ⟨i, hfin⟩

/-- If no batch is applied, no task finishes. -/
lemma not_finished_of_lastApplied (h : lastApplied nft order change u sched s = none)
    (hs : ∀ i b, s.phase i ≠ .finished b) (i : ι) (b : Bool) :
    (Run.final (Tasks.next nft order change u) sched s).phase i ≠ .finished b := by
  induction sched generalizing s with
  | nil => exact hs i b
  | cons j sched ih =>
    rw [lastApplied, Option.or_eq_none_iff] at h
    refine ih h.1 fun k b' hk => ?_
    rcases finished_of_next hk with hk | ⟨e, orphaned, hj, -⟩
    · exact hs k b' hk
    · rw [hj] at h
      cases h.2

/-- **When concurrent rebuilds converge**: if and only if every orphaned chain is still there when a
batch removes it, and the rows that the last batch was made of are read as the rows at the end. -/
theorem rebuilds_converge_iff [Nonempty ι] (hbase : BaseSetup s.fw)
    (hstart : ∀ i, s.phase i = .pending)
    (hrows : Run.Always (Tasks.next nft order change u) (fun s => (s.db.userEntry u).WellFormed)
      sched s)
    (hend : ∀ i, ∃ accepted,
      (Run.final (Tasks.next nft order change u) sched s).phase i = .finished accepted) :
    let fin := Run.final (Tasks.next nft order change u) sched s
    (ChainHolds nft fin.db u fin.fw ∧ ∀ i, fin.phase i = .finished true) ↔
      Run.Throughout (Tasks.next nft order change u) Intact sched s ∧
        ∃ e, lastApplied nft order change u sched s = some e ∧
          nft.rules (chainOf u) e.ruleLines =
            nft.rules (chainOf u) (fin.db.userEntry u).ruleLines := by
  intro fin
  have hok : s.Ok u := ⟨hbase, fun i => by rw [hstart i]; trivial⟩
  -- some batch is the last one
  obtain ⟨e, he⟩ : ∃ e, lastApplied nft order change u sched s = some e := by
    refine Option.ne_none_iff_exists'.1 fun hnone => ?_
    obtain ⟨accepted, h⟩ := hend (Classical.arbitrary ι)
    refine not_finished_of_lastApplied hnone (fun i b hi => ?_) _ _ h
    rw [hstart i] at hi
    cases hi
  constructor
  · rintro ⟨⟨rules, hr, hl⟩, htrue⟩
    have hin : Run.Throughout (Tasks.next nft order change u) Intact sched s := by
      by_contra hin
      obtain ⟨i, hi⟩ := refused_of_not_intact hok hrows hin
      cases (htrue i).symm.trans hi
    obtain ⟨-, -, hlast⟩ := run_of_intact hok hrows hin
    obtain ⟨rules', hr', hl'⟩ := hlast e he
    refine ⟨hin, e, he, ?_⟩
    have hsame := (Nft.Chain.mk.inj (Option.some.inj (hl.symm.trans hl'))).2
    rw [hr, hr', hsame]
  · rintro ⟨hin, e', he', heq⟩
    obtain rfl := Option.some.inj (he.symm.trans he')
    obtain ⟨hfalse, -, hlast⟩ := run_of_intact hok hrows hin
    obtain ⟨rules, hr, hl⟩ := hlast e he
    refine ⟨⟨rules, heq.symm.trans hr, hl⟩, fun i => ?_⟩
    obtain ⟨accepted, hi⟩ := hend i
    cases accepted with
    | true => exact hi
    | false =>
      have hi' := hfalse i hi
      rw [hstart i] at hi'
      cases hi'

end Runs

/-! Two rules are made for one user, and the rebuilds of the two overlap. -/

def mailRule : Rule where
  id := ⟨0x31, by decide⟩
  action := "accept"
  destination := "10.20.0.25/32"
  portType := none
  portRange := none
  priority := 100
  userId := some alice
  insertedAt := 1
  updatedAt := 1

def denyRule : Rule :=
  { mailRule with id := ⟨0x32, by decide⟩, action := "drop", destination := "10.20.0.0/16" }

/-- The rules that the two tasks add. -/
def newRule : Bool → Rule
  | false => mailRule
  | true => denyRule

def addNewRule (i : Bool) (rules : List Rule) : List Rule := rules ++ [newRule i]

def laptopOnly (rules : List Rule) : Database where
  users := []
  devices := [laptop]
  rules := rules
  mfaMethods := []
  configuration := none

def twoTasks : Tasks Bool := ⟨⟨laptopOnly [], laptopTable⟩, fun _ => .pending⟩

/-- The first task has read its rules and listed the chains when the second one comes in. -/
def overlapping : List Bool :=
  [false, false, false, false, true, true, true, true, true, false]

def oneByOne : List Bool :=
  [false, false, false, false, false] ++ [true, true, true, true, true]

def nextOfTwo : Bool → Tasks Bool → Tasks Bool := fun i s =>
  s.next (.fragment tableName) (fun _ => ascending) addNewRule alice i

lemma laptopOnly_wellFormed (rules : List Rule)
    (h : ∀ r ∈ ((laptopOnly rules).userEntry alice).rules, r.meaning.isSome) :
    ((laptopOnly rules).userEntry alice).WellFormed where
  name := isName_chainOf alice
  devices := by
    have hd : ∀ d ∈ ((laptopOnly []).userEntry alice).devices, d.nets.isSome := by decide
    exact fun d hd' => Option.isSome_iff_exists.1 (hd d hd')
  rules := fun r hr => Option.isSome_iff_exists.1 (h r hr)

lemma alwaysWellFormed_overlapping :
    Run.Always nextOfTwo (fun s => (s.db.userEntry alice).WellFormed) overlapping twoTasks := by
  have h₀ := laptopOnly_wellFormed [] (by decide)
  have h₁ := laptopOnly_wellFormed [mailRule] (by decide)
  have h₂ := laptopOnly_wellFormed [mailRule, denyRule] (by decide)
  exact ⟨h₀, h₁, h₁, h₁, h₁, h₂, h₂, h₂, h₂, h₂, h₂⟩

lemma alwaysWellFormed_oneByOne :
    Run.Always nextOfTwo (fun s => (s.db.userEntry alice).WellFormed) oneByOne twoTasks := by
  have h₀ := laptopOnly_wellFormed [] (by decide)
  have h₁ := laptopOnly_wellFormed [mailRule] (by decide)
  have h₂ := laptopOnly_wellFormed [mailRule, denyRule] (by decide)
  exact ⟨h₀, h₁, h₁, h₁, h₁, h₁, h₂, h₂, h₂, h₂, h₂⟩

/-- What the first task has read when the second one comes in. -/
lemma lastApplied_overlapping :
    lastApplied (.fragment tableName) (fun _ => ascending) addNewRule alice overlapping twoTasks =
      some ((laptopOnly [mailRule]).userEntry alice) := rfl

lemma intact_overlapping : Run.Throughout nextOfTwo Intact overlapping twoTasks := by
  have hnone : orphanedChains laptopTable [(laptopOnly [mailRule]).userEntry alice] = ∅ := by
    decide
  refine ⟨nofun, nofun, nofun, nofun, nofun, nofun, nofun, nofun, ?_, ?_, trivial⟩
  · rintro e orphaned h c hc
    cases h
    exact (mem_orphanedChains.1 hc).1.1
  · rintro e orphaned h c hc
    cases h
    have hc' : c ∈ orphanedChains laptopTable [(laptopOnly [mailRule]).userEntry alice] := hc
    rw [hnone] at hc'
    exact absurd hc' (Finset.notMem_empty c)

/-- **The chain stays behind**: the batch that is applied last knows only one of the two rules. -/
theorem rebuilds_stale :
    let fin := Run.final nextOfTwo overlapping twoTasks
    (∀ i, ∃ accepted, fin.phase i = .finished accepted) ∧
      ¬ ChainHolds (.fragment tableName) fin.db alice fin.fw := by
  intro fin
  refine ⟨fun i => ?_, ?_⟩
  · cases i with
    | false => exact ⟨_, rfl⟩
    | true => exact ⟨_, rfl⟩
  · rintro ⟨rules, hr, hl⟩
    have hok : twoTasks.Ok alice := ⟨laptopTable_baseSetup, fun _ => trivial⟩
    obtain ⟨-, -, hlast⟩ := run_of_intact hok alwaysWellFormed_overlapping intact_overlapping
    obtain ⟨rules', hr', hl'⟩ := hlast _ lastApplied_overlapping
    have hsame := (Nft.Chain.mk.inj (Option.some.inj (hl.symm.trans hl'))).2
    have hlen := (List.mapM_eq_some_iff.1 hr).length_eq
    have hlen' := (List.mapM_eq_some_iff.1 hr').length_eq
    have htwo : (fin.db.userEntry alice).ruleLines.length = 2 := by decide
    have hone : ((laptopOnly [mailRule]).userEntry alice).ruleLines.length = 1 := by decide
    rw [hsame] at hlen
    omega

theorem rebuilds_converge_iff_oneByOne :
    let fin := Run.final nextOfTwo oneByOne twoTasks
    ChainHolds (.fragment tableName) fin.db alice fin.fw ∧ ∀ i, fin.phase i = .finished true := by
  have hend : ∀ i, ∃ accepted,
      (Run.final nextOfTwo oneByOne twoTasks).phase i = .finished accepted := by
    rintro (_ | _)
    · exact ⟨_, rfl⟩
    · exact ⟨_, rfl⟩
  have hin : Run.Throughout nextOfTwo Intact oneByOne twoTasks :=
    Run.throughout_append.2 ⟨intact_of_undisturbed rfl, intact_of_undisturbed rfl⟩
  have hdb : (Run.final nextOfTwo oneByOne twoTasks).db = laptopOnly [mailRule, denyRule] := rfl
  have hlast : lastApplied (.fragment tableName) (fun _ => ascending) addNewRule alice oneByOne
      twoTasks = some ((laptopOnly [mailRule, denyRule]).userEntry alice) := rfl
  exact (rebuilds_converge_iff (u := alice) laptopTable_baseSetup (fun _ => rfl)
    alwaysWellFormed_oneByOne hend).2 ⟨hin, _, hlast, congrArg _ (by rw [← hdb]; rfl)⟩

end WireGui
