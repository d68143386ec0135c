import WireGui.Nft.Table

/-!
# Rewriting a family of chains

A table holds a base chain, the hub, that jumps to a family of managed chains.  `rebuild` is the
batch that writes some of the managed chains and the whole hub anew and removes other managed
chains:

* the planned chains, each made if it is not there, emptied and filled;
* the hub, emptied and filled with the jumps;
* the chains to remove, emptied and deleted, which can only be done after the hub is empty.

`effectOn_rebuild_*` say what it leaves, `exists_load_rebuild` that nft accepts it.
-/

namespace Nft

variable {κ μ : Type}

/-- A chain, the rules it shall hold and the rules of the hub that lead to it. -/
structure Plan (κ μ : Type) where
  chain : κ
  rules : List (Rule κ μ)
  jumps : List (Rule κ μ)

def Plan.cmds (p : Plan κ μ) : List (Cmd κ μ) :=
  [.addChain p.chain none, .flushChain p.chain] ++ p.rules.map (.addRule p.chain)

/-- The jumps of all plans. -/
def allJumps (ps : List (Plan κ μ)) : List (Rule κ μ) := ps.flatMap Plan.jumps

/-- Empties and deletes chains. -/
def removal (cs : List κ) : List (Cmd κ μ) := cs.flatMap fun c => [.flushChain c, .deleteChain c]

def rebuild (hub : κ) (ps : List (Plan κ μ)) (orphaned : List κ) : List (Cmd κ μ) :=
  ps.flatMap Plan.cmds ++ [.flushChain hub] ++ (allJumps ps).map (.addRule hub) ++ removal orphaned

lemma chain_of_mem_cmds {p : Plan κ μ} {cmd : Cmd κ μ} (h : cmd ∈ p.cmds) :
    cmd.chain = some p.chain := by
  simp only [Plan.cmds, List.mem_append, List.mem_cons, List.not_mem_nil, or_false,
    List.mem_map] at h
  rcases h with (rfl | rfl) | ⟨r, -, rfl⟩ <;> rfl

variable [DecidableEq κ]

/-- The rules planned for the chain `c`; the last plan counts. -/
def plannedRules (c : κ) (ps : List (Plan κ μ)) : Option (List (Rule κ μ)) :=
  (ps.filter fun p => p.chain = c).getLast?.map Plan.rules

/-! ### What is left -/

lemma effectOn_plan (p : Plan κ μ) (s : Option (Chain κ μ)) :
    effectOn p.chain p.cmds s = some ⟨s.bind Chain.base, p.rules⟩ := by
  rw [Plan.cmds, effectOn_append, effectOn_cons, effectOn_cons, effectOn_nil, effectOn_addRules]
  cases s <;> simp [Cmd.chain, Cmd.effect]

lemma effectOn_plan_of_ne {p : Plan κ μ} {c : κ} (h : p.chain ≠ c) (s : Option (Chain κ μ)) :
    effectOn c p.cmds s = s := by
  refine effectOn_of_forall_ne (fun cmd hcmd => ?_) s
  rw [chain_of_mem_cmds hcmd]
  simpa using h

lemma plannedRules_cons (p : Plan κ μ) (ps : List (Plan κ μ)) (c : κ) :
    plannedRules c (p :: ps) =
      (plannedRules c ps).or (if p.chain = c then some p.rules else none) := by
  rw [plannedRules, List.getLast?_filter_cons, Option.map_or, ← plannedRules]
  split
  · rfl
  · rfl

/-- The planned chains after the first part of the batch. -/
lemma effectOn_plans (c : κ) (ps : List (Plan κ μ)) (s : Option (Chain κ μ)) :
    effectOn c (ps.flatMap Plan.cmds) s =
      match plannedRules c ps with
      | none => s
      | some rs => some ⟨s.bind Chain.base, rs⟩ := by
  induction ps generalizing s with
  | nil => rfl
  | cons p ps ih =>
    rw [List.flatMap_cons, effectOn_append, ih, plannedRules_cons]
    by_cases h : p.chain = c
    · subst h
      rw [effectOn_plan, if_pos rfl]
      cases plannedRules p.chain ps <;> rfl
    · rw [effectOn_plan_of_ne h, if_neg h, Option.or_none]

lemma plannedRules_eq_none {c : κ} {ps : List (Plan κ μ)} :
    plannedRules c ps = none ↔ ∀ p ∈ ps, p.chain ≠ c := by
  rw [plannedRules, Option.map_eq_none_iff, List.getLast?_filter_eq_none_iff]

/-- With one plan for each chain, that plan counts. -/
lemma plannedRules_of_mem {ps : List (Plan κ μ)} (hd : (ps.map Plan.chain).Nodup) {p : Plan κ μ}
    (hp : p ∈ ps) : plannedRules p.chain ps = some p.rules := by
  induction ps with
  | nil => exact absurd hp List.not_mem_nil
  | cons q ps ih =>
    rw [List.map_cons, List.nodup_cons] at hd
    rw [plannedRules_cons]
    rcases List.mem_cons.1 hp with rfl | hp
    · have hno : plannedRules p.chain ps = none := by
        refine plannedRules_eq_none.2 fun q hq he => hd.1 ?_
        rw [← he]
        exact List.mem_map_of_mem hq
      rw [hno, if_pos rfl]
      rfl
    · rw [ih hd.2 hp]
      rfl

lemma effectOn_hubJumps (hub c : κ) (ps : List (Plan κ μ)) (s : Option (Chain κ μ)) :
    effectOn c ([.flushChain hub] ++ (allJumps ps).map (.addRule hub)) s =
      if c = hub then s.map fun ch => { ch with rules := allJumps ps } else s := by
  by_cases h : c = hub
  · subst h
    rw [if_pos rfl, effectOn_append, effectOn_addRules, effectOn_cons, effectOn_nil]
    cases s <;> simp [Cmd.chain, Cmd.effect]
  · rw [if_neg h]
    refine effectOn_of_forall_ne (fun cmd hcmd => ?_) s
    simp only [List.mem_append, List.mem_cons, List.not_mem_nil, or_false, List.mem_map] at hcmd
    rcases hcmd with rfl | ⟨r, -, rfl⟩ <;> simpa [Cmd.chain] using fun e => h e.symm

lemma effectOn_removal (c : κ) (cs : List κ) (s : Option (Chain κ μ)) :
    effectOn c (removal cs : List (Cmd κ μ)) s = if c ∈ cs then none else s := by
  induction cs generalizing s with
  | nil => rfl
  | cons d cs ih =>
    rw [removal, List.flatMap_cons, effectOn_append, effectOn_cons, effectOn_cons, effectOn_nil]
    refine (ih _).trans ?_
    by_cases h : d = c
    · subst h
      simp [Cmd.chain, Cmd.effect]
    · simp [Cmd.chain, h, Ne.symm h]

/-- **What a rebuild leaves of each chain.** -/
theorem effectOn_rebuild (hub c : κ) (ps : List (Plan κ μ)) (orphaned : List κ)
    (s : Option (Chain κ μ)) :
    effectOn c (rebuild hub ps orphaned) s =
      if c ∈ orphaned then none
      else
        let u := match plannedRules c ps with
          | none => s
          | some rs => some ⟨s.bind Chain.base, rs⟩
        if c = hub then u.map fun ch => { ch with rules := allJumps ps } else u := by
  rw [rebuild, effectOn_append, effectOn_removal, List.append_assoc, effectOn_append,
    effectOn_plans, effectOn_hubJumps]

/-! ### That it is accepted -/

lemma mem_iff_lookup {t : Chains κ μ} {c : κ} : c ∈ t ↔ ∃ ch, t.lookup c = some ch := by
  rw [← Finmap.lookup_isSome, Option.isSome_iff_exists]

lemma run_addRules {t : Chains κ μ} {c : κ} (hc : c ∈ t) {rs : List (Rule κ μ)}
    (hr : ∀ r ∈ rs, ∀ d ∈ r.verdict.target, t.Plain d) :
    ∃ u, run (rs.map (Cmd.addRule c)) t = some u := by
  induction rs generalizing t with
  | nil => exact ⟨t, rfl⟩
  | cons r rs ih =>
    have hl : (Cmd.addRule c r).Legal t := ⟨hc, hr r List.mem_cons_self⟩
    rw [List.map_cons, run_cons_of_legal hl]
    apply ih
    · obtain ⟨ch, hch⟩ := mem_iff_lookup.1 hc
      rw [mem_iff_lookup, lookup_apply, if_pos (by rfl), hch]
      exact ⟨_, rfl⟩
    · intro r' hr' d hd
      exact plain_apply hl (hr r' (List.mem_cons_of_mem _ hr') d hd) (.inr (by simp))

/-- A chain can always be written anew, if its rules lead nowhere. -/
lemma run_plan (t : Chains κ μ) {p : Plan κ μ} (hp : ∀ r ∈ p.rules, r.verdict.target = none) :
    ∃ u, run p.cmds t = some u := by
  have hadd : (Cmd.addChain p.chain none : Cmd κ μ).Legal t := by
    rintro ch - s hs
    cases hs
  have hmem : p.chain ∈ (Cmd.addChain p.chain none : Cmd κ μ).apply t := by
    rw [mem_iff_lookup, lookup_apply, if_pos (by rfl)]
    cases t.lookup p.chain with
    | none => exact ⟨_, rfl⟩
    | some ch => exact ⟨_, rfl⟩
  rw [Plan.cmds, List.cons_append, run_cons_of_legal hadd, List.singleton_append]
  generalize (Cmd.addChain p.chain none : Cmd κ μ).apply t = t₁ at hmem ⊢
  have hflush : (Cmd.flushChain p.chain : Cmd κ μ).Legal t₁ := hmem
  rw [run_cons_of_legal hflush]
  apply run_addRules
  · obtain ⟨ch, hch⟩ := mem_iff_lookup.1 hmem
    rw [mem_iff_lookup, lookup_apply, if_pos (by rfl), hch]
    exact ⟨_, rfl⟩
  · intro r hr d hd
    rw [hp r hr] at hd
    cases hd

lemma run_plans (t : Chains κ μ) {ps : List (Plan κ μ)}
    (hp : ∀ p ∈ ps, ∀ r ∈ p.rules, r.verdict.target = none) :
    ∃ u, run (ps.flatMap Plan.cmds) t = some u := by
  induction ps generalizing t with
  | nil => exact ⟨t, rfl⟩
  | cons p ps ih =>
    obtain ⟨u, hu⟩ := run_plan t (hp p List.mem_cons_self)
    rw [List.flatMap_cons, run_append, hu]
    exact ih u fun q hq => hp q (List.mem_cons_of_mem _ hq)

/-- Chains that nothing leads to can be removed. -/
lemma run_removal {t : Chains κ μ} {cs : List κ} (hd : cs.Nodup)
    (h : ∀ c ∈ cs, c ∈ t ∧ ¬ t.Refs c) : ∃ u, run (removal cs) t = some u := by
  induction cs generalizing t with
  | nil => exact ⟨t, rfl⟩
  | cons c cs ih =>
    rw [List.nodup_cons] at hd
    obtain ⟨hc, hrefs⟩ := h c List.mem_cons_self
    obtain ⟨ch, hch⟩ := mem_iff_lookup.1 hc
    have hf : (Cmd.flushChain c : Cmd κ μ).Legal t := hc
    have hlook := fun d => lookup_apply (Cmd.flushChain c : Cmd κ μ) t d
    have hrefs₁ : ∀ d, ((Cmd.flushChain c : Cmd κ μ).apply t).Refs d → t.Refs d := by
      intro d hr
      rcases refs_apply hr with hr | ⟨e, r, he, -⟩
      · exact hr
      · cases he
    have hone : ∃ u₁, run [.flushChain c, .deleteChain c] t = some u₁ ∧
        (∀ d, d ≠ c → u₁.lookup d = t.lookup d) ∧ ∀ d, u₁.Refs d → t.Refs d := by
      rw [run_cons_of_legal hf]
      generalize (Cmd.flushChain c : Cmd κ μ).apply t = t₁ at hlook hrefs₁ ⊢
      have hc₁ : t₁.lookup c = some { ch with rules := [] } := by
        rw [hlook, if_pos (by rfl), hch]
        rfl
      have hdel : (Cmd.deleteChain c : Cmd κ μ).Legal t₁ :=
        ⟨mem_iff_lookup.2 ⟨_, hc₁⟩, rules_of_lookup hc₁, fun hr => hrefs (hrefs₁ c hr)⟩
      refine ⟨_, run_cons_of_legal hdel [], fun d hdc => ?_, fun d hr => ?_⟩
      · rw [lookup_apply, if_neg (by simpa [Cmd.chain] using Ne.symm hdc), hlook,
          if_neg (by simpa [Cmd.chain] using Ne.symm hdc)]
      · rcases refs_apply hr with hr | ⟨e, r, he, -⟩
        · exact hrefs₁ d hr
        · cases he
    obtain ⟨u₁, hu₁, hkeep, hrefs₂⟩ := hone
    have hsplit : removal (c :: cs) = [.flushChain c, .deleteChain c] ++ removal (μ := μ) cs := rfl
    rw [hsplit, run_append, hu₁]
    refine ih hd.2 fun d hdm => ?_
    have hne : d ≠ c := fun e => hd.1 (e ▸ hdm)
    obtain ⟨hdt, hdr⟩ := h d (List.mem_cons_of_mem _ hdm)
    refine ⟨?_, fun hr => hdr (hrefs₂ d hr)⟩
    rw [mem_iff_lookup, hkeep d hne]
    exact mem_iff_lookup.1 hdt

/-- A table whose managed chains hang on no hook and are reached from the hub only. -/
structure Managed (hub : κ) (managed : κ → Prop) (t : Chains κ μ) : Prop where
  hub_base : ∃ ch ∈ t.lookup hub, ch.base ≠ none
  plain : ∀ c, managed c → ∀ ch ∈ t.lookup c, ch.base = none
  only_hub : ∀ d, ∀ r ∈ t.rules d, ∀ c ∈ r.verdict.target, managed c → d = hub

/-- Only the chains that are there have to be looked at. -/
lemma Managed.of_keys {hub : κ} {managed : κ → Prop} {t : Chains κ μ}
    (hb : ∃ ch ∈ t.lookup hub, ch.base ≠ none)
    (hp : ∀ c ∈ t.keys, managed c → ∀ ch ∈ t.lookup c, ch.base = none)
    (ho : ∀ d ∈ t.keys, ∀ r ∈ t.rules d, ∀ c ∈ r.verdict.target, managed c → d = hub) :
    Managed hub managed t where
  hub_base := hb
  plain := fun c hc ch hch => hp c (Finmap.mem_keys.2 (mem_iff_lookup.2 ⟨ch, hch⟩)) hc ch hch
  only_hub := fun d r hr c hc hm => ho d (Finmap.mem_keys.2 (mem_of_mem_rules hr)) r hr c hc hm

/-- Plans for managed chains, whose rules lead nowhere and whose jumps lead to them. -/
structure Plans (managed : κ → Prop) (ps : List (Plan κ μ)) : Prop where
  managed : ∀ p ∈ ps, managed p.chain
  leaf : ∀ p ∈ ps, ∀ r ∈ p.rules, r.verdict.target = none
  jump : ∀ p ∈ ps, ∀ r ∈ p.jumps, r.verdict.target = some p.chain

section Accept

variable {hub : κ} {managed : κ → Prop} {ps : List (Plan κ μ)} {orphaned : List κ}

lemma Managed.hub_not_managed {t : Chains κ μ} (ht : Managed hub managed t) : ¬ managed hub := by
  intro hm
  obtain ⟨ch, hch, hb⟩ := ht.hub_base
  exact hb (ht.plain hub hm ch hch)

lemma Plans.chain_ne_hub {t : Chains κ μ} (hps : Plans managed ps) (ht : Managed hub managed t) :
    ∀ p ∈ ps, p.chain ≠ hub := by
  intro p hp e
  exact ht.hub_not_managed (e ▸ hps.managed p hp)

/-- A rule planned for a chain is a rule of one of its plans. -/
lemma exists_of_plannedRules {c : κ} {rs : List (Rule κ μ)} (h : plannedRules c ps = some rs) :
    ∃ p ∈ ps, p.chain = c ∧ p.rules = rs := by
  unfold plannedRules at h
  obtain ⟨p, hp, rfl⟩ := Option.map_eq_some_iff.1 h
  obtain ⟨hmem, hchain⟩ := List.mem_of_getLast?_filter hp
  exact ⟨p, hmem, hchain, rfl⟩

/-- The hub is there when it is emptied, or the rebuild would be refused. -/
lemma mem_hub_of_run {t u : Chains κ μ} (hp : plannedRules hub ps = none)
    (h : run (rebuild hub ps orphaned) t = some u) : hub ∈ t := by
  rw [rebuild, List.append_assoc, List.append_assoc, run_append] at h
  obtain ⟨v, hv, h⟩ := Option.bind_eq_some_iff.1 h
  rw [List.singleton_append, run_cons] at h
  obtain ⟨w, hw, -⟩ := Option.bind_eq_some_iff.1 h
  have hmem : hub ∈ v := (exec_eq_some_iff.1 hw).1
  rw [mem_iff_lookup, run_lookup hv, effectOn_plans, hp] at hmem
  exact mem_iff_lookup.2 hmem

/-- The chains of the table after the rebuild of a managed table. -/
theorem lookup_rebuild {t : Chains κ μ} (ht : Managed hub managed t) (hps : Plans managed ps)
    {u : Chains κ μ} (h : run (rebuild hub ps orphaned) t = some u) (c : κ) :
    u.lookup c =
      if c ∈ orphaned then none
      else if c = hub then (t.lookup hub).map fun ch => { ch with rules := allJumps ps }
      else match plannedRules c ps with
        | none => t.lookup c
        | some rs => some ⟨none, rs⟩ := by
  have hhub : plannedRules hub ps = none := plannedRules_eq_none.2 (hps.chain_ne_hub ht)
  rw [run_lookup h, effectOn_rebuild]
  by_cases h1 : c ∈ orphaned
  · rw [if_pos h1, if_pos h1]
  rw [if_neg h1, if_neg h1]
  by_cases h2 : c = hub
  · subst h2
    simp only [hhub, if_true]
  · simp only [if_neg h2]
    cases hp : plannedRules c ps with
    | none => rfl
    | some rs =>
      obtain ⟨p, hpm, rfl, -⟩ := exists_of_plannedRules hp
      have hb : (t.lookup p.chain).bind Chain.base = none := by
        cases hl : t.lookup p.chain with
        | none => rfl
        | some ch => exact ht.plain p.chain (hps.managed p hpm) ch hl
      simp only [hb]

/-- What a rule of the table after the rebuild is. -/
lemma mem_rules_rebuild {t : Chains κ μ} (ht : Managed hub managed t) (hps : Plans managed ps)
    {u : Chains κ μ} (h : run (rebuild hub ps orphaned) t = some u) {d : κ} {r : Rule κ μ}
    (hr : r ∈ u.rules d) :
    (d = hub ∧ r ∈ allJumps ps) ∨ (∃ p ∈ ps, p.chain = d ∧ r ∈ p.rules) ∨
      ((∀ p ∈ ps, p.chain ≠ d) ∧ d ≠ hub ∧ r ∈ t.rules d) := by
  have hl := lookup_rebuild ht hps h d
  rw [Chains.rules, hl] at hr
  by_cases h1 : d ∈ orphaned
  · rw [if_pos h1] at hr
    exact absurd hr List.not_mem_nil
  rw [if_neg h1] at hr
  by_cases h2 : d = hub
  · rw [if_pos h2] at hr
    obtain ⟨ch, hch, -⟩ := ht.hub_base
    rw [Option.mem_def.1 hch] at hr
    exact .inl ⟨h2, hr⟩
  rw [if_neg h2] at hr
  cases hp : plannedRules d ps with
  | none =>
    rw [hp] at hr
    exact .inr (.inr ⟨plannedRules_eq_none.1 hp, h2, hr⟩)
  | some rs =>
    rw [hp] at hr
    obtain ⟨p, hpm, hc, rfl⟩ := exists_of_plannedRules hp
    exact .inr (.inl ⟨p, hpm, hc, hr⟩)

/-- **A rebuild keeps the table managed.** -/
theorem Managed.rebuild {t : Chains κ μ} (ht : Managed hub managed t) (hps : Plans managed ps)
    {u : Chains κ μ} (h : run (rebuild hub ps orphaned) t = some u) (ho : hub ∉ orphaned) :
    Managed hub managed u where
  hub_base := by
    obtain ⟨ch, hch, hb⟩ := ht.hub_base
    rw [lookup_rebuild ht hps h, if_neg ho, if_pos rfl, Option.mem_def.1 hch]
    exact ⟨_, rfl, hb⟩
  plain := by
    intro c hc ch hch
    rw [Option.mem_def, lookup_rebuild ht hps h] at hch
    split at hch
    · cases hch
    split at hch
    next he => exact absurd (he ▸ hc) ht.hub_not_managed
    split at hch
    · exact ht.plain c hc ch hch
    · cases hch
      rfl
  only_hub := by
    intro d r hr c hc hm
    rcases mem_rules_rebuild ht hps h hr with ⟨hd, -⟩ | ⟨p, hp, -, hr⟩ | ⟨-, -, hr⟩
    · exact hd
    · rw [hps.leaf p hp r hr] at hc
      cases hc
    · exact ht.only_hub d r hr c hc hm

/-- The chains that a rebuild may remove: managed, there, each once and without a plan. -/
structure Removable (managed : κ → Prop) (t : Chains κ μ) (ps : List (Plan κ μ))
    (orphaned : List κ) : Prop where
  nodup : orphaned.Nodup
  managed : ∀ c ∈ orphaned, managed c
  mem : ∀ c ∈ orphaned, c ∈ t
  unplanned : ∀ c ∈ orphaned, ∀ p ∈ ps, p.chain ≠ c

theorem exists_run_rebuild {t : Chains κ μ} (ht : Managed hub managed t) (hps : Plans managed ps)
    (ho : Removable managed t ps orphaned) : ∃ u, run (rebuild hub ps orphaned) t = some u := by
  have hne := hps.chain_ne_hub ht
  have hhub : plannedRules hub ps = none := plannedRules_eq_none.2 hne
  obtain ⟨hch, hch_mem, hch_base⟩ := ht.hub_base
  -- the planned chains
  obtain ⟨u₁, hu₁⟩ := run_plans t hps.leaf
  have look₁ : ∀ c, u₁.lookup c = match plannedRules c ps with
      | none => t.lookup c
      | some rs => some ⟨(t.lookup c).bind Chain.base, rs⟩ := fun c => by
    rw [run_lookup hu₁, effectOn_plans]
  have hub₁ : u₁.lookup hub = some hch := by rw [look₁, hhub]; exact hch_mem
  -- the hub
  have hflush : (Cmd.flushChain hub : Cmd κ μ).Legal u₁ := mem_iff_lookup.2 ⟨_, hub₁⟩
  have plain₁ : ∀ r ∈ allJumps ps, ∀ d ∈ r.verdict.target,
      ((Cmd.flushChain hub : Cmd κ μ).apply u₁).Plain d := by
    intro r hr d hd
    obtain ⟨p, hp, hrp⟩ := List.mem_flatMap.1 hr
    obtain rfl : p.chain = d := Option.some.inj ((hps.jump p hp r hrp).symm.trans hd)
    refine plain_apply hflush ?_ (.inr (by simp))
    cases hpl : plannedRules p.chain ps with
    | none => exact absurd rfl (plannedRules_eq_none.1 hpl p hp)
    | some rs =>
      have hl := look₁ p.chain
      rw [hpl] at hl
      refine ⟨_, hl, ?_⟩
      cases htl : t.lookup p.chain with
      | none => rfl
      | some ch => exact ht.plain p.chain (hps.managed p hp) ch htl
  obtain ⟨u₂, hu₂⟩ : ∃ u₂, run ([.flushChain hub] ++ (allJumps ps).map (.addRule hub)) u₁ =
      some u₂ := by
    rw [List.singleton_append, run_cons_of_legal hflush]
    apply run_addRules _ plain₁
    rw [mem_iff_lookup, lookup_apply, if_pos (by rfl), hub₁]
    exact ⟨_, rfl⟩
  have hu₁₂ : run (ps.flatMap Plan.cmds ++ ([.flushChain hub] ++ (allJumps ps).map (.addRule hub)))
      t = some u₂ := by
    rw [run_append, hu₁]
    exact hu₂
  have hu₂' : run (Nft.rebuild hub ps []) t = some u₂ := by
    rw [Nft.rebuild, List.append_assoc (ps.flatMap Plan.cmds), run_append, hu₁₂]
    rfl
  -- the removal
  obtain ⟨u, hu⟩ : ∃ u, run (removal orphaned) u₂ = some u := by
    refine run_removal ho.nodup fun c hc => ?_
    have hcp : plannedRules c ps = none := plannedRules_eq_none.2 (ho.unplanned c hc)
    have hch : c ≠ hub := fun e => ht.hub_not_managed (e ▸ ho.managed c hc)
    constructor
    · rw [mem_iff_lookup, lookup_rebuild ht hps hu₂', if_neg List.not_mem_nil, if_neg hch, hcp]
      exact mem_iff_lookup.1 (ho.mem c hc)
    · intro hr
      obtain ⟨d, r, hr, hd⟩ := refs_iff.1 hr
      rcases mem_rules_rebuild ht hps hu₂' hr with ⟨-, hr⟩ | ⟨p, hp, -, hr⟩ | ⟨-, hdh, hr⟩
      · obtain ⟨p, hp, hrp⟩ := List.mem_flatMap.1 hr
        exact ho.unplanned c hc p hp (Option.some.inj ((hps.jump p hp r hrp).symm.trans hd))
      · rw [hps.leaf p hp r hr] at hd
        cases hd
      · exact hdh (ht.only_hub d r hr c hd (ho.managed c hc))
  refine ⟨u, ?_⟩
  rw [Nft.rebuild, List.append_assoc (ps.flatMap Plan.cmds), run_append, hu₁₂]
  exact hu

/-- The depth of jumps only depends on the chains that can be reached. -/
lemma shallow_congr {t u : Chains κ μ} {S : κ → Prop} (hS : ∀ c, S c → u.rules c = t.rules c)
    (hcl : ∀ c, S c → ∀ r ∈ t.rules c, ∀ d ∈ r.verdict.target, S d) (n : ℕ) {c : κ} (hc : S c) :
    u.shallow n c = t.shallow n c := by
  induction n generalizing c with
  | zero => rfl
  | succ n ih =>
    rw [Chains.shallow, Chains.shallow, hS c hc]
    rw [Bool.eq_iff_iff, List.all_eq_true, List.all_eq_true]
    refine forall₂_congr fun r hr => ?_
    cases hd : r.verdict.target with
    | none => rfl
    | some d =>
      rw [Option.map_some, Option.map_some, ih (hcl c hc r hr d hd)]

/-- A chain whose rules lead nowhere is as shallow as can be. -/
lemma shallow_of_leaf {t : Chains κ μ} {c : κ} (h : ∀ r ∈ t.rules c, r.verdict.target = none)
    (n : ℕ) : t.shallow (n + 1) c = true := by
  rw [Chains.shallow, List.all_eq_true]
  intro r hr
  rw [h r hr]
  rfl

theorem fits_rebuild {t : Table κ μ} (ht : Managed hub managed t.chains) (hps : Plans managed ps)
    {u : Chains κ μ} (h : run (rebuild hub ps orphaned) t.chains = some u)
    (ho : ∀ c ∈ orphaned, managed c) : u.Fits := by
  have hgr : ∀ d, t.chains.Refs d → d ≠ hub := by
    intro d hd e
    obtain ⟨ch, hch, hb⟩ := t.grounded d hd
    obtain ⟨ch', hch', hb'⟩ := ht.hub_base
    rw [e] at hch
    exact hb' (Option.some.inj (hch'.symm.trans hch) ▸ hb)
  intro c hc hbase
  by_cases hh : c = hub
  · -- from the hub into a chain that leads nowhere
    subst hh
    show u.shallow (14 + 1 + 1) c = true
    rw [Chains.shallow, List.all_eq_true]
    intro r hr
    rcases mem_rules_rebuild ht hps h hr with ⟨-, hr⟩ | ⟨p, hp, he, -⟩ | ⟨-, hne, -⟩
    · obtain ⟨p, hp, hrp⟩ := List.mem_flatMap.1 hr
      rw [hps.jump p hp r hrp]
      refine shallow_of_leaf (fun s hs => ?_) 14
      rcases mem_rules_rebuild ht hps h hs with ⟨he, -⟩ | ⟨q, hq, -, hs⟩ | ⟨hno, -, -⟩
      · exact absurd he (hps.chain_ne_hub ht p hp)
      · exact hps.leaf q hq s hs
      · exact absurd rfl (hno p hp)
    · exact absurd he (hps.chain_ne_hub ht p hp)
    · exact absurd rfl hne
  · -- from another hook, where nothing has changed
    have hkeep : ∀ d, ¬ managed d → d ≠ hub → u.lookup d = t.chains.lookup d := by
      intro d hd hdh
      have hpd : plannedRules d ps = none :=
        plannedRules_eq_none.2 fun p hp e => hd (e ▸ hps.managed p hp)
      rw [lookup_rebuild ht hps h, if_neg fun hm => hd (ho d hm), if_neg hdh, hpd]
    have hcm : ¬ managed c := by
      intro hm
      obtain ⟨ch, hch, hb⟩ := hbase
      rw [Option.mem_def, lookup_rebuild ht hps h, if_neg hh] at hch
      split at hch
      · cases hch
      split at hch
      · exact hb (ht.plain c hm ch hch)
      · cases hch
        exact hb rfl
    rw [shallow_congr (t := t.chains) (S := fun d => ¬ managed d ∧ d ≠ hub)
      (fun d hd => rules_congr (hkeep d hd.1 hd.2)) ?_ stackSize ⟨hcm, hh⟩]
    · refine t.fits c ?_ ?_
      · rw [Finmap.mem_keys, mem_iff_lookup, ← hkeep c hcm hh]
        exact mem_iff_lookup.1 (Finmap.mem_keys.1 hc)
      · rw [← hkeep c hcm hh]
        exact hbase
    · intro d hd r hr e he
      refine ⟨fun hm => hd.2 (ht.only_hub d r hr e he hm), hgr e ?_⟩
      exact refs_iff.2 ⟨d, r, hr, he⟩

/-- **A rebuild of a managed table is accepted.** -/
theorem exists_load_rebuild {t : Table κ μ} (ht : Managed hub managed t.chains)
    (hps : Plans managed ps) (ho : Removable managed t.chains ps orphaned) :
    ∃ t', load (rebuild hub ps orphaned) t = some t' := by
  obtain ⟨u, hu⟩ := exists_run_rebuild ht hps ho
  obtain ⟨t', ht', -⟩ := exists_load hu (fits_rebuild ht hps hu ho.managed)
  exact ⟨t', ht'⟩

end Accept

end Nft
