import WireGui.Services.Frame

/-!
# A firewall in step with the database

`InSync` is the state that a reconciliation leaves: the user chains are those of the users with
devices or rules, each holds the user's rules, and `forward` holds the jumps of all devices, user by
user.
-/

namespace WireGui

open Nft (IsName)

/-- **The chain of the user equals the user's rules in the database.** -/
def ChainHolds (nft : FrontEnd) (db : Database) (u : Uuid) (t : Table) : Prop :=
  ∃ rules, nft.rules (chainOf u) (db.userEntry u).ruleLines = some rules ∧
    t.chains.lookup (chainOf u) = some ⟨none, rules⟩

/-- The jumps of the users, one after the other. -/
def Database.jumpLines (db : Database) (users : List Uuid) : List String :=
  users.flatMap fun u => (db.userEntry u).jumpLines

structure InSync (nft : FrontEnd) (db : Database) (t : Table) : Prop where
  userChains : ∀ c, IsUserChain c → (c ∈ t.chains ↔ ∃ v, db.HasRows v ∧ chainOf v = c)
  rules : ∀ v, db.HasRows v → ChainHolds nft db v t
  forward : ∃ users : List Uuid, users.Nodup ∧ (∀ v, v ∈ users ↔ db.HasRows v) ∧
    nft.rules "forward" (db.jumpLines users) = some (t.chains.rules "forward")

section InSync

variable {nft : FrontEnd} {db : Database} {t : Table}

lemma InSync.named (h : InSync nft db t) : Named t := by
  intro c hc hu
  obtain ⟨v, -, rfl⟩ := (h.userChains c hu).1 hc
  exact isName_chainOf v

/-- User chains have names that nft can read and hang on no hook. -/
structure Tidy (t : Table) : Prop where
  named : Named t
  plain : ∀ c, IsUserChain c → ∀ ch ∈ t.chains.lookup c, ch.base = none

lemma BaseSetup.tidy (h : BaseSetup t) : Tidy t := ⟨h.names, h.plain⟩

lemma InSync.tidy (h : InSync nft db t) : Tidy t := by
  refine ⟨h.named, fun c hc ch hch => ?_⟩
  obtain ⟨v, hv, rfl⟩ := (h.userChains c hc).1 (Nft.mem_iff_lookup.2 ⟨ch, hch⟩)
  obtain ⟨rules, -, hl⟩ := h.rules v hv
  rw [Option.some.inj ((Option.mem_def.1 hch).symm.trans hl)]

lemma InSync.mem_chain (h : InSync nft db t) {v : Uuid} (hv : db.HasRows v) :
    chainOf v ∈ t.chains := (h.userChains _ (isUserChain_chainOf v)).2 ⟨v, hv, rfl⟩

/-- The jumps of each user are read as such. -/
lemma InSync.exists_jumps (h : InSync nft db t) {v : Uuid} (hv : db.HasRows v) :
    ∃ jumps, nft.rules "forward" (db.userEntry v).jumpLines = some jumps := by
  obtain ⟨users, -, hmem, hf⟩ := h.forward
  refine List.exists_mapM_iff.2 fun line hline => ?_
  obtain ⟨r, -, hr⟩ := List.exists_of_mapM hf
    (List.mem_flatMap.2 ⟨v, (hmem v).2 hv, hline⟩)
  exact ⟨r, hr⟩

lemma forward_ne_chainOf (v : Uuid) : chainOf v ≠ "forward" := (isUserChain_chainOf v).ne_forward

end InSync

/-! ### Rebuilds that are read as plans -/

lemma rulesLeft_of_rules {nft : FrontEnd} {c : String} {lines : List String} {rules : List NftRule}
    (h : nft.rules c lines = some rules) : rulesLeft nft c lines = some rules := by
  rw [rulesLeft, Nft.batch_of_rules nft h, Option.bind_some, Nft.effectOn_addRules]
  rfl

/-- nft can read the rows of the entry: its devices send from networks, and each rule
is one rule. -/
structure Entry.Readable (nft : FrontEnd) (e : Entry) : Prop where
  name : IsName e.chain
  devices : ∀ d ∈ e.devices, ∃ nets, d.nets = some nets
  rules : ∃ rules, nft.rules e.chain e.ruleLines = some rules

/-- nft can read the rows of every user. -/
def Database.Readable (nft : FrontEnd) (db : Database) : Prop :=
  ∀ u, (db.userEntry u).Readable nft

/-- The plan of an entry that can be read. -/
lemma plan_of_readable {nft : FrontEnd} {e : Entry} (he : e.Readable nft) :
    ∃ rules nets, nft.rules e.chain e.ruleLines = some rules ∧
      e.devices.mapM DeviceEntry.nets = some nets ∧
      e.plan nft = some ⟨e.chain, rules, nets.flatten.map (jumpRule e.chain)⟩ := by
  obtain ⟨rules, hr⟩ := he.rules
  obtain ⟨nets, hn⟩ := List.exists_mapM_iff.2 he.devices
  exact ⟨rules, nets, hr, hn, (plan_eq_some_iff nft).2 ⟨rfl, hr, rules_jumpLines nft he.name hn⟩⟩

lemma plans_of_readable {nft : FrontEnd} {es : List Entry} (hes : ∀ e ∈ es, e.Readable nft) :
    ∃ ps, es.mapM (Entry.plan nft) = some ps := by
  refine List.exists_mapM_iff.2 fun e he => ?_
  obtain ⟨rules, nets, -, -, hp⟩ := plan_of_readable (hes e he)
  exact ⟨_, hp⟩

/-- The chains after an accepted rebuild whose entries nft reads as plans. -/
theorem lookup_of_rebuild {nft : FrontEnd} {es : List Entry}
    {ps : List (Nft.Plan String Nft.Match)} {t t' : Table}
    {orphaned : SetOrder (orphanedChains t es)} (ht : Named t) (hc : ∀ e ∈ es, IsName e.chain)
    (hp : es.mapM (Entry.plan nft) = some ps) (h : rebuildAllRules nft es t orphaned = .ok t')
    (c : String) :
    t'.chains.lookup c = Nft.effectOn c (Nft.rebuild "forward" ps orphaned.toList)
      (t.chains.lookup c) := by
  obtain ⟨cmds, hb, hl⟩ := nftBatch_eq_ok_iff.1 h
  have hread := batch_rebuildCommands nft hp hc (isName_of_orphaned ht orphaned)
  obtain rfl := Option.some.inj (hb.symm.trans hread)
  exact Nft.load_lookup hl c

/-- The jumps after such a rebuild. -/
theorem forward_of_rebuild {nft : FrontEnd} {es : List Entry}
    {ps : List (Nft.Plan String Nft.Match)} {t t' : Table}
    {orphaned : SetOrder (orphanedChains t es)} (ht : Named t) (hc : ∀ e ∈ es, IsName e.chain)
    (hp : es.mapM (Entry.plan nft) = some ps) (h : rebuildAllRules nft es t orphaned = .ok t') :
    ∃ ch, t.chains.lookup "forward" = some ch ∧
      t'.chains.lookup "forward" = some ⟨ch.base, Nft.allJumps ps⟩ := by
  have hno : Nft.plannedRules "forward" ps = none := by
    refine Nft.plannedRules_eq_none.2 fun p hpm he => ?_
    obtain ⟨e, -, hep⟩ := List.exists_of_mem_mapM hp hpm
    exact e.isUserChain_chain.ne_forward ((plan_chain hep).symm.trans he)
  have ho := forward_notMem_orphaned orphaned
  have hlook := lookup_of_rebuild ht hc hp h "forward"
  obtain ⟨cmds, hb, hl⟩ := nftBatch_eq_ok_iff.1 h
  obtain rfl := Option.some.inj
    (hb.symm.trans (batch_rebuildCommands nft hp hc (isName_of_orphaned ht orphaned)))
  obtain ⟨ch, hch⟩ := Nft.mem_iff_lookup.1 (Nft.mem_hub_of_run hno (Nft.load_eq_some_iff.1 hl))
  refine ⟨ch, hch, ?_⟩
  rw [hlook, Nft.effectOn_rebuild, if_neg ho, hno, hch]
  rfl

/-! ### A user alone -/

/-- The user's jumps are all there are only if nobody else has any. -/
lemma flatMap_eq_nil_of_length {users : List Uuid} {L : Uuid → List String} {u v : Uuid}
    (hu : u ∈ users) (hv : v ∈ users) (hne : v ≠ u)
    (h : (users.flatMap L).length = (L u).length) : L v = [] := by
  have hperm : users.Perm (u :: v :: (users.erase u).erase v) := by
    refine (List.perm_cons_erase hu).trans (.cons _ (List.perm_cons_erase ?_))
    exact (List.mem_erase_of_ne hne).2 hv
  have hlen := (hperm.flatMap_right L).length_eq
  rw [List.flatMap_cons, List.flatMap_cons, List.length_append, List.length_append] at hlen
  exact List.length_eq_zero_iff.1 (by omega)

lemma flatMap_eq_of_unique {users : List Uuid} {L : Uuid → List String} (hd : users.Nodup)
    {u : Uuid} (hu : u ∈ users) (h : ∀ v ∈ users, v ≠ u → L v = []) : users.flatMap L = L u := by
  induction users with
  | nil => exact absurd hu List.not_mem_nil
  | cons w users ih =>
    rw [List.nodup_cons] at hd
    rw [List.flatMap_cons]
    by_cases hw : w = u
    · subst hw
      have hrest : users.flatMap L = [] := by
        rw [List.flatMap_eq_nil_iff]
        exact fun v hv => h v (List.mem_cons_of_mem _ hv) fun e => hd.1 (e ▸ hv)
      rw [hrest, List.append_nil]
    · have hu' := (List.mem_cons.1 hu).resolve_left fun e => hw e.symm
      rw [h w List.mem_cons_self hw, List.nil_append]
      exact ih hd.2 hu' fun v hv => h v (List.mem_cons_of_mem _ hv)

/-- **A rebuild for a user who is alone** changes nothing, if the user's rules are read as before:
no other user has a chain or a jump that it would take away. -/
theorem rebuild_eq_self {nft : FrontEnd} {db : Database} {t t' : Table} (hs : InSync nft db t)
    {u : Uuid} (hrows : db.HasRows u) {e : Entry} (he : e.chain = chainOf u)
    {orphaned : SetOrder (orphanedChains t [e])} {rules jumps : List NftRule}
    (hplan : e.plan nft = some ⟨chainOf u, rules, jumps⟩)
    (hchain : t.chains.lookup (chainOf u) = some ⟨none, rules⟩)
    (hjumps : nft.rules "forward" (db.userEntry u).jumpLines = some jumps)
    (halone : ∀ v, v ≠ u → db.HasRows v →
      chainOf v = chainOf u ∧ (db.userEntry v).jumpLines = [])
    (h : rebuildAllRules nft [e] t orphaned = .ok t') : t' = t := by
  have hname : IsName e.chain := he ▸ isName_chainOf u
  have hnone : orphaned.toList = [] := by
    rw [List.eq_nil_iff_forall_not_mem]
    intro c hc
    obtain ⟨⟨hct, hcu⟩, hne⟩ := mem_orphanedChains.1 ((orphaned.mem_iff c).1 hc)
    obtain ⟨v, hv, rfl⟩ := (hs.userChains c hcu).1 hct
    have hne : chainOf u ≠ chainOf v := by
      rw [← he]
      exact hne e List.mem_cons_self
    by_cases hvu : v = u
    · rw [hvu] at hne
      exact hne rfl
    · exact hne (halone v hvu hv).1.symm
  have hlook := lookup_of_rebuild hs.named (List.forall_mem_singleton.2 hname)
    (List.mapM_eq_some_iff.2 (.cons hplan .nil)) h
  -- the jumps of everyone are those of `u`
  have hforward : Nft.allJumps [(⟨chainOf u, rules, jumps⟩ : Nft.Plan String Nft.Match)] =
      t.chains.rules "forward" := by
    obtain ⟨users, hnodup, husers, hfwd⟩ := hs.forward
    have hall : db.jumpLines users = (db.userEntry u).jumpLines :=
      flatMap_eq_of_unique (L := fun u => (db.userEntry u).jumpLines) hnodup ((husers u).2 hrows)
        fun v hv hvu => (halone v hvu ((husers v).1 hv)).2
    rw [hall, hjumps] at hfwd
    rw [← Option.some.inj hfwd]
    simp [Nft.allJumps]
  apply Nft.Table.ext
  intro c
  rw [hlook, hnone, Nft.effectOn_rebuild, if_neg List.not_mem_nil, Nft.plannedRules_cons]
  simp only [Nft.plannedRules, List.filter_nil, List.getLast?_nil, Option.map_none, Option.none_or]
  by_cases hcf : c = "forward"
  · subst hcf
    rw [if_pos rfl, if_neg (forward_ne_chainOf u), hforward]
    cases hl : t.chains.lookup "forward" with
    | none => rfl
    | some ch => rw [Option.map_some, Nft.rules_of_lookup hl]
  · rw [if_neg hcf]
    by_cases hcu : chainOf u = c
    · subst hcu
      rw [if_pos rfl, hchain]
      rfl
    · rw [if_neg hcu]

/-- Conversely, a rebuild for a user that changes nothing finds no other chain and no other jump. -/
theorem alone_of_rebuild_eq_self {nft : FrontEnd} {db : Database} {t : Table}
    (hs : InSync nft db t) {u : Uuid} (hrows : db.HasRows u) {e : Entry} (he : e.chain = chainOf u)
    (hjumps : e.jumpLines = (db.userEntry u).jumpLines)
    {orphaned : SetOrder (orphanedChains t [e])} (h : rebuildAllRules nft [e] t orphaned = .ok t)
    {v : Uuid} (hvu : v ≠ u) (hv : db.HasRows v) :
    chainOf v = chainOf u ∧ (db.userEntry v).jumpLines = [] := by
  have hname : IsName e.chain := he ▸ isName_chainOf u
  have hmem := hs.mem_chain hv
  constructor
  · by_contra hne
    have hvne : e.chain ≠ chainOf v := by
      rw [he]
      exact Ne.symm hne
    have hgone := lookup_other hs.named hname h hmem (isUserChain_chainOf v) hvne
    obtain ⟨ch, hch⟩ := Nft.mem_iff_lookup.1 hmem
    cases hch.symm.trans hgone
  · -- the rebuild writes the jumps of `u` and nothing else into `forward`
    obtain ⟨jumps, hj⟩ := hs.exists_jumps hrows
    obtain ⟨users, -, husers, hfwd⟩ := hs.forward
    have hleft := rules_forward hs.named hname h
    rw [hjumps, rulesLeft_of_rules hj] at hleft
    obtain ⟨fw, hl, rfl⟩ := Option.map_eq_some_iff.1 hleft
    rw [Nft.rules_of_lookup hl, ← hj] at hfwd
    have hlen : (db.jumpLines users).length = (db.userEntry u).jumpLines.length := by
      have h₁ := (List.mapM_eq_some_iff.1 (hfwd.trans hj)).length_eq
      have h₂ := (List.mapM_eq_some_iff.1 hj).length_eq
      exact h₁.trans h₂.symm
    exact flatMap_eq_nil_of_length (L := fun u => (db.userEntry u).jumpLines)
      ((husers u).2 hrows) ((husers v).2 hv) hvu hlen

end WireGui
