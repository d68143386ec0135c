import WireGui.Services.FirewallText
import WireGui.Nft.Rebuild

/-!
# What `rebuild_all_rules` is for

The rebuild writes its entries into the table: their chains with their rules, the jumps of their
devices, and no other `user_` chain.  `Realises` says so of the table afterwards.

The way there: a front end reads the batch as a `Nft.rebuild` of one plan for each entry
(`batch_rebuildCommands`), and the general facts about rebuilds do the rest.
-/

namespace WireGui

open Nft (IsName)

/-! ### Plans -/

section Plans

variable (nft : FrontEnd)

/-- The plan of an entry, as nft reads its lines. -/
def Entry.plan (e : Entry) : Option (Nft.Plan String Nft.Match) := do
  let rules ← nft.rules e.chain e.ruleLines
  let jumps ← nft.rules "forward" e.jumpLines
  return ⟨e.chain, rules, jumps⟩

lemma plan_eq_some_iff {e : Entry} {p : Nft.Plan String Nft.Match} :
    e.plan nft = some p ↔ p.chain = e.chain ∧ nft.rules e.chain e.ruleLines = some p.rules ∧
      nft.rules "forward" e.jumpLines = some p.jumps := by
  unfold Entry.plan
  constructor
  · intro h
    obtain ⟨rs, hrs, h⟩ := Option.bind_eq_some_iff.1 h
    obtain ⟨js, hjs, h⟩ := Option.bind_eq_some_iff.1 h
    cases h
    exact ⟨rfl, hrs, hjs⟩
  · rintro ⟨hc, hr, hj⟩
    rw [hr, hj, ← hc]
    rfl

lemma batch_chainLines {e : Entry} (hc : IsName e.chain) {p : Nft.Plan String Nft.Match}
    (hp : e.plan nft = some p) : nft.batch e.chainLines = some p.cmds := by
  obtain ⟨hpc, hr, -⟩ := (plan_eq_some_iff nft).1 hp
  have hhead : nft.batch [addChainLine e.chain, flushChainLine e.chain] =
      some [.addChain e.chain none, .flushChain e.chain] := by
    simp [Nft.FrontEnd.batch, read_addChainLine nft hc, read_flushChainLine nft hc]
  rw [Entry.chainLines, Nft.Plan.cmds, hpc]
  exact Nft.batch_append nft hhead (Nft.batch_of_rules nft hr)

lemma batch_flatMap {α : Type} {f : α → List String} {g : α → List (Nft.Cmd String Nft.Match)}
    {xs : List α} (h : ∀ x ∈ xs, nft.batch (f x) = some (g x)) :
    nft.batch (xs.flatMap f) = some (xs.flatMap g) := by
  induction xs with
  | nil => rfl
  | cons x xs ih =>
    rw [List.flatMap_cons, List.flatMap_cons]
    exact Nft.batch_append nft (h x List.mem_cons_self)
      (ih fun y hy => h y (List.mem_cons_of_mem _ hy))

/-- **How nft reads the batch** of a rebuild. -/
theorem batch_rebuildCommands {es : List Entry} {ps : List (Nft.Plan String Nft.Match)}
    (hes : es.mapM (Entry.plan nft) = some ps) (hn : ∀ e ∈ es, IsName e.chain)
    {orphaned : List String} (ho : ∀ c ∈ orphaned, IsName c) :
    nft.batch (rebuildCommands es orphaned) = some (Nft.rebuild "forward" ps orphaned) := by
  have hchains : nft.batch (es.flatMap Entry.chainLines) = some (ps.flatMap Nft.Plan.cmds) := by
    induction es generalizing ps with
    | nil => cases hes; rfl
    | cons e es ih =>
      obtain ⟨p, ps', hp, hps, rfl⟩ := List.forall₂_cons_left_iff.1 (List.mapM_eq_some_iff.1 hes)
      rw [List.flatMap_cons, List.flatMap_cons]
      exact Nft.batch_append nft (batch_chainLines nft (hn e List.mem_cons_self) hp)
        (ih (List.mapM_eq_some_iff.2 hps) fun f hf => hn f (List.mem_cons_of_mem _ hf))
  have hforward : nft.batch [flushChainLine "forward"] = some [.flushChain "forward"] := by
    simp [Nft.FrontEnd.batch, read_flushChainLine nft (c := "forward") (by decide)]
  have hjumps : nft.batch (es.flatMap Entry.jumpLines) =
      some ((Nft.allJumps ps).map (.addRule "forward")) := by
    clear hchains hn
    induction es generalizing ps with
    | nil => cases hes; rfl
    | cons e es ih =>
      obtain ⟨p, ps', hp, hps, rfl⟩ := List.forall₂_cons_left_iff.1 (List.mapM_eq_some_iff.1 hes)
      rw [List.flatMap_cons, Nft.allJumps, List.flatMap_cons, List.map_append]
      exact Nft.batch_append nft (Nft.batch_of_rules nft ((plan_eq_some_iff nft).1 hp).2.2)
        (ih (List.mapM_eq_some_iff.2 hps))
  have hremoval : nft.batch (orphaned.flatMap fun c => [flushChainLine c, deleteChainLine c]) =
      some (Nft.removal orphaned) := by
    refine batch_flatMap nft fun c hc => ?_
    simp [Nft.FrontEnd.batch, read_flushChainLine nft (ho c hc), read_deleteChainLine nft (ho c hc)]
  rw [rebuildCommands, Nft.rebuild]
  exact Nft.batch_append nft (Nft.batch_append nft (Nft.batch_append nft hchains hforward) hjumps)
    hremoval

end Plans

/-! ### Well-formed entries -/

/-- The networks a device sends from: its tunnel addresses, IPv4 first, then the subnets it
relays, each of its own family. -/
def DeviceEntry.nets (d : DeviceEntry) : Option (List Ip.Net) := do
  let v4 ← (truthy d.ipv4).toList.mapM (Ip.parseNet .v4)
  let v6 ← (truthy d.ipv6).toList.mapM (Ip.parseNet .v6)
  let subnets ← d.allowedSubnets.mapM Ip.readNet
  return v4 ++ v6 ++ subnets

/-- The jumps that the devices of an entry shall have. -/
def Entry.jumps (e : Entry) : Option (List NftRule) :=
  (e.devices.mapM DeviceEntry.nets).map fun nets => nets.flatten.map (jumpRule e.chain)

/-- The rules of an entry, by ascending priority. -/
def Entry.rulesMeant (e : Entry) : Option (List NftRule) := e.orderedRules.mapM RuleEntry.meaning

/-- Addresses, destinations and ports that can be read, actions that are `accept` or `drop`. -/
structure Entry.WellFormed (e : Entry) : Prop where
  name : IsName e.chain
  devices : ∀ d ∈ e.devices, ∃ nets, d.nets = some nets
  rules : ∀ r ∈ e.rules, ∃ rule, r.meaning = some rule

section WellFormed

variable (nft : FrontEnd) {c : String}

lemma rules_of_meaning (hc : IsName c) {l : List RuleEntry} {rules : List NftRule}
    (h : l.mapM RuleEntry.meaning = some rules) :
    nft.rules c (l.map (RuleEntry.line c)) = some rules := by
  rw [Nft.FrontEnd.rules, List.mapM_eq_some_iff, List.forall₂_map_left_iff]
  refine (List.mapM_eq_some_iff.1 h).imp fun r rule hr => ?_
  exact (Nft.single_eq_some_iff nft).2 (read_ruleLine nft hc hr)

lemma rules_of_nets (hc : IsName c) {d : DeviceEntry} {nets : List Ip.Net}
    (h : d.nets = some nets) :
    nft.rules "forward" (d.lines c) = some (nets.map (jumpRule c)) := by
  obtain ⟨v4, h4, h⟩ := Option.bind_eq_some_iff.1 h
  obtain ⟨v6, h6, h⟩ := Option.bind_eq_some_iff.1 h
  obtain ⟨subnets, hs, h⟩ := Option.bind_eq_some_iff.1 h
  obtain rfl := Option.some.inj h
  have key : ∀ {srcs : List (Ip.Family × String)} {ns : List Ip.Net},
      srcs.mapM (fun s => Ip.parseNet s.1 s.2) = some ns →
        (srcs.map (jumpLine c)).mapM (nft.single "forward") = some (ns.map (jumpRule c)) := by
    intro srcs ns hn
    rw [List.mapM_eq_some_iff, List.forall₂_map_left_iff, List.forall₂_map_right_iff]
    refine (List.mapM_eq_some_iff.1 hn).imp fun s n hs => ?_
    exact (Nft.single_eq_some_iff nft).2 (read_jumpLine nft hc hs)
  refine key ?_
  unfold DeviceEntry.sources
  rw [List.mapM_append_eq_some_iff]
  refine ⟨_, _, List.mapM_append_eq_some_iff.2 ⟨v4, v6, ?_, ?_, rfl⟩, ?_, rfl⟩
  · rw [List.mapM_eq_some_iff, List.forall₂_map_left_iff]
    exact List.mapM_eq_some_iff.1 h4
  · rw [List.mapM_eq_some_iff, List.forall₂_map_left_iff]
    exact List.mapM_eq_some_iff.1 h6
  · rw [List.mapM_eq_some_iff, List.forall₂_map_left_iff]
    exact (List.mapM_eq_some_iff.1 hs).imp fun s n hn => Ip.readNet_eq_some_iff.1 hn

/-- The jumps of an entry whose devices can be read. -/
lemma rules_jumpLines {e : Entry} (hc : IsName e.chain) {nets : List (List Ip.Net)}
    (h : e.devices.mapM DeviceEntry.nets = some nets) :
    nft.rules "forward" e.jumpLines = some (nets.flatten.map (jumpRule e.chain)) := by
  show nft.rules "forward" (e.devices.flatMap (DeviceEntry.lines e.chain)) = _
  rw [List.mapM_eq_some_iff] at h
  generalize e.devices = ds at h
  induction h with
  | nil => rfl
  | cons hd _ ih =>
    rw [List.flatMap_cons, List.flatten_cons, List.map_append]
    exact List.mapM_append_eq_some_iff.2 ⟨_, _, rules_of_nets nft hc hd, ih, rfl⟩

/-- The plan of a well-formed entry does not depend on the front end. -/
theorem plan_of_wellFormed {e : Entry} (he : e.WellFormed) :
    ∃ rules jumps, e.rulesMeant = some rules ∧ e.jumps = some jumps ∧
      e.plan nft = some ⟨e.chain, rules, jumps⟩ := by
  obtain ⟨rules, hr⟩ : ∃ rules, e.rulesMeant = some rules :=
    List.exists_mapM_iff.2 fun r hr => he.rules r ((List.mem_insertionSort _).1 hr)
  obtain ⟨nets, hn⟩ := List.exists_mapM_iff.2 he.devices
  have hj : e.jumps = some (nets.flatten.map (jumpRule e.chain)) := by
    rw [Entry.jumps, hn]
    rfl
  exact ⟨rules, _, hr, hj, (plan_eq_some_iff nft).2
    ⟨rfl, rules_of_meaning nft he.name hr, rules_jumpLines nft he.name hn⟩⟩

end WellFormed

/-! ### The table afterwards -/

/-- The table as `setup_base_tables` and the later batches leave it: `forward` hangs on a hook,
user chains do not, and only `forward` jumps to them. -/
structure BaseSetup (t : Table) : Prop extends Nft.Managed "forward" IsUserChain t.chains where
  names : ∀ c ∈ t.chains, IsUserChain c → IsName c

/-- **The table holds the entries and is otherwise as before.** -/
structure Realises (es : List Entry) (t t' : Table) : Prop where
  userChains : ∀ c, IsUserChain c → (c ∈ t'.chains ↔ ∃ e ∈ es, e.chain = c)
  rules : ∀ e ∈ es, ∃ ordered rules, e.rules.StableSort (fun r => r.priority.getD 100) ordered ∧
    ordered.mapM RuleEntry.meaning = some rules ∧
    t'.chains.lookup e.chain = some ⟨none, rules⟩
  forward : ∃ jumps ch, es.mapM Entry.jumps = some jumps ∧ t.chains.lookup "forward" = some ch ∧
    t'.chains.lookup "forward" = some ⟨ch.base, jumps.flatten⟩
  others : ∀ c, ¬ IsUserChain c → c ≠ "forward" → t'.chains.lookup c = t.chains.lookup c

lemma mem_listUserChains {t : Table} {c : String} :
    c ∈ listUserChains t ↔ c ∈ t.chains ∧ IsUserChain c := by
  unfold listUserChains
  rw [Finset.mem_filter, Finmap.mem_keys]
  rfl

lemma Entry.isUserChain_chain (e : Entry) : IsUserChain e.chain :=
  isUserChain_userChainName e.userId

lemma mem_orphanedChains {t : Table} {es : List Entry} {c : String} :
    c ∈ orphanedChains t es ↔ (c ∈ t.chains ∧ IsUserChain c) ∧ ∀ e ∈ es, e.chain ≠ c := by
  unfold orphanedChains
  rw [Finset.mem_sdiff, mem_listUserChains]
  simp

lemma forward_notMem_orphaned {t : Table} {es : List Entry}
    (orphaned : SetOrder (orphanedChains t es)) : "forward" ∉ orphaned.toList := fun h =>
  (mem_orphanedChains.1 ((orphaned.mem_iff _).1 h)).1.2.ne_forward rfl

lemma nftBatch_eq_ok_iff {nft : FrontEnd} {lines : List String} {t t' : Table} :
    nftBatch nft lines t = .ok t' ↔
      ∃ cmds, nft.batch lines = some cmds ∧ Nft.load cmds t = some t' := by
  unfold nftBatch Nft.FrontEnd.apply
  cases hb : nft.batch lines with
  | none => simp
  | some cmds =>
    cases hl : Nft.load cmds t with
    | none => simp [hl]
    | some u => simp [hl]

lemma nftBatch_eq_ok {nft : FrontEnd} {lines : List String} {cmds : List (Nft.Cmd String Nft.Match)}
    (hread : nft.batch lines = some cmds) {t t' : Table}
    (hrun : Nft.run cmds t.chains = some t'.chains) : nftBatch nft lines t = .ok t' :=
  nftBatch_eq_ok_iff.2 ⟨cmds, hread, Nft.load_eq_some_iff.2 hrun⟩

section Realises

variable {nft : FrontEnd} {t : Table} {es : List Entry} {ps : List (Nft.Plan String Nft.Match)}

lemma plan_chain {e : Entry} {p : Nft.Plan String Nft.Match} (h : e.plan nft = some p) :
    p.chain = e.chain := ((plan_eq_some_iff nft).1 h).1

lemma map_plan_chain (h : es.mapM (Entry.plan nft) = some ps) :
    ps.map Nft.Plan.chain = es.map Entry.chain := by
  rw [List.mapM_eq_some_iff] at h
  induction h with
  | nil => rfl
  | cons he _ ih => rw [List.map_cons, List.map_cons, ih, plan_chain he]

/-- The chains a rebuild finds to be orphaned can be removed. -/
lemma removable_orphaned (h : es.mapM (Entry.plan nft) = some ps)
    (orphaned : SetOrder (orphanedChains t es)) :
    Nft.Removable IsUserChain t.chains ps orphaned.toList where
  nodup := orphaned.nodup
  managed := fun c hc => (mem_orphanedChains.1 ((orphaned.mem_iff c).1 hc)).1.2
  mem := fun c hc => (mem_orphanedChains.1 ((orphaned.mem_iff c).1 hc)).1.1
  unplanned := by
    intro c hc p hp
    obtain ⟨e, he, hep⟩ := List.exists_of_mem_mapM h hp
    rw [plan_chain hep]
    exact (mem_orphanedChains.1 ((orphaned.mem_iff c).1 hc)).2 e he

/-- The plans of entries whose rules jump nowhere, and whose jumps lead to their chains. -/
lemma plans_of_entries {es : List Entry} {ps : List (Nft.Plan String Nft.Match)}
    (hps : es.mapM (Entry.plan nft) = some ps)
    (h : ∀ e ∈ es, ∀ p, e.plan nft = some p →
      (∀ r ∈ p.rules, r.verdict.target = none) ∧ ∀ r ∈ p.jumps, r.verdict.target = some p.chain) :
    Nft.Plans IsUserChain ps := by
  have hplan : ∀ p ∈ ps, ∃ e ∈ es, e.plan nft = some p := fun p hp =>
    List.exists_of_mem_mapM hps hp
  refine ⟨fun p hp => ?_, fun p hp => ?_, fun p hp => ?_⟩
  · obtain ⟨e, -, hep⟩ := hplan p hp
    rw [plan_chain hep]
    exact isUserChain_userChainName e.userId
  · obtain ⟨e, he, hep⟩ := hplan p hp
    exact (h e he p hep).1
  · obtain ⟨e, he, hep⟩ := hplan p hp
    exact (h e he p hep).2

/-- The plans of well-formed entries. -/
lemma plans_of_wellFormed (nft : FrontEnd) {es : List Entry} (hes : ∀ e ∈ es, e.WellFormed) :
    ∃ ps, es.mapM (Entry.plan nft) = some ps ∧ Nft.Plans IsUserChain ps := by
  obtain ⟨ps, hps⟩ : ∃ ps, es.mapM (Entry.plan nft) = some ps := by
    refine List.exists_mapM_iff.2 fun e he => ?_
    obtain ⟨rules, jumps, -, -, hp⟩ := plan_of_wellFormed nft (hes e he)
    exact ⟨_, hp⟩
  refine ⟨ps, hps, plans_of_entries hps fun e he p hp => ?_⟩
  obtain ⟨rules, jumps, hr, hj, hp'⟩ := plan_of_wellFormed nft (hes e he)
  obtain rfl := Option.some.inj (hp.symm.trans hp')
  refine ⟨fun r hrm => ?_, fun r hrm => ?_⟩
  · obtain ⟨re, -, hre⟩ := List.exists_of_mem_mapM hr hrm
    obtain ⟨n, ports, v, -, -, hv, rfl⟩ := meaning_eq_some_iff.1 hre
    rcases readAction_cases hv with ⟨-, rfl⟩ | ⟨-, rfl⟩ <;> rfl
  · obtain ⟨nets, -, rfl⟩ := Option.map_eq_some_iff.1 hj
    obtain ⟨n, -, rfl⟩ := List.mem_map.1 hrm
    rfl

/-- A rebuild keeps the base setup. -/
lemma BaseSetup.rebuild (ht : BaseSetup t) (hplans : Nft.Plans IsUserChain ps)
    (hname : ∀ p ∈ ps, IsName p.chain) {orphaned : List String} (ho : "forward" ∉ orphaned)
    {t' : Table} (hrun : Nft.run (Nft.rebuild "forward" ps orphaned) t.chains = some t'.chains) :
    BaseSetup t' := by
  refine ⟨ht.toManaged.rebuild hplans hrun ho, fun c hc hu => ?_⟩
  -- a chain is a planned one or was there before
  by_cases hp : ∃ p ∈ ps, p.chain = c
  · obtain ⟨p, hp, rfl⟩ := hp
    exact hname p hp
  · push Not at hp
    rw [Nft.mem_iff_lookup, Nft.lookup_rebuild ht.toManaged hplans hrun, if_neg hu.ne_forward,
      Nft.plannedRules_eq_none.2 hp] at hc
    split at hc
    · obtain ⟨ch, hch⟩ := hc
      cases hch
    · exact ht.names c (Nft.mem_iff_lookup.2 hc) hu

/-- The batch is accepted if all its lines can be read. -/
lemma exists_load_of_plans {nft : FrontEnd} {t : Table} (ht : BaseSetup t) {es : List Entry}
    (hname : ∀ e ∈ es, IsName e.chain) {ps : List (Nft.Plan String Nft.Match)}
    (hps : es.mapM (Entry.plan nft) = some ps) (hplans : Nft.Plans IsUserChain ps)
    (orphaned : SetOrder (orphanedChains t es)) :
    ∃ t', rebuildAllRules nft es t orphaned = .ok t' ∧
      Nft.load (Nft.rebuild "forward" ps orphaned.toList) t = some t' := by
  have hrem := removable_orphaned hps orphaned
  have hbatch := batch_rebuildCommands nft hps hname
    fun c hc => ht.names c (hrem.mem c hc) (hrem.managed c hc)
  obtain ⟨t', ht'⟩ := Nft.exists_load_rebuild ht.toManaged hplans hrem
  exact ⟨t', nftBatch_eq_ok_iff.2 ⟨_, hbatch, ht'⟩, ht'⟩

/-- **The user chains after a rebuild** are those of the entries. -/
lemma userChain_mem_rebuilt {nft : FrontEnd} {t t' : Table} (ht : BaseSetup t) {es : List Entry}
    {ps : List (Nft.Plan String Nft.Match)} (hps : es.mapM (Entry.plan nft) = some ps)
    (hplans : Nft.Plans IsUserChain ps) (orphaned : SetOrder (orphanedChains t es))
    (hrun : Nft.run (Nft.rebuild "forward" ps orphaned.toList) t.chains = some t'.chains)
    {c : String} (hc : IsUserChain c) : c ∈ t'.chains ↔ ∃ e ∈ es, e.chain = c := by
  have hchain : (∃ e ∈ es, e.chain = c) ↔ ∃ p ∈ ps, p.chain = c := by
    have hmem := congrArg (c ∈ ·) (map_plan_chain hps)
    simpa [List.mem_map] using hmem.symm
  rw [hchain, Nft.mem_iff_lookup, Nft.lookup_rebuild ht.toManaged hplans hrun, if_neg hc.ne_forward]
  by_cases ho : c ∈ orphaned.toList
  · rw [if_pos ho]
    refine iff_of_false (by simp) ?_
    rintro ⟨p, hp, rfl⟩
    exact (removable_orphaned hps orphaned).unplanned _ ho p hp rfl
  rw [if_neg ho]
  cases hpl : Nft.plannedRules c ps with
  | none =>
    have hno := Nft.plannedRules_eq_none.1 hpl
    refine iff_of_false (fun hm => ?_) fun ⟨p, hp, hpc⟩ => hno p hp hpc
    -- a chain that is left over is one of the orphans
    refine ho ((orphaned.mem_iff c).2 (mem_orphanedChains.2 ⟨⟨Nft.mem_iff_lookup.2 hm, hc⟩, ?_⟩))
    intro e he hec
    obtain ⟨p, hp, hpc⟩ := hchain.1 ⟨e, he, hec⟩
    exact hno p hp hpc
  | some rs =>
    obtain ⟨p, hp, hpc, -⟩ := Nft.exists_of_plannedRules hpl
    exact iff_of_true ⟨_, rfl⟩ ⟨p, hp, hpc⟩

/-- The batch of well-formed entries is accepted and leaves just what it is given. -/
theorem exists_realises (nft : FrontEnd) {t : Table} (ht : BaseSetup t) {es : List Entry}
    (hes : ∀ e ∈ es, e.WellFormed) (hd : (es.map Entry.chain).Nodup)
    (orphaned : SetOrder (orphanedChains t es)) :
    ∃ t', rebuildAllRules nft es t orphaned = .ok t' ∧ Realises es t t' := by
  obtain ⟨ps, hps, hplans⟩ := plans_of_wellFormed nft hes
  have hrem := removable_orphaned hps orphaned
  obtain ⟨t', hok, ht'⟩ :=
    exists_load_of_plans ht (fun e he => (hes e he).name) hps hplans orphaned
  refine ⟨t', hok, ?_⟩
  have hlook := Nft.lookup_rebuild ht.toManaged hplans (Nft.load_eq_some_iff.1 ht')
  constructor
  · -- which user chains there are
    exact fun c hc => userChain_mem_rebuilt ht hps hplans orphaned (Nft.load_eq_some_iff.1 ht') hc
  · -- their rules
    intro e he
    obtain ⟨rules, jumps, hr, -, hp⟩ := plan_of_wellFormed nft (hes e he)
    obtain ⟨p, hpm, hep⟩ := List.exists_of_mapM hps he
    obtain rfl := Option.some.inj (hep.symm.trans hp)
    refine ⟨e.orderedRules, rules, List.stableSort_insertionSort _ _, hr, ?_⟩
    have ho : e.chain ∉ orphaned.toList := fun ho => hrem.unplanned _ ho _ hpm rfl
    have hcf := e.isUserChain_chain.ne_forward
    have hpl : Nft.plannedRules e.chain ps = some rules :=
      Nft.plannedRules_of_mem (map_plan_chain hps ▸ hd) hpm
    rw [hlook, if_neg ho, if_neg hcf, hpl]
  · -- the forward chain
    obtain ⟨ch, hch, -⟩ := ht.hub_base
    have hj : es.mapM Entry.jumps = some (ps.map Nft.Plan.jumps) := by
      refine List.mapM_of_mapM hps fun e he p hep => ?_
      obtain ⟨rules, jumps, -, hj, hp⟩ := plan_of_wellFormed nft (hes e he)
      obtain rfl := Option.some.inj (hep.symm.trans hp)
      exact hj
    have ho := forward_notMem_orphaned orphaned
    refine ⟨_, ch, hj, hch, ?_⟩
    rw [hlook, if_neg ho, if_pos rfl, Option.mem_def.1 hch, Option.map_some, Nft.allJumps,
      List.flatMap_def]
  · -- and all the others
    intro c hc hcf
    have ho : c ∉ orphaned.toList := fun ho => hc (hrem.managed c ho)
    have hpl : Nft.plannedRules c ps = none :=
      Nft.plannedRules_eq_none.2 fun p hp h => hc (h ▸ hplans.managed p hp)
    rw [hlook, if_neg ho, if_neg hcf, hpl]

/-- **The full rebuild realises its input**, and a batch that is refused leaves the table as it
is. -/
theorem rebuildAllRules_realises (nft : FrontEnd) {t : Table} (ht : BaseSetup t) {es : List Entry}
    (hes : ∀ e ∈ es, e.WellFormed) (hd : (es.map Entry.chain).Nodup)
    (orphaned : SetOrder (orphanedChains t es)) :
    (∃ t', rebuildAllRules nft es t orphaned = .ok t' ∧ Realises es t t') ∧
      ∀ lines e, nftBatch nft lines t = .error e → orKeep t (nftBatch nft lines t) = t :=
  ⟨exists_realises nft ht hes hd orphaned, fun _ _ h => by rw [h]; rfl⟩

end Realises

/-! A table with the chain of a user who is gone, and the entry of another user. -/

def forwardBase : Nft.Base := ⟨.filter, .forward, 0, .accept⟩
def postroutingBase : Nft.Base := ⟨.nat, .postrouting, 100, .accept⟩

def staleTable : Table where
  chains :=
    (((∅ : Nft.Chains String Nft.Match).insert "postrouting" ⟨some postroutingBase, []⟩).insert
      "user_00000000aaaa" ⟨none, [⟨[], .drop⟩]⟩).insert
      "forward" ⟨some forwardBase, [⟨[], .jump "user_00000000aaaa"⟩]⟩
  grounded := by decide
  fits := by decide

def sampleEntry : Entry where
  userId := "01234567-89ab-cdef-0123-456789abcdef"
  devices := [⟨some "10.3.2.2", some "fd00::2", ["192.168.1.0/24"]⟩]
  rules := [⟨"0.0.0.0/0", "drop", none, none, some 20⟩,
    ⟨"10.0.0.0/8", "accept", some "tcp", some "80-443", some 10⟩]

def staleOrder : SetOrder (orphanedChains staleTable [sampleEntry]) :=
  .ofList ["user_00000000aaaa"] (by decide) (by decide)

lemma staleTable_baseSetup : BaseSetup staleTable where
  toManaged := .of_keys (by decide) (by decide) (by decide)
  names := by decide

lemma sampleEntry_wellFormed : sampleEntry.WellFormed where
  name := by decide
  devices := by
    have h : ∀ d ∈ sampleEntry.devices, d.nets.isSome := by decide
    exact fun d hd => Option.isSome_iff_exists.1 (h d hd)
  rules := by
    have h : ∀ r ∈ sampleEntry.rules, r.meaning.isSome := by decide
    exact fun r hr => Option.isSome_iff_exists.1 (h r hr)

theorem rebuildAllRules_realises_stale :
    ∃ t', rebuildAllRules (.fragment tableName) [sampleEntry] staleTable staleOrder = .ok t' ∧
      Realises [sampleEntry] staleTable t' :=
  (rebuildAllRules_realises (.fragment tableName) staleTable_baseSetup
    (List.forall_mem_singleton.2 sampleEntry_wellFormed) (by decide) staleOrder).1

end WireGui
