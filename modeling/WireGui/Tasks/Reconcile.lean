import WireGui.Services.InSync

/-!
# `tasks/reconcile.py`: the firewall

At startup the whole firewall is rebuilt from the database, with one entry for each user that has
devices or rules.  `reconcileEntries_eq`: the entry of a user is the one that a rebuild for that
user alone would read.
-/

namespace WireGui

open Nft (IsName)

/-- The ids that `_reconcile_firewall` groups by, as text. -/
def Database.userIds (db : Database) : Finset String :=
  (db.devices.map fun d => d.userId.str).toFinset ∪
    (db.rules.filterMap fun r => r.userId.map Uuid.str).toFinset

/-- The entry for one of the ids. -/
def Database.entryOf (db : Database) (uid : String) : Entry where
  userId := uid
  devices := (db.devices.filter fun d => d.userId.str = uid).map Device.entry
  rules := ((orderRules db.rules).filter fun r => r.userId.map Uuid.str = some uid).map Rule.entry

/-- The entries of `_reconcile_firewall`, in the order it goes through the ids. -/
def Database.reconcileEntries (db : Database) (uids : SetOrder db.userIds) : List Entry :=
  uids.toList.map db.entryOf

/-- `_reconcile_firewall`; an error is logged. -/
def reconcileFirewall (nft : FrontEnd) (order : SetOrders) (db : Database)
    (uids : SetOrder db.userIds) (t : Table) : Table :=
  let entries := db.reconcileEntries uids
  orKeep t (rebuildAllRules nft entries t (order (orphanedChains t entries)))

instance : Std.Total Rule.before where
  total r s := by unfold Rule.before; omega

instance : IsTrans Rule Rule.before where
  trans r s t := by unfold Rule.before; omega

lemma entryOf_str (db : Database) (u : Uuid) : db.entryOf u.str = db.userEntry u := by
  have hd : (db.devices.filter fun d => d.userId.str = u.str) = db.userDevices u := by
    refine List.filter_congr fun d _ => ?_
    rw [decide_eq_decide]
    exact ⟨Uuid.str_injective, congrArg Uuid.str⟩
  have hr : ((orderRules db.rules).filter fun r => r.userId.map Uuid.str = some u.str) =
      db.userRules u := by
    rw [Database.userRules, orderRules, orderRules, List.filter_insertionSort]
    congr 1
    refine List.filter_congr fun r _ => ?_
    rw [decide_eq_decide]
    cases r.userId with
    | none => simp
    | some v => simpa using ⟨Uuid.str_injective, congrArg Uuid.str⟩
  rw [Database.entryOf, hd, hr, Database.userEntry]

lemma mem_userIds {db : Database} {uid : String} :
    uid ∈ db.userIds ↔ ∃ u, db.HasRows u ∧ u.str = uid := by
  unfold Database.userIds Database.HasRows
  rw [Finset.mem_union, List.mem_toFinset, List.mem_toFinset, List.mem_map, List.mem_filterMap]
  constructor
  · rintro (⟨d, hd, rfl⟩ | ⟨r, hr, hu⟩)
    · exact ⟨d.userId, .inl ⟨d, hd, rfl⟩, rfl⟩
    · obtain ⟨u, hu', rfl⟩ := Option.map_eq_some_iff.1 hu
      exact ⟨u, .inr ⟨r, hr, hu'⟩, rfl⟩
  · rintro ⟨u, ⟨d, hd, rfl⟩ | ⟨r, hr, hu⟩, rfl⟩
    · exact .inl ⟨d, hd, rfl⟩
    · exact .inr ⟨r, hr, by rw [hu]; rfl⟩

/-- **The entries of a reconciliation** are those of the users with rows, each once,
in some order. -/
theorem reconcileEntries_eq (db : Database) (uids : SetOrder db.userIds) :
    ∃ users : List Uuid, users.Nodup ∧ (∀ v, v ∈ users ↔ db.HasRows v) ∧
      uids.toList = users.map Uuid.str ∧
      db.reconcileEntries uids = users.map db.userEntry := by
  have hex : ∀ uid ∈ uids.toList, ∃ u : Uuid, u.str = uid := by
    intro uid huid
    obtain ⟨u, -, hu⟩ := mem_userIds.1 ((uids.mem_iff uid).1 huid)
    exact ⟨u, hu⟩
  obtain ⟨users, husers⟩ : ∃ users : List Uuid, uids.toList = users.map Uuid.str := by
    generalize uids.toList = l at hex
    induction l with
    | nil => exact ⟨[], rfl⟩
    | cons a l ih =>
      obtain ⟨u, hu⟩ := hex a List.mem_cons_self
      obtain ⟨us, hus⟩ := ih fun b hb => hex b (List.mem_cons_of_mem _ hb)
      exact ⟨u :: us, by rw [List.map_cons, hu, hus]⟩
  refine ⟨users, ?_, fun v => ?_, husers, ?_⟩
  · have hn := uids.nodup
    rw [husers] at hn
    exact hn.of_map _
  · have hm := uids.mem_iff v.str
    rw [husers, mem_userIds] at hm
    constructor
    · intro hv
      obtain ⟨w, hw, hs⟩ := hm.1 (List.mem_map_of_mem hv)
      rwa [← Uuid.str_injective hs]
    · intro hv
      obtain ⟨w, hw, hs⟩ := List.mem_map.1 (hm.2 ⟨v, hv, rfl⟩)
      rwa [← Uuid.str_injective hs]
  · rw [Database.reconcileEntries, husers, List.map_map]
    exact List.map_congr_left fun u _ => entryOf_str db u

/-! ### The table afterwards -/

section Table

variable {nft : FrontEnd} {db : Database} {uids : SetOrder db.userIds} {t t' : Table}
  {orphaned : SetOrder (orphanedChains t (db.reconcileEntries uids))}

lemma readable_of_mem_reconcileEntries (hdb : db.Readable nft) :
    ∀ e ∈ db.reconcileEntries uids, e.Readable nft := by
  obtain ⟨users, -, -, -, hentries⟩ := reconcileEntries_eq db uids
  intro e he
  rw [hentries] at he
  obtain ⟨u, -, rfl⟩ := List.mem_map.1 he
  exact hdb u

/-- **The jumps after a reconciliation** are those from the addresses and subnets of the devices, to
the chains of their owners. -/
theorem mem_forward_of_reconcile (ht : Named t) (hdb : db.Readable nft)
    (hok : rebuildAllRules nft (db.reconcileEntries uids) t orphaned = .ok t') {r : NftRule} :
    r ∈ t'.chains.rules "forward" ↔
      ∃ d ∈ db.devices, ∃ nets ∈ d.entry.nets, ∃ n ∈ nets, r = jumpRule (chainOf d.userId) n := by
  have hread : ∀ e ∈ db.reconcileEntries uids, e.Readable nft :=
    readable_of_mem_reconcileEntries hdb
  obtain ⟨users, -, husers, -, hentries⟩ := reconcileEntries_eq db uids
  obtain ⟨ps, hps⟩ := plans_of_readable hread
  obtain ⟨ch, -, hf⟩ := forward_of_rebuild ht (fun e he => (hread e he).name) hps hok
  rw [Nft.rules_of_lookup hf]
  show r ∈ ps.flatMap Nft.Plan.jumps ↔ _
  rw [List.mem_flatMap]
  constructor
  · rintro ⟨p, hp, hr⟩
    obtain ⟨e, he, hep⟩ := List.exists_of_mem_mapM hps hp
    obtain ⟨rules, nets, -, hnets, hplan⟩ := plan_of_readable (hread e he)
    obtain rfl := Option.some.inj (hep.symm.trans hplan)
    obtain ⟨n, hn, rfl⟩ := List.mem_map.1 hr
    obtain ⟨ns, hns, hn⟩ := List.mem_flatten.1 hn
    obtain ⟨de, hde, hden⟩ := List.exists_of_mem_mapM hnets hns
    rw [hentries] at he
    obtain ⟨u, -, rfl⟩ := List.mem_map.1 he
    obtain ⟨d, hd, rfl⟩ := List.mem_map.1 hde
    have hd := List.mem_filter.1 hd
    have hu : d.userId = u := by simpa using hd.2
    exact ⟨d, hd.1, ns, hden, n, hn, by rw [hu]; rfl⟩
  · rintro ⟨d, hd, ns, hden, n, hn, rfl⟩
    have he : db.userEntry d.userId ∈ db.reconcileEntries uids := by
      rw [hentries]
      exact List.mem_map_of_mem ((husers _).2 (.inl ⟨d, hd, rfl⟩))
    have hde : d.entry ∈ (db.userEntry d.userId).devices :=
      List.mem_map_of_mem (List.mem_filter.2 ⟨hd, by simp⟩)
    obtain ⟨p, hp, hep⟩ := List.exists_of_mapM hps he
    obtain ⟨rules, nets, -, hnets, hplan⟩ := plan_of_readable (hread _ he)
    obtain rfl := Option.some.inj (hep.symm.trans hplan)
    obtain ⟨ns', hns', hd'⟩ := List.exists_of_mapM hnets hde
    obtain rfl := Option.some.inj ((Option.mem_def.1 hden).symm.trans hd')
    exact ⟨_, hp, List.mem_map_of_mem (List.mem_flatten.2 ⟨ns, hns', hn⟩)⟩

/-- The chain of a user with rows has what the lines of their rules say. -/
lemma lookup_chain_of_reconcile (ht : Tidy t) (hdb : db.Readable nft)
    (hinj : ∀ u v, db.HasRows u → db.HasRows v → chainOf u = chainOf v → u = v)
    (hok : rebuildAllRules nft (db.reconcileEntries uids) t orphaned = .ok t') {v : Uuid}
    (hv : db.HasRows v) :
    ∃ rules, nft.rules (chainOf v) (db.userEntry v).ruleLines = some rules ∧
      t'.chains.lookup (chainOf v) = some ⟨none, rules⟩ := by
  have hread : ∀ e ∈ db.reconcileEntries uids, e.Readable nft :=
    readable_of_mem_reconcileEntries hdb
  obtain ⟨users, hnodup, husers, -, hentries⟩ := reconcileEntries_eq db uids
  obtain ⟨ps, hps⟩ := plans_of_readable hread
  -- the plan for the user
  have he : db.userEntry v ∈ db.reconcileEntries uids := by
    rw [hentries]
    exact List.mem_map_of_mem ((husers v).2 hv)
  obtain ⟨p, hp, hep⟩ := List.exists_of_mapM hps he
  obtain ⟨rules, nets, hr, -, hplan⟩ := plan_of_readable (hread _ he)
  obtain rfl := Option.some.inj (hep.symm.trans hplan)
  have hr : nft.rules (chainOf v) (db.userEntry v).ruleLines = some rules := hr
  have hp : (⟨chainOf v, rules, _⟩ : Nft.Plan String Nft.Match) ∈ ps := hp
  have hchains : (ps.map Nft.Plan.chain).Nodup := by
    rw [map_plan_chain hps, hentries, List.map_map]
    exact hnodup.map_on fun u hu v hv h => hinj u v ((husers u).1 hu) ((husers v).1 hv) h
  have hfree : ∀ c ∈ orphaned.toList, ∀ p ∈ ps, p.chain ≠ c :=
    (removable_orphaned hps orphaned).unplanned
  have hbase : (t.chains.lookup (chainOf v)).bind Nft.Chain.base = none := by
    cases hl : t.chains.lookup (chainOf v) with
    | none => rfl
    | some ch => exact ht.plain _ (isUserChain_chainOf v) ch hl
  refine ⟨rules, hr, ?_⟩
  rw [lookup_of_rebuild ht.named (fun e he => (hread e he).name) hps hok, Nft.effectOn_rebuild,
    if_neg fun ho => hfree _ ho _ hp rfl, if_neg (forward_ne_chainOf v),
    Nft.plannedRules_of_mem hchains hp, hbase]

/-- Each user's chain that is left belongs to somebody with rows: the others were orphaned. -/
lemma exists_of_mem_reconcile (ht : Tidy t) (hdb : db.Readable nft)
    (hok : rebuildAllRules nft (db.reconcileEntries uids) t orphaned = .ok t') {c : String}
    (hc : IsUserChain c) (hmem : c ∈ t'.chains) : ∃ v, db.HasRows v ∧ chainOf v = c := by
  have hread : ∀ e ∈ db.reconcileEntries uids, e.Readable nft :=
    readable_of_mem_reconcileEntries hdb
  obtain ⟨users, -, husers, -, hentries⟩ := reconcileEntries_eq db uids
  obtain ⟨ps, hps⟩ := plans_of_readable hread
  by_contra hno
  push Not at hno
  have hunplanned : ∀ p ∈ ps, p.chain ≠ c := by
    intro p hp hpc
    obtain ⟨e, he, hep⟩ := List.exists_of_mem_mapM hps hp
    rw [hentries] at he
    obtain ⟨u, hu, rfl⟩ := List.mem_map.1 he
    exact hno u ((husers u).1 hu) ((plan_chain hep).symm.trans hpc)
  obtain ⟨ch, hch⟩ := Nft.mem_iff_lookup.1 hmem
  rw [lookup_of_rebuild ht.named (fun e he => (hread e he).name) hps hok, Nft.effectOn_rebuild,
    Nft.plannedRules_eq_none.2 hunplanned] at hch
  by_cases ho : c ∈ orphaned.toList
  · rw [if_pos ho] at hch
    cases hch
  · rw [if_neg ho, if_neg hc.ne_forward] at hch
    refine ho ((orphaned.mem_iff c).2 (mem_orphanedChains.2 ⟨⟨?_, hc⟩, fun e he hec => ?_⟩))
    · exact Nft.mem_iff_lookup.2 ⟨ch, hch⟩
    · obtain ⟨p, hp, hep⟩ := List.exists_of_mapM hps he
      exact hunplanned p hp ((plan_chain hep).trans hec)

/-- The lines of the jumps are read as those of the plans. -/
lemma rules_flatMap_jumpLines {es : List Entry} {ps : List (Nft.Plan String Nft.Match)}
    (hps : es.mapM (Entry.plan nft) = some ps) :
    nft.rules "forward" (es.flatMap Entry.jumpLines) = some (Nft.allJumps ps) := by
  rw [List.mapM_eq_some_iff] at hps
  induction hps with
  | nil => rfl
  | cons hp _ ih =>
    exact List.mapM_append_eq_some_iff.2 ⟨_, _, ((plan_eq_some_iff nft).1 hp).2.2, ih, rfl⟩

/-- **A reconciliation puts the firewall in step** with the database, if no two users share the name
of a chain. -/
theorem inSync_of_reconcile (ht : Tidy t) (hdb : db.Readable nft)
    (hinj : ∀ u v, db.HasRows u → db.HasRows v → chainOf u = chainOf v → u = v)
    (hok : rebuildAllRules nft (db.reconcileEntries uids) t orphaned = .ok t') :
    InSync nft db t' := by
  refine ⟨fun c hc => ⟨fun hmem => ?_, ?_⟩, fun v hv => ?_, ?_⟩
  · exact exists_of_mem_reconcile ht hdb hok hc hmem
  · rintro ⟨v, hv, rfl⟩
    obtain ⟨rules, -, hl⟩ := lookup_chain_of_reconcile ht hdb hinj hok hv
    exact Nft.mem_iff_lookup.2 ⟨_, hl⟩
  · exact lookup_chain_of_reconcile ht hdb hinj hok hv
  · have hread : ∀ e ∈ db.reconcileEntries uids, e.Readable nft :=
      readable_of_mem_reconcileEntries hdb
    obtain ⟨users, hnodup, husers, -, hentries⟩ := reconcileEntries_eq db uids
    obtain ⟨ps, hps⟩ := plans_of_readable hread
    obtain ⟨ch, -, hf⟩ := forward_of_rebuild ht.named (fun e he => (hread e he).name) hps hok
    refine ⟨users, hnodup, husers, ?_⟩
    rw [Nft.rules_of_lookup hf]
    have hall := rules_flatMap_jumpLines hps
    rw [hentries, List.flatMap_map] at hall
    exact hall

end Table

end WireGui
