import WireGui.Nft.Eval
import WireGui.Services.Ownership

/-!
# A new device: the fast path and the full rebuild

`on_device_created` makes the owner's chain if it is not there and puts the jumps of the device at
the end of `forward`.  A reconciliation writes all chains and the whole of `forward` anew, user by
user in the order of a set.

The two tables differ in the order of the jumps only.  A packet comes from the networks of one
device at most, so that all jumps it takes lead to one chain, and it meets the same there.
-/

namespace WireGui

open Nft (evalRules)

/-- No packet comes from both devices: no address is in a network of each. -/
def Device.Disjoint (d d' : Device) : Prop :=
  ∀ nets ∈ d.entry.nets, ∀ nets' ∈ d'.entry.nets, ∀ n ∈ nets, ∀ n' ∈ nets', ∀ a : Ip.Addr,
    ¬ (a ∈ n ∧ a ∈ n')

instance : Std.Symm Device.Disjoint where
  symm _ _ h nets hn nets' hn' n hm n' hm' a ha := h nets' hn' nets hn n' hm' n hm a ha.symm

/-- The database with the row of a new device. -/
def Database.withDevice (db : Database) (d : Device) : Database :=
  { db with devices := db.devices ++ [d] }

/-- What a packet meets in a chain: its hook and its rules.  A chain that is not there is like an
empty one. -/
def content (t : Table) (c : String) : Option Nft.Base × List NftRule :=
  ((t.chains.lookup c).bind Nft.Chain.base, t.chains.rules c)

lemma content_congr {t t' : Table} {c : String} (h : t'.chains.lookup c = t.chains.lookup c) :
    content t' c = content t c := by
  rw [content, content, h, Nft.rules_congr h]

lemma content_of_lookup {t : Table} {c : String} {ch : Nft.Chain String Nft.Match}
    (h : t.chains.lookup c = some ch) : content t c = (ch.base, ch.rules) := by
  rw [content, h, Nft.rules_of_lookup h]
  rfl

lemma content_of_notMem {t : Table} {c : String} (h : c ∉ t.chains) : content t c = (none, []) := by
  rw [content, Finmap.lookup_eq_none.2 h, Nft.rules_of_notMem h]
  rfl

/-- Outside of the user chains the tables hold the same, but for the rules of `forward`. -/
structure Alike (t t' : Table) : Prop where
  base : ∀ c, ¬ IsUserChain c → (content t c).1 = (content t' c).1
  rules : ∀ c, ¬ IsUserChain c → c ≠ "forward" → content t c = content t' c

lemma Alike.refl (t : Table) : Alike t t := ⟨fun _ _ => rfl, fun _ _ _ => rfl⟩

lemma Alike.symm {t t' : Table} (h : Alike t t') : Alike t' t :=
  ⟨fun c hc => (h.base c hc).symm, fun c hc hf => (h.rules c hc hf).symm⟩

lemma Alike.trans {t u v : Table} (h : Alike t u) (h' : Alike u v) : Alike t v :=
  ⟨fun c hc => (h.base c hc).trans (h'.base c hc),
    fun c hc hf => (h.rules c hc hf).trans (h'.rules c hc hf)⟩

/-! ### The fast path -/

section Created

variable {nft : FrontEnd} {t t' : Table}

/-- What becomes of each chain when a device is created. -/
lemma lookup_onDeviceCreated {settings : Settings} (hwg : settings.wgEnabled = true) {d : Device}
    (hok : Accepted nft d t) (c : String) :
    let u := (onDeviceCreated settings nft d t).chains.lookup c
    u = t.chains.lookup c ∨
      (c = chainOf d.userId ∧ t.chains.lookup c = none ∧ u = some ⟨none, []⟩) ∨
      (c = "forward" ∧ ∃ rules, u = (t.chains.lookup c).map fun ch => ⟨ch.base, rules⟩) := by
  obtain ⟨⟨nets, hnets⟩, t₁, t₂, h₁, h₂⟩ := hok
  rw [onDeviceCreated_of_ok hwg h₁ h₂]
  have hl₂ := lookup_addDeviceJumpRule hnets h₂ c
  rcases lookup_addUserChain h₁ c with hl₁ | ⟨rfl, hnone, hl₁⟩
  · rw [hl₁] at hl₂
    by_cases hc : c = "forward"
    · subst hc
      refine .inr (.inr ⟨rfl,
        t.chains.rules "forward" ++ nets.map (jumpRule (chainOf d.userId)), ?_⟩)
      show t₂.chains.lookup "forward" = _
      rw [hl₂, if_pos rfl]
      cases hl : t.chains.lookup "forward" with
      | none => rfl
      | some ch => rw [Option.map_some, Option.map_some, Nft.rules_of_lookup hl]
    · exact .inl (hl₂.trans (if_neg hc))
  · rw [if_neg (forward_ne_chainOf d.userId)] at hl₂
    exact .inr (.inl ⟨rfl, hnone, hl₂.trans hl₁⟩)

variable {settings : Settings} {d : Device}

lemma content_onDeviceCreated (hwg : settings.wgEnabled = true) (hok : Accepted nft d t)
    {c : String} (hc : c ≠ "forward") :
    content (onDeviceCreated settings nft d t) c = content t c := by
  rcases lookup_onDeviceCreated hwg hok c with hl | ⟨-, hnone, hl⟩ | ⟨hf, -⟩
  · exact content_congr hl
  · rw [content_of_lookup hl, content_of_notMem (Finmap.lookup_eq_none.1 hnone)]
  · exact absurd hf hc

lemma base_onDeviceCreated (hwg : settings.wgEnabled = true) (hok : Accepted nft d t) (c : String) :
    (content (onDeviceCreated settings nft d t) c).1 = (content t c).1 := by
  by_cases hc : c = "forward"
  · subst hc
    rcases lookup_onDeviceCreated hwg hok "forward" with hl | ⟨hu, -⟩ | ⟨-, rules, hl⟩
    · rw [content_congr hl]
    · exact absurd hu.symm (forward_ne_chainOf d.userId)
    · show ((onDeviceCreated settings nft d t).chains.lookup "forward").bind _ = _
      rw [hl]
      show _ = (t.chains.lookup "forward").bind _
      cases t.chains.lookup "forward" <;> rfl
  · rw [content_onDeviceCreated hwg hok hc]

lemma alike_onDeviceCreated (hwg : settings.wgEnabled = true) (hok : Accepted nft d t) :
    Alike (onDeviceCreated settings nft d t) t :=
  ⟨fun c _ => base_onDeviceCreated hwg hok c, fun _ _ hf => content_onDeviceCreated hwg hok hf⟩

lemma Tidy.onDeviceCreated (h : Tidy t) (hwg : settings.wgEnabled = true) (hok : Accepted nft d t) :
    Tidy (WireGui.onDeviceCreated settings nft d t) := by
  have hkeep : ∀ c, IsUserChain c →
      ∀ ch ∈ (WireGui.onDeviceCreated settings nft d t).chains.lookup c,
      t.chains.lookup c = some ch ∨ (c = chainOf d.userId ∧ ch.base = none) := by
    intro c hc ch hch
    rcases lookup_onDeviceCreated hwg hok c with hl | ⟨hu, -, hl⟩ | ⟨hf, -⟩
    · exact .inl (hl.symm.trans hch)
    · rw [Option.mem_def, hl] at hch
      exact .inr ⟨hu, by rw [← Option.some.inj hch]⟩
    · exact absurd hf hc.ne_forward
  constructor
  · intro c hm hc
    obtain ⟨ch, hch⟩ := Nft.mem_iff_lookup.1 hm
    rcases hkeep c hc ch hch with hl | ⟨rfl, -⟩
    · exact h.named c (Nft.mem_iff_lookup.2 ⟨ch, hl⟩) hc
    · exact isName_chainOf d.userId
  · intro c hc ch hch
    rcases hkeep c hc ch hch with hl | ⟨-, hb⟩
    · exact h.plain c hc ch hl
    · exact hb

end Created

/-! ### The full rebuild -/

section Rebuilt

variable {nft : FrontEnd} {t t' : Table}

/-- A rebuild leaves the other chains alone, and the hook of `forward`. -/
lemma alike_of_rebuild {es : List Entry} (ht : Tidy t) (hes : ∀ e ∈ es, e.Readable nft)
    {orphaned : SetOrder (orphanedChains t es)}
    (h : rebuildAllRules nft es t orphaned = .ok t') : Alike t' t := by
  have hname : ∀ e ∈ es, Nft.IsName e.chain := fun e he => (hes e he).name
  obtain ⟨ps, hps⟩ := plans_of_readable hes
  have hother : ∀ c, ¬ IsUserChain c → c ≠ "forward" → content t' c = content t c := by
    intro c hc hf
    have ho : c ∉ orphaned.toList := fun ho =>
      hc (mem_orphanedChains.1 ((orphaned.mem_iff c).1 ho)).1.2
    have hno : Nft.plannedRules c ps = none := by
      refine Nft.plannedRules_eq_none.2 fun p hp he => ?_
      obtain ⟨e, -, hep⟩ := List.exists_of_mem_mapM hps hp
      rw [← he, plan_chain hep] at hc
      exact hc (isUserChain_userChainName e.userId)
    refine content_congr ?_
    rw [lookup_of_rebuild ht.named hname hps h, Nft.effectOn_rebuild, if_neg ho, hno, if_neg hf]
  refine ⟨fun c hc => ?_, hother⟩
  by_cases hf : c = "forward"
  · subst hf
    obtain ⟨ch, hch, hl⟩ := forward_of_rebuild ht.named hname hps h
    rw [content_of_lookup hch, content_of_lookup hl]
  · rw [hother c hc hf]

/-- The user chains of two databases with the same rules: a chain for a user without rules is like
none. -/
lemma content_of_inSync {db db' : Database} (hrules : db.rules = db'.rules)
    (hrows : ∀ v, db.HasRows v → db'.HasRows v)
    (hinj : ∀ u v, db'.HasRows u → db'.HasRows v → chainOf u = chainOf v → u = v)
    (hs : InSync nft db t) (hs' : InSync nft db' t') {c : String} (hc : IsUserChain c) :
    content t c = content t' c := by
  by_cases hm : ∃ v, db'.HasRows v ∧ chainOf v = c
  · obtain ⟨v, hv, rfl⟩ := hm
    obtain ⟨rules, hr, hl⟩ := hs'.rules v hv
    rw [content_of_lookup hl]
    by_cases hold : db.HasRows v
    · obtain ⟨rules', hr', hl'⟩ := hs.rules v hold
      have hlines : (db.userEntry v).ruleLines = (db'.userEntry v).ruleLines := by
        unfold Entry.ruleLines Entry.orderedRules Database.userEntry Database.userRules
        rw [hrules]
        rfl
      rw [hlines] at hr'
      rw [content_of_lookup hl', Option.some.inj (hr'.symm.trans hr)]
    · -- the user had no chain, and has no rules
      have hno : chainOf v ∉ t.chains := by
        intro hm
        obtain ⟨w, hw, he⟩ := (hs.userChains _ hc).1 hm
        rw [hinj w v (hrows w hw) hv he] at hw
        exact hold hw
      have hnil : (db'.userEntry v).ruleLines = [] := by
        have hur : db'.rules.filter (·.userId = some v) = [] := by
          refine List.filter_eq_nil_iff.2 fun r hr hu => hold (.inr ⟨r, hrules ▸ hr, ?_⟩)
          simpa using hu
        unfold Entry.ruleLines Entry.orderedRules Database.userEntry Database.userRules
        rw [hur]
        rfl
      rw [hnil] at hr
      obtain rfl : ([] : List NftRule) = rules := Option.some.inj hr
      exact content_of_notMem hno
  · have hno' : c ∉ t'.chains := fun h => hm ((hs'.userChains c hc).1 h)
    have hno : c ∉ t.chains := by
      intro h
      obtain ⟨w, hw, he⟩ := (hs.userChains c hc).1 h
      exact hm ⟨w, hrows w hw, he⟩
    rw [content_of_notMem hno, content_of_notMem hno']

end Rebuilt

/-! ### Both -/

section Both

variable {settings : Settings} {nft : FrontEnd} {db : Database} {device : Device}

lemma hasRows_withDevice {v : Uuid} (h : db.HasRows v) : (db.withDevice device).HasRows v := by
  rcases h with ⟨d, hd, hv⟩ | hr
  · exact .inl ⟨d, List.mem_append_left _ hd, hv⟩
  · exact .inr hr

/-- Fewer devices are read as well. -/
lemma readable_of_withDevice (h : (db.withDevice device).Readable nft) : db.Readable nft := by
  intro u
  refine ⟨(h u).name, fun e he => ?_, (h u).rules⟩
  obtain ⟨d, hd, rfl⟩ := List.mem_map.1 he
  obtain ⟨hd, hu⟩ := List.mem_filter.1 hd
  have hd' : d ∈ (db.withDevice device).devices := List.mem_append_left _ hd
  exact (h u).devices _ (List.mem_map_of_mem (List.mem_filter.2 ⟨hd', hu⟩))

/-- The jumps of the old devices are there, and those of the new one are added. -/
lemma mem_forward_onDeviceCreated (hwg : settings.wgEnabled = true) {t : Table}
    (hok : Accepted nft device t)
    (ht : ∀ r, r ∈ t.chains.rules "forward" ↔
      ∃ d ∈ db.devices, ∃ nets ∈ d.entry.nets, ∃ n ∈ nets, r = jumpRule (chainOf d.userId) n)
    {r : NftRule} :
    r ∈ (onDeviceCreated settings nft device t).chains.rules "forward" ↔
      ∃ d ∈ (db.withDevice device).devices, ∃ nets ∈ d.entry.nets, ∃ n ∈ nets,
        r = jumpRule (chainOf d.userId) n := by
  obtain ⟨⟨nets, hnets⟩, -⟩ := id hok
  rw [rules_onDeviceCreated hwg hok hnets, List.mem_append, ht]
  constructor
  · rintro (⟨d, hd, hr⟩ | hr)
    · exact ⟨d, List.mem_append_left _ hd, hr⟩
    · obtain ⟨n, hn, rfl⟩ := List.mem_map.1 hr
      exact ⟨device, List.mem_append_right _ List.mem_cons_self, nets, hnets, n, hn, rfl⟩
  · rintro ⟨d, hd, ns, hns, n, hn, rfl⟩
    rcases List.mem_append.1 hd with hd | hd
    · exact .inl ⟨d, hd, ns, hns, n, hn, rfl⟩
    · obtain rfl := List.mem_singleton.1 hd
      obtain rfl := Option.some.inj ((Option.mem_def.1 hns).symm.trans hnets)
      exact .inr (List.mem_map_of_mem hn)

/-- All jumps that fire lead to one chain. -/
lemma exists_chain_of_disjoint {devices : List Device}
    (hdisj : devices.Pairwise Device.Disjoint) {rules : List NftRule}
    (hrules : ∀ r ∈ rules, ∃ d ∈ devices, ∃ nets ∈ d.entry.nets, ∃ n ∈ nets,
      r = jumpRule (chainOf d.userId) n) (other : String → Nft.Packet → Bool) (p : Nft.Packet) :
    ∃ c, ∀ r ∈ rules, r.Hits (Nft.sat other) p → r.verdict = .jump c := by
  have hhits : ∀ c n, (jumpRule c n).Hits (Nft.sat other) p → p.src ∈ n := by
    intro c n h
    exact Nft.sat_saddr.1 (h _ List.mem_cons_self)
  by_cases hex : ∃ d ∈ devices, ∃ nets ∈ d.entry.nets, ∃ n ∈ nets, p.src ∈ n
  · obtain ⟨d, hd, nets, hnets, n, hn, hp⟩ := hex
    refine ⟨chainOf d.userId, fun r hr hit => ?_⟩
    obtain ⟨d', hd', nets', hnets', n', hn', rfl⟩ := hrules r hr
    have hsame : d' = d := by
      by_contra hne
      exact hdisj.forall hd' hd hne nets' hnets' nets hnets n' hn' n hn
        p.src ⟨hhits _ _ hit, hp⟩
    rw [hsame]
    rfl
  · refine ⟨"forward", fun r hr hit => ?_⟩
    obtain ⟨d, hd, nets, hnets, n, hn, rfl⟩ := hrules r hr
    exact absurd ⟨d, hd, nets, hnets, n, hn, hhits _ _ hit⟩ hex

/-- **The fast path decides as the full rebuild does**, about every packet and at every hook,
whether the rebuild starts from the table before it, from its own, or from the one that the table
was built from. -/
theorem hookDecision_onDeviceCreated (hwg : settings.wgEnabled = true)
    (hread : (db.withDevice device).Readable nft)
    (hinj : ∀ u v, (db.withDevice device).HasRows u → (db.withDevice device).HasRows v →
      chainOf u = chainOf v → u = v)
    (hdisj : (db.devices ++ [device]).Pairwise Device.Disjoint) {t₀ t : Table}
    (ht₀ : BaseSetup t₀) {uids : SetOrder db.userIds}
    {orphaned : SetOrder (orphanedChains t₀ (db.reconcileEntries uids))}
    (hbuilt : rebuildAllRules nft (db.reconcileEntries uids) t₀ orphaned = .ok t)
    (hok : Accepted nft device t) {s : Table}
    (hs : s = t₀ ∨ s = t ∨ s = onDeviceCreated settings nft device t)
    {uids' : SetOrder (db.withDevice device).userIds}
    {orphaned' : SetOrder (orphanedChains s ((db.withDevice device).reconcileEntries uids'))}
    {t' : Table}
    (hrebuilt : rebuildAllRules nft ((db.withDevice device).reconcileEntries uids') s orphaned' =
      .ok t') (h : Nft.Hook) (p : Nft.Packet) :
    (onDeviceCreated settings nft device t).chains.hookDecision (Nft.sat nft.other) h p =
      t'.chains.hookDecision (Nft.sat nft.other) h p := by
  have hdb := readable_of_withDevice hread
  have hsync : InSync nft db t := inSync_of_reconcile ht₀.tidy hdb
    (fun u v hu hv => hinj u v (hasRows_withDevice hu) (hasRows_withDevice hv)) hbuilt
  have halike₀ : Alike t t₀ :=
    alike_of_rebuild ht₀.tidy (readable_of_mem_reconcileEntries hdb) hbuilt
  have halike₁ := alike_onDeviceCreated hwg hok
  -- the table that the rebuild starts from
  obtain ⟨htidy, halike⟩ : Tidy s ∧ Alike s t := by
    rcases hs with rfl | rfl | rfl
    · exact ⟨ht₀.tidy, halike₀.symm⟩
    · exact ⟨hsync.tidy, .refl s⟩
    · exact ⟨hsync.tidy.onDeviceCreated hwg hok, halike₁⟩
  have hsync' := inSync_of_reconcile htidy hread hinj hrebuilt
  have halike' : Alike t' (onDeviceCreated settings nft device t) :=
    (alike_of_rebuild htidy (readable_of_mem_reconcileEntries hread) hrebuilt).trans
      (halike.trans halike₁.symm)
  have huser : ∀ c, IsUserChain c →
      content (onDeviceCreated settings nft device t) c = content t' c := by
    intro c hc
    rw [content_onDeviceCreated hwg hok hc.ne_forward]
    have hrules : db.rules = (db.withDevice device).rules := rfl
    exact content_of_inSync hrules (fun v => hasRows_withDevice) hinj hsync hsync' hc
  refine Nft.hookDecision_congr _ (fun c => ?_) (fun c call => ?_) h
  · by_cases hc : IsUserChain c
    · exact congrArg Prod.fst (huser c hc)
    · exact (halike'.base c hc).symm
  by_cases hcf : c = "forward"
  · subst hcf
    have hmem : ∀ r, r ∈ (onDeviceCreated settings nft device t).chains.rules "forward" ↔
        r ∈ t'.chains.rules "forward" := by
      intro r
      have hold := fun r => mem_forward_of_reconcile (r := r) ht₀.names hdb hbuilt
      rw [mem_forward_onDeviceCreated hwg hok hold,
        mem_forward_of_reconcile htidy.named hread hrebuilt]
    have hjumps := fun r => (mem_forward_of_reconcile htidy.named hread hrebuilt (r := r)).1
    obtain ⟨c, hc⟩ := exists_chain_of_disjoint hdisj hjumps nft.other p
    exact Nft.evalRules_congr_of_mem_iff hmem fun r hr => hc r ((hmem r).1 hr)
  · by_cases hc : IsUserChain c
    · exact congrArg (evalRules _ call p) (congrArg Prod.snd (huser c hc))
    · exact congrArg (evalRules _ call p) (congrArg Prod.snd (halike'.rules c hc hcf)).symm

end Both

/-! The phone of another user is added to a firewall with one device. -/

lemma nets_phone : phone.entry.nets = some [phoneAddr.host] := by decide

lemma phone_accepted (nft : FrontEnd) : Accepted nft phone laptopTable := by
  have hchain : Nft.run [.addChain (chainOf bob) none] laptopTable.chains =
      some withBob.chains := by decide
  have hjumps : Nft.run [.addRule "forward" (jumpRule (chainOf bob) phoneAddr.host)]
      withBob.chains = some twoUsersTable.chains := by decide
  exact accepted_of_run nft nets_phone (by decide) hchain hjumps

lemma withPhone_wellFormed (u : Uuid) : ((oneDevice.withDevice phone).userEntry u).WellFormed where
  name := isName_chainOf u
  devices := by
    intro e he
    obtain ⟨d, hd, rfl⟩ := List.mem_map.1 he
    have hd : d ∈ [laptop, phone] := (List.mem_filter.1 hd).1
    have hall : ∀ d ∈ [laptop, phone], d.entry.nets.isSome := by decide
    exact Option.isSome_iff_exists.1 (hall d hd)
  rules := fun r hr => absurd hr List.not_mem_nil

lemma withPhone_readable (nft : FrontEnd) : (oneDevice.withDevice phone).Readable nft :=
  fun u => ⟨isName_chainOf u, (withPhone_wellFormed u).devices, [], rfl⟩

lemma withPhone_distinct : ∀ u v, (oneDevice.withDevice phone).HasRows u →
    (oneDevice.withDevice phone).HasRows v → chainOf u = chainOf v → u = v := by
  have huser : ∀ u, (oneDevice.withDevice phone).HasRows u → u ∈ [alice, bob] := by
    rintro u (⟨d, hd, rfl⟩ | ⟨r, hr, -⟩)
    · have hall : ∀ d ∈ [laptop, phone], d.userId ∈ [alice, bob] := by decide
      exact hall d hd
    · cases hr
  have hall : ∀ u ∈ [alice, bob], ∀ v ∈ [alice, bob], chainOf u = chainOf v → u = v := by decide
  exact fun u v hu hv => hall u (huser u hu) v (huser v hv)

lemma withPhone_disjoint : (oneDevice.devices ++ [phone]).Pairwise Device.Disjoint := by
  refine List.pairwise_pair.2 fun nets hnets nets' hnets' n hn n' hn' a ha => ?_
  have hlaptop : laptop.entry.nets = some [laptopAddr.host] := by decide
  obtain rfl := Option.some.inj (hlaptop.symm.trans hnets)
  obtain rfl := Option.some.inj (nets_phone.symm.trans hnets')
  rw [List.mem_singleton.1 hn, List.mem_singleton.1 hn', Ip.mem_host, Ip.mem_host] at ha
  exact absurd (ha.1.symm.trans ha.2) (by decide)

theorem hookDecision_onDeviceCreated_phone :
    ∃ t', rebuildAllRules (.fragment tableName)
        ((oneDevice.withDevice phone).reconcileEntries (ascending _)) laptopTable (ascending _) =
          .ok t' ∧
      ∀ h p,
        (onDeviceCreated smallSettings (.fragment tableName) phone laptopTable).chains.hookDecision
            (Nft.sat (Nft.FrontEnd.fragment tableName).other) h p =
          t'.chains.hookDecision (Nft.sat (Nft.FrontEnd.fragment tableName).other) h p := by
  obtain ⟨users, hnodup, husers, -, hentries⟩ :=
    reconcileEntries_eq (oneDevice.withDevice phone) (ascending _)
  have hwf : ∀ e ∈ (oneDevice.withDevice phone).reconcileEntries (ascending _), e.WellFormed := by
    intro e he
    rw [hentries] at he
    obtain ⟨u, -, rfl⟩ := List.mem_map.1 he
    exact withPhone_wellFormed u
  have hnames : (((oneDevice.withDevice phone).reconcileEntries (ascending _)).map
      Entry.chain).Nodup := by
    rw [hentries, List.map_map]
    exact hnodup.map_on fun u hu v hv =>
      withPhone_distinct u v ((husers u).1 hu) ((husers v).1 hv)
  obtain ⟨t', ht', -⟩ := exists_realises (.fragment tableName) laptopTable_baseSetup hwf hnames
    (ascending _)
  exact ⟨t', ht', hookDecision_onDeviceCreated rfl (withPhone_readable _) withPhone_distinct
    withPhone_disjoint laptopTable_baseSetup (oneDevice_reconciled _) (phone_accepted _) (.inl rfl)
    ht'⟩

end WireGui
