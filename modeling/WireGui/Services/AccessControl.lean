import WireGui.Pages.RulePriorities
import WireGui.Services.FastPath
import WireGui.Services.ServedRuns
import WireGui.Services.Users
import WireGui.Tasks.RuleOrder

/-!
# The firewall enforces the rules of the database

`Database.Says` is what the rows say about a packet of a user: the first of the user's rules that
applies to it decides, and without one it passes.  Startup writes this into the table, whatever was
done to the table before; from then on devices come and go, users are deleted and switches are
turned, and in every state the kernel decides as the rows say (`run_enforces`).

The exceptions are stated with the step: a device may not be given an address that a jump of another
user still leads away from (`Clear`).  A change of the rules themselves is carried over by the next
startup.
-/

namespace WireGui

open Nft (IsName evalRules evalChain stackSize)

/-! ### What the database says -/

/-- The rule is about packets like this one.  Ports count only with a protocol, and the other way
around. -/
def Rule.Applies (r : Rule) (p : Nft.Packet) : Prop :=
  (∃ n ∈ Ip.readNet r.destination, p.dst ∈ n) ∧
    ∀ s ∈ truthy r.portType, ∀ s' ∈ truthy r.portRange, ∃ proto ∈ readProto s,
      ∃ q ∈ Nft.readPorts s', ∃ d ∈ p.transport.dport proto, q.1 ≤ d ∧ d ≤ q.2

/-- What the rule does with them. -/
def Rule.ruling (r : Rule) : Option Nft.Decision := (readAction r.action).bind Nft.Verdict.decision

/-- **What the rows say** about a packet of the user: some rule that applies and comes before all
others that do decides; where none applies the packet passes. -/
inductive Database.Says (db : Database) (u : Uuid) (p : Nft.Packet) : Nft.Decision → Prop
  | rule (r : Rule) (hr : r ∈ db.rules) (hu : r.userId = some u) (ha : r.Applies p)
      (hfirst : ∀ s ∈ db.rules, s.userId = some u → s.Applies p → r.before s) (d : Nft.Decision)
      (hd : r.ruling = some d) : Database.Says db u p d
  | pass (h : ∀ r ∈ db.rules, r.userId = some u → ¬ r.Applies p) : Database.Says db u p .accept

section Says

variable {db : Database} {u : Uuid} {p : Nft.Packet} {other : String → Nft.Packet → Bool}
  {call : String → Option Nft.Decision}

/-- The statement of a rule matches the packets that the rule applies to. -/
lemma hits_iff_applies {r : Rule} {rule : NftRule} (h : r.entry.meaning = some rule) :
    rule.Hits (Nft.sat other) p ↔ r.Applies p := by
  obtain ⟨n, ports, v, hn, hp, hv, rfl⟩ := meaning_eq_some_iff.1 h
  have hn : Ip.readNet r.destination = some n := hn
  have hp : portMatch r.portType r.portRange = some ports := hp
  have hports : (∀ m ∈ ports, Nft.sat other m p = true) ↔
      ∀ s ∈ truthy r.portType, ∀ s' ∈ truthy r.portRange, ∃ proto ∈ readProto s,
        ∃ q ∈ Nft.readPorts s', ∃ d ∈ p.transport.dport proto, q.1 ≤ d ∧ d ≤ q.2 := by
    unfold portMatch at hp
    split at hp
    next pt pr hpt hpr =>
      obtain ⟨proto, hproto, hp⟩ := Option.bind_eq_some_iff.1 hp
      obtain ⟨q, hq, hp⟩ := Option.bind_eq_some_iff.1 hp
      obtain rfl := Option.some.inj hp
      rw [hpt, hpr]
      simp only [List.forall_mem_singleton, Nft.sat, decide_eq_true_eq, forall_eq',
        Option.mem_def, hproto, hq, Option.some.injEq, exists_eq_left']
    next hno =>
      obtain rfl := Option.some.inj hp
      refine iff_of_true (fun m hm => absurd hm List.not_mem_nil) fun s hs s' hs' => ?_
      exact (hno s s' hs hs').elim
  rw [Rule.Applies, hn, ← hports]
  simp [Nft.Rule.Hits]

lemma ruling_of_meaning {r : Rule} {rule : NftRule} (h : r.entry.meaning = some rule) :
    ∃ d, r.ruling = some d ∧ rule.verdict.decision = some d ∧
      (rule.verdict = .accept ∨ rule.verdict = .drop) := by
  obtain ⟨n, ports, v, -, -, hv, rfl⟩ := meaning_eq_some_iff.1 h
  have hr : r.ruling = v.decision := by
    unfold Rule.ruling
    rw [show readAction r.action = some v from hv]
    rfl
  rw [hr]
  rcases readAction_cases hv with ⟨-, rfl⟩ | ⟨-, rfl⟩
  · exact ⟨.accept, rfl, rfl, .inl rfl⟩
  · exact ⟨.drop, rfl, rfl, .inr rfl⟩

/-- The rules in their order, as nft holds them: the first that applies decides. -/
lemma evalRules_of_ordered (other : String → Nft.Packet → Bool) (call : String → Option Nft.Decision)
    (p : Nft.Packet) {l : List Rule} {rules : List NftRule} (hl : l.Pairwise Rule.before)
    (h : List.Forall₂ (fun r rule => r.entry.meaning = some rule) l rules) :
    (∃ r ∈ l, r.Applies p ∧ (∀ s ∈ l, s.Applies p → r.before s) ∧
        ∃ d, r.ruling = some d ∧ evalRules (Nft.sat other) call p rules = some d) ∨
      ((∀ r ∈ l, ¬ r.Applies p) ∧ evalRules (Nft.sat other) call p rules = none) := by
  induction h with
  | nil => exact .inr ⟨fun r hr => absurd hr List.not_mem_nil, rfl⟩
  | @cons r rule l rules hr _ ih =>
    rw [List.pairwise_cons] at hl
    by_cases hit : r.Applies p
    · obtain ⟨d, hd, -, hv⟩ := ruling_of_meaning hr
      refine .inl ⟨r, List.mem_cons_self, hit, fun s hs _ => ?_, d, hd, ?_⟩
      · rcases List.mem_cons.1 hs with rfl | hs
        · exact .inr ⟨rfl, le_refl _⟩
        · exact hl.1 s hs
      · obtain ⟨d', hd', hdec, hv⟩ := ruling_of_meaning hr
        obtain rfl := Option.some.inj (hd.symm.trans hd')
        rw [evalRules, if_pos ((hits_iff_applies hr).2 hit), ← hdec]
        rcases hv with hv | hv <;> rw [hv] <;> rfl
    · have hno : ¬ rule.Hits (Nft.sat other) p := fun h => hit ((hits_iff_applies hr).1 h)
      rw [Nft.evalRules_cons_of_not_hits hno]
      rcases ih hl.2 with ⟨s, hs, ha, hfirst, hd⟩ | ⟨hnone, he⟩
      · refine .inl ⟨s, List.mem_cons_of_mem _ hs, ha, fun q hq hqa => ?_, hd⟩
        rcases List.mem_cons.1 hq with rfl | hq
        · exact absurd hqa hit
        · exact hfirst q hq hqa
      · exact .inr ⟨List.forall_mem_cons.2 ⟨hit, hnone⟩, he⟩

lemma rulesMeant_userEntry (db : Database) (u : Uuid) :
    (db.userEntry u).rulesMeant = ((db.userRules u).map Rule.entry).mapM RuleEntry.meaning := by
  rw [Entry.rulesMeant, orderedRules_userEntry]

/-- **A chain that holds the rules of the user** decides as the rows say. -/
theorem says_evalRules {rules : List NftRule} (h : (db.userEntry u).rulesMeant = some rules) :
    db.Says u p ((evalRules (Nft.sat other) call p rules).getD .accept) := by
  rw [rulesMeant_userEntry, List.mapM_eq_some_iff, List.forall₂_map_left_iff] at h
  rcases evalRules_of_ordered other call p (orderRules_sorted _) h with
    ⟨r, hr, ha, hfirst, d, hd, he⟩ | ⟨hnone, he⟩
  · obtain ⟨hrm, hu⟩ := mem_userRules_iff.1 hr
    rw [he]
    exact .rule r hrm hu ha (fun s hs hsu => hfirst s (mem_userRules_iff.2 ⟨hs, hsu⟩)) d hd
  · rw [he]
    exact .pass fun r hr hu => hnone r (mem_userRules_iff.2 ⟨hr, hu⟩)

end Says

/-! ### The table enforces it -/

/-- A packet from the address comes from the device. -/
def Device.SendsFrom (d : Device) (a : Ip.Addr) : Prop := ∃ nets ∈ d.entry.nets, ∃ n ∈ nets, a ∈ n

/-- No two users with rows have the same chain. -/
def Database.DistinctChains (db : Database) : Prop :=
  ∀ u v, db.HasRows u → db.HasRows v → chainOf u = chainOf v → u = v

/-- No packet comes from devices of two users. -/
def Database.OneOwner (db : Database) : Prop :=
  ∀ d ∈ db.devices, ∀ d' ∈ db.devices, ∀ a, d.SendsFrom a → d'.SendsFrom a → d.userId = d'.userId

/-- What holds of the rows and the table from startup on: each user's chain holds the user's rules,
and the packets of a device take the jumps to the chain of its owner, and no others. -/
structure Enforces (s : State) : Prop where
  served : Served s.fw
  leaf : ∀ c, IsUserChain c → ∀ r ∈ s.fw.chains.rules c, r.verdict.target = none
  wellFormed : s.db.WellFormed
  distinct : s.db.DistinctChains
  held : ∀ v, s.db.HasRows v →
    (s.db.userEntry v).rulesMeant = some (s.fw.chains.rules (chainOf v))
  jumps : ∀ d ∈ s.db.devices, ∀ nets ∈ d.entry.nets, ∀ n ∈ nets,
    jumpRule (chainOf d.userId) n ∈ s.fw.chains.rules "forward"
  only : ∀ r ∈ s.fw.chains.rules "forward", ∃ c n, r = jumpRule c n ∧
    ∀ d ∈ s.db.devices, ∀ a ∈ n, d.SendsFrom a → c = chainOf d.userId

/-- The new device finds no jump of another user that packets from its addresses would take, and a
user who had no rows finds no rules under the name of the chain. -/
structure Clear (s : State) (d : Device) : Prop where
  leftover : ∀ c n, jumpRule c n ∈ s.fw.chains.rules "forward" → ∀ a ∈ n, d.SendsFrom a →
    c = chainOf d.userId
  chain : ¬ s.db.HasRows d.userId → s.fw.chains.rules (chainOf d.userId) = []

section Enforces

variable {settings : Settings} {nft : FrontEnd} {s : State} {d : Device} {t : Table} {u : Uuid}

lemma hits_jumpRule {other : String → Nft.Packet → Bool} {c : String} {n : Ip.Net}
    {p : Nft.Packet} : (jumpRule c n).Hits (Nft.sat other) p ↔ p.src ∈ n := by
  unfold Nft.Rule.Hits jumpRule
  simp

/-- **The kernel decides as the rows say.** -/
theorem Enforces.decides (h : Enforces s) (hd : d ∈ s.db.devices) {p : Nft.Packet}
    (hp : d.SendsFrom p.src) :
    s.db.Says d.userId p (s.fw.chains.hookDecision (Nft.sat nft.other) .forward p) := by
  have hjumps : ∀ r ∈ s.fw.chains.rules "forward", r.Hits (Nft.sat nft.other) p →
      r.verdict = .jump (chainOf d.userId) := by
    intro r hr hit
    obtain ⟨c, n, rfl, hc⟩ := h.only r hr
    rw [hc d hd p.src (hits_jumpRule.1 hit) hp]
    rfl
  have hfires : ∃ r ∈ s.fw.chains.rules "forward", r.Hits (Nft.sat nft.other) p := by
    obtain ⟨nets, hnets, n, hn, hpn⟩ := hp
    exact ⟨_, h.jumps d hd nets hnets n hn, hits_jumpRule.2 hpn⟩
  rw [h.served.hookDecision_eq]
  show s.db.Says d.userId p
    ((evalRules _ (evalChain _ _ p 15) p (s.fw.chains.rules "forward")).getD .accept)
  rw [Nft.evalRules_of_jumps hjumps, if_pos hfires]
  exact says_evalRules (h.held d.userId (.inl ⟨d, hd, rfl⟩))

/-! ### The steps -/

/-- Only the user chains and `forward` matter. -/
lemma Enforces.of_rules_eq (h : Enforces s) (ht : Served t)
    (hrules : ∀ c, IsUserChain c ∨ c = "forward" → t.chains.rules c = s.fw.chains.rules c) :
    Enforces ⟨s.db, t⟩ where
  served := ht
  leaf := fun c hc => by
    rw [hrules c (.inl hc)]
    exact h.leaf c hc
  wellFormed := h.wellFormed
  distinct := h.distinct
  held := fun v hv => by
    rw [hrules _ (.inl (isUserChain_chainOf v))]
    exact h.held v hv
  jumps := by
    rw [hrules _ (.inr rfl)]
    exact h.jumps
  only := by
    rw [hrules _ (.inr rfl)]
    exact h.only

lemma hasRows_iff {db : Database} {v : Uuid} :
    db.HasRows v ↔ (∃ d ∈ db.devices, d.userId = v) ∨ db.userRules v ≠ [] := by
  refine or_congr Iff.rfl ⟨fun ⟨r, hr⟩ => ?_, fun h => ?_⟩
  · exact List.ne_nil_of_mem (mem_userRules_iff.2 hr)
  · obtain ⟨r, hr⟩ := List.exists_mem_of_ne_nil _ h
    exact ⟨r, mem_userRules_iff.1 hr⟩

lemma rulesMeant_congr {db db' : Database} {v : Uuid} (h : db'.userRules v = db.userRules v) :
    (db'.userEntry v).rulesMeant = (db.userEntry v).rulesMeant := by
  rw [rulesMeant_userEntry, rulesMeant_userEntry, h]

lemma wellFormed_iff {db : Database} : db.WellFormed ↔
    (∀ d ∈ db.devices, ∃ nets, d.entry.nets = some nets) ∧
      ∀ u, ∀ r ∈ db.userRules u, ∃ rule, r.entry.meaning = some rule := by
  constructor
  · intro h
    refine ⟨fun d hd => (h d.userId).devices _ (List.mem_map_of_mem ?_), fun u r hr => ?_⟩
    · exact List.mem_filter.2 ⟨hd, by simp⟩
    · exact (h u).rules _ (List.mem_map_of_mem hr)
  · rintro ⟨hd, hr⟩ u
    refine ⟨isName_chainOf u, fun e he => ?_, fun e he => ?_⟩
    · obtain ⟨d, hdm, rfl⟩ := List.mem_map.1 he
      exact hd d (List.mem_of_mem_filter hdm)
    · obtain ⟨r, hrm, rfl⟩ := List.mem_map.1 he
      exact hr u r hrm

/-- **Rows that go away** take nothing with them: what is left in the table is not met. -/
theorem Enforces.of_fewer (h : Enforces s) (db : Database)
    (hdev : ∀ d ∈ db.devices, d ∈ s.db.devices)
    (hrules : ∀ v, db.HasRows v → db.userRules v = s.db.userRules v) : Enforces ⟨db, s.fw⟩ := by
  have hrows : ∀ v, db.HasRows v → s.db.HasRows v := by
    intro v hv
    rcases hasRows_iff.1 hv with ⟨d, hd, hdv⟩ | hr
    · exact .inl ⟨d, hdev d hd, hdv⟩
    · rw [hrules v hv] at hr
      exact hasRows_iff.2 (.inr hr)
  obtain ⟨hnets, hmeant⟩ := wellFormed_iff.1 h.wellFormed
  refine ⟨h.served, h.leaf, wellFormed_iff.2 ⟨fun d hd => hnets d (hdev d hd), fun u r hr => ?_⟩,
    fun u v hu hv => h.distinct u v (hrows u hu) (hrows v hv), fun v hv => ?_,
    fun d hd => h.jumps d (hdev d hd), fun r hr => ?_⟩
  · have hu : db.HasRows u := hasRows_iff.2 (.inr (List.ne_nil_of_mem hr))
    rw [hrules u hu] at hr
    exact hmeant u r hr
  · show (db.userEntry v).rulesMeant = _
    rw [rulesMeant_congr (hrules v hv)]
    exact h.held v (hrows v hv)
  · obtain ⟨c, n, rfl, hc⟩ := h.only r hr
    exact ⟨c, n, rfl, fun d hd => hc d (hdev d hd)⟩

lemma Enforces.deleteDevice (h : Enforces s) (id : Uuid) : Enforces (deleteDevice id s) := by
  unfold WireGui.deleteDevice
  cases s.db.device id with
  | none => exact h
  | some d => exact h.of_fewer _ (fun d hd => List.mem_of_mem_filter hd) fun v _ => rfl

lemma Enforces.deleteUser (h : Enforces s) (u : Uuid) : Enforces (deleteUserAndCleanup u s) := by
  have hfw : (deleteUserAndCleanup u s).fw = s.fw := by
    unfold deleteUserAndCleanup
    simp only
    induction s.db.userDevices u with
    | nil => rfl
    | cons d ds ih => exact ih
  have hkeep := h.of_fewer (s.db.deleteUser u) (fun d hd => List.mem_of_mem_filter hd)
    fun v hv => ?_
  · rw [← hfw] at hkeep
    exact hkeep
  · -- a user with rows left is another one
    have hne : v ≠ u := by
      rintro rfl
      rcases hv with ⟨d, hd, rfl⟩ | ⟨r, hr, hrv⟩
      · simpa using (List.mem_filter.1 hd).2
      · simpa [hrv] using (List.mem_filter.1 hr).2
    unfold Database.userRules Database.deleteUser
    simp only
    rw [List.filter_filter]
    congr 1
    refine List.filter_congr fun r _ => ?_
    by_cases hr : r.userId = some v
    · simp [hr, hne]
    · simp [hr]

/-- Policies have chains of their own. -/
lemma Enforces.applyPolicy (nft : FrontEnd) (h : Enforces s) (hs : settings.Valid) {c : String}
    (hc : IsName c)
    (hf : c ≠ "forward") (hu : ¬ IsUserChain c) (neg enabled : Bool) :
    Enforces ⟨s.db, WireGui.orKeep s.fw (WireGui.nftBatch nft (policyLines settings c (negText neg)
      (if enabled then "accept" else "drop")) s.fw)⟩ := by
  refine h.of_rules_eq (h.served.applyPolicy hs hc hf hu neg enabled) fun d hd => ?_
  have hdc : c ≠ d := by
    rintro rfl
    rcases hd with hd | hd
    · exact hu hd
    · exact hf hd
  obtain ⟨n₄, h₄⟩ := hs.v4
  obtain ⟨n₆, h₆⟩ := hs.v6
  obtain ⟨v, hread⟩ : ∃ v, nft.batch (policyLines settings c (negText neg)
      (if enabled then "accept" else "drop")) = some (policyCmds c neg n₄ n₆ v) := by
    cases enabled with
    | true =>
      exact ⟨_, batch_policyLines nft h₄ h₆ hc neg (show readAction "accept" = some .accept from rfl)⟩
    | false =>
      exact ⟨_, batch_policyLines nft h₄ h₆ hc neg (show readAction "drop" = some .drop from rfl)⟩
  cases hb : WireGui.nftBatch nft _ s.fw with
  | error e => rfl
  | ok t' =>
    obtain ⟨cmds, hread', hl⟩ := nftBatch_eq_ok_iff.1 hb
    obtain rfl := Option.some.inj (hread.symm.trans hread')
    refine Nft.rules_congr ?_
    show t'.chains.lookup d = _
    rw [Nft.load_lookup hl, Nft.effectOn_of_forall_ne fun cmd hcmd => ?_]
    simp only [policyCmds, List.mem_cons, List.not_mem_nil, or_false] at hcmd
    rcases hcmd with rfl | rfl | rfl | rfl <;> exact fun he => hdc (Option.some.inj he)

/-- **nft accepts a new device**: its chain can be declared, and jumped to. -/
lemma Enforces.accepted (h : Enforces s) (nft : FrontEnd)
    (hd : ∃ nets, d.entry.nets = some nets) : Accepted nft d s.fw := by
  refine ⟨hd, ?_⟩
  obtain ⟨nets, hnets⟩ := hd
  obtain ⟨t₁, ht₁⟩ := Nft.exists_load_addChain s.fw (chainOf d.userId)
  have hread : nft.batch [addChainLine (userChainName d.userId.str)] =
      some [.addChain (chainOf d.userId) none] := by
    simp [Nft.FrontEnd.batch, read_addChainLine nft (isName_userChainName d.userId), chainOf]
  have hadd : addUserChain nft d.userId.str s.fw = .ok t₁ :=
    congrArg (ignoreExists s.fw) (nftBatch_eq_ok_iff.2 ⟨_, hread, ht₁⟩)
  have hserved : Served t₁ := h.served.load
    (List.forall_mem_singleton.2 (ForDevice.keepsServed (d := d) (.inl rfl))) ht₁
  -- the chain is there now, and leads nowhere
  have hplain : t₁.chains.Plain (chainOf d.userId) := by
    rcases lookup_addUserChain hadd (chainOf d.userId) with hl | ⟨-, -, hl⟩
    · have hlook := Nft.load_lookup ht₁ (chainOf d.userId)
      rw [Nft.effectOn_cons, if_pos (by rfl), Nft.effectOn_nil] at hlook
      cases hs : s.fw.chains.lookup (chainOf d.userId) with
      | none =>
        rw [hs] at hlook
        exact ⟨_, hlook, rfl⟩
      | some ch =>
        rw [hs] at hlook
        exact ⟨_, hlook, hserved.plain _ (isUserChain_chainOf d.userId) _ hlook⟩
    · exact ⟨_, hl, rfl⟩
  have hleaf : ∀ q ∈ t₁.chains.rules (chainOf d.userId), q.verdict.target = none := by
    rcases lookup_addUserChain hadd (chainOf d.userId) with hl | ⟨-, -, hl⟩
    · rw [Nft.rules_congr hl]
      exact h.leaf _ (isUserChain_chainOf d.userId)
    · rw [Nft.rules_of_lookup hl]
      exact fun q hq => absurd hq List.not_mem_nil
  obtain ⟨t₂, ht₂⟩ : ∃ t₂, Nft.load ((nets.map (jumpRule (chainOf d.userId))).map
      (.addRule "forward")) t₁ = some t₂ := Nft.exists_load_addRules hserved.hub_base (by
      intro r hr c hc
      obtain ⟨n, -, rfl⟩ := List.mem_map.1 hr
      obtain rfl : chainOf d.userId = c := Option.some.inj hc
      exact ⟨hplain, hleaf⟩)
  refine ⟨t₁, t₂, hadd, ?_⟩
  have hrules := rules_of_nets nft (isName_chainOf d.userId) hnets
  unfold addDeviceJumpRule
  simp only
  split
  next hnil =>
    have hlines : d.entry.lines (chainOf d.userId) = [] := hnil
    rw [hlines] at hrules
    rw [← Option.some.inj hrules] at ht₂
    rw [Nft.Table.ext fun c => (Nft.load_lookup ht₂ c).symm]
  next => exact nftBatch_eq_ok_iff.2 ⟨_, Nft.batch_of_rules nft hrules, ht₂⟩

/-- The user chains hold what they held. -/
lemma rules_onDeviceCreated_of_ne (hwg : settings.wgEnabled = true) (hok : Accepted nft d s.fw)
    {c : String} (hc : c ≠ "forward") :
    (onDeviceCreated settings nft d s.fw).chains.rules c = s.fw.chains.rules c :=
  congrArg Prod.snd (content_onDeviceCreated hwg hok hc)

/-- **A new device.** -/
theorem Enforces.onDeviceCreated (h : Enforces s) (hwg : settings.wgEnabled = true)
    (hwf : (s.db.withDevice d).WellFormed) (hdistinct : (s.db.withDevice d).DistinctChains)
    (hclear : Clear s d) :
    Enforces ⟨s.db.withDevice d, onDeviceCreated settings nft d s.fw⟩ := by
  have hnets : ∃ nets, d.entry.nets = some nets :=
    (wellFormed_iff.1 hwf).1 d (List.mem_append_right _ List.mem_cons_self)
  have hok := h.accepted nft hnets
  obtain ⟨nets, hn⟩ := hnets
  have hother : ∀ {c : String}, c ≠ "forward" →
      (WireGui.onDeviceCreated settings nft d s.fw).chains.rules c = s.fw.chains.rules c :=
    rules_onDeviceCreated_of_ne hwg hok
  have hforward := rules_onDeviceCreated hwg hok hn
  refine ⟨h.served.onDeviceCreated ⟨nets, hn⟩, fun c hc => ?_, hwf, hdistinct, fun v hv => ?_,
    fun d' hd' ns hns n hnm => ?_, fun r hr => ?_⟩
  · rw [hother hc.ne_forward]
    exact h.leaf c hc
  · show ((s.db.withDevice d).userEntry v).rulesMeant =
      some ((WireGui.onDeviceCreated settings nft d s.fw).chains.rules (chainOf v))
    have hsame : (s.db.withDevice d).userRules v = s.db.userRules v := rfl
    rw [hother (forward_ne_chainOf v), rulesMeant_congr hsame]
    by_cases hold : s.db.HasRows v
    · exact h.held v hold
    · -- the owner of the new device, whose chain is new or empty
      obtain rfl : d.userId = v := by
        rcases hv with ⟨d', hd', rfl⟩ | hr
        · rcases List.mem_append.1 hd' with hd' | hd'
          · exact absurd (.inl ⟨d', hd', rfl⟩) hold
          · rw [List.mem_singleton.1 hd']
        · exact absurd (.inr hr) hold
      rw [hclear.chain hold, rulesMeant_userEntry, userRules_of_no_rows hold]
      rfl
  · show jumpRule _ n ∈ (WireGui.onDeviceCreated settings nft d s.fw).chains.rules "forward"
    rw [hforward, List.mem_append]
    rcases List.mem_append.1 hd' with hd' | hd'
    · exact .inl (h.jumps d' hd' ns hns n hnm)
    · obtain rfl := List.mem_singleton.1 hd'
      obtain rfl := Option.some.inj (hn.symm.trans hns)
      exact .inr (List.mem_map_of_mem hnm)
  · have hr : r ∈ (WireGui.onDeviceCreated settings nft d s.fw).chains.rules "forward" := hr
    rw [hforward, List.mem_append] at hr
    rcases hr with hold | hr
    · obtain ⟨c, n, rfl, hc⟩ := h.only r hold
      refine ⟨c, n, rfl, fun d' hd' a ha hs => ?_⟩
      rcases List.mem_append.1 hd' with hd' | hd'
      · exact hc d' hd' a ha hs
      · obtain rfl := List.mem_singleton.1 hd'
        exact hclear.leftover c n hold a ha hs
    · obtain ⟨n, hnm, rfl⟩ := List.mem_map.1 hr
      refine ⟨_, n, rfl, fun d' hd' a ha hs => ?_⟩
      rcases List.mem_append.1 hd' with hd' | hd'
      · -- an old device whose packets the new jump takes
        obtain ⟨ns, hns, m, hm, ham⟩ := hs
        exact (hclear.leftover _ m (h.jumps d' hd' ns hns m hm) a ham ⟨nets, hn, n, hnm, ha⟩).symm
      · rw [List.mem_singleton.1 hd']

/-- **Startup** writes the rows into the table, whatever was in it. -/
theorem enforces_startup (hs : settings.Valid) (hwg : settings.wgEnabled = true)
    (h : t = Nft.Table.empty ∨ Served t) {db : Database} (hwf : db.WellFormed)
    (hdistinct : db.DistinctChains) (howner : db.OneOwner) {order : SetOrders} {t' : Table}
    (ht' : startup settings nft order db t = .ok t') : Enforces ⟨db, t'⟩ := by
  obtain ⟨t₁, h₁, rfl⟩ := exists_served_of_startup hs hwg h ht'
  have hdb : db.Readable nft := hwf.readable
  have hentries : ∀ e ∈ db.reconcileEntries (order db.userIds), e.WellFormed :=
    wellFormed_of_mem_reconcileEntries hwf
  obtain ⟨t', ht'⟩ := exists_rebuild nft h₁.toBaseSetup hentries (order (orphanedChains t₁ _))
  have heq : reconcileFirewall nft order db (order db.userIds) t₁ = t' := by
    unfold reconcileFirewall
    simp only
    rw [ht']
    rfl
  rw [heq]
  have hsync := inSync_of_reconcile h₁.toBaseSetup.tidy hdb hdistinct ht'
  have hforward := fun r => mem_forward_of_reconcile (r := r) h₁.names hdb ht'
  have hheld : ∀ v, db.HasRows v →
      (db.userEntry v).rulesMeant = some (t'.chains.rules (chainOf v)) := by
    intro v hv
    obtain ⟨rules, hr, hl⟩ := hsync.rules v hv
    obtain ⟨meant, -, hm, -, -⟩ := plan_of_wellFormed nft (hwf v)
    have hlines := rules_of_meaning nft (isName_chainOf v) hm
    rw [hm, Nft.rules_of_lookup hl, ← Option.some.inj (hlines.symm.trans hr)]
  refine ⟨h₁.rebuild (wellFormed_of_mem_reconcileEntries hwf) ht', fun c hc r hr => ?_, hwf,
    hdistinct, hheld, fun d hd nets hnets n hn => ?_, fun r hr => ?_⟩
  · obtain ⟨v, hv, rfl⟩ := (hsync.userChains c hc).1 (Nft.mem_of_mem_rules hr)
    have hm := hheld v hv
    rw [rulesMeant_userEntry] at hm
    obtain ⟨re, -, hre⟩ := List.exists_of_mem_mapM hm hr
    obtain ⟨n, ports, w, -, -, hw, rfl⟩ := meaning_eq_some_iff.1 hre
    rcases readAction_cases hw with ⟨-, rfl⟩ | ⟨-, rfl⟩ <;> rfl
  · exact (hforward _).2 ⟨d, hd, nets, hnets, n, hn, rfl⟩
  · obtain ⟨d, hd, nets, hnets, n, hn, rfl⟩ := (hforward r).1 hr
    refine ⟨_, n, rfl, fun d' hd' a ha hs => ?_⟩
    rw [howner d hd d' hd' a ⟨nets, hnets, n, hn, ha⟩ hs]

end Enforces

/-! ### Runs -/

/-- A run from a startup, after which devices come and go, users are deleted and switches turned. -/
inductive EnforcedRun (settings : Settings) (nft : FrontEnd) : State → Prop
  | started {s : State} (h : s.fw = Nft.Table.empty ∨ KeptRun settings nft s) (order : SetOrders)
      (t : Table) (ht : startup settings nft order s.db s.fw = .ok t) (hwf : s.db.WellFormed)
      (hdistinct : s.db.DistinctChains) (howner : s.db.OneOwner) :
      EnforcedRun settings nft ⟨s.db, t⟩
  | deviceCreated {s : State} (h : EnforcedRun settings nft s) (d : Device)
      (hwf : (s.db.withDevice d).WellFormed) (hdistinct : (s.db.withDevice d).DistinctChains)
      (hclear : Clear s d) :
      EnforcedRun settings nft ⟨s.db.withDevice d, onDeviceCreated settings nft d s.fw⟩
  | deviceDeleted {s : State} (h : EnforcedRun settings nft s) (id : Uuid) :
      EnforcedRun settings nft (deleteDevice id s)
  | userDeleted {s : State} (h : EnforcedRun settings nft s) (u : Uuid) :
      EnforcedRun settings nft (deleteUserAndCleanup u s)
  | peerToPeer {s : State} (h : EnforcedRun settings nft s) (now : ℕ) (value : Bool) :
      EnforcedRun settings nft (togglePeerToPeer settings nft now value s)
  | lanToPeers {s : State} (h : EnforcedRun settings nft s) (now : ℕ) (value : Bool) :
      EnforcedRun settings nft (toggleLanToPeers settings nft now value s)
  | other {s : State} (h : EnforcedRun settings nft s) (db : Database)
      (hdev : db.devices = s.db.devices) (hrules : ∀ u, db.userRules u = s.db.userRules u) :
      EnforcedRun settings nft ⟨db, s.fw⟩

section Runs

variable {settings : Settings} {nft : FrontEnd} {s : State}

theorem EnforcedRun.enforces (hs : settings.Valid) (hwg : settings.wgEnabled = true)
    (h : EnforcedRun settings nft s) : Enforces s := by
  induction h with
  | started h order t ht hwf hdistinct howner =>
    refine enforces_startup hs hwg ?_ hwf hdistinct howner ht
    rcases h with h | h
    · exact .inl h
    · exact .inr (h.served hs hwg)
  | deviceCreated _ d hwf hdistinct hclear ih => exact ih.onDeviceCreated hwg hwf hdistinct hclear
  | deviceDeleted _ id ih => exact ih.deleteDevice id
  | userDeleted _ u ih => exact ih.deleteUser u
  | @peerToPeer s _ now value ih =>
    have hkeep := ih.applyPolicy nft hs (c := "peer_to_peer") (by decide) (by decide)
      (by decide) false value
    exact hkeep.of_fewer _ (fun d hd => hd) fun v _ => rfl
  | @lanToPeers s _ now value ih =>
    have hkeep := ih.applyPolicy nft hs (c := "lan_to_peers") (by decide) (by decide)
      (by decide) true value
    exact hkeep.of_fewer _ (fun d hd => hd) fun v _ => rfl
  | other _ db hdev hrules ih =>
    exact ih.of_fewer db (fun d hd => hdev ▸ hd) fun v _ => hrules v

/-- **The kernel does what the rows say** with every packet from a device, in every state of every
such run. -/
theorem run_enforces (hs : settings.Valid) (hwg : settings.wgEnabled = true)
    (h : EnforcedRun settings nft s) :
    ∀ d ∈ s.db.devices, ∀ p : Nft.Packet, d.SendsFrom p.src →
      s.db.Says d.userId p (s.fw.chains.hookDecision (Nft.sat nft.other) .forward p) := by
  intro d hd p hp
  exact (h.enforces hs hwg).decides hd hp

end Runs

/-! A device whose owner may not reach the tunnel. -/

def noTunnelRule : Rule where
  id := ⟨0x2d, by decide⟩
  action := "drop"
  destination := "10.3.2.0/24"
  portType := none
  portRange := none
  priority := 10
  userId := some alice
  insertedAt := 0
  updatedAt := 0

def tunnelless : Database := { oneDevice with rules := [noTunnelRule] }

lemma tunnelless_hasRows {u : Uuid} (h : tunnelless.HasRows u) : u = alice := by
  rcases h with ⟨d, hd, rfl⟩ | ⟨r, hr, hu⟩
  · rw [List.mem_singleton.1 hd]
    rfl
  · rw [List.mem_singleton.1 hr] at hu
    exact (Option.some.inj hu).symm

lemma tunnelless_wellFormed : tunnelless.WellFormed := by
  have hlaptop : laptop.entry.nets.isSome := by decide
  have hrule : noTunnelRule.entry.meaning.isSome := by decide
  refine wellFormed_iff.2 ⟨fun d hd => ?_, fun u r hr => ?_⟩
  · rw [List.mem_singleton.1 hd]
    exact Option.isSome_iff_exists.1 hlaptop
  · rw [List.mem_singleton.1 (mem_userRules_iff.1 hr).1]
    exact Option.isSome_iff_exists.1 hrule

theorem run_enforces_drop :
    ∃ t, startup defaultSettings (.fragment tableName) ascending tunnelless Nft.Table.empty = .ok t ∧
      t.chains.hookDecision (Nft.sat (Nft.FrontEnd.fragment tableName).other) .forward peerPacket =
        .drop := by
  obtain ⟨t, ht⟩ : ∃ t, startup defaultSettings (.fragment tableName) ascending tunnelless
      Nft.Table.empty = .ok t := by
    have hwg : defaultSettings.wgEnabled = true := rfl
    unfold startup
    rw [if_pos hwg, setupBaseTables_empty]
    exact ⟨_, rfl⟩
  have hrun : EnforcedRun defaultSettings (.fragment tableName) ⟨tunnelless, t⟩ := by
    refine .started (s := ⟨tunnelless, Nft.Table.empty⟩) (.inl rfl) ascending t ht tunnelless_wellFormed
      (fun u v hu hv _ => ?_) fun d hd d' hd' _ _ _ => ?_
    · rw [tunnelless_hasRows hu, tunnelless_hasRows hv]
    · rw [List.mem_singleton.1 hd, List.mem_singleton.1 hd']
  have hsrc : laptop.SendsFrom peerPacket.src :=
    ⟨[laptopAddr.host], by decide, laptopAddr.host, List.mem_cons_self, by decide⟩
  have happlies : noTunnelRule.Applies peerPacket :=
    ⟨by decide, fun s hs => by cases hs⟩
  have hsays := run_enforces defaultSettings_valid rfl hrun laptop List.mem_cons_self peerPacket hsrc
  refine ⟨t, ht, ?_⟩
  generalize t.chains.hookDecision _ _ _ = d at hsays
  cases hsays with
  | rule r hr hu ha hfirst d hd =>
    obtain rfl := List.mem_singleton.1 hr
    exact (Option.some.inj hd).symm
  | pass h => exact absurd happlies (h noTunnelRule List.mem_cons_self rfl)

end WireGui
