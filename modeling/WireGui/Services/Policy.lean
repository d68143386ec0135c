import WireGui.Main
import WireGui.Pages.AdminRules
import WireGui.Services.Decision
import WireGui.Services.InSync
import WireGui.Services.PolicyText

/-!
# The switches for the network policies

A switch writes the rules of its policy into a chain of its own, `peer_to_peer` or `lan_to_peers`.
No batch hangs that chain on a hook or makes `forward` jump to it.

`Forwarding` is what every batch of the service keeps: only `forward` hangs on the hook for
forwarded packets, it accepts at its end, and it jumps to user chains only.  So a packet that no
rule of a user matches is accepted, whatever the switches say (`run_policies_iff`).
-/

namespace WireGui

open Nft (IsName evalChain stackSize)

/-! ### What the batches keep -/

/-- The chain `c` of a table that leads forwarded packets to user chains only: no other chain than
`forward` hangs on their hook, `forward` accepts at its end and holds nothing but jumps to user
chains. -/
structure ForwardChain (c : String) (ch : Nft.Chain String Nft.Match) : Prop where
  hooked : ∀ b ∈ ch.base, b.hook = .forward → c = "forward" ∧ b.policy = .accept
  jumps : c = "forward" → ∀ r ∈ ch.rules, ∃ d, IsUserChain d ∧ r.verdict = .jump d
  named : IsUserChain c → IsName c

/-- All chains of the table are such. -/
def Forwarding (t : Table) : Prop := ∀ c, ∀ ch ∈ t.chains.lookup c, ForwardChain c ch

/-- The command hangs no other chain on the hook, and adds only jumps to `forward`. -/
def KeepsForward : Nft.Cmd String Nft.Match → Prop
  | .addChain c b => (IsUserChain c → IsName c) ∧
      ∀ s ∈ b, s.hook = .forward → c = "forward" ∧ s.policy = .accept
  | .addRule c r => c = "forward" → ∃ d, IsUserChain d ∧ r.verdict = .jump d
  | _ => True

section Forwarding

variable {nft : FrontEnd} {t t' : Table}

/-- One command, on the chain it names. -/
lemma forwardChain_effect {cmd : Nft.Cmd String Nft.Match} (hc : KeepsForward cmd) {c : String}
    (hcmd : cmd.chain = some c) {s : Option (Nft.Chain String Nft.Match)}
    (hs : ∀ ch ∈ s, ForwardChain c ch) : ∀ ch ∈ cmd.effect s, ForwardChain c ch := by
  intro ch hch
  rw [Option.mem_def] at hch
  cases cmd with
  | addTable => exact hs ch hch
  | addChain d b =>
    obtain rfl : d = c := by simpa [Nft.Cmd.chain] using hcmd
    cases s with
    | none =>
      obtain rfl := Option.some.inj hch
      exact ⟨hc.2, fun _ r hr => absurd hr List.not_mem_nil, hc.1⟩
    | some ch₀ =>
      obtain rfl := Option.some.inj hch
      have h₀ := hs ch₀ rfl
      refine ⟨fun e he => ?_, h₀.jumps, h₀.named⟩
      cases b with
      | none => exact h₀.hooked e he
      | some b₁ => exact hc.2 e he
  | flushChain d =>
    obtain ⟨ch₀, h₀, rfl⟩ := Option.map_eq_some_iff.1 hch
    exact ⟨(hs ch₀ h₀).hooked, fun _ r hr => absurd hr List.not_mem_nil, (hs ch₀ h₀).named⟩
  | deleteChain d => cases hch
  | addRule d r =>
    obtain rfl : d = c := by simpa [Nft.Cmd.chain] using hcmd
    obtain ⟨ch₀, h₀, rfl⟩ := Option.map_eq_some_iff.1 hch
    refine ⟨(hs ch₀ h₀).hooked, fun hf q hq => ?_, (hs ch₀ h₀).named⟩
    rcases List.mem_append.1 hq with hq | hq
    · exact (hs ch₀ h₀).jumps hf q hq
    · obtain rfl := List.mem_singleton.1 hq
      exact hc hf

/-- A batch, chain by chain. -/
lemma forwardChain_effectOn {cmds : List (Nft.Cmd String Nft.Match)}
    (hc : ∀ cmd ∈ cmds, KeepsForward cmd) {c : String}
    {s : Option (Nft.Chain String Nft.Match)} (hs : ∀ ch ∈ s, ForwardChain c ch) :
    ∀ ch ∈ Nft.effectOn c cmds s, ForwardChain c ch := by
  induction cmds generalizing s with
  | nil => exact hs
  | cons cmd cmds ih =>
    rw [Nft.effectOn_cons]
    refine ih (fun d hd => hc d (List.mem_cons_of_mem _ hd)) ?_
    split
    next hcmd => exact forwardChain_effect (hc cmd List.mem_cons_self) hcmd hs
    next => exact hs

/-- **A batch of such commands** keeps the table so. -/
theorem Forwarding.nftBatch (h : Forwarding t) {lines : List String}
    {cmds : List (Nft.Cmd String Nft.Match)} (hread : nft.batch lines = some cmds)
    (hc : ∀ cmd ∈ cmds, KeepsForward cmd) (ht' : nftBatch nft lines t = .ok t') :
    Forwarding t' := by
  obtain ⟨cmds', hread', hl⟩ := nftBatch_eq_ok_iff.1 ht'
  obtain rfl := Option.some.inj (hread.symm.trans hread')
  intro c
  rw [Nft.load_lookup hl]
  exact forwardChain_effectOn hc (h c)

/-- Accepted or refused. -/
lemma Forwarding.orKeep (h : Forwarding t) {lines : List String}
    {cmds : List (Nft.Cmd String Nft.Match)} (hread : nft.batch lines = some cmds)
    (hc : ∀ cmd ∈ cmds, KeepsForward cmd) :
    Forwarding (orKeep t (WireGui.nftBatch nft lines t)) := by
  cases hb : WireGui.nftBatch nft lines t with
  | error e => exact h
  | ok t' => exact h.nftBatch hread hc hb

lemma Forwarding.named (h : Forwarding t) : Named t := by
  intro c hm hu
  obtain ⟨ch, hch⟩ := Nft.mem_iff_lookup.1 hm
  exact (h c ch hch).named hu

/-- **Packets no rule of a user matches** are accepted. -/
theorem Forwarding.hookDecision_eq (h : Forwarding t) {p : Nft.Packet}
    (hp : ∀ c, IsUserChain c → ∀ r ∈ t.chains.rules c, ¬ r.Hits (Nft.sat nft.other) p) :
    t.chains.hookDecision (Nft.sat nft.other) .forward p = .accept := by
  unfold Nft.Chains.hookDecision
  rw [if_neg]
  rintro ⟨c, -, ch, hch, b, hb, hh, hdrop⟩
  obtain ⟨rfl, hpol⟩ := (h c ch hch).hooked b hb hh
  have hnone : evalChain (Nft.sat nft.other) t.chains.rules p stackSize "forward" = none := by
    show Nft.evalRules _ (evalChain _ _ p 15) p _ = none
    refine Nft.evalRules_eq_none_of_jumps fun r hr _ => ?_
    rw [Nft.rules_of_lookup hch] at hr
    obtain ⟨d, hd, hv⟩ := (h "forward" ch hch).jumps rfl r hr
    exact ⟨d, hv, Nft.evalRules_eq_none (hp d hd)⟩
  rw [hnone, hpol] at hdrop
  cases hdrop

end Forwarding

/-! ### The batches -/

section Batches

variable {settings : Settings} {nft : FrontEnd} {order : SetOrders} {t t' : Table}

lemma keepsForward_baseCmds : ∀ cmd ∈ baseCmds, KeepsForward cmd := by
  simp only [baseCmds, List.forall_mem_cons, KeepsForward, Option.mem_def, Option.some.injEq]
  refine ⟨trivial, ⟨fun h => absurd h (by decide), ?_⟩, ⟨fun h => absurd h (by decide), ?_⟩,
    by simp⟩
  · rintro s rfl -
    exact ⟨trivial, rfl⟩
  · rintro s rfl hs
    cases hs

lemma keepsForward_policyCmds {c : String} (hc : c ≠ "forward") (hu : ¬ IsUserChain c) (neg : Bool)
    (n₄ n₆ : Ip.Net) (v : Nft.Verdict String) : ∀ cmd ∈ policyCmds c neg n₄ n₆ v,
      KeepsForward cmd := by
  simp only [policyCmds, List.forall_mem_cons, KeepsForward]
  exact ⟨⟨fun h => absurd h hu, by simp⟩, trivial, fun h => absurd h hc, fun h => absurd h hc,
    by simp⟩

lemma keepsForward_masqueradeCmds (n₄ n₆ : Ip.Net) (iface : String) :
    ∀ cmd ∈ masqueradeCmds n₄ n₆ iface, KeepsForward cmd := by
  simp only [masqueradeCmds, List.forall_mem_cons, KeepsForward]
  exact ⟨trivial, fun h => absurd h (by decide), fun h => absurd h (by decide), by simp⟩

lemma keepsForward_rebuild {es : List Entry} (hes : ∀ e ∈ es, e.Readable nft)
    {ps : List (Nft.Plan String Nft.Match)} (hps : es.mapM (Entry.plan nft) = some ps)
    (orphaned : List String) : ∀ cmd ∈ Nft.rebuild "forward" ps orphaned, KeepsForward cmd := by
  have hplan : ∀ p ∈ ps, ∃ e ∈ es,
      p.chain = e.chain ∧ ∀ r ∈ p.jumps, r.verdict = .jump e.chain := by
    intro p hp
    obtain ⟨e, he, hep⟩ := List.exists_of_mem_mapM hps hp
    obtain ⟨rules, nets, -, -, hq⟩ := plan_of_readable (hes e he)
    obtain rfl := Option.some.inj (hep.symm.trans hq)
    refine ⟨e, he, rfl, fun r hr => ?_⟩
    obtain ⟨n, -, rfl⟩ := List.mem_map.1 hr
    rfl
  intro cmd hcmd
  unfold Nft.rebuild at hcmd
  rcases List.mem_append.1 hcmd with hcmd | hcmd
  · rcases List.mem_append.1 hcmd with hcmd | hcmd
    · rcases List.mem_append.1 hcmd with hcmd | hcmd
      · -- the chains of the entries
        obtain ⟨p, hp, hcmd⟩ := List.mem_flatMap.1 hcmd
        obtain ⟨e, he, hchain, -⟩ := hplan p hp
        have hu : IsUserChain p.chain := hchain ▸ isUserChain_userChainName e.userId
        simp only [Nft.Plan.cmds, List.mem_append, List.mem_cons, List.not_mem_nil, or_false,
          List.mem_map] at hcmd
        rcases hcmd with (rfl | rfl) | ⟨r, -, rfl⟩
        · exact ⟨fun _ => hchain ▸ (hes e he).name, by simp⟩
        · trivial
        · exact fun hf => absurd hf hu.ne_forward
      · obtain rfl := List.mem_singleton.1 hcmd
        trivial
    · -- the jumps
      obtain ⟨r, hr, rfl⟩ := List.mem_map.1 hcmd
      obtain ⟨p, hp, hr⟩ := List.mem_flatMap.1 hr
      obtain ⟨e, -, -, hj⟩ := hplan p hp
      exact fun _ => ⟨e.chain, isUserChain_userChainName e.userId, hj r hr⟩
  · obtain ⟨c, -, hcmd⟩ := List.mem_flatMap.1 hcmd
    simp only [List.mem_cons, List.not_mem_nil, or_false] at hcmd
    rcases hcmd with rfl | rfl <;> trivial

lemma Forwarding.rebuildAllRules (h : Forwarding t) {es : List Entry}
    (hes : ∀ e ∈ es, e.Readable nft) (orphaned : SetOrder (orphanedChains t es)) :
    Forwarding (WireGui.orKeep t (WireGui.rebuildAllRules nft es t orphaned)) := by
  obtain ⟨ps, hps⟩ := plans_of_readable hes
  exact h.orKeep (batch_rebuildCommands nft hps (fun e he => (hes e he).name)
    (isName_of_orphaned h.named orphaned)) (keepsForward_rebuild hes hps orphaned.toList)

lemma Forwarding.rebuildUserChain (h : Forwarding t) {db : Database} (hdb : db.Readable nft)
    (u : Uuid) : Forwarding (rebuildUserChain nft order db u t) :=
  h.rebuildAllRules (List.forall_mem_singleton.2 (hdb u)) _

lemma Forwarding.onRuleChanged (h : Forwarding t) {db : Database} (hdb : db.Readable nft)
    (rule : Rule) : Forwarding (onRuleChanged settings nft order db rule t) := by
  unfold WireGui.onRuleChanged
  split
  · split
    · exact h
    · exact h.rebuildUserChain hdb _
  · exact h

lemma Forwarding.onRulesReordered (h : Forwarding t) {db : Database} (hdb : db.Readable nft)
    (u : Uuid) : Forwarding (onRulesReordered settings nft order db u t) := by
  unfold WireGui.onRulesReordered
  split
  · exact h.rebuildUserChain hdb u
  · exact h

lemma Forwarding.applyPolicy (h : Forwarding t) (hs : settings.Valid) {c : String} (hc : IsName c)
    (hf : c ≠ "forward") (hu : ¬ IsUserChain c) (neg enabled : Bool) :
    Forwarding (WireGui.orKeep t (WireGui.nftBatch nft (policyLines settings c (negText neg)
      (if enabled then "accept" else "drop")) t)) := by
  obtain ⟨n₄, h₄⟩ := hs.v4
  obtain ⟨n₆, h₆⟩ := hs.v6
  cases enabled with
  | true =>
    exact h.orKeep
      (batch_policyLines nft h₄ h₆ hc neg (show readAction "accept" = some .accept from rfl))
      (keepsForward_policyCmds hf hu neg n₄ n₆ _)
  | false =>
    exact h.orKeep
      (batch_policyLines nft h₄ h₆ hc neg (show readAction "drop" = some .drop from rfl))
      (keepsForward_policyCmds hf hu neg n₄ n₆ _)

/-- **Startup** sets the table up so, from whatever it was. -/
lemma Forwarding.startup (h : Forwarding t) (hs : settings.Valid) {db : Database}
    (hdb : db.Readable nft) (ht' : startup settings nft order db t = .ok t') : Forwarding t' := by
  unfold WireGui.startup at ht'
  split at ht'
  · split at ht'
    · cases ht'
    next t₁ ht₁ =>
      obtain rfl := Except.ok.inj ht'
      have h₁ : Forwarding t₁ := by
        unfold setupBaseTables ignoreExists at ht₁
        split at ht₁
        next u hu =>
          obtain rfl := Except.ok.inj ht₁
          exact h.nftBatch (batch_baseTables nft) keepsForward_baseCmds hu
        next e he =>
          split at ht₁
          · obtain rfl := Except.ok.inj ht₁
            exact h
          · cases ht₁
      obtain ⟨n₄, h₄⟩ := hs.v4
      obtain ⟨n₆, h₆⟩ := hs.v6
      have h₂ : Forwarding (setupMasquerade nft settings t₁) :=
        h₁.orKeep (batch_masqueradeLines nft h₄ h₆ hs.iface) (keepsForward_masqueradeCmds n₄ n₆ _)
      refine h₂.rebuildAllRules (fun e he => ?_) _
      obtain ⟨users, -, -, -, hentries⟩ := reconcileEntries_eq db (order db.userIds)
      rw [hentries] at he
      obtain ⟨u, -, rfl⟩ := List.mem_map.1 he
      exact hdb u
  · obtain rfl := Except.ok.inj ht'
    exact h

end Batches

/-! ### Runs -/

/-- One step of the running service: a switch, a change of the rows with the event it starts, or a
restart. -/
inductive PolicyStep (settings : Settings) (nft : FrontEnd) : State → State → Prop
  | peerToPeer (s : State) (now : ℕ) (value : Bool) :
      PolicyStep settings nft s (togglePeerToPeer settings nft now value s)
  | lanToPeers (s : State) (now : ℕ) (value : Bool) :
      PolicyStep settings nft s (toggleLanToPeers settings nft now value s)
  | ruleChanged (s : State) (order : SetOrders) (rules : List Rule) (rule : Rule) :
      PolicyStep settings nft s ⟨{ s.db with rules := rules },
        onRuleChanged settings nft order { s.db with rules := rules } rule s.fw⟩
  | rulesReordered (s : State) (order : SetOrders) (rules : List Rule) (u : Uuid) :
      PolicyStep settings nft s ⟨{ s.db with rules := rules },
        onRulesReordered settings nft order { s.db with rules := rules } u s.fw⟩
  | restart (s : State) (order : SetOrders) (t : Table)
      (h : startup settings nft order s.db s.fw = .ok t) : PolicyStep settings nft s ⟨s.db, t⟩

/-- A run from startup, in which nft can always read the rows. -/
inductive PolicyRun (settings : Settings) (nft : FrontEnd) : State → Prop
  | start (order : SetOrders) (db : Database) (t : Table) (hdb : db.Readable nft)
      (h : startup settings nft order db Nft.Table.empty = .ok t) : PolicyRun settings nft ⟨db, t⟩
  | step {s s' : State} (h : PolicyRun settings nft s) (hs : PolicyStep settings nft s s')
      (hdb : s'.db.Readable nft) : PolicyRun settings nft s'

/-- **The switches decide** what becomes of the packet. -/
def PoliciesDecide (settings : Settings) (nft : FrontEnd) (s : State) (p : Nft.Packet) : Prop :=
  ∀ c ∈ s.db.configuration,
    (settings.Inside p.src → settings.Inside p.dst →
      s.fw.chains.hookDecision (Nft.sat nft.other) .forward p =
        if c.allowPeerToPeer then .accept else .drop) ∧
    (¬ settings.Inside p.src → settings.Inside p.dst →
      s.fw.chains.hookDecision (Nft.sat nft.other) .forward p =
        if c.allowLanToPeers then .accept else .drop)

section Runs

variable {settings : Settings} {nft : FrontEnd}

lemma forwarding_empty : Forwarding Nft.Table.empty := by
  intro c ch hch
  cases (Finmap.lookup_empty c).symm.trans hch

lemma PolicyStep.forwarding (hs : settings.Valid) {s s' : State}
    (h : PolicyStep settings nft s s') (hdb : s'.db.Readable nft) (hf : Forwarding s.fw) :
    Forwarding s'.fw := by
  cases h with
  | peerToPeer now value =>
    exact hf.applyPolicy hs (c := "peer_to_peer") (by decide) (by decide) (by decide) false value
  | lanToPeers now value =>
    exact hf.applyPolicy hs (c := "lan_to_peers") (by decide) (by decide) (by decide) true value
  | ruleChanged order rules rule => exact hf.onRuleChanged hdb rule
  | rulesReordered order rules u => exact hf.onRulesReordered hdb u
  | restart order t h => exact hf.startup hs hdb h

theorem PolicyRun.forwarding (hs : settings.Valid) {s : State} (h : PolicyRun settings nft s) :
    Forwarding s.fw := by
  induction h with
  | start order db t hdb h => exact forwarding_empty.startup hs hdb h
  | step _ hstep hdb ih => exact hstep.forwarding hs hdb ih

/-- **When the switches decide** about a packet that no rule of a user matches: when the switch in
question is on.  A packet is accepted whether or not it is. -/
theorem run_policies_iff (hs : settings.Valid) {s : State} (h : PolicyRun settings nft s)
    {p : Nft.Packet}
    (hp : ∀ c, IsUserChain c → ∀ r ∈ s.fw.chains.rules c, ¬ r.Hits (Nft.sat nft.other) p) :
    PoliciesDecide settings nft s p ↔ ∀ c ∈ s.db.configuration,
      (settings.Inside p.src → settings.Inside p.dst → c.allowPeerToPeer = true) ∧
      (¬ settings.Inside p.src → settings.Inside p.dst → c.allowLanToPeers = true) := by
  have haccept := (h.forwarding hs).hookDecision_eq hp
  unfold PoliciesDecide
  rw [haccept]
  refine forall₂_congr fun c _ => and_congr ?_ ?_
  · refine forall₂_congr fun _ _ => ?_
    cases c.allowPeerToPeer <;> simp
  · refine forall₂_congr fun _ _ => ?_
    cases c.allowLanToPeers <;> simp

end Runs

/-! A service without users, with both switches on or both off. -/

def tunnelNet4 : Ip.Net := ⟨.v4, 0x0a030200, 24, by decide, by decide, by decide⟩

def tunnelNet6 : Ip.Net :=
  ⟨.v6, 0xfd000000000000000000000300020000, 120, by decide, by decide, by decide⟩

def switches (on : Bool) : Database where
  users := []
  devices := []
  rules := []
  mfaMethods := []
  configuration := some { allowPeerToPeer := on, allowLanToPeers := on, updatedAt := 0 }

def baseTable : Table where
  chains :=
    ((∅ : Nft.Chains String Nft.Match).insert "forward" ⟨some forwardBase, []⟩).insert
      "postrouting" ⟨some postroutingBase, []⟩
  grounded := by decide
  fits := by decide

/-- What startup leaves of the table. -/
def servedTable : Table where
  chains :=
    ((∅ : Nft.Chains String Nft.Match).insert "forward" ⟨some forwardBase, []⟩).insert
      "postrouting" ⟨some postroutingBase,
        [masqueradeRule tunnelNet4 "wg0", masqueradeRule tunnelNet6 "wg0"]⟩
  grounded := by decide
  fits := by decide

/-- The table after the switch for peers has been turned off. -/
def deniedTable : Table where
  chains := servedTable.chains.insert "peer_to_peer"
    ⟨none, [policyRule false tunnelNet4 .drop, policyRule false tunnelNet6 .drop]⟩
  grounded := by decide
  fits := by decide

lemma parse_tunnelNet4 : Ip.parseNet .v4 defaultSettings.wgIpv4Network = some tunnelNet4 := by
  decide

lemma parse_tunnelNet6 : Ip.parseNet .v6 defaultSettings.wgIpv6Network = some tunnelNet6 := by
  decide

lemma defaultSettings_valid : defaultSettings.Valid where
  v4 := ⟨_, parse_tunnelNet4⟩
  v6 := ⟨_, parse_tunnelNet6⟩
  iface := by decide

lemma readable_of_rules_nil {nft : FrontEnd} {db : Database} (hd : db.devices = [])
    (hr : db.rules = []) : db.Readable nft := by
  intro u
  have he : db.userEntry u = ⟨u.str, [], []⟩ := by
    simp [Database.userEntry, Database.userDevices, Database.userRules, hd, hr, orderRules]
  rw [he]
  exact ⟨isName_chainOf u, fun d hd => absurd hd List.not_mem_nil, [], rfl⟩

lemma startup_switches (nft : FrontEnd) (on : Bool) :
    startup defaultSettings nft ascending (switches on) Nft.Table.empty = .ok servedTable := by
  have hbase : setupBaseTables nft Nft.Table.empty = .ok baseTable := by
    have hrun : Nft.run baseCmds Nft.Table.empty.chains = some baseTable.chains := by decide
    rw [setupBaseTables, nftBatch_eq_ok (batch_baseTables nft) hrun]
    rfl
  have hmasq : setupMasquerade nft defaultSettings baseTable = servedTable := by
    have hiface : Nft.IsInterface "wg0" := by decide
    have hok : nftBatch nft _ baseTable = .ok servedTable :=
      nftBatch_eq_ok (batch_masqueradeLines nft parse_tunnelNet4 parse_tunnelNet6 hiface)
        (by decide)
    exact congrArg (orKeep baseTable) hok
  have hrec : reconcileFirewall nft ascending (switches on) (ascending _) servedTable =
      servedTable := by
    have hentries : (switches on).reconcileEntries (ascending _) = [] := by
      rw [Database.reconcileEntries, SetOrder.toList_eq_nil (ascending ((switches on).userIds))]
      rfl
    have hset : orphanedChains servedTable [] = ∅ := by decide
    have hread : nft.batch (rebuildCommands [] []) = some [.flushChain "forward"] := by
      simp [rebuildCommands, Nft.FrontEnd.batch,
        read_flushChainLine nft (c := "forward") (by decide)]
    have hok : nftBatch nft _ servedTable = .ok servedTable := nftBatch_eq_ok hread (by decide)
    simp only [reconcileFirewall, rebuildAllRules]
    rw [hentries, hset, SetOrder.toList_eq_nil, hok]
    rfl
  have hwg : defaultSettings.wgEnabled = true := rfl
  unfold startup
  rw [if_pos hwg, hbase]
  simp only [hmasq]
  exact congrArg Except.ok hrec

def peerPacket : Nft.Packet where
  src := laptopAddr
  dst := phoneAddr
  transport := .tcp 22
  oif := "wg0"

lemma unmatched_of_keys (nft : FrontEnd) {t : Table}
    (h : ∀ c ∈ t.chains.keys, ¬ IsUserChain c) (p : Nft.Packet) :
    ∀ c, IsUserChain c → ∀ r ∈ t.chains.rules c, ¬ r.Hits (Nft.sat nft.other) p := by
  intro c hc r hr
  exact absurd hc (h c (Finmap.mem_keys.2 (Nft.mem_of_mem_rules hr)))

/-- Peers may not reach each other, and the switch has just been set so, but the packet passes. -/
theorem run_policy_ignored :
    PolicyRun defaultSettings (.fragment tableName)
        ⟨{ switches false with configuration := some { updatedAt := 1 } }, deniedTable⟩ ∧
      (∀ c, IsUserChain c → ∀ r ∈ deniedTable.chains.rules c,
        ¬ r.Hits (Nft.sat fun _ _ => false) peerPacket) ∧
      ¬ PoliciesDecide defaultSettings (.fragment tableName)
        ⟨{ switches false with configuration := some { updatedAt := 1 } }, deniedTable⟩
        peerPacket := by
  have htoggle : togglePeerToPeer defaultSettings (.fragment tableName) 1 false
      ⟨switches false, servedTable⟩ =
        ⟨{ switches false with configuration := some { updatedAt := 1 } }, deniedTable⟩ := by
    have hok : nftBatch (.fragment tableName) _ servedTable = .ok deniedTable :=
      nftBatch_eq_ok (batch_policyLines _ parse_tunnelNet4 parse_tunnelNet6 (c := "peer_to_peer")
        (by decide) false (show readAction "drop" = some .drop from rfl)) (by decide)
    exact congrArg₂ State.mk rfl (congrArg (orKeep servedTable) hok)
  have hrun : PolicyRun defaultSettings (.fragment tableName)
      ⟨{ switches false with configuration := some { updatedAt := 1 } }, deniedTable⟩ := by
    rw [← htoggle]
    refine .step (.start ascending (switches false) servedTable (readable_of_rules_nil rfl rfl)
      (startup_switches _ false)) (.peerToPeer _ 1 false) (readable_of_rules_nil rfl rfl)
  refine ⟨hrun, unmatched_of_keys (.fragment tableName) (by decide) peerPacket, fun h => ?_⟩
  have hdrop := (h { updatedAt := 1 } rfl).1 (by decide) (by decide)
  rw [(hrun.forwarding defaultSettings_valid).hookDecision_eq
    (unmatched_of_keys _ (by decide) peerPacket)] at hdrop
  cases hdrop

theorem run_policies_iff_on :
    PoliciesDecide defaultSettings (.fragment tableName) ⟨switches true, servedTable⟩
      peerPacket := by
  refine (run_policies_iff defaultSettings_valid (.start ascending (switches true) servedTable
    (readable_of_rules_nil rfl rfl) (startup_switches _ true))
      (unmatched_of_keys _ (by decide) peerPacket)).2 fun c hc => ?_
  obtain rfl : ({ allowPeerToPeer := true, allowLanToPeers := true, updatedAt := 0 } :
    Configuration) = c := Option.some.inj hc
  exact ⟨fun _ _ => rfl, fun _ _ => rfl⟩

end WireGui
