import WireGui.Nft.Nat
import WireGui.Services.Ownership
import WireGui.Services.Policy

/-!
# Which packets leave under the address of the host

`setup_masquerade` writes the chain `postrouting` when the service starts.  No other batch of the
service touches that chain or hangs another one on its hook (`FirewallStep.holds`), so that in every
run the packets that are masqueraded are those from the tunnel networks that leave by another
interface than the tunnel's (`run_masquerades_iff`).
-/

namespace WireGui

/-- The chain that `setup_masquerade` writes. -/
def masqueradeChain (n₄ n₆ : Ip.Net) (iface : String) : Nft.Chain String Nft.Match :=
  ⟨some postroutingBase, [masqueradeRule n₄ iface, masqueradeRule n₆ iface]⟩

/-- The chain is there as it was written, and nothing else hangs on its hook. -/
abbrev Masquerading (n₄ n₆ : Ip.Net) (iface : String) (t : Table) : Prop :=
  Nft.Holds "postrouting" (masqueradeChain n₄ n₆ iface) .postrouting t.chains

/-! ### The batches -/

section Batches

variable {settings : Settings} {nft : FrontEnd} {order : SetOrders} {t t' : Table}
  {ch : Nft.Chain String Nft.Match}

/-- The chain stays, whether the batch is accepted or refused. -/
lemma holds_orKeep (h : Nft.Holds "postrouting" ch .postrouting t.chains) {lines : List String}
    {cmds : List (Nft.Cmd String Nft.Match)} (hread : nft.batch lines = some cmds)
    (hc : ∀ cmd ∈ cmds, cmd.Spares "postrouting" .postrouting) :
    Nft.Holds "postrouting" ch .postrouting (orKeep t (nftBatch nft lines t)).chains := by
  cases hb : nftBatch nft lines t with
  | error e => exact h
  | ok t' =>
    obtain ⟨cmds', hread', hl⟩ := nftBatch_eq_ok_iff.1 hb
    obtain rfl := Option.some.inj (hread.symm.trans hread')
    exact h.load hc hl

lemma postrouting_not_isUserChain : ¬ IsUserChain "postrouting" := by decide

lemma IsUserChain.ne_postrouting {c : String} (h : IsUserChain c) : c ≠ "postrouting" := by
  rintro rfl
  exact postrouting_not_isUserChain h

lemma spares_policyCmds {c : String} (hc : c ≠ "postrouting") (neg : Bool) (n₄ n₆ : Ip.Net)
    (v : Nft.Verdict String) :
    ∀ cmd ∈ policyCmds c neg n₄ n₆ v, cmd.Spares "postrouting" .postrouting := by
  simp only [policyCmds, List.forall_mem_cons, Nft.Cmd.Spares]
  exact ⟨⟨hc, by simp⟩, hc, hc, hc, by simp⟩

/-- A rebuild writes user chains and `forward`. -/
lemma spares_rebuild {es : List Entry} {ps : List (Nft.Plan String Nft.Match)}
    (hps : es.mapM (Entry.plan nft) = some ps) (orphaned : SetOrder (orphanedChains t es)) :
    ∀ cmd ∈ Nft.rebuild "forward" ps orphaned.toList,
      cmd.Spares "postrouting" .postrouting := by
  have huser : ∀ p ∈ ps, p.chain ≠ "postrouting" := by
    intro p hp
    obtain ⟨e, -, hep⟩ := List.exists_of_mem_mapM hps hp
    rw [plan_chain hep]
    exact e.isUserChain_chain.ne_postrouting
  have horphan : ∀ c ∈ orphaned.toList, c ≠ "postrouting" := fun c hc =>
    (mem_orphanedChains.1 ((orphaned.mem_iff c).1 hc)).1.2.ne_postrouting
  intro cmd hcmd
  simp only [Nft.rebuild, Nft.removal, Nft.Plan.cmds, List.mem_append, List.mem_flatMap,
    List.mem_map, List.mem_cons, List.not_mem_nil, or_false] at hcmd
  rcases hcmd with ((⟨p, hp, (rfl | rfl) | ⟨r, -, rfl⟩⟩ | rfl) | ⟨r, -, rfl⟩) |
    ⟨c, hc, rfl | rfl⟩
  · exact ⟨huser p hp, by simp⟩
  · exact huser p hp
  · exact huser p hp
  · show "forward" ≠ "postrouting"
    decide
  · show "forward" ≠ "postrouting"
    decide
  · exact horphan c hc
  · exact horphan c hc

lemma holds_rebuildAllRules (h : Nft.Holds "postrouting" ch .postrouting t.chains)
    (hnamed : Named t) {es : List Entry} (hes : ∀ e ∈ es, e.Readable nft)
    (orphaned : SetOrder (orphanedChains t es)) :
    Nft.Holds "postrouting" ch .postrouting
      (orKeep t (rebuildAllRules nft es t orphaned)).chains := by
  obtain ⟨ps, hps⟩ := plans_of_readable hes
  exact holds_orKeep h (batch_rebuildCommands nft hps (fun e he => (hes e he).name)
    (isName_of_orphaned hnamed orphaned)) (spares_rebuild hps orphaned)

lemma holds_rebuildUserChain (h : Nft.Holds "postrouting" ch .postrouting t.chains)
    (hnamed : Named t) {db : Database} (hdb : db.Readable nft) (u : Uuid) :
    Nft.Holds "postrouting" ch .postrouting (rebuildUserChain nft order db u t).chains :=
  holds_rebuildAllRules h hnamed (List.forall_mem_singleton.2 (hdb u)) _

lemma holds_reconcileFirewall (h : Nft.Holds "postrouting" ch .postrouting t.chains)
    (hnamed : Named t) {db : Database} (hdb : db.Readable nft) (uids : SetOrder db.userIds) :
    Nft.Holds "postrouting" ch .postrouting (reconcileFirewall nft order db uids t).chains :=
  holds_rebuildAllRules h hnamed (readable_of_mem_reconcileEntries hdb) _

/-- What a command of `on_device_created` is: a chain for the owner, or a jump to it. -/
def ForDevice (d : Device) (cmd : Nft.Cmd String Nft.Match) : Prop :=
  cmd = .addChain (chainOf d.userId) none ∨
    ∃ n, cmd = .addRule "forward" (jumpRule (chainOf d.userId) n)

/-- **A new device** keeps what all batches of such commands keep. -/
lemma onDeviceCreated_keeps {P : Table → Prop} {d : Device} (hd : ∃ nets, d.entry.nets = some nets)
    (hP : ∀ {cmds : List (Nft.Cmd String Nft.Match)}, (∀ cmd ∈ cmds, ForDevice d cmd) →
      ∀ {u u' : Table}, P u → Nft.load cmds u = some u' → P u')
    (h : P t) : P (onDeviceCreated settings nft d t) := by
  obtain ⟨nets, hnets⟩ := hd
  unfold onDeviceCreated
  split
  · cases h₁ : addUserChain nft d.userId.str t with
    | error e => exact h
    | ok t₁ =>
      have hkeep : P t₁ := by
        have hread : nft.batch [addChainLine (userChainName d.userId.str)] =
            some [.addChain (chainOf d.userId) none] := by
          simp [Nft.FrontEnd.batch, read_addChainLine nft (isName_userChainName d.userId), chainOf]
        unfold addUserChain ignoreExists at h₁
        split at h₁
        next t₂ ht₂ =>
          obtain rfl := Except.ok.inj h₁
          obtain ⟨cmds, hcmds, hl⟩ := nftBatch_eq_ok_iff.1 ht₂
          obtain rfl := Option.some.inj (hcmds.symm.trans hread)
          exact hP (List.forall_mem_singleton.2 (.inl rfl)) h hl
        next e he =>
          split at h₁
          · obtain rfl := Except.ok.inj h₁
            exact h
          · cases h₁
      show P (orKeep t₁ (addDeviceJumpRule nft d.userId.str d.entry t₁))
      cases h₂ : addDeviceJumpRule nft d.userId.str d.entry t₁ with
      | error e => exact hkeep
      | ok t₂ =>
        refine hP (fun cmd hcmd => ?_) hkeep (load_of_addDeviceJumpRule hnets h₂)
        obtain ⟨r, hr, rfl⟩ := List.mem_map.1 hcmd
        obtain ⟨n, -, rfl⟩ := List.mem_map.1 hr
        exact .inr ⟨n, rfl⟩
  · exact h

lemma holds_onDeviceCreated (h : Nft.Holds "postrouting" ch .postrouting t.chains) {d : Device}
    (hd : ∃ nets, d.entry.nets = some nets) :
    Nft.Holds "postrouting" ch .postrouting (onDeviceCreated settings nft d t).chains := by
  refine onDeviceCreated_keeps (P := fun t => Nft.Holds "postrouting" ch .postrouting t.chains) hd
    (fun hcmds u u' hu hl => hu.load (fun cmd hcmd => ?_) hl) h
  rcases hcmds cmd hcmd with rfl | ⟨n, rfl⟩
  · exact ⟨(isUserChain_chainOf d.userId).ne_postrouting, by simp⟩
  · show "forward" ≠ "postrouting"
    decide

lemma Forwarding.onDeviceCreated (h : Forwarding t) {d : Device}
    (hd : ∃ nets, d.entry.nets = some nets) :
    Forwarding (WireGui.onDeviceCreated settings nft d t) := by
  refine onDeviceCreated_keeps hd (fun hcmds u u' hu hl c => ?_) h
  rw [Nft.load_lookup hl]
  refine forwardChain_effectOn (fun cmd hcmd => ?_) (hu c)
  rcases hcmds cmd hcmd with rfl | ⟨n, rfl⟩
  · exact ⟨fun _ => isName_chainOf d.userId, by simp⟩
  · exact fun _ => ⟨chainOf d.userId, isUserChain_chainOf d.userId, rfl⟩

/-- The base chains are declared once more. -/
lemma holds_setupBaseTables (h : Nft.Holds "postrouting" ch .postrouting t.chains)
    (hbase : ch.base = some postroutingBase) (ht' : setupBaseTables nft t = .ok t') :
    Nft.Holds "postrouting" ch .postrouting t'.chains := by
  unfold setupBaseTables ignoreExists at ht'
  split at ht'
  next u hu =>
    obtain rfl := Except.ok.inj ht'
    obtain ⟨cmds, hread, hl⟩ := nftBatch_eq_ok_iff.1 hu
    obtain rfl := Option.some.inj (hread.symm.trans (batch_baseTables nft))
    refine ⟨?_, fun d => ?_⟩
    · rw [Nft.load_lookup hl, h.lookup]
      cases ch
      cases hbase
      rfl
    · rw [Nft.load_lookup hl]
      refine Nft.onlyOn_effectOn (fun cmd hcmd b s he hs hh => ?_) (h.only d)
      subst he
      simp only [baseCmds, List.mem_cons, List.not_mem_nil, or_false, reduceCtorEq, false_or,
        Nft.Cmd.addChain.injEq] at hcmd
      rcases hcmd with ⟨rfl, rfl⟩ | ⟨rfl, rfl⟩
      · obtain rfl := Option.some.inj hs
        cases hh
      · rfl
  next e he =>
    split at ht'
    · obtain rfl := Except.ok.inj ht'
      exact h
    · cases ht'

variable {n₄ n₆ : Ip.Net}

lemma holds_applyPolicy (h₄ : Ip.parseNet .v4 settings.wgIpv4Network = some n₄)
    (h₆ : Ip.parseNet .v6 settings.wgIpv6Network = some n₆)
    (h : Nft.Holds "postrouting" ch .postrouting t.chains) {c : String} (hc : Nft.IsName c)
    (hne : c ≠ "postrouting") (neg enabled : Bool) :
    Nft.Holds "postrouting" ch .postrouting (orKeep t (nftBatch nft
      (policyLines settings c (negText neg) (if enabled then "accept" else "drop")) t)).chains := by
  cases enabled with
  | true =>
    exact holds_orKeep h
      (batch_policyLines nft h₄ h₆ hc neg (show readAction "accept" = some .accept from rfl))
      (spares_policyCmds hne neg n₄ n₆ _)
  | false =>
    exact holds_orKeep h
      (batch_policyLines nft h₄ h₆ hc neg (show readAction "drop" = some .drop from rfl))
      (spares_policyCmds hne neg n₄ n₆ _)

lemma masqueradeCmds_eq (iface : String) : masqueradeCmds n₄ n₆ iface =
    .flushChain "postrouting" ::
      [masqueradeRule n₄ iface, masqueradeRule n₆ iface].map (.addRule "postrouting") := rfl

/-- **`setup_masquerade` goes through** where the chain is there, whatever is in it. -/
theorem masquerading_setupMasquerade (nft : FrontEnd) (hs : settings.Valid)
    (h₄ : Ip.parseNet .v4 settings.wgIpv4Network = some n₄)
    (h₆ : Ip.parseNet .v6 settings.wgIpv6Network = some n₆)
    (h : Nft.Holds "postrouting" ch .postrouting t.chains)
    (hbase : ch.base = some postroutingBase) :
    Masquerading n₄ n₆ settings.wgInterface (setupMasquerade nft settings t) := by
  have hread := batch_masqueradeLines nft h₄ h₆ hs.iface
  have hmem : "postrouting" ∈ t.chains := Finmap.mem_iff.2 ⟨ch, h.lookup⟩
  have hplain : ∀ r ∈ [masqueradeRule n₄ settings.wgInterface,
      masqueradeRule n₆ settings.wgInterface], r.verdict.target = none := by
    simp [masqueradeRule, Nft.Verdict.target]
  obtain ⟨t', hl⟩ := Nft.exists_load_flush hmem hplain
  rw [← masqueradeCmds_eq] at hl
  have heq : setupMasquerade nft settings t = t' := by
    unfold setupMasquerade
    simp only
    rw [nftBatch_eq_ok_iff.2 ⟨_, hread, hl⟩]
    rfl
  have hlook := Nft.lookup_load_flush (masqueradeCmds_eq _ ▸ hl)
  rw [heq]
  refine ⟨?_, fun d dh hdh b hb hh => ?_⟩
  · rw [hlook, if_pos rfl, h.lookup, Option.map_some, hbase]
    rfl
  · rw [Option.mem_def, hlook] at hdh
    split at hdh
    next hd => exact hd
    next => exact h.only d dh hdh b hb hh

end Batches

/-! ### Runs -/

/-- One step of the running service, as far as it may come to the firewall: a switch or a rule, a
change of the database, or an event of a device. -/
inductive FirewallStep (settings : Settings) (nft : FrontEnd) : State → State → Prop
  | policy {s s' : State} (h : PolicyStep settings nft s s') : FirewallStep settings nft s s'
  | change (s : State) (db : Database) : FirewallStep settings nft s ⟨db, s.fw⟩
  | deviceCreated (s : State) (d : Device) (hd : ∃ nets, d.entry.nets = some nets) :
      FirewallStep settings nft s ⟨s.db, onDeviceCreated settings nft d s.fw⟩
  | deviceUpdated (s : State) (order : SetOrders) (d : Device) :
      FirewallStep settings nft s ⟨s.db, onDeviceUpdated settings nft order s.db d s.fw⟩
  | deviceDeleted (s : State) (d : Device) :
      FirewallStep settings nft s ⟨s.db, onDeviceDeleted d s.fw⟩

/-- A run from startup, in which nft can always read the rows. -/
inductive FirewallRun (settings : Settings) (nft : FrontEnd) : State → Prop
  | start (order : SetOrders) (db : Database) (t : Table) (hdb : db.Readable nft)
      (h : startup settings nft order db Nft.Table.empty = .ok t) :
      FirewallRun settings nft ⟨db, t⟩
  | step {s s' : State} (h : FirewallRun settings nft s) (hs : FirewallStep settings nft s s')
      (hdb : s'.db.Readable nft) : FirewallRun settings nft s'

section Runs

variable {settings : Settings} {nft : FrontEnd} {s s' : State} {n₄ n₆ : Ip.Net} {t : Table}

/-- The chains of users have names that nft can read, after each step. -/
lemma FirewallStep.forwarding (hs : settings.Valid) (h : FirewallStep settings nft s s')
    (hdb : s'.db.Readable nft) (hf : Forwarding s.fw) : Forwarding s'.fw := by
  cases h with
  | policy h => exact h.forwarding hs hdb hf
  | change db => exact hf
  | deviceCreated d hd => exact hf.onDeviceCreated hd
  | deviceUpdated order d =>
    show Forwarding (onDeviceUpdated settings nft order s.db d s.fw)
    unfold onDeviceUpdated
    split
    · exact hf.rebuildUserChain hdb d.userId
    · exact hf
  | deviceDeleted d => exact hf

/-- **Startup** writes the chain of a table that has its own base chains. -/
lemma masquerading_startup (hs : settings.Valid) (hwg : settings.wgEnabled = true)
    (h₄ : Ip.parseNet .v4 settings.wgIpv4Network = some n₄)
    (h₆ : Ip.parseNet .v6 settings.wgIpv6Network = some n₆) {order : SetOrders} {db : Database}
    (hdb : db.Readable nft) (hf : Forwarding t) {t' : Table}
    (hbase : ∀ t₁, setupBaseTables nft t = .ok t₁ → ∃ ch,
      Nft.Holds "postrouting" ch .postrouting t₁.chains ∧ ch.base = some postroutingBase)
    (h : startup settings nft order db t = .ok t') :
    Masquerading n₄ n₆ settings.wgInterface t' := by
  unfold startup at h
  rw [if_pos hwg] at h
  cases h₁ : setupBaseTables nft t with
  | error e =>
    rw [h₁] at h
    cases h
  | ok t₁ =>
    rw [h₁] at h
    obtain rfl := Except.ok.inj h
    obtain ⟨ch, hch, hb⟩ := hbase t₁ h₁
    have hmasq := masquerading_setupMasquerade nft hs h₄ h₆ hch hb
    have hf₁ : Forwarding t₁ := by
      unfold setupBaseTables ignoreExists at h₁
      split at h₁
      next u hu =>
        obtain rfl := Except.ok.inj h₁
        exact hf.nftBatch (batch_baseTables nft) keepsForward_baseCmds hu
      next e he =>
        split at h₁
        · obtain rfl := Except.ok.inj h₁
          exact hf
        · cases h₁
    have hf₂ : Forwarding (setupMasquerade nft settings t₁) :=
      hf₁.orKeep (batch_masqueradeLines nft h₄ h₆ hs.iface) (keepsForward_masqueradeCmds n₄ n₆ _)
    exact holds_reconcileFirewall hmasq hf₂.named hdb _

/-- The base chains of the empty table. -/
lemma exists_holds_of_empty {t₁ : Table} (h : setupBaseTables nft Nft.Table.empty = .ok t₁) :
    ∃ ch, Nft.Holds "postrouting" ch .postrouting t₁.chains ∧ ch.base = some postroutingBase := by
  have hrun : Nft.run baseCmds Nft.Table.empty.chains = some baseTable.chains := by decide
  have hok : setupBaseTables nft Nft.Table.empty = .ok baseTable := by
    rw [setupBaseTables, nftBatch_eq_ok (batch_baseTables nft) hrun]
    rfl
  obtain rfl := Except.ok.inj (hok.symm.trans h)
  have honly : ∀ d ∈ baseTable.chains.keys, ∀ dh ∈ baseTable.chains.lookup d, ∀ b ∈ dh.base,
      b.hook = .postrouting → d = "postrouting" := by decide
  refine ⟨⟨some postroutingBase, []⟩, ⟨by decide, fun d dh hdh => ?_⟩, rfl⟩
  exact honly d (Finmap.mem_keys.2 (Finmap.mem_iff.2 ⟨dh, hdh⟩)) dh hdh

/-- **Each step leaves the chain as it is**, or writes it once more. -/
theorem FirewallStep.masquerading (hs : settings.Valid) (hwg : settings.wgEnabled = true)
    (h₄ : Ip.parseNet .v4 settings.wgIpv4Network = some n₄)
    (h₆ : Ip.parseNet .v6 settings.wgIpv6Network = some n₆) (h : FirewallStep settings nft s s')
    (hdb : s'.db.Readable nft) (hf : Forwarding s.fw)
    (hm : Masquerading n₄ n₆ settings.wgInterface s.fw) :
    Masquerading n₄ n₆ settings.wgInterface s'.fw := by
  cases h with
  | policy h =>
    cases h with
    | peerToPeer now value =>
      exact holds_applyPolicy h₄ h₆ hm (c := "peer_to_peer") (by decide) (by decide) false value
    | lanToPeers now value =>
      exact holds_applyPolicy h₄ h₆ hm (c := "lan_to_peers") (by decide) (by decide) true value
    | ruleChanged order rules rule =>
      show Masquerading n₄ n₆ _ (onRuleChanged settings nft order _ rule s.fw)
      unfold onRuleChanged
      rw [if_pos hwg]
      split
      · exact hm
      · exact holds_rebuildUserChain hm hf.named hdb _
    | rulesReordered order rules u =>
      show Masquerading n₄ n₆ _ (onRulesReordered settings nft order _ u s.fw)
      unfold onRulesReordered
      rw [if_pos hwg]
      exact holds_rebuildUserChain hm hf.named hdb _
    | restart order t h =>
      refine masquerading_startup hs hwg h₄ h₆ hdb hf (fun t₁ ht₁ => ?_) h
      exact ⟨_, holds_setupBaseTables hm rfl ht₁, rfl⟩
  | change db => exact hm
  | deviceCreated d hd => exact holds_onDeviceCreated hm hd
  | deviceUpdated order d =>
    show Masquerading n₄ n₆ _ (onDeviceUpdated settings nft order s.db d s.fw)
    unfold onDeviceUpdated
    rw [if_pos hwg]
    exact holds_rebuildUserChain hm hf.named hdb _
  | deviceDeleted d => exact hm

lemma FirewallRun.masquerading (hs : settings.Valid) (hwg : settings.wgEnabled = true)
    (h₄ : Ip.parseNet .v4 settings.wgIpv4Network = some n₄)
    (h₆ : Ip.parseNet .v6 settings.wgIpv6Network = some n₆) (h : FirewallRun settings nft s) :
    Forwarding s.fw ∧ Masquerading n₄ n₆ settings.wgInterface s.fw := by
  induction h with
  | start order db t hdb h =>
    exact ⟨forwarding_empty.startup hs hdb h, masquerading_startup hs hwg h₄ h₆ hdb forwarding_empty
      (fun _ => exists_holds_of_empty) h⟩
  | step _ hstep hdb ih =>
    exact ⟨hstep.forwarding hs hdb ih.1, hstep.masquerading hs hwg h₄ h₆ hdb ih.1 ih.2⟩

lemma hits_masqueradeRule {other : String → Nft.Packet → Bool} {n : Ip.Net} {iface : String}
    {p : Nft.Packet} :
    (masqueradeRule n iface).Hits (Nft.sat other) p ↔ p.src ∈ n ∧ p.oif ≠ iface := by
  unfold Nft.Rule.Hits masqueradeRule
  simp only [List.forall_mem_cons, Nft.sat_saddr]
  refine and_congr Iff.rfl ?_
  simp [Nft.sat]

/-- **What is masqueraded**, in every run: just the packets from the tunnel networks that leave by
another interface. -/
theorem run_masquerades_iff (hs : settings.Valid) (hwg : settings.wgEnabled = true)
    (h : FirewallRun settings nft s) (p : Nft.Packet) :
    s.fw.chains.Masquerades (Nft.sat nft.other) p ↔
      settings.Inside p.src ∧ p.oif ≠ settings.wgInterface := by
  obtain ⟨n₄, h₄⟩ := hs.v4
  obtain ⟨n₆, h₆⟩ := hs.v6
  have hm := (h.masquerading hs hwg h₄ h₆).2
  have hrules := Nft.rules_of_lookup hm.lookup
  rw [hm.masquerades_iff rfl rfl rfl]
  show Nft.natRules _ (Nft.natChain _ _ p 15) p (s.fw.chains.rules "postrouting") = _ ↔ _
  rw [hrules, Nft.natRules_of_masquerade (by simp [masqueradeChain, masqueradeRule])]
  have hinside : settings.Inside p.src ↔ p.src ∈ n₄ ∨ p.src ∈ n₆ := by
    simp [Settings.Inside, h₄, h₆]
  have hany : (∃ r ∈ (masqueradeChain n₄ n₆ settings.wgInterface).rules,
      r.Hits (Nft.sat nft.other) p) ↔ settings.Inside p.src ∧ p.oif ≠ settings.wgInterface := by
    rw [hinside, or_and_right]
    simp only [masqueradeChain, List.mem_cons, List.not_mem_nil, or_false, exists_eq_or_imp,
      exists_eq_left, hits_masqueradeRule]
  rw [← hany]
  split
  next hr => exact iff_of_true rfl hr
  next hr => exact iff_of_false (by simp) hr

end Runs

/-- A packet of the laptop to the world. -/
def webPacket : Nft.Packet where
  src := laptopAddr
  dst := ⟨.v4, 0x01010101, by decide⟩
  transport := .tcp 443
  oif := "eth0"

theorem run_masquerades_web :
    servedTable.chains.Masquerades (Nft.sat (Nft.FrontEnd.fragment tableName).other) webPacket :=
  (run_masquerades_iff defaultSettings_valid rfl (.start ascending (switches true) servedTable
    (readable_of_rules_nil rfl rfl) (startup_switches (.fragment tableName) true)) webPacket).2
      ⟨by decide, by decide⟩

end WireGui
