import WireGui.Nft.Managed
import WireGui.Services.Isolation
import WireGui.Services.Masquerade

/-!
# The firewall in every run

`Served` is the state of the table in which `forward` decides about forwarded packets.  Startup
brings it about, and every batch of the service keeps it, as long as the rows are well formed
(`KeptRun.served`).
-/

namespace WireGui

open Nft (IsName)

/-- The rows of every user are well formed. -/
def Database.WellFormed (db : Database) : Prop := ∀ u, (db.userEntry u).WellFormed

lemma Database.WellFormed.readable {nft : FrontEnd} {db : Database} (h : db.WellFormed) :
    db.Readable nft := fun u => (h u).readable

lemma wellFormed_of_mem_reconcileEntries {db : Database} (h : db.WellFormed)
    {uids : SetOrder db.userIds} : ∀ e ∈ db.reconcileEntries uids, e.WellFormed := by
  obtain ⟨users, -, -, -, hentries⟩ := reconcileEntries_eq db uids
  intro e he
  rw [hentries] at he
  obtain ⟨u, -, rfl⟩ := List.mem_map.1 he
  exact h u

/-- The command keeps the table as it is served. -/
structure KeepsServed (cmd : Nft.Cmd String Nft.Match) : Prop where
  managed : cmd.Keeps "forward" forwardBase IsUserChain
  forward : KeepsForward cmd

section Batches

variable {settings : Settings} {nft : FrontEnd} {order : SetOrders} {t t' : Table}
  {cmds : List (Nft.Cmd String Nft.Match)}

lemma Served.anchored (h : Served t) :
    Nft.Anchored "forward" forwardBase IsUserChain t.chains := h.toManaged.anchored h.hooked

/-- **A batch of such commands** keeps the table so. -/
theorem Served.load (h : Served t) (hc : ∀ cmd ∈ cmds, KeepsServed cmd)
    (hl : Nft.load cmds t = some t') : Served t' := by
  have ha := h.anchored.load (fun cmd hcmd => (hc cmd hcmd).managed) hl
  have hf : Forwarding t' := by
    intro c
    rw [Nft.load_lookup hl]
    exact forwardChain_effectOn (fun cmd hcmd => (hc cmd hcmd).forward) (h.forwarding c)
  exact ⟨⟨ha.toManaged, hf.named⟩, hf, ha.hub_base⟩

lemma Served.nftBatch (h : Served t) {lines : List String} (hread : nft.batch lines = some cmds)
    (hc : ∀ cmd ∈ cmds, KeepsServed cmd) (ht' : nftBatch nft lines t = .ok t') : Served t' := by
  obtain ⟨cmds', hread', hl⟩ := nftBatch_eq_ok_iff.1 ht'
  obtain rfl := Option.some.inj (hread.symm.trans hread')
  exact h.load hc hl

lemma Served.orKeep (h : Served t) {lines : List String} (hread : nft.batch lines = some cmds)
    (hc : ∀ cmd ∈ cmds, KeepsServed cmd) : Served (orKeep t (WireGui.nftBatch nft lines t)) := by
  cases hb : WireGui.nftBatch nft lines t with
  | error e => exact h
  | ok t' => exact h.nftBatch hread hc hb

lemma keepsServed_baseCmds : ∀ cmd ∈ baseCmds, KeepsServed cmd := by
  intro cmd hcmd
  refine ⟨?_, keepsForward_baseCmds cmd hcmd⟩
  simp only [baseCmds, List.mem_cons, List.not_mem_nil, or_false] at hcmd
  rcases hcmd with rfl | rfl | rfl
  · trivial
  · refine ⟨fun h => absurd rfl h.ne_forward, ?_⟩
    rintro s hs -
    exact (Option.some.inj hs).symm
  · exact ⟨fun h => absurd h postrouting_not_isUserChain, fun s _ he => absurd he (by decide)⟩

lemma keepsServed_policyCmds {c : String} (hf : c ≠ "forward") (hu : ¬ IsUserChain c) (neg : Bool)
    (n₄ n₆ : Ip.Net) {v : Nft.Verdict String} (hv : v.target = none) :
    ∀ cmd ∈ policyCmds c neg n₄ n₆ v, KeepsServed cmd := by
  intro cmd hcmd
  refine ⟨?_, keepsForward_policyCmds hf hu neg n₄ n₆ v cmd hcmd⟩
  simp only [policyCmds, List.mem_cons, List.not_mem_nil, or_false] at hcmd
  have hleaf : ∀ d ∈ v.target, IsUserChain d → c = "forward" := by
    intro d hd
    rw [hv] at hd
    cases hd
  rcases hcmd with rfl | rfl | rfl | rfl
  · exact ⟨fun _ => rfl, fun s hs => by cases hs⟩
  · trivial
  · exact hleaf
  · exact hleaf

lemma keepsServed_masqueradeCmds (n₄ n₆ : Ip.Net) (iface : String) :
    ∀ cmd ∈ masqueradeCmds n₄ n₆ iface, KeepsServed cmd := by
  intro cmd hcmd
  refine ⟨?_, keepsForward_masqueradeCmds n₄ n₆ iface cmd hcmd⟩
  rw [masqueradeCmds_eq] at hcmd
  simp only [List.map_cons, List.map_nil, List.mem_cons, List.not_mem_nil, or_false] at hcmd
  rcases hcmd with rfl | rfl | rfl
  · trivial
  · exact fun d hd => by cases hd
  · exact fun d hd => by cases hd

/-- What a new device adds to the table. -/
lemma ForDevice.keepsServed {d : Device} {cmd : Nft.Cmd String Nft.Match} (h : ForDevice d cmd) :
    KeepsServed cmd := by
  rcases h with rfl | ⟨n, rfl⟩
  · exact ⟨⟨fun _ => rfl, fun s hs => by cases hs⟩, fun _ => isName_chainOf d.userId,
      fun s hs => by cases hs⟩
  · exact ⟨fun _ _ _ => rfl, fun _ => ⟨chainOf d.userId, isUserChain_chainOf d.userId, rfl⟩⟩

lemma Served.onDeviceCreated (h : Served t) {d : Device} (hd : ∃ nets, d.entry.nets = some nets) :
    Served (onDeviceCreated settings nft d t) :=
  onDeviceCreated_keeps hd
    (fun hcmds _ _ hu hl => hu.load (fun cmd hcmd => (hcmds cmd hcmd).keepsServed) hl) h

lemma Served.rebuildUserChain (h : Served t) {db : Database} (hdb : db.WellFormed) (u : Uuid) :
    Served (rebuildUserChain nft order db u t) := by
  unfold WireGui.rebuildUserChain
  cases hr : rebuildAllRules nft [db.userEntry u] t (order _) with
  | error e => exact h
  | ok t' => exact h.rebuild (List.forall_mem_singleton.2 (hdb u)) hr

lemma Served.applyPolicy (h : Served t) (hs : settings.Valid) {c : String} (hc : IsName c)
    (hf : c ≠ "forward") (hu : ¬ IsUserChain c) (neg enabled : Bool) :
    Served (WireGui.orKeep t (WireGui.nftBatch nft (policyLines settings c (negText neg)
      (if enabled then "accept" else "drop")) t)) := by
  obtain ⟨n₄, h₄⟩ := hs.v4
  obtain ⟨n₆, h₆⟩ := hs.v6
  cases enabled with
  | true =>
    exact h.orKeep
      (batch_policyLines nft h₄ h₆ hc neg (show readAction "accept" = some .accept from rfl))
      (keepsServed_policyCmds hf hu neg n₄ n₆ rfl)
  | false =>
    exact h.orKeep
      (batch_policyLines nft h₄ h₆ hc neg (show readAction "drop" = some .drop from rfl))
      (keepsServed_policyCmds hf hu neg n₄ n₆ rfl)

/-! ### Startup -/

/-- The base chains of the empty table. -/
lemma setupBaseTables_empty (nft : FrontEnd) :
    setupBaseTables nft Nft.Table.empty = .ok baseTable := by
  have hrun : Nft.run baseCmds Nft.Table.empty.chains = some baseTable.chains := by decide
  rw [setupBaseTables, nftBatch_eq_ok (batch_baseTables nft) hrun]
  rfl

lemma served_baseTable : Served baseTable where
  toManaged := .of_keys (by decide) (by decide) (by decide)
  names := by decide
  forwarding := by
    have h : ∀ c ∈ baseTable.chains.keys, c = "forward" ∨ c = "postrouting" := by decide
    intro c ch hch
    rcases h c (Finmap.mem_keys.2 (Finmap.mem_iff.2 ⟨ch, hch⟩)) with rfl | rfl
    · obtain rfl : ⟨some forwardBase, []⟩ = ch := Option.some.inj hch
      exact ⟨fun b hb _ => ⟨rfl, by rw [← Option.some.inj hb]; rfl⟩,
        fun _ r hr => absurd hr List.not_mem_nil, fun hu => absurd rfl hu.ne_forward⟩
    · obtain rfl : ⟨some postroutingBase, []⟩ = ch := Option.some.inj hch
      refine ⟨fun b hb hh => ?_, fun _ r hr => absurd hr List.not_mem_nil,
        fun hu => absurd hu postrouting_not_isUserChain⟩
      obtain rfl := Option.some.inj hb
      cases hh
  hooked := ⟨_, rfl, rfl⟩

/-- The table before a reconciliation is served, whether it was there before startup or not. -/
lemma exists_served_of_startup (hs : settings.Valid) (hwg : settings.wgEnabled = true)
    (h : t = Nft.Table.empty ∨ Served t) {db : Database}
    (ht' : startup settings nft order db t = .ok t') :
    ∃ t₁, Served t₁ ∧ t' = reconcileFirewall nft order db (order db.userIds) t₁ := by
  obtain ⟨n₄, h₄⟩ := hs.v4
  obtain ⟨n₆, h₆⟩ := hs.v6
  unfold startup at ht'
  rw [if_pos hwg] at ht'
  cases h₁ : setupBaseTables nft t with
  | error e =>
    rw [h₁] at ht'
    cases ht'
  | ok t₁ =>
    rw [h₁] at ht'
    have hserved : Served t₁ := by
      rcases h with rfl | h
      · obtain rfl := Except.ok.inj ((setupBaseTables_empty nft).symm.trans h₁)
        exact served_baseTable
      · unfold setupBaseTables ignoreExists at h₁
        split at h₁
        next u hu =>
          obtain rfl := Except.ok.inj h₁
          exact h.nftBatch (batch_baseTables nft) keepsServed_baseCmds hu
        next e he =>
          split at h₁
          · obtain rfl := Except.ok.inj h₁
            exact h
          · cases h₁
    exact ⟨_, hserved.orKeep (batch_masqueradeLines nft h₄ h₆ hs.iface)
      (keepsServed_masqueradeCmds n₄ n₆ _), (Except.ok.inj ht').symm⟩

lemma Served.reconcileFirewall (h : Served t) {db : Database} (hdb : db.WellFormed)
    (uids : SetOrder db.userIds) : Served (reconcileFirewall nft order db uids t) := by
  unfold WireGui.reconcileFirewall
  cases hr : rebuildAllRules nft (db.reconcileEntries uids) t (order _) with
  | error e =>
    simp only [hr]
    exact h
  | ok t' =>
    simp only [hr]
    exact h.rebuild (wellFormed_of_mem_reconcileEntries hdb) hr

end Batches

/-! ### Runs -/

/-- A run from startup, in which the rows are well formed. -/
inductive KeptRun (settings : Settings) (nft : FrontEnd) : State → Prop
  | start (order : SetOrders) (db : Database) (t : Table) (hdb : db.WellFormed)
      (h : startup settings nft order db Nft.Table.empty = .ok t) : KeptRun settings nft ⟨db, t⟩
  | step {s s' : State} (h : KeptRun settings nft s) (hs : FirewallStep settings nft s s')
      (hdb : s'.db.WellFormed) : KeptRun settings nft s'

section Runs

variable {settings : Settings} {nft : FrontEnd} {s s' : State}

lemma Served.startup (hs : settings.Valid) (hwg : settings.wgEnabled = true) {t t' : Table}
    (h : t = Nft.Table.empty ∨ Served t) {db : Database} (hdb : db.WellFormed)
    {order : SetOrders} (ht' : startup settings nft order db t = .ok t') : Served t' := by
  obtain ⟨t₁, h₁, rfl⟩ := exists_served_of_startup hs hwg h ht'
  exact h₁.reconcileFirewall hdb _

lemma PolicyStep.served (hs : settings.Valid) (hwg : settings.wgEnabled = true)
    (h : PolicyStep settings nft s s') (hdb : s'.db.WellFormed) (hserved : Served s.fw) :
    Served s'.fw := by
  cases h with
  | peerToPeer now value =>
    exact hserved.applyPolicy hs (c := "peer_to_peer") (by decide) (by decide) (by decide)
      false value
  | lanToPeers now value =>
    exact hserved.applyPolicy hs (c := "lan_to_peers") (by decide) (by decide) (by decide)
      true value
  | ruleChanged order rules rule =>
    show Served (onRuleChanged settings nft order _ rule s.fw)
    unfold onRuleChanged
    rw [if_pos hwg]
    split
    · exact hserved
    · exact hserved.rebuildUserChain hdb _
  | rulesReordered order rules u =>
    show Served (onRulesReordered settings nft order _ u s.fw)
    unfold onRulesReordered
    rw [if_pos hwg]
    exact hserved.rebuildUserChain hdb u
  | restart order t h => exact Served.startup hs hwg (.inr hserved) hdb h

/-- **Every step keeps the table served.** -/
theorem FirewallStep.served (hs : settings.Valid) (hwg : settings.wgEnabled = true)
    (h : FirewallStep settings nft s s') (hdb : s'.db.WellFormed) (hserved : Served s.fw) :
    Served s'.fw := by
  cases h with
  | policy h => exact h.served hs hwg hdb hserved
  | change db => exact hserved
  | deviceCreated d hd => exact hserved.onDeviceCreated hd
  | deviceUpdated order d =>
    show Served (onDeviceUpdated settings nft order s.db d s.fw)
    unfold onDeviceUpdated
    rw [if_pos hwg]
    exact hserved.rebuildUserChain hdb d.userId
  | deviceDeleted d => exact hserved

theorem KeptRun.served (hs : settings.Valid) (hwg : settings.wgEnabled = true)
    (h : KeptRun settings nft s) : Served s.fw := by
  induction h with
  | start order db t hdb h => exact Served.startup hs hwg (.inl rfl) hdb h
  | step _ hstep hdb ih => exact hstep.served hs hwg hdb ih

end Runs

end WireGui
