import WireGui.Api.Devices
import WireGui.Lib.Run
import WireGui.Services.Users
import WireGui.Tasks.Reconcile

/-!
# Whose chain a device's packets go to

A new device gets jumps to its owner's chain, a deleted one leaves its jumps behind, and an address
that has become free is handed out again.  `run_owned_iff` says in which runs every jump from the
address of a device leads to the chain of the device's owner.
-/

namespace WireGui

open Nft (IsName)

/-- **Every jump from the tunnel address of a device** leads to the chain of its owner. -/
def Owned (s : State) : Prop :=
  ∀ d ∈ s.db.devices, ∀ a, d.HasAddress a → ∀ c, jumpRule c a.host ∈ s.fw.chains.rules "forward" →
    c = chainOf d.userId

/-- No device relays just the tunnel address of another owner's device, or has that address. -/
def Database.Separate (db : Database) : Prop :=
  ∀ d ∈ db.devices, ∀ nets ∈ d.entry.nets, ∀ n ∈ nets, ∀ d' ∈ db.devices, ∀ a, d'.HasAddress a →
    n = a.host → chainOf d.userId = chainOf d'.userId

/-- The new device `d` finds no jump from its addresses to another owner's chain, and relays no
tunnel address of another owner's device. -/
structure Fresh (s : State) (d : Device) : Prop where
  leftover : ∀ a, d.HasAddress a → ∀ c, jumpRule c a.host ∈ s.fw.chains.rules "forward" →
    c = chainOf d.userId
  relayed : ∀ d' ∈ s.db.devices, ∀ a, d'.HasAddress a →
    (∃ subnet ∈ d.allowedSubnets, Ip.readNet subnet = some a.host) →
      chainOf d.userId = chainOf d'.userId

/-! ### The jumps of a new device -/

section Created

variable {nft : FrontEnd} {t t' : Table}

/-- A chain that is added is empty, and one that is there stays as it is. -/
lemma lookup_addUserChain {u : Uuid} (h : addUserChain nft u.str t = .ok t') (c : String) :
    t'.chains.lookup c = t.chains.lookup c ∨
      (c = chainOf u ∧ t.chains.lookup c = none ∧ t'.chains.lookup c = some ⟨none, []⟩) := by
  unfold addUserChain ignoreExists at h
  split at h
  next t₁ ht₁ =>
    obtain rfl := Except.ok.inj h
    obtain ⟨cmds, hb, hl⟩ := nftBatch_eq_ok_iff.1 ht₁
    have hread : nft.batch [addChainLine (userChainName u.str)] =
        some [.addChain (chainOf u) none] := by
      simp [Nft.FrontEnd.batch, read_addChainLine nft (isName_userChainName u), chainOf]
    obtain rfl := Option.some.inj (hb.symm.trans hread)
    have hset : t₁.chains.lookup c = if chainOf u = c then
        (Nft.Cmd.addChain (chainOf u) none).effect (t.chains.lookup c) else t.chains.lookup c := by
      rw [Nft.load_lookup hl, Nft.effectOn_cons, Nft.effectOn_nil]
      exact if_congr Option.some_inj rfl rfl
    rw [hset]
    by_cases hc : chainOf u = c
    · rw [if_pos hc]
      cases t.chains.lookup c with
      | none => exact .inr ⟨hc.symm, rfl, rfl⟩
      | some ch => exact .inl rfl
    · rw [if_neg hc]
      exact .inl rfl
  next e he =>
    split at h
    · rw [Except.ok.inj h]
      exact .inl rfl
    · cases h

/-- The jumps are added to `forward`, one by one. -/
lemma load_of_addDeviceJumpRule {u : Uuid} {d : DeviceEntry} {nets : List Ip.Net}
    (hn : d.nets = some nets) (h : addDeviceJumpRule nft u.str d t = .ok t') :
    Nft.load ((nets.map (jumpRule (chainOf u))).map (.addRule "forward")) t = some t' := by
  have hrules := rules_of_nets nft (isName_chainOf u) hn
  unfold addDeviceJumpRule at h
  simp only at h
  split at h
  next hnil =>
    obtain rfl := Except.ok.inj h
    have hlines : d.lines (chainOf u) = [] := hnil
    rw [hlines] at hrules
    rw [← Option.some.inj hrules]
    exact Nft.load_eq_some_iff.2 rfl
  next =>
    obtain ⟨cmds, hb, hl⟩ := nftBatch_eq_ok_iff.1 h
    obtain rfl := Option.some.inj (hb.symm.trans (Nft.batch_of_rules nft hrules))
    exact hl

lemma lookup_addDeviceJumpRule {u : Uuid} {d : DeviceEntry} {nets : List Ip.Net}
    (hn : d.nets = some nets) (h : addDeviceJumpRule nft u.str d t = .ok t') (c : String) :
    t'.chains.lookup c =
      if c = "forward" then (t.chains.lookup c).map fun ch =>
        { ch with rules := ch.rules ++ nets.map (jumpRule (chainOf u)) }
      else t.chains.lookup c := by
  rw [Nft.load_lookup (load_of_addDeviceJumpRule hn h)]
  by_cases hc : c = "forward"
  · subst hc
    rw [if_pos rfl, Nft.effectOn_addRules]
  · rw [if_neg hc]
    refine Nft.effectOn_of_forall_ne (fun cmd hcmd => ?_) _
    obtain ⟨r, -, rfl⟩ := List.mem_map.1 hcmd
    exact fun he => hc (Option.some.inj he).symm

/-- The jumps land at the end of `forward`. -/
lemma rules_addDeviceJumpRule {u : Uuid} {d : DeviceEntry} {nets : List Ip.Net}
    (hn : d.nets = some nets) (h : addDeviceJumpRule nft u.str d t = .ok t') :
    t'.chains.rules "forward" = t.chains.rules "forward" ++ nets.map (jumpRule (chainOf u)) := by
  have hlook := lookup_addDeviceJumpRule hn h "forward"
  rw [if_pos rfl] at hlook
  cases hl : t.chains.lookup "forward" with
  | some ch =>
    rw [hl, Option.map_some] at hlook
    rw [Nft.rules_of_lookup hlook, Nft.rules_of_lookup hl]
  | none =>
    -- nft would refuse the first jump
    cases nets with
    | nil =>
      rw [hl] at hlook
      rw [List.map_nil, List.append_nil]
      exact Nft.rules_congr (hlook.trans hl.symm)
    | cons n nets =>
      have hrun := Nft.load_eq_some_iff.1 (load_of_addDeviceJumpRule hn h)
      rw [List.map_cons, List.map_cons, Nft.run_cons] at hrun
      obtain ⟨v, hv, -⟩ := Option.bind_eq_some_iff.1 hrun
      have hmem : "forward" ∈ t.chains := (Nft.exec_eq_some_iff.1 hv).1.1
      exact absurd hmem (Finmap.lookup_eq_none.1 hl)

/-- The commands of `on_device_created` succeed, each jump with the network that its source is. -/
def Accepted (nft : FrontEnd) (d : Device) (t : Table) : Prop :=
  (∃ nets, d.entry.nets = some nets) ∧ ∃ t₁ t₂, addUserChain nft d.userId.str t = .ok t₁ ∧
    addDeviceJumpRule nft d.userId.str d.entry t₁ = .ok t₂

/-- Both batches go through. -/
lemma accepted_of_run (nft : FrontEnd) {d : Device} {nets : List Ip.Net}
    (hnets : d.entry.nets = some nets) (hne : d.entry.lines (chainOf d.userId) ≠ []) {t₁ t₂ : Table}
    (hchain : Nft.run [.addChain (chainOf d.userId) none] t.chains = some t₁.chains)
    (hjumps : Nft.run ((nets.map (jumpRule (chainOf d.userId))).map (.addRule "forward"))
      t₁.chains = some t₂.chains) : Accepted nft d t := by
  refine ⟨⟨nets, hnets⟩, t₁, t₂, ?_, ?_⟩
  · have hread : nft.batch [addChainLine (userChainName d.userId.str)] =
        some [.addChain (chainOf d.userId) none] := by
      simp [Nft.FrontEnd.batch, read_addChainLine nft (isName_userChainName d.userId), chainOf]
    exact congrArg (ignoreExists t) (nftBatch_eq_ok hread hchain)
  · have hread := Nft.batch_of_rules nft (rules_of_nets nft (isName_chainOf d.userId) hnets)
    unfold addDeviceJumpRule
    exact (if_neg hne).trans (nftBatch_eq_ok hread hjumps)

lemma onDeviceCreated_of_ok {settings : Settings} (hwg : settings.wgEnabled = true) {d : Device}
    {t₁ t₂ : Table} (h₁ : addUserChain nft d.userId.str t = .ok t₁)
    (h₂ : addDeviceJumpRule nft d.userId.str d.entry t₁ = .ok t₂) :
    onDeviceCreated settings nft d t = t₂ := by
  unfold onDeviceCreated
  rw [if_pos hwg, h₁]
  simp only
  rw [h₂]
  rfl

lemma rules_onDeviceCreated {settings : Settings} (hwg : settings.wgEnabled = true) {d : Device}
    (hok : Accepted nft d t) {nets : List Ip.Net} (hn : d.entry.nets = some nets) :
    (onDeviceCreated settings nft d t).chains.rules "forward" =
      t.chains.rules "forward" ++ nets.map (jumpRule (chainOf d.userId)) := by
  obtain ⟨-, t₁, t₂, h₁, h₂⟩ := hok
  rw [onDeviceCreated_of_ok hwg h₁ h₂, rules_addDeviceJumpRule hn h₂]
  congr 1
  refine Nft.rules_congr ((lookup_addUserChain h₁ "forward").resolve_right fun h => ?_)
  exact forward_ne_chainOf d.userId h.1.symm

end Created

/-! ### Runs -/

/-- What happens to devices. -/
inductive DeviceEvent where
  | create (draws : Draws) (body : DeviceCreate)
  | delete (id : Uuid)
  | deleteUser (u : Uuid)

section Runs

variable (settings : Settings) (nft : FrontEnd)

/-- The event, and the handler it starts, to their end. -/
def DeviceEvent.next : DeviceEvent → State → State
  | .create draws body => createDevice settings nft draws body
  | .delete id => deleteDevice id
  | .deleteUser u => deleteUserAndCleanup u

/-- All commands of the event succeed. -/
def DeviceEvent.Succeeds : DeviceEvent → State → Prop
  | .create draws body, s => ∀ d, newDevice settings s.db draws body = some d → Accepted nft d s.fw
  | _, _ => True

/-- A device that is made is fresh. -/
def DeviceEvent.MakesFresh : DeviceEvent → State → Prop
  | .create draws body, s => ∀ d, newDevice settings s.db draws body = some d → Fresh s d
  | _, _ => True

variable {settings nft}

lemma parseAddr_of_isAllocated {f : Ip.Family} {s : String} (h : IsAllocated f s) {a : Ip.Addr}
    (ha : Ip.parseAddr f s = some a) : s = a.str := by
  obtain ⟨b, rfl, rfl⟩ := h
  rw [Ip.parseAddr_str] at ha
  rw [Option.some.inj ha]

/-- An address of a device is the text in its row. -/
lemma hasAddress_iff {d : Device} (hd : (∀ s ∈ d.ipv4, IsAllocated .v4 s) ∧
    ∀ s ∈ d.ipv6, IsAllocated .v6 s) {a : Ip.Addr} :
    d.HasAddress a ↔ (a.fam = .v4 ∧ d.ipv4 = some a.str) ∨ (a.fam = .v6 ∧ d.ipv6 = some a.str) := by
  constructor
  · rintro (⟨s, hs, ha⟩ | ⟨s, hs, ha⟩)
    · exact .inl ⟨Ip.parseAddr_fam ha, by rw [hs, parseAddr_of_isAllocated (hd.1 s hs) ha]⟩
    · exact .inr ⟨Ip.parseAddr_fam ha, by rw [hs, parseAddr_of_isAllocated (hd.2 s hs) ha]⟩
  · rintro (⟨hf, hs⟩ | ⟨hf, hs⟩)
    · exact .inl ⟨_, hs, hf ▸ Ip.parseAddr_str a⟩
    · exact .inr ⟨_, hs, hf ▸ Ip.parseAddr_str a⟩

/-- A new device has its addresses from the allocator. -/
lemma isAllocated_newDevice {db : Database} {draws : Draws} {body : DeviceCreate} {d : Device}
    (h : newDevice settings db draws body = some d) :
    (∀ s ∈ d.ipv4, IsAllocated .v4 s) ∧ ∀ s ∈ d.ipv6, IsAllocated .v6 s := by
  obtain ⟨a₄, a₆, h₄, h₆, hd₄, hd₆, -⟩ := newDevice_spec h
  refine ⟨fun s hs => ⟨a₄, h₄, ?_⟩, fun s hs => ⟨a₆, h₆, ?_⟩⟩
  · exact Option.some.inj (hs.symm.trans hd₄)
  · exact Option.some.inj (hs.symm.trans hd₆)

lemma allocated_next {e : DeviceEvent} {s : State} (h : s.db.Allocated) :
    (e.next settings nft s).db.Allocated := by
  cases e with
  | create draws body =>
    simp only [DeviceEvent.next, createDevice]
    cases hnew : newDevice settings s.db draws body with
    | none => exact h
    | some d =>
      intro d' hd'
      rcases List.mem_append.1 hd' with hd' | hd'
      · exact h d' hd'
      · obtain rfl := List.mem_singleton.1 hd'
        exact isAllocated_newDevice hnew
  | delete id =>
    simp only [DeviceEvent.next, deleteDevice]
    cases s.db.device id with
    | none => exact h
    | some d => exact fun d' hd' => h d' (List.mem_of_mem_filter hd')
  | deleteUser u =>
    exact fun d' hd' => h d' (List.mem_of_mem_filter hd')

/-- Fewer devices, the same jumps. -/
lemma Owned.anti {s s' : State} (h : Owned s) (hdb : ∀ d ∈ s'.db.devices, d ∈ s.db.devices)
    (hfw : s'.fw = s.fw) : Owned s' := by
  intro d hd a ha c hc
  rw [hfw] at hc
  exact h d (hdb d hd) a ha c hc

/-- An address from the allocator is the network of itself. -/
lemma nets_of_address {a : Ip.Addr} {f : Ip.Family} (h : a.fam = f) :
    (truthy (some a.str)).toList.mapM (Ip.parseNet f) = some [a.host] := by
  subst h
  have hne : a.str ≠ "" := by
    intro he
    have hword := Ip.parseNet_ne_empty (Ip.parseNet_str a)
    rw [he] at hword
    exact hword rfl
  have htruthy : truthy (some a.str) = some a.str := by
    unfold truthy
    rw [Option.filter_some, if_pos (by simpa using hne)]
  rw [htruthy]
  simp [Ip.parseNet_str]

/-- The jumps from single addresses, once a device with the addresses `a₄` and `a₆` is made. -/
lemma mem_forward_created (hwg : settings.wgEnabled = true) {t : Table} {d : Device}
    (hok : Accepted nft d t) {a₄ a₆ : Ip.Addr} (h₄ : a₄.fam = .v4) (h₆ : a₆.fam = .v6)
    (hd₄ : d.ipv4 = some a₄.str) (hd₆ : d.ipv6 = some a₆.str) {subnets : List Ip.Net}
    (hsubnets : d.allowedSubnets.mapM Ip.readNet = some subnets) {c : String} {a : Ip.Addr} :
    jumpRule c a.host ∈ (onDeviceCreated settings nft d t).chains.rules "forward" ↔
      jumpRule c a.host ∈ t.chains.rules "forward" ∨
        (c = chainOf d.userId ∧ (a = a₄ ∨ a = a₆ ∨ a.host ∈ subnets)) := by
  have hnets : d.entry.nets = some ([a₄.host] ++ [a₆.host] ++ subnets) := by
    unfold DeviceEntry.nets Device.entry
    simp only [hd₄, hd₆, nets_of_address h₄, nets_of_address h₆, hsubnets]
    rfl
  rw [rules_onDeviceCreated hwg hok hnets, List.mem_append]
  refine or_congr Iff.rfl ?_
  have hj : ∀ n, jumpRule (chainOf d.userId) n = jumpRule c a.host ↔
      c = chainOf d.userId ∧ n = a.host := by
    intro n
    unfold jumpRule
    simp [eq_comm, and_comm]
  simp only [List.mem_map, hj, List.mem_append, List.mem_singleton]
  constructor
  · rintro ⟨n, (rfl | rfl) | hn, hc, hna⟩
    · exact ⟨hc, .inl (Ip.host_injective hna).symm⟩
    · exact ⟨hc, .inr (.inl (Ip.host_injective hna).symm)⟩
    · exact ⟨hc, .inr (.inr (hna ▸ hn))⟩
  · rintro ⟨hc, rfl | rfl | hn⟩
    · exact ⟨_, .inl (.inl rfl), hc, rfl⟩
    · exact ⟨_, .inl (.inr rfl), hc, rfl⟩
    · exact ⟨_, .inr hn, hc, rfl⟩

/-- **A new device**: exactly the fresh ones keep the jumps in order. -/
theorem owned_create_iff (hwg : settings.wgEnabled = true) {s : State} (halloc : s.db.Allocated)
    (hs : Owned s) {draws : Draws} {body : DeviceCreate} {d : Device}
    (hnew : newDevice settings s.db draws body = some d) (hok : Accepted nft d s.fw) :
    Owned ⟨{ s.db with devices := s.db.devices ++ [d] }, onDeviceCreated settings nft d s.fw⟩ ↔
      Fresh s d := by
  obtain ⟨a₄, a₆, h₄, h₆, hd₄, hd₆, hfree, -⟩ := newDevice_spec hnew
  obtain ⟨subnets, hsubnets⟩ : ∃ subnets, d.allowedSubnets.mapM Ip.readNet = some subnets := by
    obtain ⟨⟨nets, hnets⟩, -⟩ := hok
    obtain ⟨_, -, h⟩ := Option.bind_eq_some_iff.1 hnets
    obtain ⟨_, -, h⟩ := Option.bind_eq_some_iff.1 h
    obtain ⟨subnets, hs, -⟩ := Option.bind_eq_some_iff.1 h
    exact ⟨subnets, hs⟩
  have hrule := fun c a => mem_forward_created (c := c) (a := a) hwg hok h₄ h₆ hd₄ hd₆ hsubnets
  constructor
  · intro h
    refine ⟨fun a ha c hc => ?_, fun d' hd' a ha hex => ?_⟩
    · exact h d (List.mem_append_right _ List.mem_cons_self) a ha c ((hrule c a).2 (.inl hc))
    · obtain ⟨subnet, hsm, hread⟩ := hex
      obtain ⟨n, hn, hread'⟩ := List.exists_of_mapM hsubnets hsm
      obtain rfl := Option.some.inj (hread.symm.trans hread')
      exact h d' (List.mem_append_left _ hd') a ha _ ((hrule _ a).2 (.inr ⟨rfl, .inr (.inr hn)⟩))
  · intro hf d' hd' a ha c hc
    rcases List.mem_append.1 hd' with hd' | hd'
    · rcases (hrule c a).1 hc with hold | ⟨rfl, hnew⟩
      · exact hs d' hd' a ha c hold
      · -- the new addresses are nobody's
        have haddr := (hasAddress_iff (halloc d' hd')).1 ha
        rcases hnew with rfl | rfl | hn
        · rcases haddr with ⟨-, he⟩ | ⟨hv, -⟩
          · exact absurd he (hfree d' hd').1
          · cases h₄.symm.trans hv
        · rcases haddr with ⟨hv, -⟩ | ⟨-, he⟩
          · cases h₆.symm.trans hv
          · exact absurd he (hfree d' hd').2
        · obtain ⟨subnet, hsm, hread⟩ := List.exists_of_mem_mapM hsubnets hn
          exact hf.relayed d' hd' a ha ⟨subnet, hsm, hread⟩
    · obtain rfl := List.mem_singleton.1 hd'
      rcases (hrule c a).1 hc with hc | ⟨rfl, -⟩
      · exact hf.leftover a ha c hc
      · rfl

/-- One event. -/
lemma owned_next_iff (hwg : settings.wgEnabled = true) {e : DeviceEvent} {s : State}
    (halloc : s.db.Allocated) (hok : e.Succeeds settings nft s) (hs : Owned s) :
    Owned (e.next settings nft s) ↔ e.MakesFresh settings s := by
  cases e with
  | create draws body =>
    simp only [DeviceEvent.next, createDevice, DeviceEvent.MakesFresh]
    cases hnew : newDevice settings s.db draws body with
    | none => exact iff_of_true hs (by simp)
    | some d =>
      rw [owned_create_iff hwg halloc hs hnew (hok d hnew)]
      simp
  | delete id =>
    refine iff_of_true ?_ trivial
    simp only [DeviceEvent.next, deleteDevice]
    cases s.db.device id with
    | none => exact hs
    | some d => exact hs.anti (fun d' hd' => List.mem_of_mem_filter hd') rfl
  | deleteUser u =>
    refine iff_of_true (hs.anti (fun d' hd' => List.mem_of_mem_filter hd') ?_) trivial
    show (s.db.userDevices u).foldl (fun t d => onDeviceDeleted d t) s.fw = s.fw
    generalize s.db.userDevices u = ds
    induction ds with
    | nil => rfl
    | cons d ds ih => exact ih

/-- After a reconciliation. -/
lemma owned_reconcile_iff {db : Database} {uids : SetOrder db.userIds} {t fw : Table}
    {orphaned : SetOrder (orphanedChains t (db.reconcileEntries uids))} (ht : Named t)
    (hdb : db.Readable nft)
    (hstart : rebuildAllRules nft (db.reconcileEntries uids) t orphaned = .ok fw) :
    Owned ⟨db, fw⟩ ↔ db.Separate := by
  have hmem := fun r => @mem_forward_of_reconcile nft db uids t fw orphaned ht hdb hstart r
  constructor
  · rintro h d hd nets hnets n hn d' hd' a ha rfl
    exact h d' hd' a ha _ ((hmem _).2 ⟨d, hd, nets, hnets, _, hn, rfl⟩)
  · intro h d' hd' a ha c hc
    obtain ⟨d, hd, nets, hnets, n, hn, he⟩ := (hmem _).1 hc
    have hj : c = chainOf d.userId ∧ n = a.host := by
      unfold jumpRule at he
      simpa [eq_comm, and_comm] using he
    rw [hj.1]
    exact h d hd nets hnets n hn d' hd' a ha hj.2

/-- **In which runs jumps lead to the owners.**  From a fresh reconciliation on, all jumps from the
addresses of devices lead to the chains of their owners, in every state of the run, if and only if
they do so by the rows at its start and every device made is fresh. -/
theorem run_owned_iff (hwg : settings.wgEnabled = true) {db : Database}
    {uids : SetOrder db.userIds} {t fw : Table}
    {orphaned : SetOrder (orphanedChains t (db.reconcileEntries uids))} (ht : Named t)
    (hdb : db.Readable nft) (halloc : db.Allocated)
    (hstart : rebuildAllRules nft (db.reconcileEntries uids) t orphaned = .ok fw)
    {events : List DeviceEvent}
    (hok : Run.Throughout (DeviceEvent.next settings nft) (DeviceEvent.Succeeds settings nft) events
      ⟨db, fw⟩) :
    Run.Always (DeviceEvent.next settings nft) Owned events ⟨db, fw⟩ ↔
      db.Separate ∧
        Run.Throughout (DeviceEvent.next settings nft) (DeviceEvent.MakesFresh settings) events
          ⟨db, fw⟩ := by
  have h0 := owned_reconcile_iff ht hdb hstart
  have hrun := fun hp : Owned ⟨db, fw⟩ => Run.always_iff (I := fun s : State => s.db.Allocated)
    (fun _ _ h => allocated_next h) (fun _ _ hi ha hp => owned_next_iff hwg hi ha hp) halloc hp hok
  constructor
  · intro h
    exact ⟨h0.1 h.head, (hrun h.head).1 h⟩
  · rintro ⟨hsep, hf⟩
    exact (hrun (h0.2 hsep)).2 hf

end Runs

/-! A user deletes a device, and another user's new device gets its address. -/

def smallSettings : Settings := ⟨true, "wg0", "10.3.2.0/29", "fd00::/125"⟩

def oneDevice : Database where
  users := []
  devices := [laptop]
  rules := []
  mfaMethods := []
  configuration := none

def oneDeviceOrder : SetOrder oneDevice.userIds := .singleton (a := alice.str) (by decide)

lemma oneDevice_readable (nft : FrontEnd) : oneDevice.Readable nft := by
  intro u
  refine ⟨isName_chainOf u, fun d hd => ?_, [], rfl⟩
  obtain ⟨d', hd', rfl⟩ := List.mem_map.1 hd
  obtain rfl := List.mem_singleton.1 (List.mem_filter.1 hd').1
  exact Option.isSome_iff_exists.1 (by decide)

lemma oneDevice_allocated : oneDevice.Allocated := by
  intro d hd
  obtain rfl := List.mem_singleton.1 hd
  refine ⟨fun s hs => ⟨laptopAddr, rfl, ?_⟩, fun s hs => by cases hs⟩
  obtain rfl : "10.3.2.2" = s := Option.some.inj hs
  decide

lemma oneDevice_separate : oneDevice.Separate := by
  intro d hd _ _ _ _ d' hd' _ _ _
  rw [List.mem_singleton.1 hd, List.mem_singleton.1 hd']

lemma laptop_plan (nft : FrontEnd) :
    (oneDevice.userEntry alice).plan nft = some ⟨chainOf alice, [], [laptopJump]⟩ := by
  have hname : IsName (oneDevice.userEntry alice).chain := isName_chainOf alice
  have hnets : (oneDevice.userEntry alice).devices.mapM DeviceEntry.nets =
      some [[laptopAddr.host]] := by decide
  exact (plan_eq_some_iff nft).2 ⟨(userEntry_chain oneDevice alice).symm, rfl,
    rules_jumpLines nft hname hnets⟩

lemma oneDevice_reconciled (nft : FrontEnd) :
    rebuildAllRules nft (oneDevice.reconcileEntries oneDeviceOrder) laptopTable (ascending _) =
      .ok laptopTable := by
  have hentries : oneDevice.reconcileEntries oneDeviceOrder = [oneDevice.userEntry alice] :=
    congrArg (fun e => [e]) (entryOf_str oneDevice alice)
  have hset : orphanedChains laptopTable [oneDevice.userEntry alice] = ∅ := by decide
  have hread : nft.batch (rebuildCommands [oneDevice.userEntry alice] []) = some _ :=
    batch_rebuildCommands nft (List.mapM_eq_some_iff.2 (.cons (laptop_plan nft) .nil))
      (List.forall_mem_singleton.2 (isName_chainOf alice)) (by simp)
  unfold rebuildAllRules
  rw [hentries, hset, SetOrder.toList_eq_nil]
  exact nftBatch_eq_ok hread (by decide)

/-- The first address of the pools is drawn for a new device of `bob`. -/
def tabletBody : DeviceCreate :=
  { id := ⟨4, by decide⟩
    name := "tablet"
    publicKey := "pk4"
    presharedKey := none
    userId := bob }

def firstDraws : Draws := ⟨fun _ => 0, fun _ => 0⟩

def tablet : Device where
  id := ⟨4, by decide⟩
  name := "tablet"
  publicKey := "pk4"
  presharedKey := none
  ipv4 := some "10.3.2.2"
  ipv6 := some "fd00::2"
  allowedSubnets := []
  userId := bob

def reuse : List DeviceEvent := [.delete laptop.id, .create firstDraws tabletBody]

def noDevice : Database := { oneDevice with devices := [] }

lemma newDevice_tablet : newDevice smallSettings noDevice firstDraws tabletBody = some tablet := by
  decide

def withBob : Table where
  chains := laptopTable.chains.insert (chainOf bob) ⟨none, []⟩
  grounded := by decide
  fits := by decide

def withTablet : Table where
  chains := withBob.chains.insert "forward" ⟨some forwardBase, [laptopJump,
    jumpRule (chainOf bob) laptopAddr.host,
    jumpRule (chainOf bob) (Ip.Addr.host ⟨.v6, 0xfd000000000000000000000000000002, by decide⟩)]⟩
  grounded := by decide
  fits := by decide

lemma tablet_accepted (nft : FrontEnd) : Accepted nft tablet laptopTable := by
  have hnets : tablet.entry.nets = some [laptopAddr.host,
      Ip.Addr.host ⟨.v6, 0xfd000000000000000000000000000002, by decide⟩] := by decide
  have hchain : Nft.run [.addChain (chainOf bob) none] laptopTable.chains =
      some withBob.chains := by decide
  have hjumps : Nft.run (([laptopAddr.host,
      Ip.Addr.host ⟨.v6, 0xfd000000000000000000000000000002, by decide⟩].map
        (jumpRule (chainOf bob))).map (.addRule "forward")) withBob.chains =
      some withTablet.chains := by decide
  exact accepted_of_run nft hnets (by decide) hchain hjumps

/-- The jump of the deleted device still leads to the chain of its owner, and comes first. -/
theorem run_owned_violated :
    rebuildAllRules (.fragment tableName) (oneDevice.reconcileEntries oneDeviceOrder) laptopTable
        (ascending _) = .ok laptopTable ∧
      Run.Throughout (DeviceEvent.next smallSettings (.fragment tableName))
        (DeviceEvent.Succeeds smallSettings (.fragment tableName)) reuse ⟨oneDevice, laptopTable⟩ ∧
      ¬ Run.Always (DeviceEvent.next smallSettings (.fragment tableName)) Owned reuse
        ⟨oneDevice, laptopTable⟩ := by
  have hdelete : DeviceEvent.next smallSettings (.fragment tableName) (.delete laptop.id)
      ⟨oneDevice, laptopTable⟩ = ⟨noDevice, laptopTable⟩ := rfl
  refine ⟨oneDevice_reconciled _, ⟨trivial, ?_, trivial⟩, ?_⟩
  · rw [hdelete]
    intro d hd
    obtain rfl := Option.some.inj (newDevice_tablet.symm.trans hd)
    exact tablet_accepted _
  · rintro ⟨-, h⟩
    rw [hdelete] at h
    have hend : Owned (createDevice smallSettings (.fragment tableName) firstDraws tabletBody
        ⟨noDevice, laptopTable⟩) := h.2
    simp only [createDevice, newDevice_tablet] at hend
    have hnets : tablet.entry.nets = some [laptopAddr.host,
        Ip.Addr.host ⟨.v6, 0xfd000000000000000000000000000002, by decide⟩] := by decide
    have hwg : smallSettings.wgEnabled = true := rfl
    have hfw := rules_onDeviceCreated hwg (tablet_accepted (.fragment tableName)) hnets
    have hjump : laptopJump ∈ laptopTable.chains.rules "forward" := by decide
    have hchain := hend tablet List.mem_cons_self laptopAddr (by decide)
      (chainOf alice) (by rw [hfw]; exact List.mem_append_left _ hjump)
    exact absurd hchain (by decide)

theorem run_owned_iff_delete :
    Run.Always (DeviceEvent.next smallSettings (.fragment tableName)) Owned [.delete laptop.id]
      ⟨oneDevice, laptopTable⟩ := by
  have hok : Run.Throughout (DeviceEvent.next smallSettings (.fragment tableName))
      (DeviceEvent.Succeeds smallSettings (.fragment tableName)) [.delete laptop.id]
      ⟨oneDevice, laptopTable⟩ := ⟨trivial, trivial⟩
  exact (run_owned_iff rfl laptopTable_baseSetup.names (oneDevice_readable _) oneDevice_allocated
    (oneDevice_reconciled _) hok).2 ⟨oneDevice_separate, trivial, trivial⟩

end WireGui
