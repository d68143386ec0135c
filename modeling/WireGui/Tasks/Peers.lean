import WireGui.Services.DeviceEvents
import WireGui.Tasks.Reconcile

/-!
# `tasks/reconcile.py`: the peers

At startup the peers are compared with the devices by their public keys alone: those that are
missing are added and those that belong to no device are removed.  `reconcile_mirrors_iff` says when
the peers are then those of the devices.
-/

namespace WireGui

/-- `device_map`: of several devices with a key, the last one. -/
def deviceMap (devices : List Device) (key : String) : Option Device :=
  (devices.filter (·.publicKey = key)).getLast?

/-- The first half of `reconcile`. -/
def reconcilePeers (order : SetOrders) (devices : List Device) (w : Peers) : Peers :=
  let currentKeys := w.peers
  let expectedKeys := (devices.map Device.publicKey).toFinset
  let toAdd := (order (expectedKeys \ currentKeys)).toList
  let toRemove := (order (currentKeys \ expectedKeys)).toList
  let added := toAdd.foldl (fun w key => (deviceMap devices key).elim w (addDevice · w)) w
  toRemove.foldl (fun w key => removePeer key w) added

/-- `reconcile`. -/
def reconcile (settings : Settings) (nft : FrontEnd) (order : SetOrders) (h : Host) : Host :=
  { h with
    peers := reconcilePeers order h.db.devices h.peers
    fw := reconcileFirewall nft order h.db (order h.db.userIds) h.fw
    routes := syncRoutes settings h.db.relaySubnets h.routes }

/-- The peer with the key of the device has the device's prefixes and its preshared key. -/
structure Device.Configured (d : Device) (w : Peers) : Prop where
  psk : w.psk d.publicKey = truthy d.presharedKey
  holds : ∀ n, w.holder n = some d.publicKey ↔ d.Lists n

/-- **The peers are those of the devices.** -/
structure Mirrors (devices : List Device) (w : Peers) : Prop where
  peers : ∀ k, k ∈ w.peers ↔ ∃ d ∈ devices, d.publicKey = k
  configured : ∀ d ∈ devices, d.Configured w

/-- No two devices list one prefix. -/
def SeparateNets (devices : List Device) : Prop :=
  devices.Pairwise fun d e => ∀ n, d.Lists n → ¬ e.Lists n

/-- The peer with the key of the device is as the device is now: it has its preshared key, and of
its prefixes those that stay with it, when the missing devices are added, are the device's. -/
structure Device.UpToDate (devices : List Device) (w : Peers) (d : Device) : Prop where
  psk : w.psk d.publicKey = truthy d.presharedKey
  holds : ∀ n, (w.holder n = some d.publicKey ∧
    ∀ e ∈ devices, e.publicKey ∉ w.peers → ¬ e.Lists n) ↔ d.Lists n

/-! ### What is told to `wg` -/

section Commands

variable {devices : List Device} {order : SetOrders} {w : Peers} {d : Device}

/-- The commands of `reconcile`. -/
def reconcileCmds (order : SetOrders) (devices : List Device) (w : Peers) :
    List (Wg.Cmd String Ip.Net String) :=
  let expectedKeys := (devices.map Device.publicKey).toFinset
  ((order (expectedKeys \ w.peers)).toList.filterMap fun key =>
      (deviceMap devices key).map Device.addCmd) ++
    (order (w.peers \ expectedKeys)).toList.map .remove

lemma deviceMap_of_mem (hk : (devices.map Device.publicKey).Nodup) (hd : d ∈ devices) :
    deviceMap devices d.publicKey = some d :=
  List.getLast?_filter_of_nodup hk hd

lemma mem_of_deviceMap {key : String} (h : deviceMap devices key = some d) :
    d ∈ devices ∧ d.publicKey = key :=
  List.mem_of_getLast?_filter h

lemma reconcilePeers_eq_run (hr : ∀ d ∈ devices, ∃ nets, d.nets = some nets) :
    reconcilePeers order devices w = Wg.run (reconcileCmds order devices w) w := by
  have hadd : ∀ (keys : List String) (w : Peers),
      keys.foldl (fun w key => (deviceMap devices key).elim w (addDevice · w)) w =
        Wg.run (keys.filterMap fun key => (deviceMap devices key).map Device.addCmd) w := by
    intro keys
    induction keys with
    | nil => exact fun _ => rfl
    | cons key keys ih =>
      intro w
      rw [List.foldl_cons, ih]
      cases hk : deviceMap devices key with
      | none => rw [List.filterMap_cons_none (by rw [hk]; rfl)]; rfl
      | some d =>
        rw [List.filterMap_cons_some (by rw [hk]; rfl), Wg.run_cons, Option.elim_some,
          addDevice_eq_apply (hr d (mem_of_deviceMap hk).1)]
  have hremove : ∀ (keys : List String) (w : Peers),
      keys.foldl (fun w key => removePeer key w) w = Wg.run (keys.map .remove) w := by
    intro keys w
    rw [Wg.run, List.foldl_map]
    rfl
  unfold reconcilePeers reconcileCmds
  simp only [hadd, hremove, Wg.run_append]

/-- A command adds a device that is missing, or removes a peer without a device. -/
lemma mem_reconcileCmds_iff (hk : (devices.map Device.publicKey).Nodup)
    {c : Wg.Cmd String Ip.Net String} :
    c ∈ reconcileCmds order devices w ↔
      (∃ d ∈ devices, d.publicKey ∉ w.peers ∧ d.addCmd = c) ∨
        ∃ k ∈ w.peers, (∀ d ∈ devices, d.publicKey ≠ k) ∧ .remove k = c := by
  unfold reconcileCmds
  simp only [List.mem_append, List.mem_filterMap, List.mem_map, SetOrder.mem_iff, Finset.mem_sdiff,
    List.mem_toFinset, Option.map_eq_some_iff]
  refine or_congr ⟨?_, ?_⟩ ⟨?_, ?_⟩
  · rintro ⟨key, ⟨-, hkey⟩, d, hd, rfl⟩
    obtain ⟨hmem, rfl⟩ := mem_of_deviceMap hd
    exact ⟨d, hmem, hkey, rfl⟩
  · rintro ⟨d, hd, hkey, rfl⟩
    exact ⟨d.publicKey, ⟨⟨d, hd, rfl⟩, hkey⟩, d, deviceMap_of_mem hk hd, rfl⟩
  · rintro ⟨k, ⟨hkw, hno⟩, rfl⟩
    exact ⟨k, hkw, fun d hd he => hno ⟨d, hd, he⟩, rfl⟩
  · rintro ⟨k, hkw, hno, rfl⟩
    exact ⟨k, ⟨hkw, fun ⟨d, hd, he⟩ => hno d hd he⟩, rfl⟩

/-- There is one command for each peer at most. -/
lemma nodup_reconcileCmds : ((reconcileCmds order devices w).map Wg.Cmd.key).Nodup := by
  have hkey : ∀ {key k : String},
      k ∈ ((deviceMap devices key).map Device.addCmd).map Wg.Cmd.key → k = key := by
    intro key k h
    obtain ⟨c, hc, rfl⟩ := Option.map_eq_some_iff.1 h
    obtain ⟨d, hd, rfl⟩ := Option.map_eq_some_iff.1 hc
    exact (mem_of_deviceMap hd).2
  unfold reconcileCmds
  simp only [List.map_append, List.map_map, List.map_filterMap]
  rw [List.nodup_append]
  refine ⟨?_, ?_, ?_⟩
  · refine (SetOrder.nodup _).filterMap fun a b k ha hb => ?_
    rw [← hkey ha, ← hkey hb]
  · exact (SetOrder.nodup _).map fun a b h => h
  · -- the first are no peers yet, the others are
    rintro a ha b hb rfl
    obtain ⟨key, hmem, ha⟩ := List.mem_filterMap.1 ha
    obtain ⟨k, hk, hb⟩ := List.mem_map.1 hb
    have hnot := ((SetOrder.mem_iff _ _).1 hmem)
    have hin := ((SetOrder.mem_iff _ _).1 hk)
    rw [Finset.mem_sdiff] at hnot hin
    have hak : a = key := hkey ha
    have hbk : k = a := hb
    exact hnot.2 (hak ▸ hbk ▸ hin.1)

end Commands

/-! ### The peers afterwards -/

section Mirrors

variable {devices : List Device} {order : SetOrders} {w : Peers} {d : Device}

/-- There is no command about a device whose key is a peer's. -/
lemma lastOn_of_present (hk : (devices.map Device.publicKey).Nodup) (hd : d ∈ devices)
    (hdw : d.publicKey ∈ w.peers) :
    Wg.lastOn d.publicKey (reconcileCmds order devices w) = none := by
  refine Wg.lastOn_eq_none_iff.2 fun c hc he => ?_
  rcases (mem_reconcileCmds_iff hk).1 hc with ⟨e, -, hew, rfl⟩ | ⟨k', -, hno, rfl⟩
  · have hed : e.publicKey = d.publicKey := he
    exact hew (hed ▸ hdw)
  · exact hno d hd he.symm

/-- **Whoever is a peer afterwards** is one of a device. -/
lemma mem_peers_reconcilePeers (hk : (devices.map Device.publicKey).Nodup)
    (hr : ∀ d ∈ devices, ∃ nets, d.nets = some nets) (k : String) :
    k ∈ (reconcilePeers order devices w).peers ↔ ∃ d ∈ devices, d.publicKey = k := by
  rw [reconcilePeers_eq_run hr, Wg.mem_run_iff]
  have hlast : ∀ c ∈ reconcileCmds order devices w,
      Wg.lastOn c.key (reconcileCmds order devices w) = some c := fun c hc =>
    Wg.lastOn_of_nodup nodup_reconcileCmds hc
  constructor
  · rintro (⟨c, hc, hset⟩ | ⟨hnone, hkw⟩)
    · obtain ⟨hmem, hck⟩ := List.mem_of_getLast?_filter hc
      rcases (mem_reconcileCmds_iff hk).1 hmem with ⟨d, hd, -, rfl⟩ | ⟨k', -, -, rfl⟩
      · exact ⟨d, hd, hck⟩
      · cases hset
    · by_contra hno
      push Not at hno
      refine Wg.lastOn_eq_none_iff.1 hnone (.remove k) ?_ rfl
      exact (mem_reconcileCmds_iff hk).2 (.inr ⟨k, hkw, hno, rfl⟩)
  · rintro ⟨d, hd, rfl⟩
    by_cases hdw : d.publicKey ∈ w.peers
    · exact .inr ⟨lastOn_of_present hk hd hdw, hdw⟩
    · refine .inl ⟨d.addCmd, ?_, trivial⟩
      exact hlast d.addCmd ((mem_reconcileCmds_iff hk).2 (.inl ⟨d, hd, hdw, rfl⟩))

/-- A device that was missing is set up as it is in the database. -/
lemma configured_of_missing (hk : (devices.map Device.publicKey).Nodup)
    (hsep : SeparateNets devices) (hr : ∀ d ∈ devices, ∃ nets, d.nets = some nets)
    (hd : d ∈ devices) (hdw : d.publicKey ∉ w.peers) :
    d.Configured (reconcilePeers order devices w) := by
  have hmem : d.addCmd ∈ reconcileCmds order devices w :=
    (mem_reconcileCmds_iff hk).2 (.inl ⟨d, hd, hdw, rfl⟩)
  have hlast : Wg.lastOn d.publicKey (reconcileCmds order devices w) = some d.addCmd :=
    Wg.lastOn_of_nodup nodup_reconcileCmds hmem
  rw [reconcilePeers_eq_run hr]
  refine ⟨Wg.psk_run_of_new nodup_reconcileCmds hmem hdw, fun n => ?_⟩
  rw [Wg.holder_run_iff, hlast]
  simp only [Option.mem_def, Option.some.injEq, exists_eq_left', reduceCtorEq, false_and, or_false,
    nets_addCmd, and_iff_right_iff_imp]
  intro hn
  refine Wg.not_takenFrom fun c hc hne hnc => ?_
  rcases (mem_reconcileCmds_iff hk).1 hc with ⟨e, he, -, rfl⟩ | ⟨k', -, -, rfl⟩
  · have : Std.Symm fun d e : Device => ∀ n, d.Lists n → ¬ e.Lists n :=
      ⟨fun d e h n he hd => h n hd he⟩
    have hde : d ≠ e := fun he => hne (he ▸ rfl)
    exact hsep.forall hd he hde n hn (nets_addCmd.1 hnc)
  · exact List.not_mem_nil hnc

/-- A device whose key is a peer's is set up as that peer was. -/
lemma configured_iff_of_present (hk : (devices.map Device.publicKey).Nodup)
    (hr : ∀ d ∈ devices, ∃ nets, d.nets = some nets) (hd : d ∈ devices)
    (hdw : d.publicKey ∈ w.peers) :
    d.Configured (reconcilePeers order devices w) ↔ d.UpToDate devices w := by
  have hnone : Wg.lastOn d.publicKey (reconcileCmds order devices w) = none :=
    lastOn_of_present hk hd hdw
  have htaken : ∀ n, Wg.TakenFrom d.publicKey n (reconcileCmds order devices w) ↔
      ∃ e ∈ devices, e.publicKey ∉ w.peers ∧ e.Lists n := by
    intro n
    rw [Wg.takenFrom_iff_of_lastOn_eq_none hnone]
    constructor
    · rintro ⟨c, hc, hn⟩
      rcases (mem_reconcileCmds_iff hk).1 hc with ⟨e, he, hew, rfl⟩ | ⟨k', -, -, rfl⟩
      · exact ⟨e, he, hew, nets_addCmd.1 hn⟩
      · exact absurd hn List.not_mem_nil
    · rintro ⟨e, he, hew, hn⟩
      exact ⟨e.addCmd, (mem_reconcileCmds_iff hk).2 (.inl ⟨e, he, hew, rfl⟩),
        nets_addCmd.2 hn⟩
  have hholder : ∀ n, (Wg.run (reconcileCmds order devices w) w).holder n = some d.publicKey ↔
      w.holder n = some d.publicKey ∧ ∀ e ∈ devices, e.publicKey ∉ w.peers → ¬ e.Lists n := by
    intro n
    rw [Wg.holder_run_iff, htaken, hnone]
    simp only [Option.mem_def, reduceCtorEq, false_and, exists_false, true_and, false_or]
    push Not
    exact and_comm
  rw [reconcilePeers_eq_run hr]
  constructor
  · rintro ⟨hp, hh⟩
    rw [Wg.psk_run_of_forall_ne (Wg.lastOn_eq_none_iff.1 hnone)] at hp
    exact ⟨hp, fun n => (hholder n).symm.trans (hh n)⟩
  · rintro ⟨hp, hh⟩
    exact ⟨(Wg.psk_run_of_forall_ne (Wg.lastOn_eq_none_iff.1 hnone)).trans hp,
      fun n => (hholder n).trans (hh n)⟩

/-- **When startup sets all peers right**: if and only if each peer that has the key of a device is
as the device is.  Such peers are left as they are. -/
theorem reconcile_mirrors_iff (settings : Settings) (nft : FrontEnd) (order : SetOrders) (h : Host)
    (hk : (h.db.devices.map Device.publicKey).Nodup) (hsep : SeparateNets h.db.devices)
    (hr : ∀ d ∈ h.db.devices, ∃ nets, d.nets = some nets) :
    Mirrors h.db.devices (reconcile settings nft order h).peers ↔
      ∀ d ∈ h.db.devices, d.publicKey ∈ h.peers.peers → d.UpToDate h.db.devices h.peers := by
  constructor
  · rintro ⟨-, hconf⟩ d hd hdw
    exact (configured_iff_of_present hk hr hd hdw).1 (hconf d hd)
  · intro hup
    refine ⟨mem_peers_reconcilePeers hk hr, fun d hd => ?_⟩
    by_cases hdw : d.publicKey ∈ h.peers.peers
    · exact (configured_iff_of_present hk hr hd hdw).2 (hup d hd hdw)
    · exact configured_of_missing hk hsep hr hd hdw

end Mirrors

/-! Two devices; the laptop is a peer already, but without its address. -/

def twoUsersHost (w : Peers) : Host where
  db := { twoUsers with users := [aliceUser, bobUser] }
  fw := twoUsersTable
  peers := w
  routes := ∅

def bareLaptop : Peers := Wg.Interface.empty.set "pk1" [] none

lemma laptop_nets : laptop.nets = some [laptopAddr.host] := by decide

lemma phone_nets : phone.nets = some [phoneAddr.host] := by decide

lemma lists_iff_of_nets {d : Device} {m n : Ip.Net} (h : d.nets = some [m]) :
    d.Lists n ↔ n = m := by
  simp [Device.Lists, h]

lemma twoUsers_separate : SeparateNets twoUsers.devices := by
  refine List.pairwise_pair.2 fun n hl hp => ?_
  rw [lists_iff_of_nets laptop_nets] at hl
  rw [lists_iff_of_nets phone_nets, hl] at hp
  exact absurd hp (by decide)

lemma twoUsers_nets : ∀ d ∈ twoUsers.devices, ∃ nets, d.nets = some nets :=
  List.forall_mem_cons.2 ⟨⟨_, laptop_nets⟩, List.forall_mem_singleton.2 ⟨_, phone_nets⟩⟩

/-- **A peer that is there is left as it is**, without the address of its device. -/
theorem reconcile_leaves_stale :
    (twoUsers.devices.map Device.publicKey).Nodup ∧ SeparateNets twoUsers.devices ∧
      (∀ d ∈ twoUsers.devices, ∃ nets, d.nets = some nets) ∧
      ¬ Mirrors twoUsers.devices (reconcile defaultSettings (.fragment tableName) ascending
        (twoUsersHost bareLaptop)).peers := by
  refine ⟨by decide, twoUsers_separate, twoUsers_nets, fun h => ?_⟩
  have hup : laptop.UpToDate twoUsers.devices bareLaptop :=
    (configured_iff_of_present (by decide) twoUsers_nets List.mem_cons_self (by decide)).1
      (h.configured laptop List.mem_cons_self)
  have hholds := ((hup.holds laptopAddr.host).2 ((lists_iff_of_nets laptop_nets).2 rfl)).1
  exact absurd hholds (by decide)

theorem reconcile_mirrors_iff_empty :
    Mirrors twoUsers.devices (reconcile defaultSettings (.fragment tableName) ascending
      (twoUsersHost .empty)).peers :=
  (reconcile_mirrors_iff defaultSettings (.fragment tableName) ascending (twoUsersHost .empty)
    (by decide) twoUsers_separate twoUsers_nets).2 fun _ _ hd => absurd hd (Finset.notMem_empty _)

end WireGui
