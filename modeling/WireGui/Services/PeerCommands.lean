import WireGui.Services.DeviceEvents

/-!
# What a request tells `wg`

A request for devices sets the peer of the row it writes, or removes the peers of the rows it
deletes.  `mem_peers_next_iff` and `holder_next_iff` say who is a peer afterwards and who holds a
prefix.
-/

namespace WireGui

/-- The commands of the handlers that a request starts. -/
def HostEvent.cmds : HostEvent → Host → List (Wg.Cmd String Ip.Net String)
  | .create d, h => if h.db.Accepts d then [d.addCmd] else []
  | .update id edit, h => ((h.db.device id).bind edit.applyTo).toList.map Device.addCmd
  | .delete id, h => (h.db.device id).toList.map fun d => .remove d.publicKey
  | .deleteUser u, h => (h.db.userDevices u).map fun d => .remove d.publicKey

/-- The prefixes of the row that the event writes can be read: `wg` takes them. -/
def HostEvent.Readable (e : HostEvent) (h : Host) : Prop :=
  ∀ d ∈ e.written h, ∃ nets, d.nets = some nets

section Commands

variable {settings : Settings} {nft : FrontEnd} {order : SetOrders} {h : Host} {e : HostEvent}
  {n : Ip.Net} {k : String}

lemma peers_onDeviceDeleted (hwg : settings.wgEnabled = true) (d : Device) (h : Host) :
    (h.onDeviceDeleted settings d).peers = h.peers.remove d.publicKey := by
  unfold Host.onDeviceDeleted
  rw [if_pos hwg]
  rfl

/-- **The peers after a request** are those that its commands leave. -/
theorem peers_next (hwg : settings.wgEnabled = true) (hr : e.Readable h) :
    (e.next settings nft order h).peers = Wg.run (e.cmds h) h.peers := by
  cases e with
  | create d =>
    simp only [HostEvent.next, Host.createDevice, HostEvent.cmds, HostEvent.Readable,
      HostEvent.written] at hr ⊢
    split
    next ha =>
      rw [if_pos ha] at hr
      rw [Host.onDeviceCreated, if_pos hwg]
      exact addDevice_eq_apply (hr d rfl) h.peers
    next ha => rfl
  | update id edit =>
    rw [HostEvent.next, updateDevice_eq, HostEvent.cmds]
    simp only [HostEvent.Readable, HostEvent.written] at hr
    cases hw : (h.db.device id).bind edit.applyTo with
    | none => rfl
    | some d =>
      rw [hw] at hr
      rw [Option.elim_some, Host.onDeviceUpdated, if_pos hwg]
      exact addDevice_eq_apply (hr d rfl) h.peers
  | delete id =>
    simp only [HostEvent.next, Host.deleteDevice, HostEvent.cmds]
    cases h.db.device id with
    | none => rfl
    | some d => exact peers_onDeviceDeleted hwg d _
  | deleteUser u =>
    have hfold : ∀ (ds : List Device) (h : Host),
        (ds.foldl (fun h d => Host.onDeviceDeleted settings d h) h).peers =
          Wg.run (ds.map fun d => .remove d.publicKey) h.peers := by
      intro ds
      induction ds with
      | nil => exact fun _ => rfl
      | cons d ds ih =>
        intro h
        rw [List.foldl_cons, ih, peers_onDeviceDeleted hwg]
        rfl
    exact hfold _ _

/-- A request sets the peer of the row it writes, or removes peers. -/
lemma cmds_cases (e : HostEvent) (h : Host) :
    (∃ d, e.written h = some d ∧ e.cmds h = [d.addCmd]) ∨
      (e.written h = none ∧ ∃ ks : List String, e.cmds h = ks.map .remove) := by
  cases e with
  | create d =>
    by_cases ha : h.db.Accepts d
    · exact .inl ⟨d, if_pos ha, if_pos ha⟩
    · exact .inr ⟨if_neg ha, [], if_neg ha⟩
  | update id edit =>
    rw [HostEvent.written, HostEvent.cmds]
    cases (h.db.device id).bind edit.applyTo with
    | none => exact .inr ⟨rfl, [], rfl⟩
    | some d => exact .inl ⟨d, rfl, rfl⟩
  | delete id =>
    exact .inr ⟨rfl, (h.db.device id).toList.map Device.publicKey, List.map_map.symm⟩
  | deleteUser u =>
    exact .inr ⟨rfl, (h.db.userDevices u).map Device.publicKey, List.map_map.symm⟩

/-- The peers that a request tells `wg` about are that of the row it writes and those of the devices
it touches. -/
lemma exists_key_cmds_iff (hk : h.db.Keyed) :
    (∃ c ∈ e.cmds h, c.key = k) ↔
      (∃ d ∈ e.written h, d.publicKey = k) ∨
        ∃ d ∈ h.db.devices, e.Touches d ∧ d.publicKey = k := by
  cases e with
  | create d =>
    by_cases ha : h.db.Accepts d
    · simp [HostEvent.cmds, HostEvent.written, HostEvent.Touches, ha, Device.addCmd, Wg.Cmd.key]
    · simp [HostEvent.cmds, HostEvent.written, HostEvent.Touches, ha]
  | update id edit =>
    rw [HostEvent.cmds, HostEvent.written]
    cases hw : (h.db.device id).bind edit.applyTo with
    | none =>
      have hno : ∀ d ∈ h.db.devices, ¬ (HostEvent.update id edit).Touches d :=
        fun d hd => not_touches_update hk hw hd
      simpa using fun d hd ht => absurd ht (hno d hd)
    | some d' =>
      have htouched : ∀ d ∈ h.db.devices, (HostEvent.update id edit).Touches d →
          d.publicKey = d'.publicKey := fun d hd ht =>
        (key_eq_of_written hk hw hd).1 ((touches_update_iff hk hw hd).1 ht)
      simpa [Device.addCmd, Wg.Cmd.key] using fun d hd ht he => (htouched d hd ht).symm.trans he
  | delete id =>
    simp only [HostEvent.cmds, HostEvent.written, HostEvent.Touches]
    cases hd : h.db.device id with
    | none =>
      have hno : ∀ d ∈ h.db.devices, d.id ≠ id := fun d hdm => by
        simpa using List.find?_eq_none.1 hd d hdm
      simpa using fun d hdm he => absurd he (hno d hdm)
    | some c =>
      obtain ⟨hcm, rfl⟩ := device_eq_some hd
      constructor
      · rintro ⟨b, hb, rfl⟩
        obtain rfl := List.mem_singleton.1 hb
        exact .inr ⟨c, hcm, rfl, rfl⟩
      · rintro (⟨d, hd, -⟩ | ⟨d, hdm, he, rfl⟩)
        · exact absurd hd (Option.not_mem_none d)
        · rw [hk.eq_of_id hdm hcm he]
          exact ⟨_, List.mem_cons_self, rfl⟩
  | deleteUser u =>
    simp [HostEvent.cmds, HostEvent.written, HostEvent.Touches, Database.userDevices, Wg.Cmd.key,
      and_assoc]

/-- What a request without a row to write removes. -/
lemma mem_keys_iff (hk : h.db.Keyed) {ks : List String} (hw : e.written h = none)
    (hc : e.cmds h = ks.map .remove) :
    k ∈ ks ↔ ∃ d ∈ h.db.devices, e.Touches d ∧ d.publicKey = k := by
  have hkey := exists_key_cmds_iff (e := e) (k := k) hk
  rw [hc, hw] at hkey
  simpa [Wg.Cmd.key] using hkey

/-- A request that sets a peer touches no device under another key. -/
lemma key_eq_of_touches (hk : h.db.Keyed) {d c : Device}
    (hcmd : e.cmds h = [d.addCmd]) (hc : c ∈ h.db.devices) (ht : e.Touches c) :
    c.publicKey = d.publicKey := by
  obtain ⟨b, hb, hbk⟩ := (exists_key_cmds_iff hk).2 (.inr ⟨c, hc, ht, rfl⟩)
  rw [hcmd] at hb
  obtain rfl := List.mem_singleton.1 hb
  exact hbk.symm

/-- **Who is a peer after a request**: the device that is written, and whoever was a peer and is not
touched. -/
theorem mem_peers_next_iff (hwg : settings.wgEnabled = true) (hk : h.db.Keyed)
    (hr : e.Readable h) :
    k ∈ (e.next settings nft order h).peers.peers ↔
      (∃ d ∈ e.written h, d.publicKey = k) ∨
        ((∀ d ∈ h.db.devices, e.Touches d → d.publicKey ≠ k) ∧ k ∈ h.peers.peers) := by
  rw [peers_next hwg hr]
  rcases cmds_cases e h with ⟨d, hw, hc⟩ | ⟨hw, ks, hc⟩
  · have htouched : d.publicKey ≠ k → ∀ c ∈ h.db.devices, e.Touches c → c.publicKey ≠ k :=
      fun hne c hcm ht => key_eq_of_touches hk hc hcm ht ▸ hne
    rw [hc, hw, Wg.run_cons, Wg.run_nil, Wg.Cmd.mem_peers_apply_iff]
    simp only [Device.addCmd, Wg.Cmd.key, Wg.Cmd.IsSet, and_true, Option.mem_def,
      Option.some.injEq, exists_eq_left']
    tauto
  · have hkeys := mem_keys_iff (k := k) hk hw hc
    rw [hc, hw, Wg.mem_run_remove_iff, hkeys]
    simp

/-- **Who holds a prefix after a request**: the device that is written, if it lists the prefix, and
otherwise whoever held it, unless the device is touched. -/
theorem holder_next_iff (hwg : settings.wgEnabled = true) (hk : h.db.Keyed) (hr : e.Readable h) :
    (e.next settings nft order h).peers.holder n = some k ↔
      (∃ d ∈ e.written h, d.publicKey = k ∧ d.Lists n) ∨
        ((∀ d ∈ e.written h, d.publicKey ≠ k ∧ ¬ d.Lists n) ∧
          (∀ d ∈ h.db.devices, e.Touches d → d.publicKey ≠ k) ∧ h.peers.holder n = some k) := by
  rw [peers_next hwg hr]
  rcases cmds_cases e h with ⟨d, hw, hc⟩ | ⟨hw, ks, hc⟩
  · have htouched : d.publicKey ≠ k → ∀ c ∈ h.db.devices, e.Touches c → c.publicKey ≠ k :=
      fun hne c hcm ht => key_eq_of_touches hk hc hcm ht ▸ hne
    rw [hc, hw, Wg.run_cons, Wg.run_nil, Wg.Cmd.holder_apply_eq_some_iff, nets_addCmd]
    simp only [Device.addCmd, Wg.Cmd.key, Option.mem_def, Option.some.injEq, exists_eq_left',
      forall_eq']
    tauto
  · have hkeys := mem_keys_iff (k := k) hk hw hc
    rw [hc, hw, Wg.holder_run_remove_iff, hkeys]
    simp

end Commands

end WireGui
