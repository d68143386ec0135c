import WireGui.Api.Devices
import WireGui.Services.Routes
import WireGui.Services.Users
import WireGui.Services.Wireguard

/-!
# `services/events.py`: devices

The handlers for devices carry a change over to the peers, the routes and the firewall.  Each part
fails by itself: its error is logged and the next part goes on.

The requests that change devices commit first and call their handler then.
-/

namespace WireGui

/-- The service on its host: the database, the firewall, the peers and the routes. -/
structure Host extends State where
  peers : Peers
  routes : Routes

/-- `_all_relay_subnets`. -/
def Database.relaySubnets (db : Database) : Finset String :=
  (db.devices.flatMap Device.allowedSubnets).toFinset

section Handlers

variable (settings : Settings) (nft : FrontEnd) (order : SetOrders)

def Host.onDeviceCreated (device : Device) (h : Host) : Host :=
  if settings.wgEnabled then
    { h with
      peers := addDevice device h.peers
      routes := if device.allowedSubnets = [] then h.routes
        else addRoutes device.allowedSubnets h.routes
      fw := WireGui.onDeviceCreated settings nft device h.fw }
  else h

def Host.onDeviceDeleted (device : Device) (h : Host) : Host :=
  if settings.wgEnabled then
    { h with
      peers := removePeer device.publicKey h.peers
      routes := if device.allowedSubnets = [] then h.routes
        else syncRoutes settings h.db.relaySubnets h.routes
      fw := WireGui.onDeviceDeleted device h.fw }
  else h

def Host.onDeviceUpdated (device : Device) (h : Host) : Host :=
  if settings.wgEnabled then
    { h with
      peers := addDevice device h.peers
      routes := syncRoutes settings h.db.relaySubnets h.routes
      fw := WireGui.onDeviceUpdated settings nft order h.db device h.fw }
  else h

end Handlers

/-! ### Requests -/

/-- The database takes the new row: its owner is there, and no device has its id, its key or one of
its addresses. -/
def Database.Accepts (db : Database) (d : Device) : Prop :=
  (∃ u ∈ db.users, u.id = d.userId) ∧
    ∀ e ∈ db.devices, e.id ≠ d.id ∧ e.publicKey ≠ d.publicKey ∧
      (∀ a ∈ d.ipv4, e.ipv4 ≠ some a) ∧ ∀ a ∈ d.ipv6, e.ipv6 ≠ some a

instance (db : Database) (d : Device) : Decidable (db.Accepts d) := by
  unfold Database.Accepts; infer_instance

/-- What an edit of a device changes.  Only the admin page asks for the subnets. -/
structure DeviceEdit where
  name : Option String := none
  subnets : Option String := none

/-- The row after the edit; `none` if the subnets cannot be read. -/
def DeviceEdit.applyTo (edit : DeviceEdit) (d : Device) : Option Device := do
  let subnets ← edit.subnets.elim (some d.allowedSubnets) parseSubnetList
  return { d with name := edit.name.getD d.name, allowedSubnets := subnets }

/-- Writes a row back. -/
def Database.setDevice (db : Database) (d : Device) : Database :=
  { db with devices := db.devices.map fun e => if e.id = d.id then d else e }

def Database.eraseDevice (db : Database) (id : Uuid) : Database :=
  { db with devices := db.devices.filter (·.id ≠ id) }

section Requests

variable (settings : Settings) (nft : FrontEnd) (order : SetOrders)

/-- `create_device`, for the row it makes, and the event it starts. -/
def Host.createDevice (device : Device) (h : Host) : Host :=
  if h.db.Accepts device then
    Host.onDeviceCreated settings nft device
      { h with db := { h.db with devices := h.db.devices ++ [device] } }
  else h

/-- `update_device` and the `save_edit` of the pages, and the event they start. -/
def Host.updateDevice (id : Uuid) (edit : DeviceEdit) (h : Host) : Host :=
  match h.db.device id with
  | none => h
  | some d =>
    match edit.applyTo d with
    | none => h
    | some d' => Host.onDeviceUpdated settings nft order d' { h with db := h.db.setDevice d' }

/-- `delete_device`, and the event it starts. -/
def Host.deleteDevice (id : Uuid) (h : Host) : Host :=
  match h.db.device id with
  | none => h
  | some d => Host.onDeviceDeleted settings d { h with db := h.db.eraseDevice id }

/-- `delete_user_and_cleanup`. -/
def Host.deleteUser (u : Uuid) (h : Host) : Host :=
  (h.db.userDevices u).foldl (fun h d => Host.onDeviceDeleted settings d h)
    { h with db := h.db.deleteUser u }

end Requests

/-- What happens to devices, one request after the other. -/
inductive HostEvent where
  | create (device : Device)
  | update (id : Uuid) (edit : DeviceEdit)
  | delete (id : Uuid)
  | deleteUser (u : Uuid)

/-- The request, and the handler it starts, to their end. -/
def HostEvent.next (settings : Settings) (nft : FrontEnd) (order : SetOrders) :
    HostEvent → Host → Host
  | .create device => Host.createDevice settings nft device
  | .update id edit => Host.updateDevice settings nft order id edit
  | .delete id => Host.deleteDevice settings id
  | .deleteUser u => Host.deleteUser settings u

/-- The row that the event writes. -/
def HostEvent.written : HostEvent → Host → Option Device
  | .create device, h => if h.db.Accepts device then some device else none
  | .update id edit, h => (h.db.device id).bind edit.applyTo
  | .delete _, _ | .deleteUser _, _ => none

/-- The event removes the device or writes it anew. -/
def HostEvent.Touches : HostEvent → Device → Prop
  | .create _, _ => False
  | .update id edit, d => d.id = id ∧ edit.applyTo d ≠ none
  | .delete id, d => d.id = id
  | .deleteUser u, d => d.userId = u

/-! ### Rows -/

/-- The rows of the devices: one for each id, and one for each key. -/
structure Database.Keyed (db : Database) : Prop where
  ids : (db.devices.map Device.id).Nodup
  keys : (db.devices.map Device.publicKey).Nodup

section Rows

variable {db : Database} {d e : Device} {id : Uuid}

lemma device_eq_some (h : db.device id = some d) : d ∈ db.devices ∧ d.id = id :=
  List.mem_of_find?_key h

/-- An edit keeps whose device it is, its key and its addresses. -/
lemma applyTo_eq_some {edit : DeviceEdit} (h : edit.applyTo d = some e) :
    e.id = d.id ∧ e.publicKey = d.publicKey ∧ e.presharedKey = d.presharedKey ∧
      e.ipv4 = d.ipv4 ∧ e.ipv6 = d.ipv6 ∧ e.userId = d.userId := by
  obtain ⟨subnets, -, h⟩ := Option.bind_eq_some_iff.1 h
  obtain rfl := Option.some.inj h
  exact ⟨rfl, rfl, rfl, rfl, rfl, rfl⟩

lemma mem_setDevice_iff (hd : ∃ c ∈ db.devices, c.id = d.id) :
    e ∈ (db.setDevice d).devices ↔ e = d ∨ (e ∈ db.devices ∧ e.id ≠ d.id) :=
  List.mem_writeBack_iff hd

lemma mem_eraseDevice_iff : e ∈ (db.eraseDevice id).devices ↔ e ∈ db.devices ∧ e.id ≠ id := by
  unfold Database.eraseDevice
  rw [List.mem_filter]
  simp

lemma Database.Keyed.eq_of_id (h : db.Keyed) (hd : d ∈ db.devices) (he : e ∈ db.devices)
    (hid : d.id = e.id) : d = e := List.inj_on_of_nodup_map h.ids hd he hid

lemma Database.Keyed.eq_of_key (h : db.Keyed) (hd : d ∈ db.devices) (he : e ∈ db.devices)
    (hk : d.publicKey = e.publicKey) : d = e := List.inj_on_of_nodup_map h.keys hd he hk

/-- Rows written back under their ids and keys keep them apart. -/
lemma Database.Keyed.setDevice (h : db.Keyed) (hd : d ∈ db.devices) (hid : e.id = d.id)
    (hk : e.publicKey = d.publicKey) : (db.setDevice e).Keyed := by
  have hmap : ∀ {α : Type} (f : Device → α), f e = f d →
      (db.setDevice e).devices.map f = db.devices.map f := by
    intro α f hf
    refine List.map_writeBack fun c hc hce => ?_
    obtain rfl := h.eq_of_id hc hd (hce.trans hid)
    exact hf
  exact ⟨by rw [hmap _ hid]; exact h.ids, by rw [hmap _ hk]; exact h.keys⟩

lemma Database.Keyed.of_sublist {devices : List Device} (h : db.Keyed)
    (hs : devices.Sublist db.devices) : ({ db with devices := devices } : Database).Keyed :=
  ⟨h.ids.sublist (hs.map _), h.keys.sublist (hs.map _)⟩

lemma Database.Keyed.append (h : db.Keyed) (hd : db.Accepts d) :
    ({ db with devices := db.devices ++ [d] } : Database).Keyed :=
  ⟨List.nodup_map_append_singleton h.ids fun e he => (hd.2 e he).1,
    List.nodup_map_append_singleton h.keys fun e he => (hd.2 e he).2.1⟩

end Rows

/-! ### One request -/

section Next

variable {settings : Settings} {nft : FrontEnd} {order : SetOrders} {h : Host} {d : Device}
  {u id : Uuid} {edit : DeviceEdit}

@[simp] lemma db_onDeviceCreated : (h.onDeviceCreated settings nft d).db = h.db := by
  unfold Host.onDeviceCreated
  split <;> rfl

@[simp] lemma db_onDeviceDeleted : (h.onDeviceDeleted settings d).db = h.db := by
  unfold Host.onDeviceDeleted
  split <;> rfl

@[simp] lemma db_onDeviceUpdated : (h.onDeviceUpdated settings nft order d).db = h.db := by
  unfold Host.onDeviceUpdated
  split <;> rfl

@[simp] lemma db_deleteUser : (h.deleteUser settings u).db = h.db.deleteUser u := by
  have hfold : ∀ (ds : List Device) (h : Host),
      (ds.foldl (fun h d => Host.onDeviceDeleted settings d h) h).db = h.db := by
    intro ds
    induction ds with
    | nil => exact fun _ => rfl
    | cons d ds ih =>
      intro h
      rw [List.foldl_cons, ih, db_onDeviceDeleted]
  exact hfold _ _

/-- What an update comes to. -/
lemma updateDevice_eq (h : Host) :
    h.updateDevice settings nft order id edit =
      ((h.db.device id).bind edit.applyTo).elim h fun d' =>
        Host.onDeviceUpdated settings nft order d' { h with db := h.db.setDevice d' } := by
  unfold Host.updateDevice
  cases h.db.device id with
  | none => rfl
  | some d =>
    simp only [Option.bind_some]
    cases edit.applyTo d <;> rfl

/-- **Each request keeps ids and keys apart.** -/
theorem keyed_next (e : HostEvent) (hk : h.db.Keyed) : (e.next settings nft order h).db.Keyed := by
  cases e with
  | create d =>
    simp only [HostEvent.next, Host.createDevice]
    split
    next ha =>
      rw [db_onDeviceCreated]
      exact hk.append ha
    next => exact hk
  | update id edit =>
    rw [HostEvent.next, updateDevice_eq]
    cases hw : (h.db.device id).bind edit.applyTo with
    | none => exact hk
    | some d' =>
      obtain ⟨d, hd, hd'⟩ := Option.bind_eq_some_iff.1 hw
      obtain ⟨hid, hkey, -⟩ := applyTo_eq_some hd'
      rw [Option.elim_some, db_onDeviceUpdated]
      exact hk.setDevice (device_eq_some hd).1 hid hkey
  | delete id =>
    simp only [HostEvent.next, Host.deleteDevice]
    split
    · exact hk
    · rw [db_onDeviceDeleted]
      exact hk.of_sublist List.filter_sublist
  | deleteUser u =>
    simp only [HostEvent.next, db_deleteUser]
    exact ⟨(hk.of_sublist List.filter_sublist).ids, (hk.of_sublist List.filter_sublist).keys⟩

lemma Database.Keyed.device_of_mem {db : Database} (hk : db.Keyed) (hd : d ∈ db.devices) :
    db.device d.id = some d :=
  (List.find?_eq_some_of_nodup_map hk.ids).2 ⟨hd, rfl⟩

/-- An update that writes nothing touches no device. -/
lemma not_touches_update (hk : h.db.Keyed) (hw : (h.db.device id).bind edit.applyTo = none)
    (hd : d ∈ h.db.devices) : ¬ (HostEvent.update id edit).Touches d := by
  rintro ⟨rfl, hne⟩
  rw [hk.device_of_mem hd] at hw
  exact hne hw

/-- An update touches the device whose row it writes. -/
lemma touches_update_iff (hk : h.db.Keyed) {d' : Device}
    (hw : (h.db.device id).bind edit.applyTo = some d') (hd : d ∈ h.db.devices) :
    (HostEvent.update id edit).Touches d ↔ d.id = d'.id := by
  obtain ⟨c, hc, hcd⟩ := Option.bind_eq_some_iff.1 hw
  obtain ⟨hcm, hcid⟩ := device_eq_some hc
  have hid : d'.id = id := (applyTo_eq_some hcd).1.trans hcid
  rw [hid]
  refine ⟨And.left, fun he => ⟨he, ?_⟩⟩
  rw [hk.eq_of_id hd hcm (he.trans hcid.symm), hcd]
  simp

/-- A row is written under the key it has. -/
lemma key_eq_of_written (hk : h.db.Keyed) {d' : Device}
    (hw : (h.db.device id).bind edit.applyTo = some d') (hd : d ∈ h.db.devices) :
    d.id = d'.id ↔ d.publicKey = d'.publicKey := by
  obtain ⟨c, hc, hcd⟩ := Option.bind_eq_some_iff.1 hw
  obtain ⟨hcid, hckey, -⟩ := applyTo_eq_some hcd
  rw [hcid, hckey]
  exact ⟨fun he => by rw [hk.eq_of_id hd (device_eq_some hc).1 he],
    fun he => by rw [hk.eq_of_key hd (device_eq_some hc).1 he]⟩

/-- A device that is not touched does not have the key of the row that is written. -/
lemma key_ne_of_written (hk : h.db.Keyed) {e : HostEvent} {d' : Device}
    (hw : e.written h = some d') (hd : d ∈ h.db.devices) (ht : ¬ e.Touches d) :
    d.publicKey ≠ d'.publicKey := by
  cases e with
  | create c =>
    simp only [HostEvent.written] at hw
    split at hw
    next ha =>
      obtain rfl := Option.some.inj hw
      exact (ha.2 d hd).2.1
    next => cases hw
  | update id edit =>
    exact fun he => ht ((touches_update_iff hk hw hd).2 ((key_eq_of_written hk hw hd).2 he))
  | delete id => cases hw
  | deleteUser u => cases hw

/-- **The devices after a request**: the row it writes, and those it does not touch. -/
theorem mem_devices_next (hk : h.db.Keyed) (e : HostEvent) :
    d ∈ (e.next settings nft order h).db.devices ↔
      e.written h = some d ∨ (d ∈ h.db.devices ∧ ¬ e.Touches d) := by
  cases e with
  | create c =>
    simp only [HostEvent.next, Host.createDevice, HostEvent.written, HostEvent.Touches]
    split
    · rw [db_onDeviceCreated]
      simp [or_comm, eq_comm]
    · simp
  | update id edit =>
    rw [HostEvent.next, updateDevice_eq]
    show _ ↔ (h.db.device id).bind edit.applyTo = some d ∨ _
    cases hw : (h.db.device id).bind edit.applyTo with
    | none =>
      simp only [Option.elim_none, reduceCtorEq, false_or]
      exact ⟨fun hd => ⟨hd, not_touches_update hk hw hd⟩, And.left⟩
    | some d' =>
      obtain ⟨c, hc, hcd⟩ := Option.bind_eq_some_iff.1 hw
      have hid : c.id = d'.id := (applyTo_eq_some hcd).1.symm
      rw [Option.elim_some, db_onDeviceUpdated, mem_setDevice_iff ⟨c, (device_eq_some hc).1, hid⟩,
        Option.some.injEq, eq_comm]
      exact or_congr Iff.rfl (and_congr_right fun hd => not_congr (touches_update_iff hk hw hd).symm)
  | delete id =>
    simp only [HostEvent.next, Host.deleteDevice, HostEvent.written, HostEvent.Touches,
      reduceCtorEq, false_or]
    cases hd : h.db.device id with
    | none =>
      have hno := List.find?_eq_none.1 hd
      refine ⟨fun hm => ⟨hm, fun he => ?_⟩, And.left⟩
      simpa [he] using hno d hm
    | some c => rw [db_onDeviceDeleted, mem_eraseDevice_iff]
  | deleteUser u =>
    rw [HostEvent.next, db_deleteUser]
    simp [Database.deleteUser, HostEvent.written, HostEvent.Touches]

end Next

end WireGui
