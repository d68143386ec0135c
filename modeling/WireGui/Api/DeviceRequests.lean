import WireGui.Api.Updates

/-!
# `api/v0/devices.py`: the requests of a user

The endpoints with their checks of who the caller is and whose the device is.  A request writes one
row at most, and `DeviceWrite` says which.
-/

namespace WireGui

/-! ### Writes -/

/-- What a request writes to the table of devices. -/
inductive DeviceWrite where
  | insert (d : Device)
  | put (d : Device)
  | erase (id : Uuid)

/-- The database after a request; `none` if it has written nothing. -/
def Database.write (db : Database) : Option DeviceWrite → Database
  | none => db
  | some (.insert d) => { db with devices := db.devices ++ [d] }
  | some (.put d) => db.setDevice d
  | some (.erase id) => db.eraseDevice id

/-- The row if the database takes it. -/
def Database.taken (db : Database) (d : Device) : Option Device :=
  if d.Storable ∧ db.Accepts d then some d else none

/-- What is drawn for a new device: its id, its keys and its addresses. -/
structure Drawn where
  id : Uuid
  publicKey : String
  presharedKey : String
  draws : Draws

namespace Api

/-- `DeviceCreate`, the body. -/
structure DeviceCreate where
  name : String
  description : Option String := none
  userId : Option Uuid := none

section Endpoints

variable (settings : Settings) (hmac : String → String) (now : ℕ) (authorization : String)

/-- The row that `create_device` makes; `none` if there is no address left or the database does not
take it. -/
def DeviceCreate.device (body : DeviceCreate) (drawn : Drawn) (caller : User) (db : Database) :
    Option Device := do
  let ownerId := if caller.role = "admin" then body.userId.getD caller.id else caller.id
  let device ← newDevice settings db drawn.draws {
    id := drawn.id
    name := body.name
    publicKey := drawn.publicKey
    presharedKey := some drawn.presharedKey
    userId := ownerId }
  db.taken { device with description := body.description, insertedAt := now, updatedAt := now }

def createDevice (body : DeviceCreate) (drawn : Drawn) (db : Database) :
    Except HttpError DeviceRead × Database :=
  match getCurrentApiUser hmac now db authorization with
  | .error e => (.error e, db)
  | .ok caller =>
    match body.device settings now drawn caller db with
    | none => (.error internalError, db)
    | some device => respond device.read { db with devices := db.devices ++ [device] }

def getDevice (id : Uuid) (db : Database) : Except HttpError DeviceRead × Database :=
  match getCurrentApiUser hmac now db authorization with
  | .error e => (.error e, db)
  | .ok caller =>
    match db.device id with
    | none => (.error ⟨404, "Device not found"⟩, db)
    | some device =>
      if caller.role ≠ "admin" ∧ device.userId ≠ caller.id then
        (.error ⟨403, "Access denied"⟩, db)
      else respond device.read db

def deleteDevice (id : Uuid) (db : Database) : Except HttpError Unit × Database :=
  match getCurrentApiUser hmac now db authorization with
  | .error e => (.error e, db)
  | .ok caller =>
    match db.device id with
    | none => (.error ⟨404, "Device not found"⟩, db)
    | some device =>
      if caller.role ≠ "admin" ∧ device.userId ≠ caller.id then
        (.error ⟨403, "Access denied"⟩, db)
      else (.ok (), db.eraseDevice id)

end Endpoints

inductive DeviceRequest where
  | list
  | get (id : Uuid)
  | create (body : DeviceCreate) (drawn : Drawn)
  | update (id : Uuid) (body : DeviceUpdate)
  | delete (id : Uuid)

/-- The rows of an answer. -/
def rows {α β : Type} (f : α → List β) (answer : Except HttpError α × Database) :
    List β × Database :=
  match answer with
  | (.error _, db) => ([], db)
  | (.ok a, db) => (f a, db)

/-- The device, if the caller may use it. -/
def deviceFor (caller : User) (id : Uuid) (db : Database) : Option Device :=
  (db.device id).filter fun device => caller.role = "admin" ∨ device.userId = caller.id

section Requests

variable (settings : Settings) (hmac : String → String) (now : ℕ) (authorization : String)
  (request : DeviceRequest) (db : Database)

/-- **One request**: the rows that are returned, and the database. -/
def DeviceRequest.handle : List DeviceRead × Database :=
  match request with
  | .list =>
    match getCurrentApiUser hmac now db authorization with
    | .error _ => ([], db)
    | .ok caller => ((listDevices caller db).getD [], db)
  | .get id => rows (fun row => [row]) (getDevice hmac now authorization id db)
  | .create body drawn =>
    rows (fun row => [row]) (createDevice settings hmac now authorization body drawn db)
  | .update id body => rows (fun row => [row]) (updateDevice hmac now authorization id body db)
  | .delete id => rows (fun _ => []) (deleteDevice hmac now authorization id db)

/-- What the request writes, for the caller. -/
def DeviceRequest.write (caller : User) : Option DeviceWrite :=
  match request with
  | .list | .get _ => none
  | .create body drawn => (body.device settings now drawn caller db).map .insert
  | .update id body =>
    (deviceFor caller id db).bind fun device =>
      ((body.applyTo device).filter fun d => d.Storable).map .put
  | .delete id => (deviceFor caller id db).map fun _ => .erase id

end Requests

end Api

/-! ### What a user may write -/

/-- The columns that no request of a user sets on a row that is there. -/
structure Device.SameIdentity (d d' : Device) : Prop where
  publicKey : d'.publicKey = d.publicKey
  presharedKey : d'.presharedKey = d.presharedKey
  ipv4 : d'.ipv4 = d.ipv4
  ipv6 : d'.ipv6 = d.ipv6
  userId : d'.userId = d.userId
  allowedSubnets : d'.allowedSubnets = d.allowedSubnets

/-- The write is about a row of the user's. -/
def DeviceWrite.By (u : Uuid) (db : Database) : DeviceWrite → Prop
  | .insert d => d.userId = u ∧ d.allowedSubnets = [] ∧ ∀ e ∈ db.devices, e.id ≠ d.id
  | .put d' => ∃ d ∈ db.devices, d.id = d'.id ∧ d.userId = u ∧ d.SameIdentity d'
  | .erase id => ∃ d ∈ db.devices, d.id = id ∧ d.userId = u

/-- **Only the user's rows**: the others are as before, those that are new are the user's and relay
nothing, and those that are still there have kept whose they are, their keys and their addresses. -/
structure OwnRowsOnly (u : Uuid) (db db' : Database) : Prop where
  tables : { db' with devices := db.devices } = db
  others : db'.devices.filter (·.userId ≠ u) = db.devices.filter (·.userId ≠ u)
  created : ∀ d' ∈ db'.devices, (∀ d ∈ db.devices, d.id ≠ d'.id) →
    d'.userId = u ∧ d'.allowedSubnets = []
  kept : ∀ d ∈ db.devices, ∀ d' ∈ db'.devices, d.id = d'.id → d.SameIdentity d'

section Writes

variable {db : Database} {u id : Uuid} {d d' : Device}

lemma Device.SameIdentity.refl (d : Device) : d.SameIdentity d := ⟨rfl, rfl, rfl, rfl, rfl, rfl⟩

/-- Rows with one id are one row. -/
lemma sameIdentity_of_id (hids : (db.devices.map Device.id).Nodup) (hd : d ∈ db.devices)
    (hd' : d' ∈ db.devices) (hid : d.id = d'.id) : d.SameIdentity d' := by
  obtain rfl := List.inj_on_of_nodup_map hids hd hd' hid
  exact .refl d

lemma OwnRowsOnly.refl (hids : (db.devices.map Device.id).Nodup) : OwnRowsOnly u db db where
  tables := rfl
  others := rfl
  created d' hd' hnew := absurd rfl (hnew d' hd')
  kept _ hd _ hd' hid := sameIdentity_of_id hids hd hd' hid

lemma OwnRowsOnly.insert (hids : (db.devices.map Device.id).Nodup)
    (hby : (DeviceWrite.insert d).By u db) : OwnRowsOnly u db (db.write (some (.insert d))) := by
  obtain ⟨hu, hsub, hnew⟩ := hby
  refine ⟨rfl, ?_, fun d' hd' hid => ?_, fun c hc d' hd' hid => ?_⟩
  · have hd : ([d] : List Device).filter (·.userId ≠ u) = [] :=
      List.filter_cons_of_neg (by simpa using hu)
    rw [Database.write, List.filter_append, hd, List.append_nil]
  · rcases List.mem_append.1 hd' with hd' | hd'
    · exact absurd rfl (hid d' hd')
    · rw [List.mem_singleton.1 hd']
      exact ⟨hu, hsub⟩
  · rcases List.mem_append.1 hd' with hd' | hd'
    · exact sameIdentity_of_id hids hc hd' hid
    · rw [List.mem_singleton.1 hd'] at hid
      exact absurd hid (hnew c hc)

lemma OwnRowsOnly.erase (hids : (db.devices.map Device.id).Nodup)
    (hby : (DeviceWrite.erase id).By u db) : OwnRowsOnly u db (db.write (some (.erase id))) := by
  obtain ⟨d, hd, hid, hu⟩ := hby
  refine ⟨rfl, ?_, fun d' hd' hnew => ?_, fun c hc d' hd' => ?_⟩
  · rw [Database.write, Database.eraseDevice, List.filter_filter]
    refine List.filter_congr fun e he => ?_
    by_cases heid : e.id = id
    · obtain rfl := List.inj_on_of_nodup_map hids he hd (heid.trans hid.symm)
      simp [hu]
    · simp [heid]
  · exact absurd rfl (hnew d' (mem_eraseDevice_iff.1 hd').1)
  · exact sameIdentity_of_id hids hc (mem_eraseDevice_iff.1 hd').1

lemma OwnRowsOnly.put (hids : (db.devices.map Device.id).Nodup)
    (hby : (DeviceWrite.put d').By u db) : OwnRowsOnly u db (db.write (some (.put d'))) := by
  obtain ⟨d, hd, hid, hu, hsame⟩ := hby
  have hmem : ∀ e, e ∈ (db.setDevice d').devices ↔ e = d' ∨ (e ∈ db.devices ∧ e.id ≠ d'.id) :=
    fun e => mem_setDevice_iff ⟨d, hd, hid⟩
  refine ⟨rfl, ?_, fun e he hnew => ?_, fun c hc e he hce => ?_⟩
  · refine List.filter_writeBack (by simp [hsame.userId, hu]) fun c hc hk => ?_
    obtain rfl := List.inj_on_of_nodup_map hids hc hd (hk.trans hid.symm)
    simp [hu]
  · rcases (hmem e).1 he with rfl | ⟨he, -⟩
    · exact absurd hid (hnew d hd)
    · exact absurd rfl (hnew e he)
  · rcases (hmem e).1 he with rfl | ⟨he, -⟩
    · obtain rfl := List.inj_on_of_nodup_map hids hc hd (hce.trans hid.symm)
      exact hsame
    · exact sameIdentity_of_id hids hc he hce

/-- **A write of the user's** is about the user's rows only. -/
theorem ownRowsOnly_write (hids : (db.devices.map Device.id).Nodup) {w : Option DeviceWrite}
    (hby : ∀ x ∈ w, x.By u db) : OwnRowsOnly u db (db.write w) := by
  rcases w with _ | w
  · exact .refl hids
  · cases w with
    | insert d => exact .insert hids (hby _ rfl)
    | put d => exact .put hids (hby _ rfl)
    | erase id => exact .erase hids (hby _ rfl)

/-- It keeps the rows apart. -/
lemma nodup_write (hids : (db.devices.map Device.id).Nodup) {w : Option DeviceWrite}
    (hby : ∀ x ∈ w, ∃ u, x.By u db) : ((db.write w).devices.map Device.id).Nodup := by
  rcases w with _ | w
  · exact hids
  · obtain ⟨u, hw⟩ := hby w rfl
    cases w with
    | insert d => exact List.nodup_map_append_singleton hids hw.2.2
    | put d =>
      have hmap : (db.setDevice d).devices.map Device.id = db.devices.map Device.id :=
        List.map_writeBack fun c _ hc => hc.symm
      rw [Database.write, hmap]
      exact hids
    | erase id => exact hids.sublist (List.filter_sublist.map _)

lemma taken_eq_some_iff : db.taken d = some d' ↔ d' = d ∧ d.Storable ∧ db.Accepts d := by
  unfold Database.taken
  split_ifs with h <;> simp [h, eq_comm]

end Writes

/-! ### What the requests write and return -/

namespace Api

section Handle

variable {settings : Settings} {hmac : String → String} {now : ℕ} {authorization : String}
  {db : Database} {caller : User} {request : DeviceRequest} {id : Uuid}

/-- An update changes none of the columns that are not in its body. -/
lemma sameIdentity_applyTo {body : DeviceUpdate} {d d' : Device} (h : body.applyTo d = some d') :
    d'.id = d.id ∧ d.SameIdentity d' := by
  unfold DeviceUpdate.applyTo at h
  simp only [Option.bind_eq_bind, Option.bind_eq_some_iff, Option.pure_def, Option.some_inj] at h
  obtain ⟨_, -, _, -, _, -, _, -, _, -, _, -, rfl⟩ := h
  exact ⟨rfl, rfl, rfl, rfl, rfl, rfl, rfl⟩

/-- The row that `create_device` makes. -/
lemma DeviceCreate.device_eq_some {body : DeviceCreate} {drawn : Drawn} {d : Device}
    (h : body.device settings now drawn caller db = some d) :
    d.id = drawn.id ∧ (caller.role ≠ "admin" → d.userId = caller.id) ∧ d.allowedSubnets = [] ∧
      db.Accepts d := by
  unfold DeviceCreate.device at h
  obtain ⟨base, hbase, h⟩ := Option.bind_eq_some_iff.1 h
  obtain ⟨rfl, -, haccepts⟩ := taken_eq_some_iff.1 h
  obtain ⟨ipv4, ipv6, subnets, hsub, rfl⟩ := newDevice_eq_some hbase
  have hnone : parseSubnetList "" = some [] := rfl
  exact ⟨rfl, fun hrole => if_neg hrole, (Option.some.inj (hnone.symm.trans hsub)).symm, haccepts⟩

/-- Somebody who is no admin may use the devices that are the user's. -/
lemma deviceFor_eq_some {d : Device} (hrole : caller.role ≠ "admin")
    (h : deviceFor caller id db = some d) : d ∈ db.devices ∧ d.id = id ∧ d.userId = caller.id := by
  obtain ⟨hd, hallowed⟩ := Option.filter_eq_some_iff.1 h
  obtain ⟨hmem, hid⟩ := device_eq_some hd
  exact ⟨hmem, hid, (of_decide_eq_true hallowed).resolve_left hrole⟩

/-- **What somebody who is no admin may write.** -/
lemma by_write (hrole : caller.role ≠ "admin") :
    ∀ w ∈ request.write settings now db caller, w.By caller.id db := by
  intro w hw
  cases request with
  | list => cases hw
  | get id => cases hw
  | create body drawn =>
    obtain ⟨d, hd, rfl⟩ := Option.map_eq_some_iff.1 hw
    obtain ⟨-, hu, hsub, haccepts⟩ := body.device_eq_some hd
    exact ⟨hu hrole, hsub, fun e he => (haccepts.2 e he).1⟩
  | update id body =>
    obtain ⟨d, hd, hw⟩ := Option.bind_eq_some_iff.1 hw
    obtain ⟨d', hd', rfl⟩ := Option.map_eq_some_iff.1 hw
    obtain ⟨hmem, -, hu⟩ := deviceFor_eq_some hrole hd
    obtain ⟨hid, hsame⟩ := sameIdentity_applyTo (Option.filter_eq_some_iff.1 hd').1
    exact ⟨d, hmem, hid.symm, hu, hsame⟩
  | delete id =>
    obtain ⟨d, hd, rfl⟩ := Option.map_eq_some_iff.1 hw
    obtain ⟨hmem, hid, hu⟩ := deviceFor_eq_some hrole hd
    exact ⟨d, hmem, hid, hu⟩

lemma snd_rows {α β : Type} (f : α → List β) (answer : Except HttpError α × Database) :
    (rows f answer).2 = answer.2 := by
  obtain ⟨answer, db⟩ := answer
  cases answer with
  | error e => rfl
  | ok a => rfl

lemma mem_rows {α β : Type} {f : α → List β} {answer : Except HttpError α × Database} {b : β}
    (h : b ∈ (rows f answer).1) : ∃ a, answer.1 = .ok a ∧ b ∈ f a := by
  obtain ⟨answer, db⟩ := answer
  cases answer with
  | error e => cases h
  | ok a => exact ⟨a, rfl, h⟩

/-- The check that `get_device`, `update_device` and `delete_device` make. -/
lemma deviceFor_of_denied {d : Device} (hd : db.device id = some d)
    (hdenied : caller.role ≠ "admin" ∧ d.userId ≠ caller.id) : deviceFor caller id db = none := by
  rw [deviceFor, hd, Option.filter_some, if_neg (by simpa using hdenied)]

lemma deviceFor_of_allowed {d : Device} (hd : db.device id = some d)
    (hallowed : ¬ (caller.role ≠ "admin" ∧ d.userId ≠ caller.id)) :
    deviceFor caller id db = some d := by
  rw [deviceFor, hd, Option.filter_some, if_pos (decide_eq_true (by tauto))]

/-! What each endpoint leaves, for a caller who is let in. -/

lemma snd_getDevice : (getDevice hmac now authorization id db).2 = db := by
  unfold getDevice
  cases getCurrentApiUser hmac now db authorization with
  | error e => rfl
  | ok caller =>
    dsimp only
    cases db.device id with
    | none => rfl
    | some d =>
      dsimp only
      split_ifs
      · rfl
      · exact snd_respond _

lemma snd_createDevice {body : DeviceCreate} {drawn : Drawn}
    (hcaller : getCurrentApiUser hmac now db authorization = .ok caller) :
    (createDevice settings hmac now authorization body drawn db).2 =
      db.write ((body.device settings now drawn caller db).map .insert) := by
  rw [createDevice, hcaller]
  dsimp only
  cases body.device settings now drawn caller db with
  | none => rfl
  | some d => exact snd_respond _

lemma snd_updateDevice {body : DeviceUpdate}
    (hcaller : getCurrentApiUser hmac now db authorization = .ok caller) :
    (updateDevice hmac now authorization id body db).2 =
      db.write ((deviceFor caller id db).bind fun device =>
        ((body.applyTo device).filter fun d => d.Storable).map .put) := by
  rw [updateDevice, hcaller]
  dsimp only
  cases hd : db.device id with
  | none =>
    rw [deviceFor, hd]
    rfl
  | some d =>
    dsimp only
    split_ifs with hdenied
    · rw [deviceFor_of_denied hd hdenied]
      rfl
    · rw [deviceFor_of_allowed hd hdenied, Option.bind_some]
      cases (body.applyTo d).filter fun d => d.Storable with
      | none => rfl
      | some d' => exact snd_respond _

lemma snd_deleteDevice (hcaller : getCurrentApiUser hmac now db authorization = .ok caller) :
    (deleteDevice hmac now authorization id db).2 =
      db.write ((deviceFor caller id db).map fun _ => .erase id) := by
  rw [deleteDevice, hcaller]
  dsimp only
  cases hd : db.device id with
  | none =>
    rw [deviceFor, hd]
    rfl
  | some d =>
    dsimp only
    split_ifs with hdenied
    · rw [deviceFor_of_denied hd hdenied]
      rfl
    · rw [deviceFor_of_allowed hd hdenied]
      rfl

/-- Nobody else writes anything. -/
lemma snd_handle_of_error {e : HttpError}
    (herror : getCurrentApiUser hmac now db authorization = .error e) :
    (request.handle settings hmac now authorization db).2 = db := by
  unfold DeviceRequest.handle
  cases request with
  | list => rw [herror]
  | get id => rw [snd_rows, snd_getDevice]
  | create body drawn => rw [snd_rows, createDevice, herror]
  | update id body => rw [snd_rows, updateDevice, herror]
  | delete id => rw [snd_rows, deleteDevice, herror]

/-- **What a request leaves**: the write of the caller. -/
theorem snd_handle :
    (request.handle settings hmac now authorization db).2 =
      match getCurrentApiUser hmac now db authorization with
      | .error _ => db
      | .ok caller => db.write (request.write settings now db caller) := by
  cases hcaller : getCurrentApiUser hmac now db authorization with
  | error e => exact snd_handle_of_error hcaller
  | ok caller =>
    unfold DeviceRequest.handle
    cases request with
    | list =>
      rw [hcaller]
      rfl
    | get id =>
      rw [snd_rows, snd_getDevice]
      rfl
    | create body drawn =>
      rw [snd_rows, snd_createDevice hcaller]
      rfl
    | update id body =>
      rw [snd_rows, snd_updateDevice hcaller]
      rfl
    | delete id =>
      rw [snd_rows, snd_deleteDevice hcaller]
      rfl

/-- Who is no admin passes the check with own devices only. -/
lemma owner_of_allowed {d : Device} (hrole : caller.role ≠ "admin")
    (hallowed : ¬ (caller.role ≠ "admin" ∧ d.userId ≠ caller.id)) : d.userId = caller.id := by
  by_contra hne
  exact hallowed ⟨hrole, hne⟩

lemma userId_of_read {d : Device} {row : DeviceRead} (h : d.read = some row) :
    row.userId = d.userId := by
  unfold Device.read at h
  obtain ⟨_, -, h⟩ := Option.bind_eq_some_iff.1 h
  obtain ⟨_, -, h⟩ := Option.bind_eq_some_iff.1 h
  exact congrArg DeviceRead.userId (Option.some.inj h).symm

lemma fst_respond {α : Type} {response : Option α} {a : α} (h : (respond response db).1 = .ok a) :
    response = some a := by
  cases response with
  | none => cases h
  | some b => exact congrArg some (Except.ok.inj h)

/-! Whose row each endpoint returns. -/

lemma userId_of_mem_listDevices {row : DeviceRead} {found : List DeviceRead}
    (hrole : caller.role ≠ "admin") (h : listDevices caller db = some found) (hrow : row ∈ found) :
    row.userId = caller.id := by
  unfold listDevices at h
  rw [if_neg hrole] at h
  obtain ⟨d, hd, hread⟩ := List.exists_of_mem_mapM h hrow
  rw [userId_of_read hread]
  exact of_decide_eq_true (List.mem_filter.1 hd).2

lemma userId_of_getDevice {row : DeviceRead}
    (h : (getDevice hmac now authorization id db).1 = .ok row) :
    ∃ caller, getCurrentApiUser hmac now db authorization = .ok caller ∧
      (caller.role ≠ "admin" → row.userId = caller.id) := by
  unfold getDevice at h
  split at h
  · cases h
  next caller hcaller =>
    refine ⟨caller, hcaller, fun hrole => ?_⟩
    split at h
    · cases h
    next d hd =>
      split_ifs at h with hdenied
      rw [userId_of_read (fst_respond h)]
      exact owner_of_allowed hrole hdenied

lemma userId_of_createDevice {body : DeviceCreate} {drawn : Drawn} {row : DeviceRead}
    (h : (createDevice settings hmac now authorization body drawn db).1 = .ok row) :
    ∃ caller, getCurrentApiUser hmac now db authorization = .ok caller ∧
      (caller.role ≠ "admin" → row.userId = caller.id) := by
  unfold createDevice at h
  split at h
  · cases h
  next caller hcaller =>
    refine ⟨caller, hcaller, fun hrole => ?_⟩
    split at h
    · cases h
    next d hd =>
      rw [userId_of_read (fst_respond h)]
      exact (body.device_eq_some hd).2.1 hrole

lemma userId_of_updateDevice {body : DeviceUpdate} {row : DeviceRead}
    (h : (updateDevice hmac now authorization id body db).1 = .ok row) :
    ∃ caller, getCurrentApiUser hmac now db authorization = .ok caller ∧
      (caller.role ≠ "admin" → row.userId = caller.id) := by
  unfold updateDevice at h
  split at h
  · cases h
  next caller hcaller =>
    refine ⟨caller, hcaller, fun hrole => ?_⟩
    split at h
    · cases h
    next d hd =>
      split_ifs at h with hdenied
      split at h
      · cases h
      next d' hd' =>
        obtain ⟨-, hsame⟩ := sameIdentity_applyTo (Option.filter_eq_some_iff.1 hd').1
        rw [userId_of_read (fst_respond h), hsame.userId]
        exact owner_of_allowed hrole hdenied

/-- **Whose rows a request returns**: the caller's, if that is no admin. -/
theorem userId_of_mem_handle {row : DeviceRead}
    (h : row ∈ (request.handle settings hmac now authorization db).1) :
    ∃ caller, getCurrentApiUser hmac now db authorization = .ok caller ∧
      (caller.role ≠ "admin" → row.userId = caller.id) := by
  unfold DeviceRequest.handle at h
  cases request with
  | list =>
    dsimp only at h
    split at h
    · cases h
    next caller hcaller =>
      refine ⟨caller, hcaller, fun hrole => ?_⟩
      cases hlist : listDevices caller db with
      | none =>
        rw [hlist] at h
        cases h
      | some rows =>
        rw [hlist] at h
        exact userId_of_mem_listDevices hrole hlist h
  | get id =>
    obtain ⟨row', hrow, hmem⟩ := mem_rows h
    obtain rfl := List.mem_singleton.1 hmem
    exact userId_of_getDevice hrow
  | create body drawn =>
    obtain ⟨row', hrow, hmem⟩ := mem_rows h
    obtain rfl := List.mem_singleton.1 hmem
    exact userId_of_createDevice hrow
  | update id body =>
    obtain ⟨row', hrow, hmem⟩ := mem_rows h
    obtain rfl := List.mem_singleton.1 hmem
    exact userId_of_updateDevice hrow
  | delete id =>
    obtain ⟨_, -, hmem⟩ := mem_rows h
    cases hmem

end Handle

end Api

end WireGui
