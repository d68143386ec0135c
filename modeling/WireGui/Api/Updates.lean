import WireGui.Api.Users
import WireGui.Schemas
import WireGui.Services.DeviceEvents

/-!
# Reading and updating rows over the API

The endpoints of devices, rules, users and the configuration answer with rows, and one row that does
not fit its schema makes the whole list fail.  `put_fitsSchemas_iff` says after which updates all
rows fit.  The order of the rows in a list is left out.
-/

namespace WireGui

/-- **Every row fits its schema.** -/
structure Database.FitsSchemas (db : Database) : Prop where
  devices : ∀ d ∈ db.devices, d.read ≠ none
  rules : ∀ r ∈ db.rules, r.read ≠ none
  users : ∀ u ∈ db.users, u.read ≠ none
  configuration : ∀ c ∈ db.configuration, c.read ≠ none

/-! ### What the database checks of a row, besides null -/

/-- An `Integer` column has 32 bits. -/
def storableInt (n : ℤ) : Bool := -2 ^ 31 ≤ n && n < 2 ^ 31

def Device.Storable (d : Device) : Prop :=
  storableText d.name = true ∧ (∀ s ∈ d.description, storableText s = true) ∧
    (∀ s ∈ d.endpoint, storableText s = true) ∧ (∀ n ∈ d.mtu, storableInt n = true) ∧
    ∀ n ∈ d.persistentKeepalive, storableInt n = true

/-- The user of a rule must be there. -/
def Rule.Storable (db : Database) (r : Rule) : Prop :=
  storableText r.action = true ∧ storableText r.destination = true ∧
    (∀ s ∈ r.portType, storableText s = true) ∧ (∀ s ∈ r.portRange, storableText s = true) ∧
    storableInt r.priority = true ∧ ∀ u ∈ r.userId, ∃ user ∈ db.users, user.id = u

def Configuration.Storable (c : Configuration) : Prop :=
  storableInt c.defaultClientPersistentKeepalive = true ∧ storableInt c.defaultClientMtu = true ∧
    (∀ s ∈ c.defaultClientEndpoint, storableText s = true) ∧
    storableInt c.vpnSessionDuration = true ∧ (∀ s ∈ c.logoUrl, storableText s = true) ∧
    ∀ s ∈ c.logoType, storableText s = true

instance (d : Device) : Decidable d.Storable := by unfold Device.Storable; infer_instance

instance (db : Database) (r : Rule) : Decidable (r.Storable db) := by
  unfold Rule.Storable; infer_instance

instance (c : Configuration) : Decidable c.Storable := by
  unfold Configuration.Storable; infer_instance

namespace Api

def internalError : HttpError := ⟨500, "Internal Server Error"⟩

/-- The response, which is checked against the schema after the commit. -/
def respond {α : Type} (response : Option α) (db : Database) : Except HttpError α × Database :=
  match response with
  | none => (.error internalError, db)
  | some a => (.ok a, db)

/-! ### Reading -/

/-- `list_devices`; `none` is an internal error. -/
def listDevices (caller : User) (db : Database) : Option (List DeviceRead) :=
  (if caller.role = "admin" then db.devices else db.userDevices caller.id).mapM Device.read

def listRules (db : Database) : Option (List RuleRead) := db.rules.mapM Rule.read

def listUsers (db : Database) : Option (List UserRead) := db.users.mapM User.read

/-- `_get_config`, which makes the row if there is none. -/
def getConfig (now : ℕ) (db : Database) : Configuration × Database :=
  match db.configuration with
  | some config => (config, db)
  | none =>
    let config : Configuration := { insertedAt := now, updatedAt := now }
    (config, { db with configuration := some config })

def getConfiguration (now : ℕ) (db : Database) : Option ConfigurationRead :=
  (getConfig now db).1.read

/-! ### Updating -/

section Put

variable (hmac : String → String) (hashPassword : String → Option String) (now : ℕ)
  (authorization : String)

def updateDevice (id : Uuid) (body : DeviceUpdate) (db : Database) :
    Except HttpError DeviceRead × Database :=
  match getCurrentApiUser hmac now db authorization with
  | .error e => (.error e, db)
  | .ok caller =>
    match db.device id with
    | none => (.error ⟨404, "Device not found"⟩, db)
    | some device =>
      if caller.role ≠ "admin" ∧ device.userId ≠ caller.id then
        (.error ⟨403, "Access denied"⟩, db)
      else
        match (body.applyTo device).filter fun d => d.Storable with
        | none => (.error internalError, db)
        | some device' => respond device'.read (db.setDevice device')

def updateRule (id : Uuid) (body : RuleUpdate) (db : Database) :
    Except HttpError RuleRead × Database :=
  match requireAdmin hmac now db authorization with
  | .error e => (.error e, db)
  | .ok _ =>
    match db.rule id with
    | none => (.error ⟨404, "Rule not found"⟩, db)
    | some rule =>
      match (body.applyTo rule).filter fun r => r.Storable db with
      | none => (.error internalError, db)
      | some rule' => respond rule'.read (db.setRule rule')

def updateUser (id : Uuid) (body : UserUpdate) (db : Database) :
    Except HttpError UserRead × Database :=
  match requireAdmin hmac now db authorization with
  | .error e => (.error e, db)
  | .ok _ =>
    match db.user id with
    | none => (.error ⟨404, "User not found"⟩, db)
    | some user =>
      match body.applyTo hashPassword user with
      | none => (.error internalError, db)
      | some user' =>
        match db.commitUser user user' with
        | none => (.error internalError, db)
        | some db' => respond user'.read db'

def updateConfiguration (body : ConfigurationUpdate) (db : Database) :
    Except HttpError ConfigurationRead × Database :=
  match requireAdmin hmac now db authorization with
  | .error e => (.error e, db)
  | .ok _ =>
    let (config, db) := getConfig now db
    match (body.applyTo config).filter fun c => c.Storable with
    | none => (.error internalError, db)
    | some config' => respond config'.read { db with configuration := some config' }

end Put

/-- A `PUT` with its body. -/
inductive PutRequest where
  | device (id : Uuid) (body : DeviceUpdate)
  | rule (id : Uuid) (body : RuleUpdate)
  | user (id : Uuid) (body : UserUpdate)
  | configuration (body : ConfigurationUpdate)

/-- The error of an answer, if it is one, and the database. -/
def failure {α : Type} (answer : Except HttpError α × Database) : Option HttpError × Database :=
  match answer with
  | (.error e, db) => (some e, db)
  | (.ok _, db) => (none, db)

section Requests

variable (hmac : String → String) (hashPassword : String → Option String) (now : ℕ)
  (authorization : String) (request : PutRequest) (db : Database)

/-- **One update.** -/
def PutRequest.put : Option HttpError × Database :=
  match request with
  | .device id body => failure (updateDevice hmac now authorization id body db)
  | .rule id body => failure (updateRule hmac now authorization id body db)
  | .user id body => failure (updateUser hmac hashPassword now authorization id body db)
  | .configuration body => failure (updateConfiguration hmac now authorization body db)

/-- **No list is set to null**, in a request that is not refused: it comes from somebody who may
send it, its row is there, no column gets a null that it must not have, and the values can be
stored. -/
def PutRequest.KeepsLists : Prop :=
  match request with
  | .device id body => ∀ caller device device',
      getCurrentApiUser hmac now db authorization = .ok caller → db.device id = some device →
        (caller.role = "admin" ∨ device.userId = caller.id) →
          body.applyTo device = some device' → device'.Storable → ¬ body.NullsList
  | .configuration body => ∀ caller config',
      requireAdmin hmac now db authorization = .ok caller →
        body.applyTo (getConfig now db).1 = some config' → config'.Storable → ¬ body.NullsList
  | _ => True

end Requests

/-! ### Which rows can be read -/

section FitsSchemas

variable {hmac : String → String} {hashPassword : String → Option String} {now : ℕ}
  {authorization : String} {db : Database} {id : Uuid}

lemma snd_failure {α : Type} (answer : Except HttpError α × Database) :
    (failure answer).2 = answer.2 := by
  obtain ⟨answer, db⟩ := answer
  cases answer with
  | error e => rfl
  | ok a => rfl

lemma snd_respond {α : Type} (response : Option α) : (respond response db).2 = db := by
  cases response with
  | none => rfl
  | some a => rfl

/-- The configuration that a request works on can be read, made or not. -/
lemma read_getConfig (now : ℕ) (h : db.FitsSchemas) : (getConfig now db).1.read ≠ none := by
  unfold getConfig
  split
  next config hc => exact h.configuration config hc
  next => exact nofun

lemma fitsSchemas_getConfig (now : ℕ) (h : db.FitsSchemas) : (getConfig now db).2.FitsSchemas := by
  have hread := read_getConfig now h
  unfold getConfig at hread ⊢
  split
  · exact h
  next hnone =>
    rw [hnone] at hread
    refine { h with configuration := fun c hc => ?_ }
    obtain rfl := Option.some.inj hc
    exact hread

/-- **The lists can be read** for an admin, and the configuration, exactly if every row fits. -/
theorem fitsSchemas_iff_lists {caller : User} (hadmin : caller.role = "admin") :
    db.FitsSchemas ↔ listDevices caller db ≠ none ∧ listRules db ≠ none ∧ listUsers db ≠ none ∧
      getConfiguration now db ≠ none := by
  have hlist : ∀ {α β : Type} (read : α → Option β) (rows : List α),
      rows.mapM read ≠ none ↔ ∀ a ∈ rows, read a ≠ none := by
    intro α β read rows
    simp only [Option.ne_none_iff_exists']
    exact List.exists_mapM_iff
  rw [listDevices, if_pos hadmin, listRules, listUsers, hlist, hlist, hlist]
  constructor
  · exact fun h => ⟨h.devices, h.rules, h.users, read_getConfig now h⟩
  · rintro ⟨hdevices, hrules, husers, hconfig⟩
    refine ⟨hdevices, hrules, husers, fun c hc => ?_⟩
    rw [getConfiguration, getConfig, hc] at hconfig
    exact hconfig

/-- A device that is written is the one row that is new. -/
lemma fitsSchemas_setDevice_iff (h : db.FitsSchemas) {device device' : Device}
    (hd : device ∈ db.devices) (hid : device'.id = device.id) :
    (db.setDevice device').FitsSchemas ↔ device'.read ≠ none := by
  have hmem : ∀ d, d ∈ (db.setDevice device').devices ↔
      d = device' ∨ (d ∈ db.devices ∧ d.id ≠ device'.id) := fun d =>
    mem_setDevice_iff ⟨device, hd, hid.symm⟩
  constructor
  · exact fun hr => hr.devices device' ((hmem device').2 (.inl rfl))
  · intro hread
    refine ⟨fun d hd => ?_, h.rules, h.users, h.configuration⟩
    rcases (hmem d).1 hd with rfl | ⟨hd, -⟩
    · exact hread
    · exact h.devices d hd

lemma fitsSchemas_updateDevice_iff (h : db.FitsSchemas) (body : DeviceUpdate) :
    (updateDevice hmac now authorization id body db).2.FitsSchemas ↔
      (PutRequest.device id body).KeepsLists hmac now authorization db := by
  rw [updateDevice, PutRequest.KeepsLists]
  cases hcaller : getCurrentApiUser hmac now db authorization with
  | error e => exact iff_of_true h fun _ _ _ hc => by cases hc
  | ok caller =>
    cases hrow : db.device id with
    | none => exact iff_of_true h fun _ _ _ _ hd => by cases hd
    | some device =>
      obtain ⟨hmem, hid⟩ := device_eq_some hrow
      simp only
      split
      next hdenied =>
        refine iff_of_true h ?_
        rintro c d d' hc hd (hadmin | howner)
        · obtain rfl := Except.ok.inj hc
          exact absurd hadmin hdenied.1
        · obtain rfl := Except.ok.inj hc
          obtain rfl := Option.some.inj hd
          exact absurd howner hdenied.2
      next hallowed =>
        have hmay : caller.role = "admin" ∨ device.userId = caller.id := by
          by_contra hno
          exact hallowed (not_or.1 hno)
        cases hnew : (body.applyTo device).filter fun d => decide d.Storable with
        | none =>
          refine iff_of_true h fun c d d' _ hd _ hd' hstore => ?_
          obtain rfl := Option.some.inj hd
          exact absurd (decide_eq_true hstore) (Option.filter_eq_none_iff.1 hnew d' hd')
        | some device' =>
          obtain ⟨hnew, hstore⟩ := Option.filter_eq_some_iff.1 hnew
          have hstore := of_decide_eq_true hstore
          rw [snd_respond,
            fitsSchemas_setDevice_iff h hmem (DeviceUpdate.applyTo_eq_some hnew).1,
            read_applyTo_iff (h.devices device hmem) hnew]
          constructor
          · exact fun hlists _ _ _ _ _ _ _ _ => hlists
          · exact fun hall => hall caller device device' rfl rfl hmay hnew hstore

lemma fitsSchemas_updateConfiguration_iff (h : db.FitsSchemas) (body : ConfigurationUpdate) :
    (updateConfiguration hmac now authorization body db).2.FitsSchemas ↔
      (PutRequest.configuration body).KeepsLists hmac now authorization db := by
  rw [updateConfiguration, PutRequest.KeepsLists]
  cases hcaller : requireAdmin hmac now db authorization with
  | error e => exact iff_of_true h fun _ _ hc => by cases hc
  | ok caller =>
    have hread := read_getConfig now h
    have hdb := fitsSchemas_getConfig now h
    cases hconfig : getConfig now db with | mk config db'
    rw [hconfig] at hread hdb
    simp only at hread hdb ⊢
    cases hnew : (body.applyTo config).filter fun c => decide c.Storable with
    | none =>
      refine iff_of_true hdb fun c c' _ hc' hstore => ?_
      exact absurd (decide_eq_true hstore) (Option.filter_eq_none_iff.1 hnew c' hc')
    | some config' =>
      obtain ⟨hnew, hstore⟩ := Option.filter_eq_some_iff.1 hnew
      have hstore := of_decide_eq_true hstore
      have hset : ({ db' with configuration := some config' } : Database).FitsSchemas ↔
          config'.read ≠ none := by
        constructor
        · exact fun hr => hr.configuration config' rfl
        · intro hfits
          refine ⟨hdb.devices, hdb.rules, hdb.users, fun c hc => ?_⟩
          obtain rfl := Option.some.inj hc
          exact hfits
      rw [snd_respond, hset, read_config_applyTo_iff hread hnew]
      constructor
      · exact fun hlists _ _ _ _ _ => hlists
      · exact fun hall => hall caller config' rfl hnew hstore

/-- For the peers, the routes and the firewall an update over the API is an edit of the name. -/
theorem exists_edit_of_applyTo {body : DeviceUpdate} {device device' : Device}
    (h : body.applyTo device = some device') :
    ∃ d, DeviceEdit.applyTo { name := some device'.name } device = some d ∧ d.id = device'.id ∧
      d.userId = device'.userId ∧ d.publicKey = device'.publicKey ∧
      d.presharedKey = device'.presharedKey ∧ d.deviceAllowedIps = device'.deviceAllowedIps ∧
      d.allowedSubnets = device'.allowedSubnets ∧ d.entry = device'.entry := by
  unfold DeviceUpdate.applyTo at h
  simp only [Option.bind_eq_bind, Option.bind_eq_some_iff, Option.pure_def, Option.some_inj] at h
  obtain ⟨name, -, _, -, _, -, _, -, _, -, _, -, rfl⟩ := h
  exact ⟨{ device with name := name }, rfl, rfl, rfl, rfl, rfl, rfl, rfl, rfl⟩

/-- What `update_rule` commits is what it makes of the rows, whatever the firewall holds. -/
theorem snd_updateRule (body : RuleUpdate) (fw : Table) :
    (updateRule hmac now authorization id body db).2 = db ∨
      WireGui.updateRule id body ⟨db, fw⟩ =
        .ok ⟨(updateRule hmac now authorization id body db).2, fw⟩ := by
  unfold updateRule WireGui.updateRule
  split
  · exact .inl rfl
  · split
    · exact .inl rfl
    next rule hrule =>
      split
      · exact .inl rfl
      next rule' hrule' =>
        obtain ⟨happly, -⟩ := Option.filter_eq_some_iff.1 hrule'
        refine .inr ?_
        simp only [hrule, happly, snd_respond]

/-- Rules and users always fit their schemas. -/
lemma fitsSchemas_updateRule (h : db.FitsSchemas) (body : RuleUpdate) :
    (updateRule hmac now authorization id body db).2.FitsSchemas := by
  unfold updateRule
  split
  · exact h
  · split
    · exact h
    · split
      · exact h
      · rw [snd_respond]
        exact ⟨h.devices, fun _ _ => nofun, h.users, h.configuration⟩

lemma fitsSchemas_updateUser (h : db.FitsSchemas) (body : UserUpdate) :
    (updateUser hmac hashPassword now authorization id body db).2.FitsSchemas := by
  unfold updateUser
  split
  · exact h
  · split
    · exact h
    · split
      · exact h
      · split
        · exact h
        next db' hdb =>
          obtain ⟨c, -, -, rfl⟩ := commitUser_eq_some hdb
          rw [snd_respond]
          exact ⟨h.devices, h.rules, fun _ _ => nofun, h.configuration⟩

lemma fitsSchemas_put_iff (hashPassword : String → Option String) (h : db.FitsSchemas)
    (request : PutRequest) :
    (request.put hmac hashPassword now authorization db).2.FitsSchemas ↔
      request.KeepsLists hmac now authorization db := by
  cases request with
  | device id body =>
    rw [PutRequest.put, snd_failure]
    exact fitsSchemas_updateDevice_iff h body
  | rule id body =>
    rw [PutRequest.put, snd_failure]
    exact iff_of_true (fitsSchemas_updateRule h body) trivial
  | user id body =>
    rw [PutRequest.put, snd_failure]
    exact iff_of_true (fitsSchemas_updateUser h body) trivial
  | configuration body =>
    rw [PutRequest.put, snd_failure]
    exact fitsSchemas_updateConfiguration_iff h body

/-- **After which updates all rows can be read**, unless the request fails and changes nothing. -/
theorem put_fitsSchemas_iff (hashPassword : String → Option String) (h : db.FitsSchemas)
    (request : PutRequest) :
    ((request.put hmac hashPassword now authorization db).1 ≠ none ∧
        (request.put hmac hashPassword now authorization db).2 = db ∨
      (request.put hmac hashPassword now authorization db).2.FitsSchemas) ↔
      request.KeepsLists hmac now authorization db := by
  rw [← fitsSchemas_put_iff hashPassword h]
  constructor
  · rintro (⟨-, hsame⟩ | hr)
    · rw [hsame]
      exact h
    · exact hr
  · exact .inr

/-- **In which runs of updates all rows can be read** throughout; a request comes with its header
and its time. -/
theorem run_fitsSchemas_iff (hashPassword : String → Option String) (h : db.FitsSchemas)
    {requests : List (String × ℕ × PutRequest)} :
    Run.Always (fun e db => (e.2.2.put hmac hashPassword e.2.1 e.1 db).2) Database.FitsSchemas
        requests db ↔
      Run.Throughout (fun e db => (e.2.2.put hmac hashPassword e.2.1 e.1 db).2)
        (fun e db => e.2.2.KeepsLists hmac e.2.1 e.1 db) requests db := by
  refine Run.always_iff (I := fun _ => True) (A := fun _ _ => True) (fun _ _ => id)
    (fun e _ _ _ h => fitsSchemas_put_iff hashPassword h e.2.2) trivial h ?_
  exact Run.throughout_of_forall fun _ _ => trivial

end FitsSchemas

/-! A user sets `allowed_ips` of the one device to null. -/

def davesLaptop : Device where
  id := ⟨0x1ab, by decide⟩
  name := "laptop"
  publicKey := "pk1"
  presharedKey := none
  ipv4 := some "10.3.2.2"
  ipv6 := none
  allowedSubnets := []
  userId := dave.id

def davesRows : Database :=
  { daveIs dave with
    devices := [davesLaptop]
    apiTokens := [⟨⟨0x70c, by decide⟩, "token", none, dave.id⟩] }

def nullIps : PutRequest := .device davesLaptop.id { allowedIps := some none }

def rename : PutRequest := .device davesLaptop.id { name := some (some "notebook") }

lemma fitsSchemas_davesRows : davesRows.FitsSchemas where
  devices := by decide
  rules := by decide
  users := by decide
  configuration := by decide

/-- **The list of devices cannot be read any more.** -/
theorem put_not_fitsSchemas :
    ¬ ((nullIps.put id (fun _ => none) 0 "Bearer token" davesRows).1 ≠ none ∧
        (nullIps.put id (fun _ => none) 0 "Bearer token" davesRows).2 = davesRows ∨
      (nullIps.put id (fun _ => none) 0 "Bearer token" davesRows).2.FitsSchemas) := by
  rintro (⟨-, hsame⟩ | hr)
  · exact absurd hsame (by decide)
  · exact hr.devices { davesLaptop with allowedIps := none } (by decide) rfl

theorem put_fitsSchemas_iff_rename :
    (rename.put id (fun _ => none) 0 "Bearer token" davesRows).1 ≠ none ∧
        (rename.put id (fun _ => none) 0 "Bearer token" davesRows).2 = davesRows ∨
      (rename.put id (fun _ => none) 0 "Bearer token" davesRows).2.FitsSchemas := by
  refine (put_fitsSchemas_iff _ fitsSchemas_davesRows rename).2 fun _ _ _ _ _ _ _ _ hnulls => ?_
  rcases hnulls with hips | hdns
  · cases hips
  · cases hdns

end Api

end WireGui
