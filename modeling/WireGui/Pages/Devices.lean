import WireGui.Api.DeviceRequests

/-!
# `pages/devices.py`

The pages `/devices` and `/devices/{device_id}`, which stay open while requests come in over the API
and from other pages.  The second one looks only once, when it is loaded, whose device it is.
`run_confined` says what users who are no admins can see and change, whatever they do.
-/

namespace WireGui

/-! ### The forms -/

/-- The fields of the dialogs for a new device and of the form of a device. -/
structure DeviceForm where
  name : String
  description : String
  useDefaultAllowedIps : Bool
  useDefaultDns : Bool
  useDefaultEndpoint : Bool
  useDefaultMtu : Bool
  useDefaultPersistentKeepalive : Bool
  endpoint : String
  dns : String
  mtu : String
  persistentKeepalive : String
  allowedIps : String

/-- `value or None`. -/
def orNone (s : String) : Option String := if s = "" then none else some s

/-- The parts between commas that are not blank. -/
def splitList (s : String) : List String :=
  ((s.toList.splitOn ',').map fun part => strip (String.ofList part)).filter (· ≠ "")

/-- `int(value) if value else None`; `none` is a `ValueError`. -/
def intOrNone (s : String) : Option (Option ℤ) := if s = "" then some none else (readInt s).map some

/-- The number, unless the default is used. -/
def intUnless (useDefault : Bool) (before : Option ℤ) (s : String) : Option (Option ℤ) :=
  if useDefault then some before else intOrNone s

/-- The row that `create_device` makes; `none` if the name is blank, a number cannot be read, no
address is left or the database does not take it. -/
def DeviceForm.device (settings : Settings) (now : ℕ) (form : DeviceForm) (drawn : Drawn)
    (userId : Uuid) (db : Database) : Option Device := do
  let name := strip form.name
  if name = "" then none else
  let device ← newDevice settings db drawn.draws {
    id := drawn.id
    name := name
    publicKey := drawn.publicKey
    presharedKey := some drawn.presharedKey
    userId := userId }
  let mtu ← intUnless form.useDefaultMtu none form.mtu
  let persistentKeepalive ←
    intUnless form.useDefaultPersistentKeepalive none form.persistentKeepalive
  db.taken { device with
    description := orNone (strip form.description)
    useDefaultAllowedIps := form.useDefaultAllowedIps
    useDefaultDns := form.useDefaultDns
    useDefaultEndpoint := form.useDefaultEndpoint
    useDefaultMtu := form.useDefaultMtu
    useDefaultPersistentKeepalive := form.useDefaultPersistentKeepalive
    endpoint := if form.useDefaultEndpoint then none else orNone (strip form.endpoint)
    dns := some (if form.useDefaultDns then [] else splitList form.dns)
    mtu := mtu
    persistentKeepalive := persistentKeepalive
    allowedIps := some (if form.useDefaultAllowedIps then [] else splitList form.allowedIps)
    insertedAt := now
    updatedAt := now }

/-- The row after `save_edit`, before it is committed; `none` is a `ValueError`. -/
def DeviceForm.applyTo (form : DeviceForm) (d : Device) : Option Device := do
  let mtu ← intUnless form.useDefaultMtu d.mtu form.mtu
  let persistentKeepalive ←
    intUnless form.useDefaultPersistentKeepalive d.persistentKeepalive form.persistentKeepalive
  return { d with
    name := strip form.name
    description := orNone (strip form.description)
    useDefaultAllowedIps := form.useDefaultAllowedIps
    useDefaultDns := form.useDefaultDns
    useDefaultEndpoint := form.useDefaultEndpoint
    useDefaultMtu := form.useDefaultMtu
    useDefaultPersistentKeepalive := form.useDefaultPersistentKeepalive
    endpoint := if form.useDefaultEndpoint then d.endpoint else orNone (strip form.endpoint)
    dns := if form.useDefaultDns then d.dns else some (splitList form.dns)
    mtu := mtu
    persistentKeepalive := persistentKeepalive
    allowedIps := if form.useDefaultAllowedIps then d.allowedIps else some (splitList form.allowedIps) }

/-! ### The handlers -/

/-- An open page, with the login it was loaded for. -/
inductive DevicePage where
  | devices (user : Account)
  | detail (user : Account) (deviceId : Uuid)
  deriving DecidableEq

def DevicePage.user : DevicePage → Account
  | .devices user => user
  | .detail user _ => user

/-- The device that the page is about. -/
def DevicePage.deviceId : DevicePage → Option Uuid
  | .devices _ => none
  | .detail _ deviceId => some deviceId

/-- What `device_detail_page` shows when it is loaded; `none` is "Device not found". -/
def deviceDetailPage (user : Account) (deviceId : Uuid) (db : Database) : Option Device :=
  (db.device deviceId).filter fun device => ¬ (device.userId ≠ user.id ∧ user.role ≠ "admin")

/-- `create_device` of the page `/devices`, with the rows that are shown then. -/
def DevicesPage.createDevice (settings : Settings) (now : ℕ) (form : DeviceForm) (drawn : Drawn)
    (userId : Uuid) (db : Database) : List Device × Database :=
  match form.device settings now drawn userId db with
  | none => ([], db)
  | some device =>
    let db := { db with devices := db.devices ++ [device] }
    (device :: db.userDevices userId, db)

/-- `delete_device` of the page `/devices`. -/
def DevicesPage.deleteDevice (deviceId userId : Uuid) (db : Database) : Database :=
  match db.device deviceId with
  | none => db
  | some device => if device.userId = userId then db.eraseDevice deviceId else db

def DeviceDetailPage.saveEdit (form : DeviceForm) (deviceId : Uuid) (db : Database) : Database :=
  match db.device deviceId with
  | none => db
  | some d =>
    match (form.applyTo d).filter fun d => d.Storable with
    | none => db
    | some d' => db.setDevice d'

def DeviceDetailPage.deleteAndRedirect (deviceId : Uuid) (db : Database) : Database :=
  match db.device deviceId with
  | none => db
  | some _ => db.eraseDevice deviceId

inductive PageAction where
  | refreshTable
  | createDevice (form : DeviceForm) (drawn : Drawn) (now : ℕ)
  | deleteDevice (deviceId : Uuid)
  | saveEdit (form : DeviceForm)
  | deleteAndRedirect
  | refreshStats

/-- **One action**: the rows that are shown, and the database. -/
def PageAction.handle (settings : Settings) (action : PageAction) (page : DevicePage)
    (db : Database) : List Device × Database :=
  match page, action with
  | .devices user, .refreshTable => (db.userDevices user.id, db)
  | .devices user, .createDevice form drawn now =>
    DevicesPage.createDevice settings now form drawn user.id db
  | .devices user, .deleteDevice deviceId =>
    let db := DevicesPage.deleteDevice deviceId user.id db
    (db.userDevices user.id, db)
  | .detail _ deviceId, .saveEdit form => ([], DeviceDetailPage.saveEdit form deviceId db)
  | .detail _ deviceId, .deleteAndRedirect => ([], DeviceDetailPage.deleteAndRedirect deviceId db)
  | .detail _ deviceId, .refreshStats => ((db.device deviceId).toList, db)
  | _, _ => ([], db)

/-- What the action writes. -/
def PageAction.write (settings : Settings) (action : PageAction) (page : DevicePage)
    (db : Database) : Option DeviceWrite :=
  match page, action with
  | .devices user, .createDevice form drawn now =>
    (form.device settings now drawn user.id db).map .insert
  | .devices user, .deleteDevice deviceId =>
    ((db.device deviceId).filter (·.userId = user.id)).map fun _ => .erase deviceId
  | .detail _ deviceId, .saveEdit form =>
    (db.device deviceId).bind fun d => ((form.applyTo d).filter fun d => d.Storable).map .put
  | .detail _ deviceId, .deleteAndRedirect => (db.device deviceId).map fun _ => .erase deviceId
  | _, _ => none

/-! ### Requests and pages -/

/-- The database and the pages that are open. -/
structure DeviceSite where
  db : Database
  pages : List DevicePage

inductive SiteEvent where
  | request (authorization : String) (now : ℕ) (request : Api.DeviceRequest)
  | openDevices (user : Account)
  | openDevice (user : Account) (deviceId : Uuid)
  | onPage (page : ℕ) (action : PageAction)

/-- The rows that an event returns or shows. -/
structure Shown where
  returned : List DeviceRead := []
  displayed : List Device := []
  deriving DecidableEq

def Shown.Of (u : Uuid) (shown : Shown) : Prop :=
  (∀ row ∈ shown.returned, row.userId = u) ∧ ∀ d ∈ shown.displayed, d.userId = u

section Events

variable (settings : Settings) (hmac : String → String)

def SiteEvent.step (e : SiteEvent) (s : DeviceSite) : Shown × DeviceSite :=
  match e with
  | .request authorization now req =>
    let (rows, db) := req.handle settings hmac now authorization s.db
    ({ returned := rows }, { s with db := db })
  | .openDevices user =>
    ({ displayed := s.db.userDevices user.id }, { s with pages := s.pages ++ [.devices user] })
  | .openDevice user deviceId =>
    match deviceDetailPage user deviceId s.db with
    | none => ({}, s)
    | some device =>
      ({ displayed := [device] }, { s with pages := s.pages ++ [.detail user deviceId] })
  | .onPage i action =>
    match s.pages[i]? with
    | none => ({}, s)
    | some page =>
      let (rows, db) := action.handle settings page s.db
      ({ displayed := rows }, { s with db := db })

def SiteEvent.next (e : SiteEvent) (s : DeviceSite) : DeviceSite := (e.step settings hmac s).2

/-- Who sends the request, or has opened the page. -/
def SiteEvent.actor (e : SiteEvent) (s : DeviceSite) : Option Account :=
  match e with
  | .request authorization now _ =>
    (getCurrentApiUser hmac now s.db authorization).toOption.map fun caller =>
      ⟨caller.id, caller.role⟩
  | .openDevices user | .openDevice user _ => some user
  | .onPage i _ => s.pages[i]?.map DevicePage.user

/-- Nobody who acts is an admin, in the database or in the login. -/
def SiteEvent.Unprivileged (e : SiteEvent) (s : DeviceSite) : Prop :=
  ∀ user ∈ e.actor hmac s, user.role ≠ "admin"

/-- The id that is drawn for a new device. -/
def SiteEvent.drawn : SiteEvent → Option Uuid
  | .request _ _ (.create _ drawn) => some drawn.id
  | .onPage _ (.createDevice _ drawn _) => some drawn.id
  | _ => none

/-- A new id is not that of a device whose page is open. -/
def SiteEvent.Fresh (e : SiteEvent) (s : DeviceSite) : Prop :=
  ∀ id ∈ e.drawn, ∀ page ∈ s.pages, page.deviceId ≠ some id

/-- **The user sees and changes own devices only**; who is nobody sees and changes nothing. -/
def SiteEvent.Confined (e : SiteEvent) (s : DeviceSite) : Prop :=
  match e.actor hmac s with
  | none => (e.step settings hmac s).1 = {} ∧ (e.step settings hmac s).2.db = s.db
  | some user => (e.step settings hmac s).1.Of user.id ∧
      OwnRowsOnly user.id s.db (e.step settings hmac s).2.db

/-- What an event writes. -/
def SiteEvent.write (e : SiteEvent) (s : DeviceSite) : Option DeviceWrite :=
  match e with
  | .request authorization now req =>
    (getCurrentApiUser hmac now s.db authorization).toOption.bind (req.write settings now s.db)
  | .openDevices _ | .openDevice _ _ => none
  | .onPage i action => s.pages[i]?.bind fun page => action.write settings page s.db

end Events

/-- The page of a device is open only for those whose device it is, while there is one. -/
def DeviceSite.PagesOwn (s : DeviceSite) : Prop :=
  ∀ user deviceId, .detail user deviceId ∈ s.pages →
    ∀ d ∈ s.db.devices, d.id = deviceId → d.userId = user.id

/-! ### One event -/

section Step

variable {settings : Settings} {hmac : String → String} {now : ℕ} {form : DeviceForm} {drawn : Drawn}
  {u deviceId : Uuid} {db : Database} {d d' : Device} {page : DevicePage} {action : PageAction}
  {e : SiteEvent} {s : DeviceSite} {user : Account}

/-- The row that the form of a new device makes. -/
lemma DeviceForm.device_eq_some (h : form.device settings now drawn u db = some d) :
    d.id = drawn.id ∧ d.userId = u ∧ d.publicKey = drawn.publicKey ∧ d.allowedSubnets = [] ∧
      db.Accepts d := by
  unfold DeviceForm.device at h
  dsimp only at h
  split at h
  · cases h
  · obtain ⟨base, hbase, h⟩ := Option.bind_eq_some_iff.1 h
    obtain ⟨mtu, -, h⟩ := Option.bind_eq_some_iff.1 h
    obtain ⟨keepalive, -, h⟩ := Option.bind_eq_some_iff.1 h
    obtain ⟨rfl, -, haccepts⟩ := taken_eq_some_iff.1 h
    obtain ⟨ipv4, ipv6, subnets, hsub, rfl⟩ := newDevice_eq_some hbase
    have hnone : parseSubnetList "" = some [] := rfl
    exact ⟨rfl, rfl, rfl, (Option.some.inj (hnone.symm.trans hsub)).symm, haccepts⟩

/-- An edit changes none of the columns that the form does not have. -/
lemma DeviceForm.applyTo_eq_some (h : form.applyTo d = some d') :
    d'.id = d.id ∧ d.SameIdentity d' := by
  unfold DeviceForm.applyTo at h
  obtain ⟨mtu, -, h⟩ := Option.bind_eq_some_iff.1 h
  obtain ⟨keepalive, -, h⟩ := Option.bind_eq_some_iff.1 h
  obtain rfl := Option.some.inj h
  exact ⟨rfl, rfl, rfl, rfl, rfl, rfl, rfl⟩

lemma DevicesPage.snd_createDevice :
    (DevicesPage.createDevice settings now form drawn u db).2 =
      db.write ((form.device settings now drawn u db).map .insert) := by
  unfold DevicesPage.createDevice
  cases form.device settings now drawn u db with
  | none => rfl
  | some d => rfl

lemma DevicesPage.deleteDevice_eq :
    DevicesPage.deleteDevice deviceId u db =
      db.write (((db.device deviceId).filter (·.userId = u)).map fun _ => .erase deviceId) := by
  unfold DevicesPage.deleteDevice
  cases db.device deviceId with
  | none => rfl
  | some d =>
    dsimp only
    rw [Option.filter_some]
    split_ifs with hu hu' hu'
    · rfl
    · exact absurd (decide_eq_true hu) hu'
    · exact absurd (of_decide_eq_true hu') hu
    · rfl

lemma DeviceDetailPage.saveEdit_eq :
    DeviceDetailPage.saveEdit form deviceId db =
      db.write ((db.device deviceId).bind fun d =>
        ((form.applyTo d).filter fun d => d.Storable).map .put) := by
  unfold DeviceDetailPage.saveEdit
  cases db.device deviceId with
  | none => rfl
  | some d =>
    dsimp only
    rw [Option.bind_some]
    cases (form.applyTo d).filter fun d => d.Storable with
    | none => rfl
    | some d' => rfl

lemma DeviceDetailPage.deleteAndRedirect_eq :
    DeviceDetailPage.deleteAndRedirect deviceId db =
      db.write ((db.device deviceId).map fun _ => .erase deviceId) := by
  unfold DeviceDetailPage.deleteAndRedirect
  cases db.device deviceId with
  | none => rfl
  | some d => rfl

/-- **What an action on a page leaves.** -/
lemma PageAction.snd_handle :
    (action.handle settings page db).2 = db.write (action.write settings page db) := by
  cases page with
  | devices user =>
    cases action with
    | createDevice form drawn now => exact DevicesPage.snd_createDevice
    | deleteDevice deviceId => exact DevicesPage.deleteDevice_eq
    | refreshTable | saveEdit form | deleteAndRedirect | refreshStats => rfl
  | detail user deviceId =>
    cases action with
    | saveEdit form => exact DeviceDetailPage.saveEdit_eq
    | deleteAndRedirect => exact DeviceDetailPage.deleteAndRedirect_eq
    | refreshTable | createDevice form drawn now | deleteDevice id | refreshStats => rfl

/-- **What an event leaves.** -/
lemma SiteEvent.db_step :
    (e.step settings hmac s).2.db = s.db.write (e.write settings hmac s) := by
  unfold SiteEvent.step SiteEvent.write
  cases e with
  | request authorization now request =>
    dsimp only
    rw [Api.snd_handle]
    cases getCurrentApiUser hmac now s.db authorization with
    | error e => rfl
    | ok caller => rfl
  | openDevices user => rfl
  | openDevice user deviceId =>
    dsimp only
    cases deviceDetailPage user deviceId s.db with
    | none => rfl
    | some d => rfl
  | onPage i action =>
    dsimp only
    cases s.pages[i]? with
    | none => rfl
    | some page => exact PageAction.snd_handle

/-- What an action on a page writes is about the devices of its user. -/
lemma PageAction.by_write (hpages : s.PagesOwn) (hpage : page ∈ s.pages) :
    ∀ w ∈ action.write settings page s.db, w.By page.user.id s.db := by
  intro w hw
  unfold PageAction.write at hw
  split at hw
  · obtain ⟨d, hd, rfl⟩ := Option.map_eq_some_iff.1 hw
    obtain ⟨-, hu, -, hsub, haccepts⟩ := DeviceForm.device_eq_some hd
    exact ⟨hu, hsub, fun e he => (haccepts.2 e he).1⟩
  · obtain ⟨d, hd, rfl⟩ := Option.map_eq_some_iff.1 hw
    obtain ⟨hd, hu⟩ := Option.filter_eq_some_iff.1 hd
    obtain ⟨hmem, hid⟩ := device_eq_some hd
    exact ⟨d, hmem, hid, of_decide_eq_true hu⟩
  · obtain ⟨d, hd, hw⟩ := Option.bind_eq_some_iff.1 hw
    obtain ⟨d', hd', rfl⟩ := Option.map_eq_some_iff.1 hw
    obtain ⟨hmem, hid⟩ := device_eq_some hd
    obtain ⟨hid', hsame⟩ := DeviceForm.applyTo_eq_some (Option.filter_eq_some_iff.1 hd').1
    exact ⟨d, hmem, hid'.symm, hpages _ _ hpage d hmem hid, hsame⟩
  · obtain ⟨d, hd, rfl⟩ := Option.map_eq_some_iff.1 hw
    obtain ⟨hmem, hid⟩ := device_eq_some hd
    exact ⟨d, hmem, hid, hpages _ _ hpage d hmem hid⟩
  · cases hw

/-- So are the rows that it shows. -/
lemma PageAction.userId_of_mem_handle (hpages : s.PagesOwn) (hpage : page ∈ s.pages)
    (h : d ∈ (action.handle settings page s.db).1) : d.userId = page.user.id := by
  have htable : ∀ {db : Database} {u : Uuid}, d ∈ db.userDevices u → d.userId = u := fun h =>
    of_decide_eq_true (List.mem_filter.1 h).2
  unfold PageAction.handle at h
  split at h
  · exact htable h
  · unfold DevicesPage.createDevice at h
    split at h
    · cases h
    next d' hd' =>
      rcases List.mem_cons.1 h with rfl | h
      · exact (DeviceForm.device_eq_some hd').2.1
      · exact htable h
  · exact htable h
  · cases h
  · cases h
  · obtain ⟨hmem, hid⟩ := device_eq_some (Option.mem_toList.1 h)
    exact hpages _ _ hpage d hmem hid
  · cases h

/-- Whoever sends a request. -/
lemma SiteEvent.actor_request {authorization : String} {caller : User} (req : Api.DeviceRequest)
    (h : (getCurrentApiUser hmac now s.db authorization).toOption = some caller) :
    (SiteEvent.request authorization now req).actor hmac s = some ⟨caller.id, caller.role⟩ := by
  unfold SiteEvent.actor
  dsimp only
  rw [h]
  rfl

/-- **What an event writes** is about the devices of who acts. -/
lemma SiteEvent.by_write (hpages : s.PagesOwn) (hun : e.Unprivileged hmac s) :
    ∀ w ∈ e.write settings hmac s, ∃ user, e.actor hmac s = some user ∧ w.By user.id s.db := by
  intro w hw
  cases e with
  | request authorization now req =>
    obtain ⟨caller, hcaller, hw⟩ := Option.bind_eq_some_iff.1 hw
    have hactor := actor_request req hcaller
    exact ⟨_, hactor, Api.by_write (hun _ hactor) w hw⟩
  | openDevices user => cases hw
  | openDevice user deviceId => cases hw
  | onPage i action =>
    obtain ⟨page, hpage, hw⟩ := Option.bind_eq_some_iff.1 hw
    refine ⟨page.user, ?_, PageAction.by_write hpages (List.mem_of_getElem? hpage) w hw⟩
    unfold SiteEvent.actor
    dsimp only
    rw [hpage]
    rfl

/-- **Whose rows an event shows**: those of who acts. -/
lemma SiteEvent.shown_of (hpages : s.PagesOwn) (hun : e.Unprivileged hmac s) :
    (e.actor hmac s = none → (e.step settings hmac s).1 = {}) ∧
      ∀ user ∈ e.actor hmac s, (e.step settings hmac s).1.Of user.id := by
  cases e with
  | request authorization now req =>
    unfold SiteEvent.step
    dsimp only
    have hrows : ∀ row ∈ (req.handle settings hmac now authorization s.db).1,
        ∃ user, (SiteEvent.request authorization now req).actor hmac s = some user ∧
          row.userId = user.id := by
      intro row hrow
      obtain ⟨caller, hcaller, hown⟩ := Api.userId_of_mem_handle hrow
      have hactor := actor_request req (toOption_eq_some_iff.2 hcaller)
      exact ⟨_, hactor, hown (hun _ hactor)⟩
    refine ⟨fun hnobody => ?_, fun user hu => ⟨fun row hrow => ?_, fun d hd => (by cases hd)⟩⟩
    · have hnil : (req.handle settings hmac now authorization s.db).1 = [] := by
        refine List.eq_nil_iff_forall_not_mem.2 fun row hrow => ?_
        obtain ⟨user, hu, -⟩ := hrows row hrow
        rw [hnobody] at hu
        cases hu
      rw [hnil]
    · obtain ⟨user', hu', hown⟩ := hrows row hrow
      rw [hu] at hu'
      cases hu'
      exact hown
  | openDevices user =>
    refine ⟨fun h => (by cases h), fun user' hu => ⟨fun row hrow => (by cases hrow), fun d hd => ?_⟩⟩
    cases hu
    exact of_decide_eq_true (List.mem_filter.1 hd).2
  | openDevice user deviceId =>
    refine ⟨fun h => (by cases h), fun user' hu => ?_⟩
    cases hu
    unfold SiteEvent.step
    dsimp only
    split
    · exact ⟨fun row hrow => (by cases hrow), fun d hd => (by cases hd)⟩
    next d hd =>
      refine ⟨fun row hrow => (by cases hrow), fun d' hd' => ?_⟩
      obtain rfl := List.mem_singleton.1 hd'
      have hown := of_decide_eq_true (Option.filter_eq_some_iff.1 hd).2
      by_contra hne
      exact hown ⟨hne, hun _ rfl⟩
  | onPage i action =>
    unfold SiteEvent.step SiteEvent.actor
    dsimp only
    cases hpage : s.pages[i]? with
    | none => exact ⟨fun _ => rfl, fun user hu => (by cases hu)⟩
    | some page =>
      refine ⟨fun h => (by cases h), fun user hu => ⟨fun row hrow => (by cases hrow), fun d hd => ?_⟩⟩
      cases hu
      exact PageAction.userId_of_mem_handle hpages (List.mem_of_getElem? hpage) hd

/-- **One event** of somebody who is no admin. -/
lemma SiteEvent.confined (hids : (s.db.devices.map Device.id).Nodup) (hpages : s.PagesOwn)
    (hun : e.Unprivileged hmac s) : e.Confined settings hmac s := by
  have hby : ∀ w ∈ e.write settings hmac s, _ := by_write hpages hun
  have hrows : (e.actor hmac s = none → (e.step settings hmac s).1 = {}) ∧ _ :=
    shown_of hpages hun
  obtain ⟨hnobody, hshown⟩ := hrows
  unfold SiteEvent.Confined
  rw [db_step]
  cases hactor : e.actor hmac s with
  | none =>
    refine ⟨hnobody hactor, ?_⟩
    cases hw : e.write settings hmac s with
    | none => rfl
    | some w =>
      obtain ⟨user, hu, -⟩ := hby w hw
      rw [hactor] at hu
      cases hu
  | some user =>
    refine ⟨hshown user hactor, ownRowsOnly_write hids fun w hw => ?_⟩
    obtain ⟨user', hu, hown⟩ := hby w hw
    rw [hactor] at hu
    cases hu
    exact hown

/-- The row that an event inserts has the id that was drawn for it. -/
lemma SiteEvent.drawn_of_insert (hw : e.write settings hmac s = some (.insert d)) :
    e.drawn = some d.id := by
  cases e with
  | request authorization now req =>
    obtain ⟨caller, -, hw⟩ := Option.bind_eq_some_iff.1 hw
    cases req with
    | create body drawn =>
      obtain ⟨d', hd', hdd⟩ := Option.map_eq_some_iff.1 hw
      obtain rfl := DeviceWrite.insert.inj hdd
      exact congrArg some (body.device_eq_some hd').1.symm
    | update id body =>
      obtain ⟨row, -, hput⟩ := Option.bind_eq_some_iff.1 hw
      obtain ⟨row', -, hne⟩ := Option.map_eq_some_iff.1 hput
      cases hne
    | delete id =>
      obtain ⟨row, -, hne⟩ := Option.map_eq_some_iff.1 hw
      cases hne
    | list | get id => cases hw
  | openDevices user => cases hw
  | openDevice user deviceId => cases hw
  | onPage i action =>
    obtain ⟨page, hpage, hw⟩ := Option.bind_eq_some_iff.1 hw
    unfold PageAction.write at hw
    split at hw
    · obtain ⟨d', hd', hdd⟩ := Option.map_eq_some_iff.1 hw
      obtain rfl := DeviceWrite.insert.inj hdd
      exact congrArg some (DeviceForm.device_eq_some hd').1.symm
    · obtain ⟨row, -, hne⟩ := Option.map_eq_some_iff.1 hw
      cases hne
    · obtain ⟨row, -, hput⟩ := Option.bind_eq_some_iff.1 hw
      obtain ⟨row', -, hne⟩ := Option.map_eq_some_iff.1 hput
      cases hne
    · obtain ⟨row, -, hne⟩ := Option.map_eq_some_iff.1 hw
      cases hne
    · cases hw

/-- The page of a device that is open after an event was open before, or it is loaded now. -/
lemma SiteEvent.mem_pages_next
    (hpage : .detail user deviceId ∈ (e.next settings hmac s).pages) :
    .detail user deviceId ∈ s.pages ∨
      e = .openDevice user deviceId ∧ deviceDetailPage user deviceId s.db ≠ none := by
  unfold SiteEvent.next SiteEvent.step at hpage
  cases e with
  | request authorization now req => exact .inl hpage
  | openDevices user' =>
    rcases List.mem_append.1 hpage with h | h
    · exact .inl h
    · cases List.mem_singleton.1 h
  | openDevice user' deviceId' =>
    dsimp only at hpage
    split at hpage
    · exact .inl hpage
    next d hd =>
      rcases List.mem_append.1 hpage with h | h
      · exact .inl h
      · cases List.mem_singleton.1 h
        exact .inr ⟨rfl, by simp [hd]⟩
  | onPage i action =>
    dsimp only at hpage
    split at hpage
    · exact .inl hpage
    · exact .inl hpage

/-- A device whose page is loaded by somebody who is no admin is that user's. -/
lemma userId_of_deviceDetailPage (hids : (db.devices.map Device.id).Nodup)
    (hrole : user.role ≠ "admin") (hopen : deviceDetailPage user deviceId db ≠ none)
    (hd : d ∈ db.devices) (hid : d.id = deviceId) : d.userId = user.id := by
  obtain ⟨d', hd'⟩ := Option.ne_none_iff_exists'.1 hopen
  obtain ⟨hrow, hallowed⟩ := Option.filter_eq_some_iff.1 hd'
  obtain ⟨hmem, hid'⟩ := device_eq_some hrow
  obtain rfl := List.inj_on_of_nodup_map hids hd hmem (hid.trans hid'.symm)
  by_contra hne
  exact of_decide_eq_true hallowed ⟨hne, hrole⟩

/-- **Each event** leaves the page of a device to those whose device it is. -/
lemma SiteEvent.pagesOwn (hids : (s.db.devices.map Device.id).Nodup) (hpages : s.PagesOwn)
    (hun : e.Unprivileged hmac s) (hfresh : e.Fresh s) : (e.next settings hmac s).PagesOwn := by
  intro user deviceId hpage d hd hid
  unfold SiteEvent.next at hd
  rw [db_step] at hd
  rcases mem_pages_next hpage with hpage | ⟨rfl, hopen⟩
  · cases hw : e.write settings hmac s with
    | none =>
      rw [hw] at hd
      exact hpages user deviceId hpage d hd hid
    | some w =>
      obtain ⟨user', -, hby⟩ := by_write hpages hun w hw
      rw [hw] at hd
      cases w with
      | insert d' =>
        rcases List.mem_append.1 hd with hd | hd
        · exact hpages user deviceId hpage d hd hid
        · cases List.mem_singleton.1 hd
          cases hid
          exact absurd rfl (hfresh _ (drawn_of_insert hw) _ hpage)
      | put d' =>
        obtain ⟨row, hrow, hrowid, -, hsame⟩ := hby
        rcases (mem_setDevice_iff ⟨row, hrow, hrowid⟩).1 hd with rfl | ⟨hd, -⟩
        · rw [hsame.userId]
          exact hpages user deviceId hpage row hrow (hrowid.trans hid)
        · exact hpages user deviceId hpage d hd hid
      | erase id => exact hpages user deviceId hpage d (mem_eraseDevice_iff.1 hd).1 hid
  · exact userId_of_deviceDetailPage hids (hun _ rfl) hopen hd hid

/-- **What users who are no admins see and change**, over the API and on the pages, in any order. -/
theorem run_confined (hids : (db.devices.map Device.id).Nodup) (events : List SiteEvent)
    (hun : Run.Throughout (SiteEvent.next settings hmac) (SiteEvent.Unprivileged hmac) events
      ⟨db, []⟩)
    (hfresh : Run.Throughout (SiteEvent.next settings hmac) SiteEvent.Fresh events ⟨db, []⟩) :
    Run.Throughout (SiteEvent.next settings hmac) (SiteEvent.Confined settings hmac) events
      ⟨db, []⟩ := by
  have hstart : DeviceSite.PagesOwn ⟨db, []⟩ := fun user deviceId hpage => by cases hpage
  have halways : Run.Always (SiteEvent.next settings hmac)
      (fun s => (s.db.devices.map Device.id).Nodup ∧ s.PagesOwn) events ⟨db, []⟩ := by
    refine Run.always_of_step (fun e s hs ha => ⟨?_, ?_⟩) ⟨hids, hstart⟩ (hun.and hfresh)
    · unfold SiteEvent.next
      rw [SiteEvent.db_step]
      refine nodup_write hs.1 fun w hw => ?_
      obtain ⟨user, -, hby⟩ := SiteEvent.by_write hs.2 ha.1 w hw
      exact ⟨user.id, hby⟩
    · exact SiteEvent.pagesOwn hs.1 hs.2 ha.1 ha.2
  exact (halways.throughout.and hun).imp fun e s hs => SiteEvent.confined hs.1.1 hs.1.2 hs.2

end Step

/-! A user opens the page of a device, edits it and deletes it. -/

instance (hmac : String → String) (e : SiteEvent) (s : DeviceSite) :
    Decidable (e.Unprivileged hmac s) := by
  unfold SiteEvent.Unprivileged; infer_instance

instance (e : SiteEvent) (s : DeviceSite) : Decidable (e.Fresh s) := by
  unfold SiteEvent.Fresh; infer_instance

def notebookForm : DeviceForm where
  name := "notebook"
  description := ""
  useDefaultAllowedIps := true
  useDefaultDns := true
  useDefaultEndpoint := true
  useDefaultMtu := false
  useDefaultPersistentKeepalive := true
  endpoint := ""
  dns := ""
  mtu := "1380"
  persistentKeepalive := ""
  allowedIps := ""

def editAndDelete : List SiteEvent :=
  [.openDevice ⟨dave.id, "unprivileged"⟩ Api.davesLaptop.id, .onPage 0 (.saveEdit notebookForm),
    .onPage 0 .deleteAndRedirect]

example : (Run.final (SiteEvent.next defaultSettings id) (editAndDelete.take 2)
    ⟨Api.davesRows, []⟩).db.devices.map (fun d => (d.name, d.mtu)) = [("notebook", some 1380)] := by
  decide

theorem run_confined_editAndDelete :
    Run.Throughout (SiteEvent.next defaultSettings id) (SiteEvent.Confined defaultSettings id)
      editAndDelete ⟨Api.davesRows, []⟩ :=
  run_confined (by decide) editAndDelete (by decide) (by decide)

end WireGui
