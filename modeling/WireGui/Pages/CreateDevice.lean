import WireGui.Lib.Raise
import WireGui.Pages.Devices
import WireGui.Utils.WgConf

/-!
# `create_device` of the two device pages

The handlers commit in the middle, and what they do then may fail, too: all of it is under one
`except`.  `createDevice_iff` says when a device is created as a whole or not at all.
-/

namespace WireGui

/-! ### The forms -/

/-- The form of the admin page.  The owner is selected among the users. -/
structure AdminDeviceForm extends DeviceForm where
  owner : Option Uuid
  allowedSubnets : String

/-- The row that the admin page makes for an owner; `none` if an entry cannot be read, no address is
left or the database does not take it. -/
def AdminDeviceForm.device (settings : Settings) (now : ℕ) (form : AdminDeviceForm) (drawn : Drawn)
    (ownerId : Uuid) (db : Database) : Option Device := do
  let device ← newDevice settings db drawn.draws {
    id := drawn.id
    name := strip form.name
    publicKey := drawn.publicKey
    presharedKey := some drawn.presharedKey
    subnets := form.allowedSubnets
    userId := ownerId }
  let mtu ← intUnless form.useDefaultMtu none form.mtu
  let persistentKeepalive ←
    intUnless form.useDefaultPersistentKeepalive none form.persistentKeepalive
  db.taken { device with
    description := orNone (strip form.description)
    useDefaultAllowedIps := form.useDefaultAllowedIps
    useDefaultDns := form.useDefaultDns
    useDefaultEndpoint := form.useDefaultEndpoint
    useDefaultMtu := form.useDefaultMtu
    useDefaultPersistentKeepalive := form.useDefaultPersistentKeepalive
    endpoint := if form.useDefaultEndpoint then none else orNone (strip form.endpoint)
    dns := some (if form.useDefaultDns then [] else splitList form.dns)
    mtu := mtu
    persistentKeepalive := persistentKeepalive
    allowedIps := some (if form.useDefaultAllowedIps then [] else splitList form.allowedIps)
    insertedAt := now
    updatedAt := now }

/-- The form of either page, which is submitted. -/
inductive NewDeviceForm where
  | user (form : DeviceForm) (userId : Uuid)
  | admin (form : AdminDeviceForm)

/-- What the handler says if a field that it needs is empty. -/
def NewDeviceForm.missing : NewDeviceForm → Option String
  | .user form _ => if strip form.name = "" then some "Device name is required" else none
  | .admin form =>
    if strip form.name = "" ∨ form.owner = none then some "Name and user are required" else none

def NewDeviceForm.device (settings : Settings) (now : ℕ) (drawn : Drawn) (db : Database) :
    NewDeviceForm → Option Device
  | .user form userId => form.device settings now drawn userId db
  | .admin form => form.owner.bind fun ownerId => form.device settings now drawn ownerId db

/-! ### The handlers -/

/-- What a step raises. -/
inductive Raised where
  | runtimeError (message : String)
  | exception (message : String)
  /-- One that is no `Exception`, such as `CancelledError`. -/
  | base
  deriving DecidableEq

/-- The text of an `Exception`. -/
def Raised.message : Raised → Option String
  | .runtimeError message | .exception message => some message
  | .base => none

/-- The steps of `create_device`.  One that raises has done nothing; what raises after its effect is
the next one. -/
inductive CreateStep where
  | getSettings
  | generateKeypair
  | generatePresharedKey
  | allocateIpv4
  | allocateIpv6
  | newDevice
  | commit
  | refresh
  | log
  | getServerPublicKey
  | readConfiguration
  | buildClientConfig
  | closeDialog
  | resetCreateForm
  | refreshTable
  | showConfigDialog
  | createTask
  | notify
  deriving DecidableEq

def CreateStep.toRow : List CreateStep :=
  [.getSettings, .generateKeypair, .generatePresharedKey, .allocateIpv4, .allocateIpv6, .newDevice]

def CreateStep.toCommit : List CreateStep := toRow ++ [.commit]

def CreateStep.toServerKey : List CreateStep := [.refresh, .log, .getServerPublicKey]

def CreateStep.toDialog : List CreateStep :=
  [.readConfiguration, .buildClientConfig, .closeDialog, .resetCreateForm, .refreshTable,
    .showConfigDialog]

def CreateStep.afterCommit : List CreateStep := toServerKey ++ (toDialog ++ [.createTask])

/-- What the handler has done: the database, what the user and the log were told, the names and files
that were shown, and the devices that `on_device_created` was scheduled for. -/
structure CreateState where
  db : Database
  notified : List String := []
  logged : List String := []
  shown : List (String × String) := []
  scheduled : List Device := []
  deriving DecidableEq

/-- What a run of the handler meets: what is drawn and set, and where it is interrupted. -/
structure CreateRun where
  settings : Settings
  clientSettings : ClientSettings
  now : ℕ
  drawn : Drawn
  privateKey : String
  raises : CreateStep → Option Raised
  /-- What Python or the database says if the form makes no row. -/
  refusal : String

def serverKeyMissing : String :=
  "Server WireGuard keypair not configured — run setup or check wg CLI availability"

def getServerPublicKey (config : Option Configuration) : Except Raised String :=
  match truthy (config.bind Configuration.serverPublicKey) with
  | some key => .ok key
  | none => .error (.runtimeError serverKeyMissing)

section Handler

variable (run : CreateRun)

def notify (message : String) : EStateM Raised CreateState Unit := do
  Raise.point (run.raises .notify)
  modify fun s => { s with notified := s.notified ++ [message] }

/-- The part in the first session. -/
def insertDevice (form : NewDeviceForm) : EStateM Raised CreateState Device := do
  Raise.points run.raises CreateStep.toRow
  let s ← get
  match form.device run.settings run.now run.drawn s.db with
  | none => throw (.exception run.refusal)
  | some device =>
    Raise.point (run.raises .commit)
    set { s with db := { s.db with devices := s.db.devices ++ [device] } }
    return device

/-- The part after the commit. -/
def announceDevice (device : Device) : EStateM Raised CreateState Unit := do
  Raise.points run.raises CreateStep.toServerKey
  let s ← get
  match getServerPublicKey s.db.configuration with
  | .error e => throw e
  | .ok serverPublicKey =>
    Raise.points run.raises CreateStep.toDialog
    let configText :=
      buildClientConfig device s.db.configuration run.clientSettings run.privateKey serverPublicKey
    modify fun s => { s with shown := s.shown ++ [(device.name, configText)] }
    Raise.point (run.raises .createTask)
    modify fun s => { s with scheduled := s.scheduled ++ [device] }

/-- `except Exception`; a `RuntimeError` of `notify` is dropped. -/
def reportError (e : Raised) : EStateM Raised CreateState Unit :=
  match e.message with
  | none => throw e
  | some message => do
    modify fun s => { s with logged := s.logged ++ ["Failed to create device: " ++ message] }
    tryCatch (notify run ("Error: " ++ message)) fun
      | .runtimeError _ => pure ()
      | e => throw e

/-- `create_device` of either page. -/
def createDeviceHandler (form : NewDeviceForm) : EStateM Raised CreateState Unit :=
  match form.missing with
  | some message => notify run message
  | none =>
    tryCatch (do
      let device ← insertDevice run form
      announceDevice run device) (reportError run)

/-- What it leaves. -/
def createDeviceLeaves (form : NewDeviceForm) (db : Database) : CreateState :=
  Raise.left (createDeviceHandler run form) { db := db }

end Handler

/-- **All or nothing**: where an error is reported there is no new row, and a new row has its event
scheduled, and its configuration with the private key has been shown. -/
structure AllOrNothing (run : CreateRun) (db : Database) (s : CreateState) : Prop where
  error : s.notified ≠ [] ∨ s.logged ≠ [] → ∀ d ∈ s.db.devices, d ∈ db.devices
  stored : ∀ d ∈ s.db.devices, d ∉ db.devices →
    d.publicKey = run.drawn.publicKey ∧ d ∈ s.scheduled ∧ ∃ serverPublicKey,
      truthy (db.configuration.bind Configuration.serverPublicKey) = some serverPublicKey ∧
        (d.name, buildClientConfig d db.configuration run.clientSettings run.privateKey
          serverPublicKey) ∈ s.shown

/-- The form is complete, its row is taken, and nothing fails up to the commit. -/
def NewDeviceForm.Stored (form : NewDeviceForm) (run : CreateRun) (db : Database) : Prop :=
  form.missing = none ∧ (∀ step ∈ CreateStep.toCommit, run.raises step = none) ∧
    form.device run.settings run.now run.drawn db ≠ none

/-- The server has a key, and nothing fails after the commit. -/
def CreateRun.Undisturbed (run : CreateRun) (db : Database) : Prop :=
  truthy (db.configuration.bind Configuration.serverPublicKey) ≠ none ∧
    ∀ step ∈ CreateStep.afterCommit, run.raises step = none

/-! ### The parts -/

/-- No row is added or taken back, and no event is scheduled. -/
def SameRows (s s' : CreateState) : Prop := s'.db = s.db ∧ s'.scheduled = s.scheduled

section Parts

variable {run : CreateRun} {form : NewDeviceForm} {db : Database} {s : CreateState} {d : Device}

lemma ends_notify {message : String} :
    Raise.Ends (notify run message) s (fun _ => SameRows s) fun _ => SameRows s :=
  .bind (.point (fun _ _ => ⟨rfl, rfl⟩) fun _ => .modify ⟨rfl, rfl⟩)

/-- Reporting an error takes nothing back, and it schedules nothing. -/
lemma ends_reportError (e : Raised) :
    Raise.Ends (reportError run e) s (fun _ => SameRows s) fun _ => SameRows s := by
  unfold reportError
  cases e.message with
  | none => exact .throw ⟨rfl, rfl⟩
  | some message =>
    refine .bind (.modify (.tryCatch (ends_notify.imp (fun _ _ h => h) fun e s' h => ?_)))
    cases e with
    | runtimeError m => exact .pure h
    | exception m => exact .throw h
    | base => exact .throw h

/-- **Up to the commit**: there is a row, or all is as before. -/
lemma ends_insertDevice : Raise.Ends (insertDevice run form) s
    (fun d s' => (∀ step ∈ CreateStep.toCommit, run.raises step = none) ∧
      form.device run.settings run.now run.drawn s.db = some d ∧
      s' = { s with db := { s.db with devices := s.db.devices ++ [d] } })
    (fun _ s' => ¬ form.Stored run s.db ∧ s' = s) := by
  have hraised : ∀ step ∈ CreateStep.toCommit, ∀ e, run.raises step = some e →
      ¬ form.Stored run s.db := fun step hstep e he h => Raise.not_forall_none hstep he h.2.1
  unfold CreateStep.toCommit at hraised
  rw [List.forall_mem_append, List.forall_mem_singleton] at hraised
  refine .bind (.points (fun step hstep e he => ⟨hraised.1 step hstep e he, rfl⟩) fun hsteps =>
    .bind (.get ?_))
  cases hd : form.device run.settings run.now run.drawn s.db with
  | none => exact .throw ⟨fun h => h.2.2 hd, rfl⟩
  | some d =>
    refine .bind (.point (fun e he => ⟨hraised.2 e he, rfl⟩) fun hcommit => .bind (.set (.pure ?_)))
    exact ⟨List.forall_mem_append.2 ⟨hsteps, List.forall_mem_singleton.2 hcommit⟩, rfl, rfl⟩

/-- **After the commit**: everything is done, or the event is not scheduled. -/
lemma ends_announceDevice : Raise.Ends (announceDevice run d) s
    (fun _ s' => run.Undisturbed s.db ∧ ∃ serverPublicKey,
      truthy (s.db.configuration.bind Configuration.serverPublicKey) = some serverPublicKey ∧
      s' = { s with
        shown := s.shown ++ [(d.name, buildClientConfig d s.db.configuration run.clientSettings
          run.privateKey serverPublicKey)]
        scheduled := s.scheduled ++ [d] })
    (fun _ s' => ¬ run.Undisturbed s.db ∧ SameRows s s') := by
  have hdisturbed : ∀ step ∈ CreateStep.afterCommit, ∀ e, run.raises step = some e →
      ¬ run.Undisturbed s.db := fun step hstep e he h => Raise.not_forall_none hstep he h.2
  unfold CreateStep.afterCommit at hdisturbed
  simp only [List.forall_mem_append, List.forall_mem_singleton] at hdisturbed
  obtain ⟨hkey, hdialog, htask⟩ := hdisturbed
  refine .bind (.points (fun step hstep e he => ⟨hkey step hstep e he, rfl, rfl⟩) fun hfirst =>
    .bind (.get ?_))
  unfold getServerPublicKey
  cases hconfig : truthy (s.db.configuration.bind Configuration.serverPublicKey) with
  | none => exact .throw ⟨fun h => h.1 hconfig, rfl, rfl⟩
  | some serverPublicKey =>
    refine .bind (.points (fun step hstep e he => ⟨hdialog step hstep e he, rfl, rfl⟩) fun hnext =>
      .bind (.modify (.bind (.point (fun e he => ⟨htask e he, rfl, rfl⟩) fun hlast => .modify ?_))))
    refine ⟨⟨?_, ?_⟩, serverPublicKey, rfl, rfl⟩
    · rw [hconfig]
      exact Option.some_ne_none _
    · exact List.forall_mem_append.2
        ⟨hfirst, List.forall_mem_append.2 ⟨hnext, List.forall_mem_singleton.2 hlast⟩⟩

/-- The row of the admin page. -/
lemma AdminDeviceForm.accepts_device {settings : Settings} {now : ℕ} {form : AdminDeviceForm}
    {drawn : Drawn} {ownerId : Uuid} (h : form.device settings now drawn ownerId db = some d) :
    db.Accepts d ∧ d.publicKey = drawn.publicKey := by
  unfold AdminDeviceForm.device at h
  obtain ⟨base, hbase, h⟩ := Option.bind_eq_some_iff.1 h
  obtain ⟨mtu, -, h⟩ := Option.bind_eq_some_iff.1 h
  obtain ⟨keepalive, -, h⟩ := Option.bind_eq_some_iff.1 h
  obtain ⟨rfl, -, haccepts⟩ := taken_eq_some_iff.1 h
  obtain ⟨ipv4, ipv6, subnets, -, rfl⟩ := newDevice_eq_some hbase
  exact ⟨haccepts, rfl⟩

/-- The row is one that the database takes, and it has the key that was drawn. -/
lemma NewDeviceForm.accepts_device
    (h : form.device run.settings run.now run.drawn db = some d) :
    db.Accepts d ∧ d.publicKey = run.drawn.publicKey := by
  cases form with
  | user form userId =>
    obtain ⟨-, -, hkey, -, haccepts⟩ := DeviceForm.device_eq_some h
    exact ⟨haccepts, hkey⟩
  | admin form =>
    obtain ⟨ownerId, -, h⟩ := Option.bind_eq_some_iff.1 h
    exact AdminDeviceForm.accepts_device h

/-- It is not there yet. -/
lemma NewDeviceForm.notMem_devices
    (h : form.device run.settings run.now run.drawn db = some d) : d ∉ db.devices := fun hmem =>
  ((accepts_device h).1.2 d hmem).1 rfl

/-- With the row, but without its event, it is neither all nor nothing. -/
lemma not_allOrNothing (hd : form.device run.settings run.now run.drawn db = some d)
    (hmem : d ∈ s.db.devices) (hscheduled : s.scheduled = []) : ¬ AllOrNothing run db s := by
  intro h
  have hevent := (h.stored d hmem (NewDeviceForm.notMem_devices hd)).2.1
  rw [hscheduled] at hevent
  cases hevent

/-- How a run of the handler ends: no row, a row with all that belongs to it, or a row without. -/
inductive Outcome (run : CreateRun) (form : NewDeviceForm) (db : Database) : CreateState → Prop
  | nothing {s : CreateState} (hstored : ¬ form.Stored run db) (hdb : s.db = db) :
    Outcome run form db s
  | whole {d : Device} {serverPublicKey : String}
    (hd : form.device run.settings run.now run.drawn db = some d) (hun : run.Undisturbed db)
    (hkey : truthy (db.configuration.bind Configuration.serverPublicKey) = some serverPublicKey) :
    Outcome run form db {
      db := { db with devices := db.devices ++ [d] }
      shown := [(d.name, buildClientConfig d db.configuration run.clientSettings run.privateKey
        serverPublicKey)]
      scheduled := [d] }
  | row {d : Device} {s : CreateState} (hstored : form.Stored run db)
    (hd : form.device run.settings run.now run.drawn db = some d) (hun : ¬ run.Undisturbed db)
    (hdb : s.db = { db with devices := db.devices ++ [d] }) (hscheduled : s.scheduled = []) :
    Outcome run form db s

lemma outcome_createDevice : Outcome run form db (createDeviceLeaves run form db) := by
  refine Raise.Ends.left ?_
  unfold createDeviceHandler
  cases hmissing : form.missing with
  | some message =>
    have hstored : ¬ form.Stored run db := fun h => by
      rw [h.1] at hmissing
      cases hmissing
    exact ends_notify.imp (fun _ _ h => .nothing hstored h.1) fun _ _ h => .nothing hstored h.1
  | none =>
    refine .tryCatch (.bind (ends_insertDevice.imp ?_ ?_))
    · rintro d _ ⟨hsteps, hd, rfl⟩
      have hstored : form.Stored run db := ⟨hmissing, hsteps, by rw [hd]; exact Option.some_ne_none d⟩
      refine ends_announceDevice.imp ?_ ?_
      · rintro _ _ ⟨hun, serverPublicKey, hkey, rfl⟩
        exact .whole hd hun hkey
      · rintro e s' ⟨hun, hdb, hscheduled⟩
        refine (ends_reportError e).imp ?_ ?_
        · exact fun _ t ht => .row hstored hd hun (ht.1.trans hdb) (ht.2.trans hscheduled)
        · exact fun _ t ht => .row hstored hd hun (ht.1.trans hdb) (ht.2.trans hscheduled)
    · rintro e _ ⟨hstored, rfl⟩
      exact (ends_reportError e).imp (fun _ _ ht => .nothing hstored ht.1) fun _ _ ht =>
        .nothing hstored ht.1

/-- **A device is created as a whole or not at all** if and only if no row is stored or nothing fails
after the commit. -/
theorem createDevice_iff (run : CreateRun) (form : NewDeviceForm) (db : Database) :
    AllOrNothing run db (createDeviceLeaves run form db) ↔
      (form.Stored run db → run.Undisturbed db) := by
  have hend : Outcome run form db (createDeviceLeaves run form db) := outcome_createDevice
  generalize createDeviceLeaves run form db = s at hend ⊢
  cases hend with
  | nothing hstored hdb =>
    refine iff_of_true ⟨fun _ d hd => ?_, fun d hd hnew => ?_⟩ fun h => absurd h hstored
    · rwa [hdb] at hd
    · rw [hdb] at hd
      exact absurd hd hnew
  | whole hd hun hkey =>
    refine iff_of_true ⟨fun hreported => ?_, fun d hmem hnew => ?_⟩ fun _ => hun
    · rcases hreported with h | h
      · exact absurd rfl h
      · exact absurd rfl h
    · rcases List.mem_append.1 hmem with hold | hmem
      · exact absurd hold hnew
      · obtain rfl := List.mem_singleton.1 hmem
        exact ⟨(NewDeviceForm.accepts_device hd).2, List.mem_singleton_self _, _, hkey,
          List.mem_singleton_self _⟩
  | @row d _ hstored hd hun hdb hscheduled =>
    refine iff_of_false (not_allOrNothing hd ?_ hscheduled) fun h => hun (h hstored)
    rw [hdb]
    exact List.mem_append_right _ (List.mem_singleton_self d)

/-- **Without a key of the server** the row stays, and that is reported as an error. -/
lemma createDevice_noKey (hmissing : form.missing = none) (hraises : ∀ step, run.raises step = none)
    (hd : form.device run.settings run.now run.drawn db = some d)
    (hkey : truthy (db.configuration.bind Configuration.serverPublicKey) = none) :
    createDeviceLeaves run form db = {
      db := { db with devices := db.devices ++ [d] }
      notified := ["Error: " ++ serverKeyMissing]
      logged := ["Failed to create device: " ++ serverKeyMissing] } := by
  have hno : ∀ step e, run.raises step = some e → False := fun step e he => by
    rw [hraises step] at he
    cases he
  refine Raise.Ends.left (P := (· = _)) ?_
  unfold createDeviceHandler insertDevice announceDevice getServerPublicKey
  rw [hmissing]
  refine .tryCatch (.bind (.bind (.points (fun step _ e he => (hno step e he).elim) fun _ =>
    .bind (.get ?_))))
  rw [hd]
  refine .bind (.point (fun e he => (hno _ e he).elim) fun _ => .bind (.set (.pure (.bind (.points
    (fun step _ e he => (hno step e he).elim) fun _ => .bind (.get ?_))))))
  rw [hkey]
  refine .throw (.bind (.modify (.tryCatch (.bind (.point (fun e he => (hno _ e he).elim) fun _ =>
    .modify rfl)))))

lemma not_allOrNothing_noKey (hmissing : form.missing = none)
    (hraises : ∀ step, run.raises step = none)
    (hd : form.device run.settings run.now run.drawn db = some d)
    (hkey : truthy (db.configuration.bind Configuration.serverPublicKey) = none) :
    ¬ AllOrNothing run db (createDeviceLeaves run form db) := by
  rw [createDevice_noKey hmissing hraises hd hkey]
  exact not_allOrNothing hd (List.mem_append_right _ (List.mem_singleton_self d)) rfl

end Parts

/-! A user adds a device while the server has no key, and so does an admin. -/

def noServerKey : Database := { Api.davesRows with configuration := some { updatedAt := 0 } }

def adminNotebook : AdminDeviceForm :=
  { notebookForm with owner := some dave.id, allowedSubnets := "192.168.7.0/24" }

def addsNotebook : CreateRun where
  settings := ⟨true, "wg0", "10.3.2.0/29", "fd00::3:2:0/125"⟩
  clientSettings := {}
  now := 1
  drawn := ⟨⟨0x0b00c, by decide⟩, "pk-notebook", "psk-notebook", ⟨fun _ => 0, fun _ => 0⟩⟩
  privateKey := "private"
  raises := fun _ => none
  refusal := ""

/-- The row stays, an error is reported, and the private key is lost. -/
def LeavesRow (form : NewDeviceForm) : Prop :=
  ∃ d, createDeviceLeaves addsNotebook form noServerKey = {
      db := { noServerKey with devices := [Api.davesLaptop, d] }
      notified := ["Error: " ++ serverKeyMissing]
      logged := ["Failed to create device: " ++ serverKeyMissing] } ∧
    ¬ AllOrNothing addsNotebook noServerKey (createDeviceLeaves addsNotebook form noServerKey)

lemma leavesRow {form : NewDeviceForm} {d : Device} (hmissing : form.missing = none)
    (hd : form.device addsNotebook.settings addsNotebook.now addsNotebook.drawn noServerKey =
      some d) : LeavesRow form :=
  ⟨d, createDevice_noKey hmissing (fun _ => rfl) hd rfl,
    not_allOrNothing_noKey hmissing (fun _ => rfl) hd rfl⟩

theorem createDevice_noServerKey :
    LeavesRow (.user notebookForm dave.id) ∧ LeavesRow (.admin adminNotebook) :=
  ⟨leavesRow (by decide) rfl, leavesRow (by decide) rfl⟩

end WireGui
