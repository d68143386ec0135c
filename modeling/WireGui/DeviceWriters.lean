import WireGui.Lib.Transactions
import WireGui.Pages.EditForms
import WireGui.Tasks.Stats

/-!
# Handlers that write the same device

Forms, requests over the API and the pollers of the statistics read the row of a device, and write it
back a while later.  SQLAlchemy sends the columns that have changed since they were read, so who
writes other columns is not undone.  `run_columns`: what is in a column in the end is what those make
of it who write this column.
-/

namespace WireGui

/-! ### Columns -/

/-- The columns of a device that are written after it was made. -/
inductive Column where
  | name | description | useDefaultAllowedIps | useDefaultDns | useDefaultEndpoint | useDefaultMtu
  | useDefaultPersistentKeepalive | endpoint | mtu | persistentKeepalive | allowedIps | dns
  | allowedSubnets | remoteIp | rxBytes | txBytes | latestHandshake
  deriving DecidableEq

def Column.Value : Column → Type
  | .name => String
  | .description | .endpoint | .remoteIp => Option String
  | .useDefaultAllowedIps | .useDefaultDns | .useDefaultEndpoint | .useDefaultMtu
  | .useDefaultPersistentKeepalive => Bool
  | .mtu | .persistentKeepalive | .rxBytes | .txBytes => Option ℤ
  | .allowedIps | .dns => Option (List String)
  | .allowedSubnets => List String
  | .latestHandshake => Option ℕ

instance (c : Column) : DecidableEq c.Value := by cases c <;> unfold Column.Value <;> infer_instance

def Device.column (d : Device) : (c : Column) → c.Value
  | .name => d.name
  | .description => d.description
  | .useDefaultAllowedIps => d.useDefaultAllowedIps
  | .useDefaultDns => d.useDefaultDns
  | .useDefaultEndpoint => d.useDefaultEndpoint
  | .useDefaultMtu => d.useDefaultMtu
  | .useDefaultPersistentKeepalive => d.useDefaultPersistentKeepalive
  | .endpoint => d.endpoint
  | .mtu => d.mtu
  | .persistentKeepalive => d.persistentKeepalive
  | .allowedIps => d.allowedIps
  | .dns => d.dns
  | .allowedSubnets => d.allowedSubnets
  | .remoteIp => d.remoteIp
  | .rxBytes => d.rxBytes
  | .txBytes => d.txBytes
  | .latestHandshake => d.latestHandshake

/-- The device with these columns. -/
def Device.withColumns (d : Device) (value : (c : Column) → c.Value) : Device :=
  { d with
    name := value .name
    description := value .description
    useDefaultAllowedIps := value .useDefaultAllowedIps
    useDefaultDns := value .useDefaultDns
    useDefaultEndpoint := value .useDefaultEndpoint
    useDefaultMtu := value .useDefaultMtu
    useDefaultPersistentKeepalive := value .useDefaultPersistentKeepalive
    endpoint := value .endpoint
    mtu := value .mtu
    persistentKeepalive := value .persistentKeepalive
    allowedIps := value .allowedIps
    dns := value .dns
    allowedSubnets := value .allowedSubnets
    remoteIp := value .remoteIp
    rxBytes := value .rxBytes
    txBytes := value .txBytes
    latestHandshake := value .latestHandshake }

/-- What the database checks of a column. -/
def Column.Storable : (c : Column) → c.Value → Prop
  | .name, v => storableText v = true
  | .description, v | .endpoint, v => ∀ s, v = some s → storableText s = true
  | .mtu, v | .persistentKeepalive, v => ∀ n, v = some n → storableInt n = true
  | .rxBytes, v | .txBytes, v => ∀ n, v = some n → storableBigInt n = true
  | _, _ => True

/-- The row can be stored. -/
def Device.CanBeStored (d : Device) : Prop := d.Storable ∧ d.StorableStats

instance (d : Device) : Decidable d.CanBeStored := by unfold Device.CanBeStored; infer_instance

/-- **The row after a flush**: `loaded` was read, `new` is what the handler has made of it. -/
def Device.flushed (loaded new stored : Device) : Device :=
  stored.withColumns fun c => Tx.written (loaded.column c) (new.column c) (stored.column c)

section Columns

variable {d loaded new stored : Device} {value : (c : Column) → c.Value} {c : Column}

@[simp] lemma column_withColumns : (d.withColumns value).column c = value c := by cases c <;> rfl

lemma withColumns_column : d.withColumns d.column = d := rfl

@[simp] lemma column_flushed : (loaded.flushed new stored).column c =
    Tx.written (loaded.column c) (new.column c) (stored.column c) := column_withColumns

lemma canBeStored_iff : d.CanBeStored ↔ ∀ c : Column, c.Storable (d.column c) := by
  constructor
  · rintro ⟨⟨hname, hdescription, hendpoint, hmtu, hkeepalive⟩, hrx, htx⟩ c
    cases c with
    | name => exact hname
    | description => exact fun s hs => hdescription s hs
    | endpoint => exact fun s hs => hendpoint s hs
    | mtu => exact fun n hn => hmtu n hn
    | persistentKeepalive => exact fun n hn => hkeepalive n hn
    | rxBytes => exact fun n hn => hrx n hn
    | txBytes => exact fun n hn => htx n hn
    | _ => trivial
  · intro h
    exact ⟨⟨h .name, fun s hs => h .description s hs, fun s hs => h .endpoint s hs,
      fun n hn => h .mtu n hn, fun n hn => h .persistentKeepalive n hn⟩,
      fun n hn => h .rxBytes n hn, fun n hn => h .txBytes n hn⟩

lemma canBeStored_flushed (hnew : new.CanBeStored) (hstored : stored.CanBeStored) :
    (loaded.flushed new stored).CanBeStored := by
  refine canBeStored_iff.2 fun c => ?_
  rw [column_flushed]
  unfold Tx.written
  split
  · exact canBeStored_iff.1 hstored c
  · exact canBeStored_iff.1 hnew c

end Columns

/-! ### Writers -/

/-- Who writes devices: `update_device` of the API, `save_edit` on the device's own page and in the
dialog of the admins, `_update_stats` or `_update_db` with what the peers report.  Besides, devices
are made, and deleted alone or with their user. -/
inductive DeviceWriter where
  | updateDevice (caller : User) (id : Uuid) (body : DeviceUpdate)
  | saveEdit (id : Uuid) (form : DeviceForm)
  | adminSaveEdit (id : Uuid) (form : AdminEditForm)
  | updateStats (peers : List PeerInfo)
  | createDevice (d : Device)
  | deleteDevice (id : Uuid)
  | deleteUser (id : Uuid)

/-- The columns that a form writes.  A setting that is not used is not written. -/
def DeviceForm.Writes (form : DeviceForm) : Column → Prop
  | .endpoint => form.useDefaultEndpoint = false
  | .dns => form.useDefaultDns = false
  | .mtu => form.useDefaultMtu = false
  | .persistentKeepalive => form.useDefaultPersistentKeepalive = false
  | .allowedIps => form.useDefaultAllowedIps = false
  | .allowedSubnets | .remoteIp | .rxBytes | .txBytes | .latestHandshake => False
  | _ => True

namespace DeviceWriter

/-- The rows that are read. -/
def reads (devices : List Device) : DeviceWriter → List Device
  | .updateDevice caller id _ => (devices.find? (·.id = id)).toList.filter fun d =>
      caller.role = "admin" ∨ d.userId = caller.id
  | .saveEdit id _ | .adminSaveEdit id _ => (devices.find? (·.id = id)).toList
  | .updateStats peers => devices.filter fun d => d.publicKey ∈ (peerMap peers).keys
  | .createDevice _ | .deleteDevice _ | .deleteUser _ => []

/-- What becomes of a row that was read; `none` is an exception. -/
def applyTo (d : Device) : DeviceWriter → Option Device
  | .updateDevice _ _ body => body.applyTo d
  | .saveEdit _ form => form.applyTo d
  | .adminSaveEdit _ form => form.applyTo d
  | .updateStats peers => some (storeStats peers d)
  | .createDevice _ | .deleteDevice _ | .deleteUser _ => some d

/-- The columns that the writer may change. -/
def Writes (c : Column) : DeviceWriter → Prop
  | .updateDevice _ _ body =>
    match c with
    | .name => body.name ≠ none
    | .description => body.description ≠ none
    | .useDefaultAllowedIps => body.useDefaultAllowedIps ≠ none
    | .useDefaultDns => body.useDefaultDns ≠ none
    | .useDefaultEndpoint => body.useDefaultEndpoint ≠ none
    | .useDefaultMtu => body.useDefaultMtu ≠ none
    | .useDefaultPersistentKeepalive => body.useDefaultPersistentKeepalive ≠ none
    | .endpoint => body.endpoint ≠ none
    | .mtu => body.mtu ≠ none
    | .persistentKeepalive => body.persistentKeepalive ≠ none
    | .allowedIps => body.allowedIps ≠ none
    | .dns => body.dns ≠ none
    | .allowedSubnets | .remoteIp | .rxBytes | .txBytes | .latestHandshake => False
  | .saveEdit _ form => form.Writes c
  | .adminSaveEdit _ form => c = .allowedSubnets ∨ form.toDeviceForm.Writes c
  | .updateStats _ => c = .remoteIp ∨ c = .rxBytes ∨ c = .txBytes ∨ c = .latestHandshake
  | .createDevice _ | .deleteDevice _ | .deleteUser _ => True

end DeviceWriter

/-- A handler that has not begun, that is to commit the changes of some rows, that has ended. -/
inductive WriterState where
  | start
  | changed (rows : List (Device × Device))
  | ended

/-- The flush and the commit.  A row that is gone is passed over, and a value that cannot be stored
makes the commit fail. -/
def flushRows (rows : List (Device × Device)) (devices : List Device) : List Device :=
  if ∀ row ∈ rows, row.2.CanBeStored then
    devices.map fun stored => (rows.find? (·.1.id = stored.id)).elim stored fun row =>
      row.1.flushed row.2 stored
  else devices

/-- What is unique in a row is different in both. -/
def Device.Apart (d c : Device) : Prop :=
  c.id ≠ d.id ∧ c.publicKey ≠ d.publicKey ∧ (d.ipv4 = none ∨ c.ipv4 ≠ d.ipv4) ∧
    (d.ipv6 = none ∨ c.ipv6 ≠ d.ipv6)

instance (d c : Device) : Decidable (d.Apart c) := by unfold Device.Apart; infer_instance

/-- The commit of a new device. -/
def insertRow (d : Device) (devices : List Device) : List Device :=
  if d.CanBeStored ∧ ∀ c ∈ devices, d.Apart c then devices ++ [d] else devices

/-- What a handler goes on with when it has read its rows. -/
def DeviceWriter.change (w : DeviceWriter) (devices : List Device) : WriterState :=
  match (w.reads devices).mapM fun d => (w.applyTo d).map (Prod.mk d) with
  | none => .ended
  | some rows => .changed rows

/-- **The transaction of a handler.** -/
def DeviceWriter.prog (w : DeviceWriter) : WriterState → Tx.Stmt (List Device) WriterState
  | .start =>
    match w with
    | .createDevice d => .commit (insertRow d) .ended
    | .deleteDevice id => .commit (List.filter fun d => d.id ≠ id) .ended
    | .deleteUser id => .commit (List.filter fun d => d.userId ≠ id) .ended
    | w => .query w.change
  | .changed rows => .commit (flushRows rows) .ended
  | .ended => .stop

/-! ### What a writer makes of two rows -/

/-- A column of two rows: the same was put into both, or neither was changed. -/
def Uniform {α : Type} (x y a b : α) : Prop := a = b ∨ a = x ∧ b = y

section ApplyTo

variable {w : DeviceWriter} {d d' n n' : Device} {c : Column}

lemma rel_getD {α : Type} (update : Option (Option α)) (x y : α) :
    Option.Rel (Uniform x y) (update.getD (some x)) (update.getD (some y)) := by
  rcases update with _ | _ | v
  · exact .some (.inr ⟨rfl, rfl⟩)
  · exact .none
  · exact .some (.inl rfl)

lemma uniform_getD {α : Type} (update : Option α) (x y : α) :
    Uniform x y (update.getD x) (update.getD y) := by
  cases update with
  | none => exact .inr ⟨rfl, rfl⟩
  | some v => exact .inl rfl

lemma uniform_ite {α : Type} {p : Prop} [Decidable p] (x y v : α) :
    Uniform x y (if p then x else v) (if p then y else v) := by
  split
  · exact .inr ⟨rfl, rfl⟩
  · exact .inl rfl

lemma rel_intUnless (useDefault : Bool) (x y : Option ℤ) (s : String) :
    Option.Rel (Uniform x y) (intUnless useDefault x s) (intUnless useDefault y s) := by
  unfold intUnless
  split
  · exact .some (.inr ⟨rfl, rfl⟩)
  · cases intOrNone s with
    | none => exact .none
    | some v => exact .some (.inl rfl)

/-- All columns of two rows. -/
def UniformRows (d d' n n' : Device) : Prop :=
  ∀ c : Column, Uniform (d.column c) (d'.column c) (n.column c) (n'.column c)

lemma DeviceUpdate.uniform (body : DeviceUpdate) (d d' : Device) :
    Option.Rel (UniformRows d d') (body.applyTo d) (body.applyTo d') := by
  unfold DeviceUpdate.applyTo
  refine (rel_getD body.name d.name d'.name).bind fun _ _ hname => ?_
  refine (rel_getD body.useDefaultAllowedIps _ _).bind fun _ _ hips => ?_
  refine (rel_getD body.useDefaultDns _ _).bind fun _ _ hdns => ?_
  refine (rel_getD body.useDefaultEndpoint _ _).bind fun _ _ hendpoint => ?_
  refine (rel_getD body.useDefaultMtu _ _).bind fun _ _ hmtu => ?_
  refine (rel_getD body.useDefaultPersistentKeepalive _ _).bind fun _ _ hkeepalive => ?_
  refine .some fun c => ?_
  cases c with
  | name => exact hname
  | useDefaultAllowedIps => exact hips
  | useDefaultDns => exact hdns
  | useDefaultEndpoint => exact hendpoint
  | useDefaultMtu => exact hmtu
  | useDefaultPersistentKeepalive => exact hkeepalive
  | description | endpoint | mtu | persistentKeepalive | allowedIps | dns => exact uniform_getD _ _ _
  | allowedSubnets | remoteIp | rxBytes | txBytes | latestHandshake => exact .inr ⟨rfl, rfl⟩

lemma DeviceForm.uniform (form : DeviceForm) (d d' : Device) :
    Option.Rel (UniformRows d d') (form.applyTo d) (form.applyTo d') := by
  unfold DeviceForm.applyTo
  refine (rel_intUnless form.useDefaultMtu d.mtu d'.mtu form.mtu).bind fun _ _ hmtu => ?_
  refine (rel_intUnless _ _ _ form.persistentKeepalive).bind fun _ _ hkeepalive => ?_
  refine .some fun c => ?_
  cases c with
  | mtu => exact hmtu
  | persistentKeepalive => exact hkeepalive
  | endpoint | allowedIps | dns => exact uniform_ite _ _ _
  | name | description | useDefaultAllowedIps | useDefaultDns | useDefaultEndpoint | useDefaultMtu
  | useDefaultPersistentKeepalive => exact .inl rfl
  | allowedSubnets | remoteIp | rxBytes | txBytes | latestHandshake => exact .inr ⟨rfl, rfl⟩

lemma AdminEditForm.uniform (form : AdminEditForm) (d d' : Device) :
    Option.Rel (UniformRows d d') (form.applyTo d) (form.applyTo d') := by
  unfold AdminEditForm.applyTo
  refine (form.toDeviceForm.uniform d d').bind fun n n' h => ?_
  cases parseSubnetList form.allowedSubnets with
  | none => exact .none
  | some subnets =>
    refine .some fun c => ?_
    have hc := h c
    cases c <;> first | exact hc | exact .inl rfl

lemma uniform_storeStats (peers : List PeerInfo) (hkey : d.publicKey = d'.publicKey) :
    UniformRows d d' (storeStats peers d) (storeStats peers d') := by
  intro c
  unfold storeStats
  rw [hkey]
  cases (peerMap peers).get d'.publicKey with
  | none => exact .inr ⟨rfl, rfl⟩
  | some peer => cases c <;> first | exact .inl rfl | exact .inr ⟨rfl, rfl⟩

/-- **What a writer does to a column** does not depend on the row. -/
lemma uniform_applyTo (w : DeviceWriter) (hkey : d.publicKey = d'.publicKey) :
    Option.Rel (UniformRows d d') (w.applyTo d) (w.applyTo d') := by
  cases w with
  | updateDevice caller id body => exact body.uniform d d'
  | saveEdit id form => exact form.uniform d d'
  | adminSaveEdit id form => exact form.uniform d d'
  | updateStats peers => exact .some (uniform_storeStats peers hkey)
  | createDevice d₀ | deleteDevice id | deleteUser id => exact .some fun c => .inr ⟨rfl, rfl⟩

/-- A field that the body does not set is left as it is. -/
lemma eq_of_getD {α : Type} {update : Option (Option α)} {x v : α}
    (h : update.getD (some x) = some v) (hunset : ¬ update ≠ none) : v = x := by
  rw [not_not.1 hunset] at h
  exact (Option.some.inj h).symm

lemma DeviceUpdate.column_applyTo {caller : User} {id : Uuid} {body : DeviceUpdate}
    (h : body.applyTo d = some n) (hw : ¬ (DeviceWriter.updateDevice caller id body).Writes c) :
    n.column c = d.column c := by
  unfold DeviceUpdate.applyTo at h
  simp only [Option.bind_eq_bind, Option.bind_eq_some_iff, Option.pure_def, Option.some_inj] at h
  obtain ⟨name, hname, ips, hips, dns, hdns, endpoint, hendpoint, mtu, hmtu, keepalive, hkeepalive,
    rfl⟩ := h
  cases c with
  | name => exact eq_of_getD hname hw
  | useDefaultAllowedIps => exact eq_of_getD hips hw
  | useDefaultDns => exact eq_of_getD hdns hw
  | useDefaultEndpoint => exact eq_of_getD hendpoint hw
  | useDefaultMtu => exact eq_of_getD hmtu hw
  | useDefaultPersistentKeepalive => exact eq_of_getD hkeepalive hw
  | description => exact congrArg (Option.getD · d.description) (not_not.1 hw)
  | endpoint => exact congrArg (Option.getD · d.endpoint) (not_not.1 hw)
  | mtu => exact congrArg (Option.getD · d.mtu) (not_not.1 hw)
  | persistentKeepalive => exact congrArg (Option.getD · d.persistentKeepalive) (not_not.1 hw)
  | allowedIps => exact congrArg (Option.getD · d.allowedIps) (not_not.1 hw)
  | dns => exact congrArg (Option.getD · d.dns) (not_not.1 hw)
  | allowedSubnets | remoteIp | rxBytes | txBytes | latestHandshake => rfl

lemma DeviceForm.column_applyTo {form : DeviceForm} (h : form.applyTo d = some n)
    (hw : ¬ form.Writes c) : n.column c = d.column c := by
  unfold DeviceForm.applyTo at h
  simp only [Option.bind_eq_bind, Option.bind_eq_some_iff, Option.pure_def, Option.some_inj] at h
  obtain ⟨mtu, hmtu, keepalive, hkeepalive, rfl⟩ := h
  have hused : ∀ {used : Bool}, ¬ used = false → used = true := Bool.eq_true_of_not_eq_false
  cases c with
  | mtu =>
    rw [intUnless, if_pos (hused hw)] at hmtu
    exact (Option.some.inj hmtu).symm
  | persistentKeepalive =>
    rw [intUnless, if_pos (hused hw)] at hkeepalive
    exact (Option.some.inj hkeepalive).symm
  | endpoint | dns | allowedIps => exact if_pos (hused hw)
  | name | description | useDefaultAllowedIps | useDefaultDns | useDefaultEndpoint | useDefaultMtu
  | useDefaultPersistentKeepalive => exact absurd trivial hw
  | allowedSubnets | remoteIp | rxBytes | txBytes | latestHandshake => rfl

/-- **What a writer leaves alone.** -/
lemma column_applyTo (h : w.applyTo d = some n) (hw : ¬ w.Writes c) :
    n.column c = d.column c := by
  cases w with
  | updateDevice caller id body => exact body.column_applyTo h hw
  | saveEdit id form => exact form.column_applyTo h hw
  | adminSaveEdit id form =>
    obtain ⟨hsubnets, hform⟩ := not_or.1 hw
    have h : (form.toDeviceForm.applyTo d).bind _ = some n := h
    obtain ⟨m, hm, h⟩ := Option.bind_eq_some_iff.1 h
    obtain ⟨subnets, -, h⟩ := Option.bind_eq_some_iff.1 h
    obtain rfl := Option.some.inj h
    rw [← form.toDeviceForm.column_applyTo hm hform]
    cases c <;> first | rfl | exact absurd rfl hsubnets
  | updateStats peers =>
    obtain rfl := Option.some.inj h
    unfold storeStats
    cases (peerMap peers).get d.publicKey with
    | none => rfl
    | some peer => cases c <;> first | rfl | exact absurd (by simp [DeviceWriter.Writes]) hw
  | createDevice d₀ | deleteDevice id | deleteUser id => exact absurd trivial hw

end ApplyTo

/-! ### Runs -/

/-- The same device, with the same value in the column. -/
structure Device.AgreesAt (c : Column) (d d' : Device) : Prop where
  others : d.withColumns d'.column = d'
  column : d.column c = d'.column c

/-- The same device in two databases. -/
structure Twins (c : Column) (d d' : Device) : Prop where
  agree : d.AgreesAt c d'
  left : d.CanBeStored
  right : d'.CanBeStored

/-- Changes of the same row in two databases. -/
structure SameChange (c : Column) (row row' : Device × Device) : Prop where
  read : Twins c row.1 row'.1
  uniform : UniformRows row.1 row'.1 row.2 row'.2

section Runs

variable {w : DeviceWriter} {d d' n n' l l' : Device} {c : Column} {devices devices' : List Device}
  {rows rows' : List (Device × Device)}

lemma Device.AgreesAt.publicKey (h : d.AgreesAt c d') : d.publicKey = d'.publicKey := by
  rw [← h.others]
  rfl

lemma Device.AgreesAt.id (h : d.AgreesAt c d') : d.id = d'.id := by
  rw [← h.others]
  rfl

lemma Device.AgreesAt.userId (h : d.AgreesAt c d') : d.userId = d'.userId := by
  rw [← h.others]
  rfl

lemma Twins.refl (h : d.CanBeStored) : Twins c d d := ⟨⟨withColumns_column, rfl⟩, h, h⟩

lemma forall₂_reads (h : List.Forall₂ (Twins c) devices devices') (w : DeviceWriter) :
    List.Forall₂ (Twins c) (w.reads devices) (w.reads devices') := by
  have hfind : ∀ id : Uuid, List.Forall₂ (Twins c) (devices.find? (·.id = id)).toList
      (devices'.find? (·.id = id)).toList := fun id =>
    (List.rel_find? (fun a a' ha => by rw [ha.agree.id]) h).toList
  cases w with
  | updateDevice caller id body =>
    refine List.rel_filter (fun a a' ha => ?_) (hfind id)
    dsimp only
    rw [ha.agree.userId]
  | saveEdit id form | adminSaveEdit id form => exact hfind id
  | updateStats peers =>
    refine List.rel_filter (fun a a' ha => ?_) h
    dsimp only
    rw [ha.agree.publicKey]
  | createDevice d₀ | deleteDevice id | deleteUser id => exact .nil

lemma SameChange.canBeStored_iff {row row' : Device × Device} (h : SameChange c row row') :
    row.2.CanBeStored ↔ row'.2.CanBeStored := by
  rw [WireGui.canBeStored_iff, WireGui.canBeStored_iff]
  refine forall_congr' fun c' => ?_
  rcases h.uniform c' with heq | ⟨hl, hr⟩
  · rw [heq]
  · rw [hl, hr]
    exact iff_of_true (WireGui.canBeStored_iff.1 h.read.left c')
      (WireGui.canBeStored_iff.1 h.read.right c')

/-- The same change in two databases. -/
lemma SameChange.flushed {row row' : Device × Device} (h : SameChange c row row')
    (hn : row.2.CanBeStored) (hd : Twins c d d') :
    Twins c (row.1.flushed row.2 d) (row'.1.flushed row'.2 d') where
  agree := by
    refine ⟨?_, ?_⟩
    · rw [← hd.agree.others]
      rfl
    · rw [column_flushed, column_flushed, hd.agree.column, h.read.agree.column]
      rcases h.uniform c with heq | ⟨hl, hr⟩
      · rw [heq]
      · rw [hl, hr, h.read.agree.column]
  left := canBeStored_flushed hn hd.left
  right := canBeStored_flushed (h.canBeStored_iff.1 hn) hd.right

lemma forall₂_flushRows (hrows : List.Forall₂ (SameChange c) rows rows')
    (h : List.Forall₂ (Twins c) devices devices') :
    List.Forall₂ (Twins c) (flushRows rows devices) (flushRows rows' devices') := by
  have hiff := List.forall_mem_iff_of_forall₂ (p := fun row => row.2.CanBeStored)
    (q := fun row => row.2.CanBeStored) (fun _ _ hrow => hrow.canBeStored_iff) hrows
  unfold flushRows
  by_cases hstored : ∀ row ∈ rows, row.2.CanBeStored
  · rw [if_pos hstored, if_pos (hiff.1 hstored)]
    rw [List.forall₂_map_left_iff, List.forall₂_map_right_iff]
    refine h.imp fun d d' hd => ?_
    have hboth := (List.forall₂_and_left rows rows').2 ⟨hstored, hrows⟩
    have hfind := List.rel_find? (p := (·.1.id = d.id)) (q := (·.1.id = d'.id))
      (fun row row' hrow => by rw [hrow.2.read.agree.id, hd.agree.id]) hboth
    exact hfind.elim hd fun row row' hrow => hrow.2.flushed hrow.1 hd
  · rw [if_neg hstored, if_neg (mt hiff.2 hstored)]
    exact h

/-- A change of other columns. -/
lemma forall₂_flushRows_left (hrows : ∀ row ∈ rows, row.2.column c = row.1.column c)
    (h : List.Forall₂ (Twins c) devices devices') :
    List.Forall₂ (Twins c) (flushRows rows devices) devices' := by
  unfold flushRows
  split
  next hstored =>
    rw [List.forall₂_map_left_iff]
    refine h.imp fun d d' hd => ?_
    cases hrow : rows.find? (·.1.id = d.id) with
    | none => exact hd
    | some row =>
      have hmem := List.mem_of_find?_eq_some hrow
      refine ⟨⟨?_, ?_⟩, canBeStored_flushed (hstored row hmem) hd.left, hd.right⟩
      · rw [← hd.agree.others]
        rfl
      · rw [Option.elim_some, column_flushed, hrows row hmem, Tx.written, if_pos rfl]
        exact hd.agree.column
  next => exact h

lemma forall₂_insertRow (d₀ : Device) (h : List.Forall₂ (Twins c) devices devices') :
    List.Forall₂ (Twins c) (insertRow d₀ devices) (insertRow d₀ devices') := by
  have hiff := List.forall_mem_iff_of_forall₂ (p := d₀.Apart) (q := d₀.Apart)
    (fun a a' (ha : Twins c a a') => by rw [← ha.agree.others]; exact Iff.rfl) h
  unfold insertRow
  by_cases hok : d₀.CanBeStored ∧ ∀ a ∈ devices, d₀.Apart a
  · rw [if_pos hok, if_pos ⟨hok.1, hiff.1 hok.2⟩]
    exact List.rel_append h (.cons (Twins.refl hok.1) .nil)
  · rw [if_neg hok, if_neg (mt (And.imp_right hiff.2) hok)]
    exact h

/-- The states of a handler that runs over two databases. -/
def SameState (c : Column) : WriterState → WriterState → Prop
  | .start, .start | .ended, .ended => True
  | .changed rows, .changed rows' => List.Forall₂ (SameChange c) rows rows'
  | _, _ => False

/-- The handler does not change the column. -/
def LeavesColumn (c : Column) : WriterState → Prop
  | .changed rows => ∀ row ∈ rows, row.2.column c = row.1.column c
  | _ => True

lemma sameState_change (w : DeviceWriter) (h : List.Forall₂ (Twins c) devices devices') :
    SameState c (w.change devices) (w.change devices') := by
  have hrel : Option.Rel (List.Forall₂ (SameChange c))
      ((w.reads devices).mapM fun d => (w.applyTo d).map (Prod.mk d))
      ((w.reads devices').mapM fun d => (w.applyTo d).map (Prod.mk d)) := by
    refine List.rel_mapM (fun d d' hd => ?_) (forall₂_reads h w)
    rw [Option.map_eq_bind, Option.map_eq_bind]
    exact (uniform_applyTo w hd.agree.publicKey).bind fun n n' hn => .some ⟨hd, hn⟩
  unfold DeviceWriter.change
  revert hrel
  generalize (w.reads devices).mapM (fun d => (w.applyTo d).map (Prod.mk d)) = o
  generalize (w.reads devices').mapM (fun d => (w.applyTo d).map (Prod.mk d)) = o'
  rintro (hrows | _)
  · assumption
  · trivial

lemma leavesColumn_change (hw : ¬ w.Writes c) (devices : List Device) :
    LeavesColumn c (w.change devices) := by
  unfold DeviceWriter.change
  split
  · trivial
  next rows hrows =>
    intro row hrow
    obtain ⟨d, -, hd⟩ := List.exists_of_mem_mapM hrows hrow
    obtain ⟨n, hn, rfl⟩ := Option.map_eq_some_iff.1 hd
    exact column_applyTo hn hw

/-- **A handler** does the same in both databases. -/
lemma related_prog (w : DeviceWriter) {p p' : WriterState} (h : SameState c p p') :
    (w.prog p).Related (List.Forall₂ (Twins c)) (SameState c) (w.prog p') := by
  match p, p', h with
  | .start, .start, _ =>
    cases w with
    | createDevice d₀ => exact ⟨fun _ _ hd => forall₂_insertRow d₀ hd, trivial⟩
    | deleteDevice id =>
      refine ⟨fun _ _ hd => List.rel_filter (fun a a' ha => ?_) hd, trivial⟩
      dsimp only
      rw [ha.agree.id]
    | deleteUser id =>
      refine ⟨fun _ _ hd => List.rel_filter (fun a a' ha => ?_) hd, trivial⟩
      dsimp only
      rw [ha.agree.userId]
    | updateDevice caller id body => exact fun _ _ hd => sameState_change _ hd
    | saveEdit id form => exact fun _ _ hd => sameState_change _ hd
    | adminSaveEdit id form => exact fun _ _ hd => sameState_change _ hd
    | updateStats peers => exact fun _ _ hd => sameState_change _ hd
  | .changed rows, .changed rows', h => exact ⟨fun _ _ hd => forall₂_flushRows h hd, trivial⟩
  | .ended, .ended, _ => trivial

/-- **A handler that does not write the column** makes no difference. -/
lemma harmless_prog (hw : ¬ w.Writes c) {p : WriterState} (h : LeavesColumn c p) :
    (w.prog p).Harmless (List.Forall₂ (Twins c)) (LeavesColumn c) := by
  cases p with
  | start =>
    cases w with
    | createDevice d₀ | deleteDevice id | deleteUser id => exact absurd trivial hw
    | updateDevice caller id body => exact fun devices _ _ => leavesColumn_change hw devices
    | saveEdit id form => exact fun devices _ _ => leavesColumn_change hw devices
    | adminSaveEdit id form => exact fun devices _ _ => leavesColumn_change hw devices
    | updateStats peers => exact fun devices _ _ => leavesColumn_change hw devices
  | changed rows => exact ⟨fun _ _ hd => forall₂_flushRows_left h hd, trivial⟩
  | ended => trivial

/-- No handler has begun. -/
def DeviceWriter.begin {ι : Type} (devices : List Device) : Tx.State ι (List Device) WriterState :=
  ⟨devices, fun _ => .start, none⟩

/-- **Who writes other columns undoes nothing**: whatever the handlers are and however their
statements are interleaved, also when some of them fail, the devices are in the end the same as
without any handlers that do not write the column, with the same value in it. -/
theorem run_columns {ι : Type} [DecidableEq ι] (writers : ι → DeviceWriter) (c : Column)
    (keep : ι → Bool) (hkeep : ∀ i, keep i = false → ¬ (writers i).Writes c)
    {devices : List Device} (hstored : ∀ d ∈ devices, d.CanBeStored) (events : List (Tx.Event ι)) :
    let final events := (Run.final (Tx.Event.next (fun i => (writers i).prog) .ended) events
      (DeviceWriter.begin devices)).store
    List.Forall₂ (Device.AgreesAt c) (final events)
      (final (events.filter fun e => keep e.proc)) := by
  intro final
  have hstart : Tx.State.Erases keep (List.Forall₂ (Twins c)) (fun _ => SameState c)
      (fun _ => LeavesColumn c) (DeviceWriter.begin devices) (DeviceWriter.begin devices) :=
    ⟨List.forall₂_same.2 fun d hd => Twins.refl (hstored d hd), fun _ _ => trivial,
      fun _ _ => trivial, rfl, rfl⟩
  have hfinal : Tx.State.Erases keep (List.Forall₂ (Twins c)) (fun _ => SameState c)
      (fun _ => LeavesColumn c)
      (Run.final (Tx.Event.next (fun i => (writers i).prog) .ended) events
        (DeviceWriter.begin devices))
      (Run.final (Tx.Event.next (fun i => (writers i).prog) .ended)
        (events.filter fun e => keep e.proc) (DeviceWriter.begin devices)) :=
    Tx.erases_final (fun _ => ⟨trivial, trivial⟩) (fun i _ _ _ h => related_prog (writers i) h)
      (fun i _ hi h => harmless_prog (hkeep i hi) h) hstart events
  exact hfinal.store.imp fun _ _ hd => hd.agree

end Runs

/-! The page of a laptop is saved while the statistics are polled. -/

def laptopPeer : PeerInfo where
  publicKey := "pk-laptop"
  endpoint := some "203.0.113.9:51820"
  rxBytes := 4096
  txBytes := 2048

/-- The poller goes by `true`, and the page by `false`. -/
def savedAndPolled : Bool → DeviceWriter
  | true => .updateStats [laptopPeer]
  | false => .saveEdit heidisLaptop.id { DeviceForm.ofDevice heidisLaptop with name := "work" }

theorem run_columns_laptop :
    let final events := (Run.final (Tx.Event.next (fun i => (savedAndPolled i).prog) .ended) events
      (DeviceWriter.begin [heidisLaptop])).store
    List.Forall₂ (Device.AgreesAt .rxBytes)
      (final [.step false, .step true, .step true, .step false])
      (final [.step true, .step true]) := by
  refine run_columns savedAndPolled .rxBytes id (fun i hi => ?_) (fun d hd => ?_)
    [.step false, .step true, .step true, .step false]
  · obtain rfl : i = false := hi
    exact id
  · rw [List.mem_singleton.1 hd]
    decide

end WireGui
