import WireGui.Pages.Devices

/-!
# The switches for users who are no admins

The settings page stores `allow_unprivileged_device_management` and
`allow_unprivileged_device_configuration`.  `honoured_iff` says which requests and actions leave the
devices as the switches ask for.
-/

namespace WireGui

/-- The columns that the second switch is about, with their defaults. -/
structure DeviceConfig where
  useDefaultAllowedIps : Bool := true
  useDefaultDns : Bool := true
  useDefaultEndpoint : Bool := true
  useDefaultMtu : Bool := true
  useDefaultPersistentKeepalive : Bool := true
  endpoint : Option String := none
  mtu : Option ℤ := none
  persistentKeepalive : Option ℤ := none
  allowedIps : Option (List String) := some []
  dns : Option (List String) := some []
  deriving DecidableEq

def Device.config (d : Device) : DeviceConfig where
  useDefaultAllowedIps := d.useDefaultAllowedIps
  useDefaultDns := d.useDefaultDns
  useDefaultEndpoint := d.useDefaultEndpoint
  useDefaultMtu := d.useDefaultMtu
  useDefaultPersistentKeepalive := d.useDefaultPersistentKeepalive
  endpoint := d.endpoint
  mtu := d.mtu
  persistentKeepalive := d.persistentKeepalive
  allowedIps := d.allowedIps
  dns := d.dns

def Database.ManagementOff (db : Database) : Prop :=
  ∃ config ∈ db.configuration, config.allowUnprivilegedDeviceManagement = false

def Database.ConfigurationOff (db : Database) : Prop :=
  ∃ config ∈ db.configuration, config.allowUnprivilegedDeviceConfiguration = false

instance (db : Database) : Decidable db.ManagementOff := by
  unfold Database.ManagementOff; infer_instance

instance (db : Database) : Decidable db.ConfigurationOff := by
  unfold Database.ConfigurationOff; infer_instance

/-- **What the switches ask for**: no device comes or goes, and those that are there keep their
configuration while new ones have the default. -/
def Honoured (db db' : Database) : Prop :=
  (db.ManagementOff → db'.devices.map Device.id = db.devices.map Device.id) ∧
    (db.ConfigurationOff → ∀ d' ∈ db'.devices,
      (∀ d ∈ db.devices, d.id = d'.id → d'.config = d.config) ∧
        ((∀ d ∈ db.devices, d.id ≠ d'.id) → d'.config = {}))

instance (db db' : Database) : Decidable (Honoured db db') := by unfold Honoured; infer_instance

/-! ### What leaves the configuration alone -/

/-- The body sets no column of the configuration, or to what it is. -/
def DeviceUpdate.KeepsConfig (body : DeviceUpdate) (d : Device) : Prop :=
  (∀ v ∈ body.useDefaultAllowedIps, v = some d.useDefaultAllowedIps) ∧
    (∀ v ∈ body.useDefaultDns, v = some d.useDefaultDns) ∧
    (∀ v ∈ body.useDefaultEndpoint, v = some d.useDefaultEndpoint) ∧
    (∀ v ∈ body.useDefaultMtu, v = some d.useDefaultMtu) ∧
    (∀ v ∈ body.useDefaultPersistentKeepalive, v = some d.useDefaultPersistentKeepalive) ∧
    (∀ v ∈ body.endpoint, v = d.endpoint) ∧ (∀ v ∈ body.mtu, v = d.mtu) ∧
    (∀ v ∈ body.persistentKeepalive, v = d.persistentKeepalive) ∧
    (∀ v ∈ body.allowedIps, v = d.allowedIps) ∧ ∀ v ∈ body.dns, v = d.dns

/-- The switches of the form are as in the row, and each override that the form sets is what it is. -/
def DeviceForm.KeepsConfig (form : DeviceForm) (d : Device) : Prop :=
  form.useDefaultAllowedIps = d.useDefaultAllowedIps ∧ form.useDefaultDns = d.useDefaultDns ∧
    form.useDefaultEndpoint = d.useDefaultEndpoint ∧ form.useDefaultMtu = d.useDefaultMtu ∧
    form.useDefaultPersistentKeepalive = d.useDefaultPersistentKeepalive ∧
    (form.useDefaultEndpoint = false → orNone (strip form.endpoint) = d.endpoint) ∧
    (form.useDefaultMtu = false → intOrNone form.mtu = some d.mtu) ∧
    (form.useDefaultPersistentKeepalive = false →
      intOrNone form.persistentKeepalive = some d.persistentKeepalive) ∧
    (form.useDefaultAllowedIps = false → some (splitList form.allowedIps) = d.allowedIps) ∧
    (form.useDefaultDns = false → some (splitList form.dns) = d.dns)

/-- All switches of the form are on. -/
def DeviceForm.UsesDefaults (form : DeviceForm) : Prop :=
  form.useDefaultAllowedIps = true ∧ form.useDefaultDns = true ∧ form.useDefaultEndpoint = true ∧
    form.useDefaultMtu = true ∧ form.useDefaultPersistentKeepalive = true

section Forms

variable {settings : Settings} {now : ℕ} {drawn : Drawn} {u : Uuid} {db : Database}
  {form : DeviceForm} {body : DeviceUpdate} {d d' : Device}

lemma getD_eq_self_iff {α : Type} {update : Option α} {a : α} :
    update.getD a = a ↔ ∀ v ∈ update, v = a := by
  cases update with
  | none => simp
  | some v => simp

/-- A flag that must not be null. -/
lemma eq_of_getD_iff {update : Option (Option Bool)} {b b' : Bool}
    (h : update.getD (some b) = some b') : b' = b ↔ ∀ v ∈ update, v = some b := by
  rw [← getD_eq_self_iff, h, Option.some_inj]

lemma DeviceUpdate.config_applyTo_iff (h : body.applyTo d = some d') :
    d'.config = d.config ↔ body.KeepsConfig d := by
  unfold DeviceUpdate.applyTo at h
  obtain ⟨name, -, h⟩ := Option.bind_eq_some_iff.1 h
  obtain ⟨useIps, hips, h⟩ := Option.bind_eq_some_iff.1 h
  obtain ⟨useDns, hdns, h⟩ := Option.bind_eq_some_iff.1 h
  obtain ⟨useEndpoint, hendpoint, h⟩ := Option.bind_eq_some_iff.1 h
  obtain ⟨useMtu, hmtu, h⟩ := Option.bind_eq_some_iff.1 h
  obtain ⟨useKeepalive, hkeepalive, h⟩ := Option.bind_eq_some_iff.1 h
  obtain rfl := Option.some.inj h
  unfold Device.config KeepsConfig
  rw [DeviceConfig.mk.injEq]
  dsimp only
  rw [eq_of_getD_iff hips, eq_of_getD_iff hdns, eq_of_getD_iff hendpoint, eq_of_getD_iff hmtu,
    eq_of_getD_iff hkeepalive, getD_eq_self_iff, getD_eq_self_iff, getD_eq_self_iff,
    getD_eq_self_iff, getD_eq_self_iff]

lemma eq_of_intUnless_iff {useDefault : Bool} {before n : Option ℤ} {s : String}
    (h : intUnless useDefault before s = some n) :
    n = before ↔ (useDefault = false → intOrNone s = some before) := by
  cases useDefault with
  | true => exact iff_of_true (Option.some.inj h).symm fun hf => by cases hf
  | false =>
    have hn : intOrNone s = some n := h
    rw [hn, Option.some_inj]
    exact ⟨fun he _ => he, fun he => he rfl⟩

/-- An override that is set only if the default is not used. -/
lemma ite_eq_before_iff {α : Type} {useDefault : Bool} {before value : α} :
    (if useDefault = true then before else value) = before ↔ (useDefault = false → value = before) := by
  cases useDefault with
  | true => simp
  | false => simp

lemma DeviceForm.config_applyTo_iff (h : form.applyTo d = some d') :
    d'.config = d.config ↔ form.KeepsConfig d := by
  unfold DeviceForm.applyTo at h
  obtain ⟨mtu, hmtu, h⟩ := Option.bind_eq_some_iff.1 h
  obtain ⟨keepalive, hkeepalive, h⟩ := Option.bind_eq_some_iff.1 h
  obtain rfl := Option.some.inj h
  unfold Device.config KeepsConfig
  rw [DeviceConfig.mk.injEq]
  dsimp only
  rw [ite_eq_before_iff, ite_eq_before_iff, ite_eq_before_iff, eq_of_intUnless_iff hmtu,
    eq_of_intUnless_iff hkeepalive]

/-- **A new device** has the default configuration just if all switches of the form are on. -/
lemma DeviceForm.config_device_iff (h : form.device settings now drawn u db = some d) :
    d.config = {} ↔ form.UsesDefaults := by
  unfold DeviceForm.device at h
  dsimp only at h
  split at h
  · cases h
  · obtain ⟨base, -, h⟩ := Option.bind_eq_some_iff.1 h
    obtain ⟨mtu, hmtu, h⟩ := Option.bind_eq_some_iff.1 h
    obtain ⟨keepalive, hkeepalive, h⟩ := Option.bind_eq_some_iff.1 h
    obtain ⟨rfl, -, -⟩ := taken_eq_some_iff.1 h
    unfold Device.config UsesDefaults
    rw [DeviceConfig.mk.injEq]
    dsimp only
    constructor
    · rintro ⟨h₁, h₂, h₃, h₄, h₅, -⟩
      exact ⟨h₁, h₂, h₃, h₄, h₅⟩
    · rintro ⟨h₁, h₂, h₃, h₄, h₅⟩
      rw [h₄] at hmtu
      rw [h₅] at hkeepalive
      rw [h₁, h₂, h₃, if_pos rfl, if_pos rfl, if_pos rfl]
      exact ⟨rfl, rfl, rfl, h₄, h₅, rfl, (Option.some.inj hmtu).symm,
        (Option.some.inj hkeepalive).symm, rfl, rfl⟩

/-- The body of a new device has no columns of the configuration. -/
lemma config_of_body {body : Api.DeviceCreate} {caller : User}
    (h : body.device settings now drawn caller db = some d) : d.config = {} := by
  unfold Api.DeviceCreate.device at h
  obtain ⟨base, hbase, h⟩ := Option.bind_eq_some_iff.1 h
  obtain ⟨rfl, -, -⟩ := taken_eq_some_iff.1 h
  obtain ⟨ipv4, ipv6, subnets, -, rfl⟩ := newDevice_eq_some hbase
  rfl

end Forms

/-! ### What a write does to the switches -/

/-- A new row has a new id, and the others are there. -/
def DeviceWrite.Fits (db : Database) : DeviceWrite → Prop
  | .insert d => ∀ e ∈ db.devices, e.id ≠ d.id
  | .put d' => ∃ d ∈ db.devices, d.id = d'.id
  | .erase id => ∃ d ∈ db.devices, d.id = id

/-- The write is one that the switches allow. -/
def DeviceWrite.Allowed (db : Database) : DeviceWrite → Prop
  | .insert d => ¬ db.ManagementOff ∧ (db.ConfigurationOff → d.config = {})
  | .put d' => db.ConfigurationOff → ∀ d ∈ db.devices, d.id = d'.id → d'.config = d.config
  | .erase _ => ¬ db.ManagementOff

section Writes

variable {db : Database} {d d' : Device} {id : Uuid}

lemma Honoured.refl (hids : (db.devices.map Device.id).Nodup) : Honoured db db := by
  refine ⟨fun _ => rfl, fun _ d' hd' => ⟨fun d hd hid => ?_, fun hnew => absurd rfl (hnew d' hd')⟩⟩
  rw [List.inj_on_of_nodup_map hids hd hd' hid]

lemma honoured_insert_iff (hids : (db.devices.map Device.id).Nodup)
    (hnew : ∀ e ∈ db.devices, e.id ≠ d.id) :
    Honoured db (db.write (some (.insert d))) ↔ (DeviceWrite.insert d).Allowed db := by
  have hself := Honoured.refl hids
  constructor
  · rintro ⟨hmanage, hconfig⟩
    refine ⟨fun hoff => ?_, fun hoff => ?_⟩
    · have hlen := congrArg List.length (hmanage hoff)
      simp [Database.write] at hlen
    · exact (hconfig hoff d (List.mem_append_right _ (List.mem_singleton_self d))).2 hnew
  · rintro ⟨hmanage, hconfig⟩
    refine ⟨fun hoff => absurd hoff hmanage, fun hoff d' hd' => ?_⟩
    rcases List.mem_append.1 hd' with hd' | hd'
    · exact hself.2 hoff d' hd'
    · rw [List.mem_singleton.1 hd']
      exact ⟨fun e he hid => absurd hid (hnew e he), fun _ => hconfig hoff⟩

lemma honoured_put_iff (hids : (db.devices.map Device.id).Nodup)
    (hrow : ∃ d ∈ db.devices, d.id = d'.id) :
    Honoured db (db.write (some (.put d'))) ↔ (DeviceWrite.put d').Allowed db := by
  have hself := Honoured.refl hids
  have hmem : ∀ e, e ∈ (db.setDevice d').devices ↔ e = d' ∨ (e ∈ db.devices ∧ e.id ≠ d'.id) :=
    fun e => mem_setDevice_iff hrow
  constructor
  · rintro ⟨-, hconfig⟩ hoff
    exact (hconfig hoff d' ((hmem d').2 (.inl rfl))).1
  · intro hallowed
    refine ⟨fun _ => List.map_writeBack fun c _ hc => hc.symm, fun hoff e he => ?_⟩
    rcases (hmem e).1 he with rfl | ⟨he, -⟩
    · obtain ⟨d, hd, hid⟩ := hrow
      exact ⟨hallowed hoff, fun hnew => absurd hid (hnew d hd)⟩
    · exact hself.2 hoff e he

lemma honoured_erase_iff (hids : (db.devices.map Device.id).Nodup)
    (hrow : ∃ d ∈ db.devices, d.id = id) :
    Honoured db (db.write (some (.erase id))) ↔ (DeviceWrite.erase id).Allowed db := by
  have hself := Honoured.refl hids
  constructor
  · rintro ⟨hmanage, -⟩ hoff
    obtain ⟨d, hd, rfl⟩ := hrow
    have hd' : d.id ∈ (db.eraseDevice d.id).devices.map Device.id := by
      have hsame := hmanage hoff
      rw [Database.write] at hsame
      rw [hsame]
      exact List.mem_map_of_mem hd
    obtain ⟨e, he, hid⟩ := List.mem_map.1 hd'
    exact (mem_eraseDevice_iff.1 he).2 hid
  · intro hallowed
    exact ⟨fun hoff => absurd hoff hallowed, fun hoff d' hd' =>
      hself.2 hoff d' (mem_eraseDevice_iff.1 hd').1⟩

/-- **The switches are honoured** just if what is written is allowed. -/
lemma honoured_write_iff (hids : (db.devices.map Device.id).Nodup) {w : Option DeviceWrite}
    (hfits : ∀ x ∈ w, x.Fits db) : Honoured db (db.write w) ↔ ∀ x ∈ w, x.Allowed db := by
  cases w with
  | none => exact iff_of_true (Honoured.refl hids) fun x hx => by cases hx
  | some w =>
    simp only [Option.mem_def, Option.some.injEq, forall_eq']
    cases w with
    | insert d => exact honoured_insert_iff hids (hfits _ rfl)
    | put d => exact honoured_put_iff hids (hfits _ rfl)
    | erase id => exact honoured_erase_iff hids (hfits _ rfl)

end Writes

/-! ### Which events are within the switches -/

section Events

variable (settings : Settings) (hmac : String → String) (now : ℕ)

/-- What the switches forbid would be refused anyway, or changes nothing. -/
def Api.DeviceRequest.Within (request : Api.DeviceRequest) (caller : User) (db : Database) : Prop :=
  match request with
  | .list | .get _ => True
  | .create body drawn => db.ManagementOff → body.device settings now drawn caller db = none
  | .update id body => db.ConfigurationOff → ∀ d ∈ Api.deviceFor caller id db,
      ∀ d' ∈ body.applyTo d, d'.Storable → body.KeepsConfig d
  | .delete id => db.ManagementOff → Api.deviceFor caller id db = none

def PageAction.Within (action : PageAction) (page : DevicePage) (db : Database) : Prop :=
  match page, action with
  | .devices user, .createDevice form drawn now =>
    form.device settings now drawn user.id db = none ∨
      ¬ db.ManagementOff ∧ (db.ConfigurationOff → form.UsesDefaults)
  | .devices user, .deleteDevice deviceId =>
    db.ManagementOff → ∀ d ∈ db.device deviceId, d.userId ≠ user.id
  | .detail _ deviceId, .saveEdit form => db.ConfigurationOff → ∀ d ∈ db.device deviceId,
      ∀ d' ∈ form.applyTo d, d'.Storable → form.KeepsConfig d
  | .detail _ deviceId, .deleteAndRedirect => db.ManagementOff → db.device deviceId = none
  | _, _ => True

def SiteEvent.Within (e : SiteEvent) (s : DeviceSite) : Prop :=
  match e with
  | .request authorization now req => ∀ caller,
      getCurrentApiUser hmac now s.db authorization = .ok caller →
        req.Within settings now caller s.db
  | .openDevices _ | .openDevice _ _ => True
  | .onPage i action => ∀ page ∈ s.pages[i]?, action.Within settings page s.db

end Events

section Iff

variable {settings : Settings} {hmac : String → String} {now : ℕ} {db : Database} {caller : User}
  {request : Api.DeviceRequest} {page : DevicePage} {action : PageAction} {d d' : Device} {id : Uuid}
  {e : SiteEvent} {s : DeviceSite}

lemma allowed_put_iff (hids : (db.devices.map Device.id).Nodup) (hd : db.device id = some d)
    (hid : d'.id = d.id) :
    (DeviceWrite.put d').Allowed db ↔ (db.ConfigurationOff → d'.config = d.config) := by
  obtain ⟨hmem, -⟩ := device_eq_some hd
  refine forall_congr' fun _ => ⟨fun h => h d hmem hid.symm, fun h c hc hcid => ?_⟩
  rw [List.inj_on_of_nodup_map hids hc hmem (hcid.trans hid)]
  exact h

lemma device_of_deviceFor (h : Api.deviceFor caller id db = some d) : db.device id = some d :=
  (Option.filter_eq_some_iff.1 h).1

lemma Api.DeviceRequest.fits_write :
    ∀ w ∈ request.write settings now db caller, w.Fits db := by
  intro w hw
  cases request with
  | list | get id => cases hw
  | create body drawn =>
    obtain ⟨d, hd, rfl⟩ := Option.map_eq_some_iff.1 hw
    exact fun e he => ((body.device_eq_some hd).2.2.2.2 e he).1
  | update id body =>
    obtain ⟨d, hd, hw⟩ := Option.bind_eq_some_iff.1 hw
    obtain ⟨d', hd', rfl⟩ := Option.map_eq_some_iff.1 hw
    exact ⟨d, (device_eq_some (device_of_deviceFor hd)).1,
      (sameIdentity_applyTo (Option.filter_eq_some_iff.1 hd').1).1.symm⟩
  | delete id =>
    obtain ⟨d, hd, rfl⟩ := Option.map_eq_some_iff.1 hw
    exact ⟨d, device_eq_some (device_of_deviceFor hd)⟩

lemma PageAction.fits_write : ∀ w ∈ action.write settings page db, w.Fits db := by
  intro w hw
  unfold PageAction.write at hw
  split at hw
  · obtain ⟨d, hd, rfl⟩ := Option.map_eq_some_iff.1 hw
    exact fun e he => ((DeviceForm.device_eq_some hd).2.2.2.2.2 e he).1
  · obtain ⟨d, hd, rfl⟩ := Option.map_eq_some_iff.1 hw
    exact ⟨d, device_eq_some (Option.filter_eq_some_iff.1 hd).1⟩
  · obtain ⟨d, hd, hw⟩ := Option.bind_eq_some_iff.1 hw
    obtain ⟨d', hd', rfl⟩ := Option.map_eq_some_iff.1 hw
    exact ⟨d, (device_eq_some hd).1,
      (DeviceForm.applyTo_eq_some (Option.filter_eq_some_iff.1 hd').1).1.symm⟩
  · obtain ⟨d, hd, rfl⟩ := Option.map_eq_some_iff.1 hw
    exact ⟨d, device_eq_some hd⟩
  · cases hw

/-- The row that an update would write is allowed just if it keeps the configuration. -/
lemma allowed_edit_iff (hids : (db.devices.map Device.id).Nodup) (hd : db.device id = some d)
    {edited : Option Device} {keeps : Prop}
    (hedited : ∀ d' ∈ edited, d'.id = d.id ∧ (d'.config = d.config ↔ keeps)) :
    (∀ w ∈ (edited.filter fun d => d.Storable).map DeviceWrite.put, w.Allowed db) ↔
      (db.ConfigurationOff → ∀ d' ∈ edited, d'.Storable → keeps) := by
  rw [Option.forall_mem_map]
  constructor
  · intro h hoff d' hd' hstore
    obtain ⟨hid, hkeeps⟩ := hedited d' hd'
    have hput := h d' (Option.filter_eq_some_iff.2 ⟨hd', decide_eq_true hstore⟩)
    exact hkeeps.1 ((allowed_put_iff hids hd hid).1 hput hoff)
  · intro h d' hd'
    obtain ⟨hd', hstore⟩ := Option.filter_eq_some_iff.1 hd'
    obtain ⟨hid, hkeeps⟩ := hedited d' hd'
    exact (allowed_put_iff hids hd hid).2 fun hoff =>
      hkeeps.2 (h hoff d' hd' (of_decide_eq_true hstore))

/-- A deletion is allowed just if there is nothing to delete, or devices may be. -/
lemma allowed_erase_iff {found : Option Device} :
    (∀ w ∈ found.map fun _ => DeviceWrite.erase id, w.Allowed db) ↔
      (db.ManagementOff → found = none) := by
  rw [Option.forall_mem_map, Option.eq_none_iff_forall_not_mem]
  exact ⟨fun h hoff d hd => h d hd hoff, fun h d hd hoff => h hoff d hd⟩

lemma Api.DeviceRequest.allowed_write_iff (hids : (db.devices.map Device.id).Nodup) :
    (∀ w ∈ request.write settings now db caller, w.Allowed db) ↔
      request.Within settings now caller db := by
  cases request with
  | list | get id => exact iff_of_true (fun w hw => by cases hw) trivial
  | create body drawn =>
    unfold DeviceRequest.write DeviceRequest.Within
    dsimp only
    rw [Option.forall_mem_map, Option.eq_none_iff_forall_not_mem]
    constructor
    · exact fun h hoff d hd => (h d hd).1 hoff
    · exact fun h d hd => ⟨fun hoff => h hoff d hd, fun _ => config_of_body hd⟩
  | update id body =>
    unfold DeviceRequest.write DeviceRequest.Within
    dsimp only
    cases hd : deviceFor caller id db with
    | none => exact iff_of_true (fun w hw => by cases hw) fun _ d hd => by cases hd
    | some d =>
      rw [Option.bind_some, allowed_edit_iff hids (device_of_deviceFor hd) fun d' hd' =>
        ⟨(sameIdentity_applyTo hd').1, DeviceUpdate.config_applyTo_iff hd'⟩]
      simp
  | delete id => exact allowed_erase_iff

lemma PageAction.allowed_write_iff (hids : (db.devices.map Device.id).Nodup) :
    (∀ w ∈ action.write settings page db, w.Allowed db) ↔ action.Within settings page db := by
  unfold PageAction.write PageAction.Within
  cases page with
  | devices user =>
    cases action with
    | createDevice form drawn now =>
      dsimp only
      rw [Option.forall_mem_map]
      cases hd : form.device settings now drawn user.id db with
      | none => simp
      | some d =>
        simp only [Option.mem_def, Option.some.injEq, forall_eq', reduceCtorEq, false_or]
        exact and_congr_right fun _ => forall_congr' fun _ => DeviceForm.config_device_iff hd
    | deleteDevice deviceId =>
      dsimp only
      rw [allowed_erase_iff]
      simp [Option.filter_eq_none_iff]
    | refreshTable | saveEdit form | deleteAndRedirect | refreshStats =>
      exact iff_of_true (fun w hw => by cases hw) trivial
  | detail user deviceId =>
    cases action with
    | saveEdit form =>
      dsimp only
      cases hd : db.device deviceId with
      | none => exact iff_of_true (fun w hw => by cases hw) fun _ d hd => by cases hd
      | some d =>
        rw [Option.bind_some, allowed_edit_iff hids hd fun d' hd' =>
          ⟨(DeviceForm.applyTo_eq_some hd').1, DeviceForm.config_applyTo_iff hd'⟩]
        simp
    | deleteAndRedirect => exact allowed_erase_iff
    | refreshTable | createDevice form drawn now | deleteDevice id | refreshStats =>
      exact iff_of_true (fun w hw => by cases hw) trivial

/-- **Which events honour the switches**, whoever acts: those that are refused for another reason,
and those that ask for nothing that the switches forbid. -/
theorem honoured_iff (hids : (s.db.devices.map Device.id).Nodup) (e : SiteEvent) :
    Honoured s.db (e.next settings hmac s).db ↔ e.Within settings hmac s := by
  unfold SiteEvent.next
  rw [SiteEvent.db_step]
  unfold SiteEvent.write SiteEvent.Within
  cases e with
  | request authorization now req =>
    dsimp only
    cases getCurrentApiUser hmac now s.db authorization with
    | error err => exact iff_of_true (.refl hids) fun caller h => by cases h
    | ok caller =>
      have hwrite : (Except.ok caller : Except HttpError User).toOption.bind
          (req.write settings now s.db) = req.write settings now s.db caller := rfl
      rw [hwrite, honoured_write_iff hids Api.DeviceRequest.fits_write,
        Api.DeviceRequest.allowed_write_iff hids]
      simp
  | openDevices user => exact iff_of_true (.refl hids) trivial
  | openDevice user deviceId => exact iff_of_true (.refl hids) trivial
  | onPage i action =>
    dsimp only
    cases s.pages[i]? with
    | none => exact iff_of_true (.refl hids) fun page h => by cases h
    | some page =>
      rw [Option.bind_some, honoured_write_iff hids PageAction.fits_write,
        PageAction.allowed_write_iff hids]
      simp

end Iff

/-! The page of a device is open, and both switches are off. -/

def switchesOff : DeviceSite where
  db := { Api.davesRows with
    configuration := some {
      allowUnprivilegedDeviceManagement := false
      allowUnprivilegedDeviceConfiguration := false
      updatedAt := 0 } }
  pages := [.detail ⟨dave.id, "unprivileged"⟩ Api.davesLaptop.id]

def setsMtu : SiteEvent := .onPage 0 (.saveEdit notebookForm)

def deletesDevice : SiteEvent := .onPage 0 .deleteAndRedirect

example : setsMtu.Unprivileged id switchesOff ∧ deletesDevice.Unprivileged id switchesOff := by decide

/-- **The device is configured and deleted** all the same. -/
theorem switches_ignored :
    ¬ Honoured switchesOff.db (setsMtu.next defaultSettings id switchesOff).db ∧
      ¬ Honoured switchesOff.db (deletesDevice.next defaultSettings id switchesOff).db := by
  decide

/-- The name of a device may be changed. -/
theorem honoured_iff_rename :
    Honoured switchesOff.db ((SiteEvent.onPage 0
      (.saveEdit { notebookForm with useDefaultMtu := true })).next defaultSettings id
        switchesOff).db := by
  refine (honoured_iff (by decide) _).2 fun page hpage => ?_
  cases hpage
  intro _ d hd d' _ _
  cases hd
  exact ⟨rfl, rfl, rfl, rfl, rfl, nofun, nofun, nofun, nofun, nofun⟩

end WireGui
