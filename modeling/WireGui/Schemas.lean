import WireGui.Models

/-!
# `schemas/`

What the API answers with, and the bodies that change devices and the configuration.  A row can be
answered with if its fields fit the schema: the lists from JSON columns must not be null.
-/

namespace WireGui

structure DeviceRead where
  id : Uuid
  name : String
  description : Option String
  publicKey : String
  ipv4 : Option String
  ipv6 : Option String
  useDefaultAllowedIps : Bool
  useDefaultDns : Bool
  useDefaultEndpoint : Bool
  useDefaultMtu : Bool
  useDefaultPersistentKeepalive : Bool
  endpoint : Option String
  mtu : Option ℤ
  persistentKeepalive : Option ℤ
  allowedIps : List String
  dns : List String
  rxBytes : Option ℤ
  txBytes : Option ℤ
  latestHandshake : Option ℕ
  userId : Uuid
  insertedAt : ℕ
  updatedAt : ℕ
  deriving DecidableEq

/-- The row as the response; `none` if it does not fit the schema. -/
def Device.read (device : Device) : Option DeviceRead := do
  let allowedIps ← device.allowedIps
  let dns ← device.dns
  return {
    id := device.id
    name := device.name
    description := device.description
    publicKey := device.publicKey
    ipv4 := device.ipv4
    ipv6 := device.ipv6
    useDefaultAllowedIps := device.useDefaultAllowedIps
    useDefaultDns := device.useDefaultDns
    useDefaultEndpoint := device.useDefaultEndpoint
    useDefaultMtu := device.useDefaultMtu
    useDefaultPersistentKeepalive := device.useDefaultPersistentKeepalive
    endpoint := device.endpoint
    mtu := device.mtu
    persistentKeepalive := device.persistentKeepalive
    allowedIps := allowedIps
    dns := dns
    rxBytes := device.rxBytes
    txBytes := device.txBytes
    latestHandshake := device.latestHandshake
    userId := device.userId
    insertedAt := device.insertedAt
    updatedAt := device.updatedAt }

structure RuleRead where
  id : Uuid
  action : String
  destination : String
  portType : Option String
  portRange : Option String
  priority : ℤ
  userId : Option Uuid
  insertedAt : ℕ
  updatedAt : ℕ
  deriving DecidableEq

def Rule.read (rule : Rule) : Option RuleRead :=
  some {
    id := rule.id
    action := rule.action
    destination := rule.destination
    portType := rule.portType
    portRange := rule.portRange
    priority := rule.priority
    userId := rule.userId
    insertedAt := rule.insertedAt
    updatedAt := rule.updatedAt }

structure UserRead where
  id : Uuid
  email : String
  role : String
  disabledAt : Option ℕ
  lastSignedInAt : Option ℕ
  lastSignedInMethod : Option String
  insertedAt : ℕ
  updatedAt : ℕ
  deriving DecidableEq

def User.read (user : User) : Option UserRead :=
  some {
    id := user.id
    email := user.email
    role := user.role
    disabledAt := user.disabledAt
    lastSignedInAt := user.lastSignedInAt
    lastSignedInMethod := user.lastSignedInMethod
    insertedAt := user.insertedAt
    updatedAt := user.updatedAt }

/-- `ConfigurationRead`, but for the id. -/
structure ConfigurationRead where
  allowUnprivilegedDeviceManagement : Bool
  allowUnprivilegedDeviceConfiguration : Bool
  localAuthEnabled : Bool
  disableVpnOnOidcError : Bool
  defaultClientPersistentKeepalive : ℤ
  defaultClientMtu : ℤ
  defaultClientEndpoint : Option String
  defaultClientDns : List String
  defaultClientAllowedIps : List String
  vpnSessionDuration : ℤ
  logoUrl : Option String
  logoType : Option String
  insertedAt : ℕ
  updatedAt : ℕ
  deriving DecidableEq

def Configuration.read (config : Configuration) : Option ConfigurationRead := do
  let defaultClientDns ← config.defaultClientDns
  let defaultClientAllowedIps ← config.defaultClientAllowedIps
  return {
    allowUnprivilegedDeviceManagement := config.allowUnprivilegedDeviceManagement
    allowUnprivilegedDeviceConfiguration := config.allowUnprivilegedDeviceConfiguration
    localAuthEnabled := config.localAuthEnabled
    disableVpnOnOidcError := config.disableVpnOnOidcError
    defaultClientPersistentKeepalive := config.defaultClientPersistentKeepalive
    defaultClientMtu := config.defaultClientMtu
    defaultClientEndpoint := config.defaultClientEndpoint
    defaultClientDns := defaultClientDns
    defaultClientAllowedIps := defaultClientAllowedIps
    vpnSessionDuration := config.vpnSessionDuration
    logoUrl := config.logoUrl
    logoType := config.logoType
    insertedAt := config.insertedAt
    updatedAt := config.updatedAt }

/-! ### Bodies

have for each field nothing, or a value that may be null.  `applyTo` is the loop of `setattr`; it
gives `none` where a column that must not be null would be, which the commit refuses. -/

structure DeviceUpdate where
  name : Option (Option String) := none
  description : Option (Option String) := none
  useDefaultAllowedIps : Option (Option Bool) := none
  useDefaultDns : Option (Option Bool) := none
  useDefaultEndpoint : Option (Option Bool) := none
  useDefaultMtu : Option (Option Bool) := none
  useDefaultPersistentKeepalive : Option (Option Bool) := none
  endpoint : Option (Option String) := none
  mtu : Option (Option ℤ) := none
  persistentKeepalive : Option (Option ℤ) := none
  allowedIps : Option (Option (List String)) := none
  dns : Option (Option (List String)) := none

def DeviceUpdate.applyTo (body : DeviceUpdate) (device : Device) : Option Device := do
  let name ← body.name.getD (some device.name)
  let useDefaultAllowedIps ← body.useDefaultAllowedIps.getD (some device.useDefaultAllowedIps)
  let useDefaultDns ← body.useDefaultDns.getD (some device.useDefaultDns)
  let useDefaultEndpoint ← body.useDefaultEndpoint.getD (some device.useDefaultEndpoint)
  let useDefaultMtu ← body.useDefaultMtu.getD (some device.useDefaultMtu)
  let useDefaultPersistentKeepalive ←
    body.useDefaultPersistentKeepalive.getD (some device.useDefaultPersistentKeepalive)
  return { device with
    name := name
    description := body.description.getD device.description
    useDefaultAllowedIps := useDefaultAllowedIps
    useDefaultDns := useDefaultDns
    useDefaultEndpoint := useDefaultEndpoint
    useDefaultMtu := useDefaultMtu
    useDefaultPersistentKeepalive := useDefaultPersistentKeepalive
    endpoint := body.endpoint.getD device.endpoint
    mtu := body.mtu.getD device.mtu
    persistentKeepalive := body.persistentKeepalive.getD device.persistentKeepalive
    allowedIps := body.allowedIps.getD device.allowedIps
    dns := body.dns.getD device.dns }

structure ConfigurationUpdate where
  allowUnprivilegedDeviceManagement : Option (Option Bool) := none
  allowUnprivilegedDeviceConfiguration : Option (Option Bool) := none
  localAuthEnabled : Option (Option Bool) := none
  disableVpnOnOidcError : Option (Option Bool) := none
  defaultClientPersistentKeepalive : Option (Option ℤ) := none
  defaultClientMtu : Option (Option ℤ) := none
  defaultClientEndpoint : Option (Option String) := none
  defaultClientDns : Option (Option (List String)) := none
  defaultClientAllowedIps : Option (Option (List String)) := none
  vpnSessionDuration : Option (Option ℤ) := none
  logoUrl : Option (Option String) := none
  logoType : Option (Option String) := none

def ConfigurationUpdate.applyTo (body : ConfigurationUpdate) (config : Configuration) :
    Option Configuration := do
  let allowUnprivilegedDeviceManagement ←
    body.allowUnprivilegedDeviceManagement.getD (some config.allowUnprivilegedDeviceManagement)
  let allowUnprivilegedDeviceConfiguration ← body.allowUnprivilegedDeviceConfiguration.getD
    (some config.allowUnprivilegedDeviceConfiguration)
  let localAuthEnabled ← body.localAuthEnabled.getD (some config.localAuthEnabled)
  let disableVpnOnOidcError ← body.disableVpnOnOidcError.getD (some config.disableVpnOnOidcError)
  let defaultClientPersistentKeepalive ←
    body.defaultClientPersistentKeepalive.getD (some config.defaultClientPersistentKeepalive)
  let defaultClientMtu ← body.defaultClientMtu.getD (some config.defaultClientMtu)
  let vpnSessionDuration ← body.vpnSessionDuration.getD (some config.vpnSessionDuration)
  return { config with
    allowUnprivilegedDeviceManagement := allowUnprivilegedDeviceManagement
    allowUnprivilegedDeviceConfiguration := allowUnprivilegedDeviceConfiguration
    localAuthEnabled := localAuthEnabled
    disableVpnOnOidcError := disableVpnOnOidcError
    defaultClientPersistentKeepalive := defaultClientPersistentKeepalive
    defaultClientMtu := defaultClientMtu
    defaultClientEndpoint := body.defaultClientEndpoint.getD config.defaultClientEndpoint
    defaultClientDns := body.defaultClientDns.getD config.defaultClientDns
    defaultClientAllowedIps := body.defaultClientAllowedIps.getD config.defaultClientAllowedIps
    vpnSessionDuration := vpnSessionDuration
    logoUrl := body.logoUrl.getD config.logoUrl
    logoType := body.logoType.getD config.logoType }

/-- A list becomes null. -/
def DeviceUpdate.NullsList (body : DeviceUpdate) : Prop :=
  body.allowedIps = some none ∨ body.dns = some none

def ConfigurationUpdate.NullsList (body : ConfigurationUpdate) : Prop :=
  body.defaultClientDns = some none ∨ body.defaultClientAllowedIps = some none

section Read

variable {device device' : Device} {config config' : Configuration}

lemma read_eq_none_iff : device.read = none ↔ device.allowedIps = none ∨ device.dns = none := by
  unfold Device.read
  cases device.allowedIps with
  | none => simp
  | some allowedIps => cases device.dns <;> simp

lemma read_config_eq_none_iff :
    config.read = none ↔ config.defaultClientDns = none ∨ config.defaultClientAllowedIps = none := by
  unfold Configuration.read
  cases config.defaultClientDns with
  | none => simp
  | some dns => cases config.defaultClientAllowedIps <;> simp

/-- A value that was not null is null only if the body says so. -/
lemma getD_eq_none_iff {α : Type} {update : Option (Option α)} {value : Option α}
    (h : value ≠ none) : update.getD value = none ↔ update = some none := by
  cases update with
  | none => exact iff_of_false h nofun
  | some value' => exact Option.some_inj.symm

/-- An update leaves the row where it is. -/
lemma DeviceUpdate.applyTo_eq_some {body : DeviceUpdate} (h : body.applyTo device = some device') :
    device'.id = device.id ∧ device'.allowedIps = body.allowedIps.getD device.allowedIps ∧
      device'.dns = body.dns.getD device.dns := by
  unfold DeviceUpdate.applyTo at h
  simp only [Option.bind_eq_bind, Option.bind_eq_some_iff, Option.pure_def, Option.some_inj] at h
  obtain ⟨_, -, _, -, _, -, _, -, _, -, _, -, rfl⟩ := h
  exact ⟨rfl, rfl, rfl⟩

lemma ConfigurationUpdate.applyTo_eq_some {body : ConfigurationUpdate}
    (h : body.applyTo config = some config') :
    config'.defaultClientDns = body.defaultClientDns.getD config.defaultClientDns ∧
      config'.defaultClientAllowedIps =
        body.defaultClientAllowedIps.getD config.defaultClientAllowedIps := by
  unfold ConfigurationUpdate.applyTo at h
  simp only [Option.bind_eq_bind, Option.bind_eq_some_iff, Option.pure_def, Option.some_inj] at h
  obtain ⟨_, -, _, -, _, -, _, -, _, -, _, -, _, -, rfl⟩ := h
  exact ⟨rfl, rfl⟩

/-- **The row after an update** fits the schema exactly if no list is set to null. -/
theorem read_applyTo_iff {body : DeviceUpdate} (hread : device.read ≠ none)
    (h : body.applyTo device = some device') : device'.read ≠ none ↔ ¬ body.NullsList := by
  obtain ⟨-, hips, hdns⟩ := DeviceUpdate.applyTo_eq_some h
  have hrow := not_or.1 (mt read_eq_none_iff.2 hread)
  rw [Ne, read_eq_none_iff, hips, hdns, getD_eq_none_iff hrow.1, getD_eq_none_iff hrow.2]
  rfl

theorem read_config_applyTo_iff {body : ConfigurationUpdate} (hread : config.read ≠ none)
    (h : body.applyTo config = some config') : config'.read ≠ none ↔ ¬ body.NullsList := by
  obtain ⟨hdns, hips⟩ := ConfigurationUpdate.applyTo_eq_some h
  have hrow := not_or.1 (mt read_config_eq_none_iff.2 hread)
  rw [Ne, read_config_eq_none_iff, hdns, hips, getD_eq_none_iff hrow.1, getD_eq_none_iff hrow.2]
  rfl

end Read

end WireGui
