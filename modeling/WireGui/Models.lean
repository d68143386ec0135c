import WireGui.Ip.Text
import WireGui.Lib.Json

/-!
# The rows of the database

The tables of users, devices, rules, second factors, API tokens, connections to identity providers
and the configuration, with the columns the modelled code reads.  A point in time is a number.
-/

namespace WireGui

/-- A UUID, as the number of its 128 bits. -/
structure Uuid where
  val : ℕ
  lt : val < 2 ^ 128
  deriving DecidableEq

/-- The 32 hexadecimal digits of a UUID. -/
def Uuid.digits (u : Uuid) : List Char := (Ip.groups 16 32 u.val).map Nat.digitChar

/-- `str(UUID)`: the digits in groups of 8, 4, 4, 4 and 12. -/
def Uuid.str (u : Uuid) : String :=
  let ds := u.digits
  String.ofList (ds.take 8 ++ '-' :: ((ds.drop 8).take 4 ++ '-' :: ((ds.drop 12).take 4 ++
    '-' :: ((ds.drop 16).take 4 ++ '-' :: ds.drop 20))))

lemma digitChar_ne_dash {d : ℕ} (h : d < 16) : d.digitChar ≠ '-' := by
  interval_cases d <;> decide

lemma Uuid.ne_dash_of_mem {u : Uuid} {c : Char} (h : c ∈ u.digits) : c ≠ '-' := by
  obtain ⟨d, hd, rfl⟩ := List.mem_map.1 h
  exact digitChar_ne_dash (Ip.lt_of_mem_groups (by omega) hd)

/-- Without its hyphens, the text of a UUID is its digits. -/
theorem Uuid.filter_str (u : Uuid) : u.str.toList.filter (· ≠ '-') = u.digits := by
  have hf : ∀ l : List Char, (∀ c ∈ l, c ∈ u.digits) → l.filter (· ≠ '-') = l := by
    intro l hl
    refine List.filter_eq_self.2 fun c hc => ?_
    simpa using Uuid.ne_dash_of_mem (hl c hc)
  have hd : ∀ k, (u.digits.drop k).filter (· ≠ '-') = u.digits.drop k := fun k =>
    hf _ fun c hc => List.mem_of_mem_drop hc
  have ht : ∀ k m, ((u.digits.drop k).take m).filter (· ≠ '-') = (u.digits.drop k).take m :=
    fun k m => hf _ fun c hc => List.mem_of_mem_drop (List.mem_of_mem_take hc)
  have h0 := ht 0 8
  rw [List.drop_zero] at h0
  have hdash : ∀ l : List Char, ('-' :: l).filter (· ≠ '-') = l.filter (· ≠ '-') := by
    intro l
    simp
  rw [Uuid.str, String.toList_ofList, List.filter_append, hdash, List.filter_append, hdash,
    List.filter_append, hdash, List.filter_append, hdash, h0, ht, ht, ht, hd]
  have step : ∀ k m, (u.digits.drop k).take m ++ u.digits.drop (k + m) = u.digits.drop k := by
    intro k m
    rw [← List.drop_drop, List.take_append_drop]
  rw [step 16 4, step 12 4, step 8 4, List.take_append_drop]

lemma value_map_digitChar {ds : List ℕ} (h : ∀ d ∈ ds, d < 16) :
    (ds.map Nat.digitChar).mapM Ip.digitVal = some ds := by
  rw [List.mapM_eq_some_iff, List.forall₂_map_left_iff, List.forall₂_same]
  exact fun d hd => Ip.digitVal_digitChar (h d hd)

theorem Uuid.digits_injective {u v : Uuid} (h : u.digits = v.digits) : u = v := by
  have hu := value_map_digitChar fun d hd => Ip.lt_of_mem_groups (b := 16) (k := 32) (n := u.val)
    (by omega) hd
  have hv := value_map_digitChar fun d hd => Ip.lt_of_mem_groups (b := 16) (k := 32) (n := v.val)
    (by omega) hd
  rw [← Uuid.digits] at hu hv
  rw [h, hv] at hu
  have hg := congrArg (Ip.value 16) (Option.some.inj hu)
  rw [Ip.value_groups, Ip.value_groups, Nat.mod_eq_of_lt (by simpa using v.lt),
    Nat.mod_eq_of_lt (by simpa using u.lt)] at hg
  cases u; cases v
  cases hg
  rfl

theorem Uuid.str_injective {u v : Uuid} (h : u.str = v.str) : u = v := by
  apply Uuid.digits_injective
  rw [← u.filter_str, ← v.filter_str, h]

structure User where
  id : Uuid
  email : String
  passwordHash : Option String
  role : String
  lastSignedInAt : Option ℕ := none
  lastSignedInMethod : Option String := none
  disabledAt : Option ℕ
  themePreference : String
  insertedAt : ℕ := 0
  updatedAt : ℕ := 0
  deriving DecidableEq

/-- A device.  The lists of `allowed_ips` and `dns` are JSON columns, which may be null. -/
structure Device where
  id : Uuid
  name : String
  description : Option String := none
  publicKey : String
  presharedKey : Option String
  useDefaultAllowedIps : Bool := true
  useDefaultDns : Bool := true
  useDefaultEndpoint : Bool := true
  useDefaultMtu : Bool := true
  useDefaultPersistentKeepalive : Bool := true
  endpoint : Option String := none
  mtu : Option ℤ := none
  persistentKeepalive : Option ℤ := none
  allowedIps : Option (List String) := some []
  dns : Option (List String) := some []
  ipv4 : Option String
  ipv6 : Option String
  allowedSubnets : List String
  remoteIp : Option String := none
  rxBytes : Option ℤ := none
  txBytes : Option ℤ := none
  latestHandshake : Option ℕ := none
  userId : Uuid
  insertedAt : ℕ := 0
  updatedAt : ℕ := 0
  deriving DecidableEq

/-- `a` is one of the tunnel addresses of the device. -/
def Device.HasAddress (d : Device) (a : Ip.Addr) : Prop :=
  (∃ s ∈ d.ipv4, Ip.parseAddr .v4 s = some a) ∨ ∃ s ∈ d.ipv6, Ip.parseAddr .v6 s = some a

instance (d : Device) (a : Ip.Addr) : Decidable (d.HasAddress a) := by
  unfold Device.HasAddress; infer_instance

structure Rule where
  id : Uuid
  action : String
  destination : String
  portType : Option String
  portRange : Option String
  priority : ℤ
  userId : Option Uuid
  insertedAt : ℕ
  updatedAt : ℕ
  deriving DecidableEq

/-- A second factor of a user: `totp`, `native` or `portable`.  The payload is a dictionary. -/
structure MfaMethod where
  id : Uuid
  name : String
  type : String
  payload : List (String × String)
  userId : Uuid
  deriving DecidableEq

structure ApiToken where
  id : Uuid
  tokenHash : String
  expiresAt : Option ℕ
  userId : Uuid
  deriving DecidableEq

/-- What an identity provider has said about a user. -/
structure OidcConnection where
  id : Uuid
  provider : String
  refreshToken : Option String
  refreshedAt : Option ℕ := none
  userId : Uuid
  deriving DecidableEq

/-- The entry of an identity provider: `id`, `label`, `client_id` and so on. -/
abbrev Provider := Json.Object

/-- The configuration.  The lists are JSON columns, which may be null. -/
structure Configuration where
  allowUnprivilegedDeviceManagement : Bool := true
  allowUnprivilegedDeviceConfiguration : Bool := true
  localAuthEnabled : Bool := true
  disableVpnOnOidcError : Bool := false
  defaultClientPersistentKeepalive : ℤ := 25
  defaultClientMtu : ℤ := 1280
  defaultClientEndpoint : Option String := none
  defaultClientDns : Option (List String) := some ["1.1.1.1", "1.0.0.1"]
  defaultClientAllowedIps : Option (List String) := some ["0.0.0.0/0", "::/0"]
  allowPeerToPeer : Bool := false
  allowLanToPeers : Bool := false
  serverPublicKey : Option String := none
  vpnSessionDuration : ℤ := 0
  logoUrl : Option String := none
  logoType : Option String := none
  openidConnectProviders : Option (List Provider) := some []
  samlIdentityProviders : Option (List Provider) := some []
  insertedAt : ℕ := 0
  updatedAt : ℕ
  deriving DecidableEq

structure Settings where
  wgEnabled : Bool
  wgInterface : String
  wgIpv4Network : String
  wgIpv6Network : String
  deriving DecidableEq

/-- The service as it is set up by default, with WireGuard switched on. -/
def defaultSettings : Settings := ⟨true, "wg0", "10.3.2.0/24", "fd00::3:2:0/120"⟩

/-- The rows of the database.  The configuration table has at most one row. -/
structure Database where
  users : List User
  devices : List Device
  rules : List Rule
  mfaMethods : List MfaMethod
  apiTokens : List ApiToken := []
  oidcConnections : List OidcConnection := []
  configuration : Option Configuration
  deriving DecidableEq

end WireGui
