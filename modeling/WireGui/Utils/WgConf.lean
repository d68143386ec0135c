import WireGui.Lib.Ini
import WireGui.Services.Wireguard

/-!
# `utils/wg_conf.py`: what clients are configured with

Each default comes from three layers: the device, the configuration and the settings.
`decodeClientConfig_buildClientConfig`: the file that is built says what the layers say.
-/

namespace WireGui

/-- The settings that clients get by default. -/
structure ClientSettings where
  wgEndpointHost : String := "localhost"
  wgEndpointPort : ℤ := 51820
  wgDns : String := "1.1.1.1, 1.0.0.1"
  wgMtu : ℤ := 1280
  wgPersistentKeepalive : ℤ := 25
  wgAllowedIps : String := "0.0.0.0/0, ::/0"
  deriving DecidableEq

/-- A `str` or a list of them. -/
inductive TextOrList where
  | text (s : String)
  | list (items : List String)
  deriving DecidableEq

def TextOrList.str : TextOrList → String
  | .text s => s
  | .list items => ", ".intercalate items

/-- `bool(…)` -/
def TextOrList.truthy : TextOrList → Bool
  | .text s => s ≠ ""
  | .list items => items ≠ []

/-! ### The layers -/

section Build

variable (d : Device) (dbConfig : Option Configuration) (settings : ClientSettings)

/-- A list of the configuration, unless it is empty. -/
def storedOr (stored : Option (List String)) (env : String) : TextOrList :=
  match stored with
  | some (item :: items) => .list (item :: items)
  | _ => .text env

def resolveDns : Option TextOrList :=
  if d.useDefaultDns then
    some (storedOr (dbConfig.bind Configuration.defaultClientDns) settings.wgDns)
  else d.dns.map .list

def resolveEndpointHost : Option String :=
  if d.useDefaultEndpoint then
    some ((truthy (dbConfig.bind Configuration.defaultClientEndpoint)).getD settings.wgEndpointHost)
  else d.endpoint

def resolveMtu : Option ℤ :=
  if d.useDefaultMtu then some (dbConfig.elim settings.wgMtu Configuration.defaultClientMtu)
  else d.mtu

def resolveKeepalive : Option ℤ :=
  if d.useDefaultPersistentKeepalive then
    some (dbConfig.elim settings.wgPersistentKeepalive
      Configuration.defaultClientPersistentKeepalive)
  else d.persistentKeepalive

def resolveAllowedIps : Option TextOrList :=
  if d.useDefaultAllowedIps then
    some (storedOr (dbConfig.bind Configuration.defaultClientAllowedIps) settings.wgAllowedIps)
  else d.allowedIps.map .list

/-! ### The file -/

def Device.tunnelAddresses (d : Device) : List String :=
  ((truthy d.ipv4).toList.map fun a => s!"{a}/32") ++
    ((truthy d.ipv6).toList.map fun a => s!"{a}/128")

/-- `f"{endpoint_host}:{endpoint_port}"`; a missing host is written as `None`. -/
def endpointText : String :=
  (resolveEndpointHost d dbConfig settings).getD "None" ++ ":" ++ toString settings.wgEndpointPort

/-- A line that is left out without a value. -/
def optionalLine (key : String) (value : Option String) : List String :=
  value.toList.map fun v => key ++ " = " ++ v

/-- The value of a list, which is left out if it is empty. -/
def listValue (value : Option TextOrList) : Option String :=
  (value.filter TextOrList.truthy).map TextOrList.str

/-- The value of a number, which is left out if it is zero. -/
def numberValue (value : Option ℤ) : Option String := (value.filter (· ≠ 0)).map toString

/-- The addresses of the device, if it has any. -/
def Device.addressValue (d : Device) : Option String :=
  if d.tunnelAddresses = [] then none else some (", ".intercalate d.tunnelAddresses)

/-- `build_client_config` -/
def buildClientConfig (privateKey serverPublicKey : String) : String :=
  let lines :=
    ["[Interface]", "PrivateKey = " ++ privateKey] ++
    optionalLine "Address" d.addressValue ++
    optionalLine "DNS" (listValue (resolveDns d dbConfig settings)) ++
    optionalLine "MTU" (numberValue (resolveMtu d dbConfig settings)) ++
    ["", "[Peer]", "PublicKey = " ++ serverPublicKey] ++
    optionalLine "PresharedKey" (truthy d.presharedKey) ++
    optionalLine "AllowedIPs" (listValue (resolveAllowedIps d dbConfig settings)) ++
    ["Endpoint = " ++ endpointText d dbConfig settings] ++
    optionalLine "PersistentKeepalive" (numberValue (resolveKeepalive d dbConfig settings))
  "\n".intercalate lines ++ "\n"

end Build

/-! ### What the file says -/

/-- The values of a configuration file; a line that is not there has none. -/
structure ClientConfig where
  privateKey : String
  address : Option String
  dns : Option String
  mtu : Option ℤ
  publicKey : String
  presharedKey : Option String
  allowedIps : Option String
  endpoint : String
  persistentKeepalive : Option ℤ
  deriving DecidableEq

/-- The value of the first entry, if it has the key. -/
def takeField (key : String) (entries : List (String × String)) :
    Option String × List (String × String) :=
  match entries with
  | entry :: rest => if entry.1 = key then (some entry.2, rest) else (none, entries)
  | [] => (none, [])

/-- A number; a line without one is an error. -/
def takeNumber (value : Option String) : Option (Option ℤ) :=
  value.elim (some none) fun s => (readInteger s.toList).map some

/-- The file, as it is meant to be: two sections, whose lines stand in their order. -/
def decodeClientConfig (s : String) : Option ClientConfig := do
  match ← Ini.decode s with
  | [⟨"Interface", interface⟩, ⟨"Peer", peer⟩] =>
    let (privateKey, interface) := takeField "PrivateKey" interface
    let (address, interface) := takeField "Address" interface
    let (dns, interface) := takeField "DNS" interface
    let (mtu, interface) := takeField "MTU" interface
    let (publicKey, peer) := takeField "PublicKey" peer
    let (presharedKey, peer) := takeField "PresharedKey" peer
    let (allowedIps, peer) := takeField "AllowedIPs" peer
    let (endpoint, peer) := takeField "Endpoint" peer
    let (keepalive, peer) := takeField "PersistentKeepalive" peer
    if interface = [] ∧ peer = [] then
      return {
        privateKey := ← privateKey
        address := address
        dns := dns
        mtu := ← takeNumber mtu
        publicKey := ← publicKey
        presharedKey := presharedKey
        allowedIps := allowedIps
        endpoint := ← endpoint
        persistentKeepalive := ← takeNumber keepalive }
    else none
  | _ => none

/-! ### What the layers say -/

section Layers

variable {α : Type}

/-- **A setting of a device**: its own value, or else the default, which is the stored one or else
that of the environment. -/
def layered (useDefault : Bool) (own stored : Option α) (env : α) : Option α :=
  if useDefault then some (stored.getD env) else own

variable (d : Device) (dbConfig : Option Configuration) (settings : ClientSettings)

/-- A stored list, which counts only if it is not empty. -/
def storedItems (stored : Configuration → Option (List String)) : Option TextOrList :=
  ((dbConfig.bind stored).filter (· ≠ [])).map .list

def layeredDns : Option TextOrList :=
  layered d.useDefaultDns (d.dns.map .list) (storedItems dbConfig Configuration.defaultClientDns)
    (.text settings.wgDns)

def layeredAllowedIps : Option TextOrList :=
  layered d.useDefaultAllowedIps (d.allowedIps.map .list)
    (storedItems dbConfig Configuration.defaultClientAllowedIps) (.text settings.wgAllowedIps)

def layeredMtu : Option ℤ :=
  layered d.useDefaultMtu d.mtu (dbConfig.map Configuration.defaultClientMtu) settings.wgMtu

def layeredKeepalive : Option ℤ :=
  layered d.useDefaultPersistentKeepalive d.persistentKeepalive
    (dbConfig.map Configuration.defaultClientPersistentKeepalive) settings.wgPersistentKeepalive

/-- **The settings of a device**, as they come out of the layers.  What is empty or zero is left
out. -/
def layeredConfig (privateKey serverPublicKey : String) : ClientConfig where
  privateKey := privateKey
  address := d.addressValue
  dns := listValue (layeredDns d dbConfig settings)
  mtu := (layeredMtu d dbConfig settings).filter (· ≠ 0)
  publicKey := serverPublicKey
  presharedKey := truthy d.presharedKey
  allowedIps := listValue (layeredAllowedIps d dbConfig settings)
  endpoint := endpointText d dbConfig settings
  persistentKeepalive := (layeredKeepalive d dbConfig settings).filter (· ≠ 0)

end Layers

/-! ### The file as sections -/

def optionalEntry (key : String) (value : Option String) : List (String × String) :=
  value.toList.map fun v => (key, v)

section

variable (d : Device) (dbConfig : Option Configuration) (settings : ClientSettings)

def interfaceSection (privateKey : String) : Ini.Section where
  name := "Interface"
  entries := ("PrivateKey", privateKey) :: (optionalEntry "Address" d.addressValue ++
    (optionalEntry "DNS" (listValue (resolveDns d dbConfig settings)) ++
      optionalEntry "MTU" (numberValue (resolveMtu d dbConfig settings))))

def peerSection (serverPublicKey : String) : Ini.Section where
  name := "Peer"
  entries := ("PublicKey", serverPublicKey) :: (optionalEntry "PresharedKey" (truthy d.presharedKey) ++
    (optionalEntry "AllowedIPs" (listValue (resolveAllowedIps d dbConfig settings)) ++
      ("Endpoint", endpointText d dbConfig settings) ::
        optionalEntry "PersistentKeepalive" (numberValue (resolveKeepalive d dbConfig settings))))

end

section Sections

variable {d : Device} {dbConfig : Option Configuration} {settings : ClientSettings}
  {privateKey serverPublicKey : String}

lemma storedOr_eq (stored : Configuration → Option (List String)) (env : String) :
    storedOr (dbConfig.bind stored) env = (storedItems dbConfig stored).getD (.text env) := by
  unfold storedOr storedItems
  rcases dbConfig.bind stored with _ | _ | ⟨item, items⟩
  · rfl
  · rfl
  · rfl

lemma resolveDns_eq : resolveDns d dbConfig settings = layeredDns d dbConfig settings := by
  rw [resolveDns, storedOr_eq, layeredDns, layered]

lemma resolveAllowedIps_eq :
    resolveAllowedIps d dbConfig settings = layeredAllowedIps d dbConfig settings := by
  rw [resolveAllowedIps, storedOr_eq, layeredAllowedIps, layered]

lemma resolveMtu_eq : resolveMtu d dbConfig settings = layeredMtu d dbConfig settings := by
  rw [resolveMtu, layeredMtu, layered]
  cases dbConfig with
  | none => rfl
  | some config => rfl

lemma resolveKeepalive_eq :
    resolveKeepalive d dbConfig settings = layeredKeepalive d dbConfig settings := by
  rw [resolveKeepalive, layeredKeepalive, layered]
  cases dbConfig with
  | none => rfl
  | some config => rfl

lemma map_optionalEntry (key : String) (value : Option String) :
    (optionalEntry key value).map (fun entry => entry.1 ++ " = " ++ entry.2) =
      optionalLine key value := by
  rw [optionalEntry, List.map_map, optionalLine]
  rfl

/-- **The file** is the text of its two sections. -/
lemma buildClientConfig_eq : buildClientConfig d dbConfig settings privateKey serverPublicKey =
    Ini.text [interfaceSection d dbConfig settings privateKey,
      peerSection d dbConfig settings serverPublicKey] := by
  rw [buildClientConfig, Ini.text, Ini.lines, List.map_cons, List.map_singleton,
    List.intercalate_cons_cons, List.intercalate_singleton, Ini.Section.lines, Ini.Section.lines]
  simp only [interfaceSection, peerSection, List.map_cons, List.map_append, map_optionalEntry]
  simp

lemma takeField_cons (key value : String) (rest : List (String × String)) :
    takeField key ((key, value) :: rest) = (some value, rest) := if_pos rfl

lemma takeField_optionalEntry {key : String} {value : Option String} {rest : List (String × String)}
    (h : ∀ entry ∈ rest, entry.1 ≠ key) :
    takeField key (optionalEntry key value ++ rest) = (value, rest) := by
  cases value with
  | some v => exact takeField_cons key v rest
  | none =>
    cases rest with
    | nil => rfl
    | cons entry rest => exact if_neg (h entry List.mem_cons_self)

lemma fst_of_mem_optionalEntry {key : String} {value : Option String} {entry : String × String}
    (h : entry ∈ optionalEntry key value) : entry.1 = key := by
  obtain ⟨v, -, rfl⟩ := List.mem_map.1 h
  rfl

lemma forall_optionalEntry_ne {key key' : String} (value : Option String) (h : key ≠ key') :
    ∀ entry ∈ optionalEntry key value, entry.1 ≠ key' := fun _ hentry =>
  fst_of_mem_optionalEntry hentry ▸ h

lemma takeNumber_numberValue (value : Option ℤ) :
    takeNumber (numberValue value) = some (value.filter (· ≠ 0)) := by
  rw [numberValue]
  cases value.filter (· ≠ 0) with
  | none => rfl
  | some n => rw [Option.map_some, takeNumber, Option.elim_some, readInteger_toString, Option.map_some]

lemma takeField_last (key : String) (value : Option String) :
    takeField key (optionalEntry key value) = (value, []) := by
  have h : takeField key (optionalEntry key value ++ []) = (value, []) :=
    takeField_optionalEntry fun _ hentry => absurd hentry List.not_mem_nil
  rwa [List.append_nil] at h

/-- The fields of the interface after the first one. -/
lemma takeField_interface (address dns mtu : Option String) :
    takeField "Address" (optionalEntry "Address" address ++ (optionalEntry "DNS" dns ++
        optionalEntry "MTU" mtu)) = (address, optionalEntry "DNS" dns ++ optionalEntry "MTU" mtu) ∧
      takeField "DNS" (optionalEntry "DNS" dns ++ optionalEntry "MTU" mtu) =
        (dns, optionalEntry "MTU" mtu) := by
  have hmtu : ∀ key : String, "MTU" ≠ key → ∀ entry ∈ optionalEntry "MTU" mtu, entry.1 ≠ key :=
    fun _ h => forall_optionalEntry_ne mtu h
  refine ⟨takeField_optionalEntry (List.forall_mem_append.2 ⟨?_, hmtu _ (by decide)⟩),
    takeField_optionalEntry (hmtu _ (by decide))⟩
  exact forall_optionalEntry_ne dns (by decide)

/-- The fields of the peer after the first one. -/
lemma takeField_peer (presharedKey allowedIps keepalive : Option String) (endpoint : String) :
    takeField "PresharedKey" (optionalEntry "PresharedKey" presharedKey ++
        (optionalEntry "AllowedIPs" allowedIps ++ ("Endpoint", endpoint) ::
          optionalEntry "PersistentKeepalive" keepalive)) =
        (presharedKey, optionalEntry "AllowedIPs" allowedIps ++ ("Endpoint", endpoint) ::
          optionalEntry "PersistentKeepalive" keepalive) ∧
      takeField "AllowedIPs" (optionalEntry "AllowedIPs" allowedIps ++ ("Endpoint", endpoint) ::
          optionalEntry "PersistentKeepalive" keepalive) =
        (allowedIps, ("Endpoint", endpoint) :: optionalEntry "PersistentKeepalive" keepalive) := by
  have hrest : ∀ key : String, "Endpoint" ≠ key → "PersistentKeepalive" ≠ key →
      ∀ entry ∈ ("Endpoint", endpoint) :: optionalEntry "PersistentKeepalive" keepalive,
        entry.1 ≠ key :=
    fun _ h h' => List.forall_mem_cons.2 ⟨h, forall_optionalEntry_ne keepalive h'⟩
  refine ⟨takeField_optionalEntry (List.forall_mem_append.2
    ⟨?_, hrest _ (by decide) (by decide)⟩), takeField_optionalEntry (hrest _ (by decide) (by decide))⟩
  exact forall_optionalEntry_ne allowedIps (by decide)

/-- **The two sections are decoded** to what the layers say. -/
lemma decodeClientConfig_of_printable
    (hi : (interfaceSection d dbConfig settings privateKey).Printable)
    (hp : (peerSection d dbConfig settings serverPublicKey).Printable) :
    decodeClientConfig (buildClientConfig d dbConfig settings privateKey serverPublicKey) =
      some (layeredConfig d dbConfig settings privateKey serverPublicKey) := by
  have hdecode := Ini.decode_text (List.forall_mem_cons.2 ⟨hi, List.forall_mem_singleton.2 hp⟩)
  obtain ⟨haddress, hdns⟩ := takeField_interface d.addressValue
    (listValue (resolveDns d dbConfig settings)) (numberValue (resolveMtu d dbConfig settings))
  obtain ⟨hpsk, hips⟩ := takeField_peer (truthy d.presharedKey)
    (listValue (resolveAllowedIps d dbConfig settings))
    (numberValue (resolveKeepalive d dbConfig settings)) (endpointText d dbConfig settings)
  rw [decodeClientConfig, buildClientConfig_eq, hdecode]
  simp only [Option.bind_eq_bind, Option.bind_some, interfaceSection, peerSection, takeField_cons,
    haddress, hdns, takeField_last, hpsk, hips, and_self, if_true, takeNumber_numberValue]
  rw [layeredConfig, resolveDns_eq, resolveAllowedIps_eq, resolveMtu_eq, resolveKeepalive_eq]
  rfl

end Sections

/-! ### Values that fit their lines -/

/-- An item of a list that is joined: a single line, without commas and without blanks around it. -/
def IsItem (s : String) : Prop := '\n' ∉ s.toList ∧ ',' ∉ s.toList ∧ strip s = s

instance (s : String) : Decidable (IsItem s) := by
  unfold IsItem; infer_instance

/-- The strings that a configuration file is made of. -/
def configStrings (d : Device) (dbConfig : Option Configuration) (settings : ClientSettings)
    (privateKey serverPublicKey : String) : List String :=
  [privateKey, serverPublicKey, settings.wgEndpointHost, settings.wgDns, settings.wgAllowedIps] ++
    d.presharedKey.toList ++ d.ipv4.toList ++ d.ipv6.toList ++ d.endpoint.toList ++
    (dbConfig.bind Configuration.defaultClientEndpoint).toList

/-- The items of its lists. -/
def configItems (d : Device) (dbConfig : Option Configuration) : List String :=
  d.dns.getD [] ++ d.allowedIps.getD [] ++
    (dbConfig.bind Configuration.defaultClientDns).getD [] ++
    (dbConfig.bind Configuration.defaultClientAllowedIps).getD []

/-- A value of a list that fits its line. -/
def TextOrList.Fits : TextOrList → Prop
  | .text s => '\n' ∉ s.toList
  | .list items => ∀ s ∈ items, IsItem s

section Values

variable {d : Device} {dbConfig : Option Configuration} {settings : ClientSettings}
  {privateKey serverPublicKey : String} {v : TextOrList}

lemma mem_layered {α : Type} {useDefault : Bool} {own stored : Option α} {env a : α}
    (h : a ∈ layered useDefault own stored env) : a ∈ own ∨ a ∈ stored ∨ a = env := by
  unfold layered at h
  split at h
  · cases stored with
    | none => exact .inr (.inr (Option.some.inj h).symm)
    | some b => exact .inr (.inl h)
  · exact .inl h

lemma newline_notMem_join {items : List String} (h : ∀ s ∈ items, '\n' ∉ s.toList) :
    '\n' ∉ (", ".intercalate items).toList := by
  induction items with
  | nil => decide
  | cons s items ih =>
    have hs := h s List.mem_cons_self
    cases items with
    | nil => rwa [String.intercalate_singleton]
    | cons t items =>
      have hrest := ih fun s hs => h s (List.mem_cons_of_mem _ hs)
      rw [String.intercalate_cons_cons, String.toList_append, String.toList_append,
        List.mem_append, List.mem_append]
      rintro ((hc | hc) | hc)
      · exact hs hc
      · exact absurd hc (by decide)
      · exact hrest hc

lemma TextOrList.Fits.newline_notMem (h : v.Fits) : '\n' ∉ v.str.toList := by
  cases v with
  | text s => exact h
  | list items => exact newline_notMem_join fun s hs => (h s hs).1

/-- A setting that is a list fits its line. -/
lemma fits_layered {useDefault : Bool} {own : Option (List String)}
    {stored : Configuration → Option (List String)} {env : String}
    (hown : ∀ s ∈ own.getD [], IsItem s) (hstored : ∀ s ∈ (dbConfig.bind stored).getD [], IsItem s)
    (henv : '\n' ∉ env.toList) :
    ∀ v ∈ layered useDefault (own.map .list) (storedItems dbConfig stored) (.text env), v.Fits := by
  intro v hv
  rcases mem_layered hv with h | h | rfl
  · obtain ⟨items, hitems, rfl⟩ := Option.map_eq_some_iff.1 h
    rw [hitems] at hown
    exact hown
  · obtain ⟨items, hitems, rfl⟩ := Option.map_eq_some_iff.1 h
    rw [(Option.filter_eq_some_iff.1 hitems).1] at hstored
    exact hstored
  · exact henv

lemma newline_notMem_listValue {value : Option TextOrList} (h : ∀ v ∈ value, v.Fits) :
    ∀ s ∈ listValue value, '\n' ∉ s.toList := by
  intro s hs
  obtain ⟨v, hv, rfl⟩ := Option.map_eq_some_iff.1 hs
  exact (h v (Option.filter_eq_some_iff.1 hv).1).newline_notMem

lemma newline_notMem_numberValue {value : Option ℤ} : ∀ s ∈ numberValue value, '\n' ∉ s.toList := by
  intro s hs
  obtain ⟨n, -, rfl⟩ := Option.map_eq_some_iff.1 hs
  exact notMem_toString (by decide) (by decide) n

lemma forall_optionalEntry {key : String} {value : Option String} {p : String × String → Prop}
    (h : ∀ v ∈ value, p (key, v)) : ∀ entry ∈ optionalEntry key value, p entry := by
  intro entry hentry
  obtain ⟨v, hv, rfl⟩ := List.mem_map.1 hentry
  exact h v (Option.mem_toList.1 hv)

lemma mem_of_mem_truthy {value : Option String} {s : String} (h : s ∈ truthy value) : s ∈ value :=
  (Option.filter_eq_some_iff.1 h).1

lemma isKey_optionalEntry {key : String} (h : Ini.IsKey key) (value : Option String) :
    ∀ entry ∈ optionalEntry key value, Ini.IsKey entry.1 :=
  forall_optionalEntry fun _ _ => h

lemma newline_notMem_append {s t : String} (hs : '\n' ∉ s.toList) (ht : '\n' ∉ t.toList) :
    '\n' ∉ (s ++ t).toList := by
  rw [String.toList_append, List.mem_append]
  rintro (hc | hc)
  · exact hs hc
  · exact ht hc

/-- The strings and items of a configuration file fit their lines. -/
structure FitsLines (d : Device) (dbConfig : Option Configuration) (settings : ClientSettings)
    (privateKey serverPublicKey : String) : Prop where
  strings : ∀ s ∈ configStrings d dbConfig settings privateKey serverPublicKey, '\n' ∉ s.toList
  items : ∀ s ∈ configItems d dbConfig, IsItem s

section Fits

variable (h : FitsLines d dbConfig settings privateKey serverPublicKey)

include h

lemma FitsLines.dns : ∀ v ∈ layeredDns d dbConfig settings, v.Fits :=
  fits_layered (fun s hs => h.items s (by simp [configItems, hs]))
    (fun s hs => h.items s (by simp [configItems, hs])) (h.strings _ (by simp [configStrings]))

lemma FitsLines.allowedIps : ∀ v ∈ layeredAllowedIps d dbConfig settings, v.Fits :=
  fits_layered (fun s hs => h.items s (by simp [configItems, hs]))
    (fun s hs => h.items s (by simp [configItems, hs])) (h.strings _ (by simp [configStrings]))

lemma FitsLines.addresses : ∀ s ∈ d.tunnelAddresses, '\n' ∉ s.toList := by
  have hv4 : ∀ a ∈ truthy d.ipv4, '\n' ∉ a.toList := fun a ha =>
    h.strings a (by simp [configStrings, Option.mem_def.1 (mem_of_mem_truthy ha)])
  have hv6 : ∀ a ∈ truthy d.ipv6, '\n' ∉ a.toList := fun a ha =>
    h.strings a (by simp [configStrings, Option.mem_def.1 (mem_of_mem_truthy ha)])
  rw [Device.tunnelAddresses, List.forall_mem_append, List.forall_mem_map, List.forall_mem_map]
  constructor
  · exact fun a ha => newline_notMem_append (hv4 a (Option.mem_toList.1 ha)) (by decide)
  · exact fun a ha => newline_notMem_append (hv6 a (Option.mem_toList.1 ha)) (by decide)

lemma FitsLines.addressValue : ∀ s ∈ d.addressValue, '\n' ∉ s.toList := by
  intro s hs
  unfold Device.addressValue at hs
  split at hs
  · cases hs
  · cases hs
    exact newline_notMem_join h.addresses

lemma FitsLines.presharedKey : ∀ s ∈ truthy d.presharedKey, '\n' ∉ s.toList := fun s hs =>
  h.strings s (by simp [configStrings, Option.mem_def.1 (mem_of_mem_truthy hs)])

lemma FitsLines.endpointHost :
    '\n' ∉ ((resolveEndpointHost d dbConfig settings).getD "None").toList := by
  unfold resolveEndpointHost
  split
  · cases hstored : truthy (dbConfig.bind Configuration.defaultClientEndpoint) with
    | none => exact h.strings _ (by simp [configStrings])
    | some host =>
      exact h.strings host (by simp [configStrings, Option.mem_def.1 (mem_of_mem_truthy hstored)])
  · cases hown : d.endpoint with
    | none => decide
    | some host => exact h.strings host (by simp [configStrings, hown])

lemma FitsLines.endpointText : '\n' ∉ (endpointText d dbConfig settings).toList := by
  refine newline_notMem_append (newline_notMem_append h.endpointHost (by decide)) ?_
  exact notMem_toString (by decide) (by decide) _

lemma FitsLines.interfaceSection : (interfaceSection d dbConfig settings privateKey).Printable where
  name := (by decide : '\n' ∉ "Interface".toList)
  keys := List.forall_mem_cons.2 ⟨(by decide : Ini.IsKey "PrivateKey"), List.forall_mem_append.2
    ⟨isKey_optionalEntry (by decide) _, List.forall_mem_append.2
      ⟨isKey_optionalEntry (by decide) _, isKey_optionalEntry (by decide) _⟩⟩⟩
  values := by
    refine List.forall_mem_cons.2 ⟨h.strings _ (by simp [configStrings]), List.forall_mem_append.2
      ⟨forall_optionalEntry h.addressValue, List.forall_mem_append.2
        ⟨forall_optionalEntry (newline_notMem_listValue ?_),
          forall_optionalEntry newline_notMem_numberValue⟩⟩⟩
    rw [resolveDns_eq]
    exact h.dns

lemma FitsLines.peerSection : (peerSection d dbConfig settings serverPublicKey).Printable where
  name := (by decide : '\n' ∉ "Peer".toList)
  keys := List.forall_mem_cons.2 ⟨(by decide : Ini.IsKey "PublicKey"), List.forall_mem_append.2
    ⟨isKey_optionalEntry (by decide) _, List.forall_mem_append.2
      ⟨isKey_optionalEntry (by decide) _, List.forall_mem_cons.2
        ⟨(by decide : Ini.IsKey "Endpoint"), isKey_optionalEntry (by decide) _⟩⟩⟩⟩
  values := by
    refine List.forall_mem_cons.2 ⟨h.strings _ (by simp [configStrings]), List.forall_mem_append.2
      ⟨forall_optionalEntry h.presharedKey, List.forall_mem_append.2
        ⟨forall_optionalEntry (newline_notMem_listValue ?_), List.forall_mem_cons.2
          ⟨h.endpointText, forall_optionalEntry newline_notMem_numberValue⟩⟩⟩⟩
    rw [resolveAllowedIps_eq]
    exact h.allowedIps

end Fits

/-- A list among the values is cut apart again. -/
lemma TextOrList.Fits.items {items : List String} (hv : (TextOrList.list items).Fits)
    (hne : items ≠ []) : splitCommas (", ".intercalate items) = items :=
  splitCommas_join hne (fun s hs => (hv s hs).2.1) fun s hs => (hv s hs).2.2

/-- **A configuration file says what the layers say.** -/
structure SaysLayers (d : Device) (dbConfig : Option Configuration) (settings : ClientSettings)
    (privateKey serverPublicKey file : String) : Prop where
  config : decodeClientConfig file =
    some (layeredConfig d dbConfig settings privateKey serverPublicKey)
  /-- Lists are cut apart at their commas. -/
  dns : ∀ items, layeredDns d dbConfig settings = some (.list items) → items ≠ [] →
    splitCommas (", ".intercalate items) = items
  allowedIps : ∀ items, layeredAllowedIps d dbConfig settings = some (.list items) → items ≠ [] →
    splitCommas (", ".intercalate items) = items
  addresses : d.tunnelAddresses ≠ [] → (∀ a ∈ d.tunnelAddresses, IsItem a) →
    splitCommas (", ".intercalate d.tunnelAddresses) = d.tunnelAddresses
  /-- The server routes the same addresses to the peer. -/
  server : d.deviceAllowedIps = d.tunnelAddresses ++ d.allowedSubnets

/-- **The file that is built** says what the layers say. -/
theorem decodeClientConfig_buildClientConfig
    (h : FitsLines d dbConfig settings privateKey serverPublicKey) :
    SaysLayers d dbConfig settings privateKey serverPublicKey
      (buildClientConfig d dbConfig settings privateKey serverPublicKey) where
  config := decodeClientConfig_of_printable h.interfaceSection h.peerSection
  dns _ hitems hne := (h.dns _ hitems).items hne
  allowedIps _ hitems hne := (h.allowedIps _ hitems).items hne
  addresses hne haddresses := splitCommas_join hne (fun a ha => (haddresses a ha).2.1)
    fun a ha => (haddresses a ha).2.2
  server := rfl

end Values

/-! A device with two addresses and DNS servers of its own. -/

def heidisLaptop : Device where
  id := ⟨0x4e1d1, by decide⟩
  name := "laptop"
  publicKey := "pk-laptop"
  presharedKey := some "psk-laptop"
  useDefaultDns := false
  useDefaultMtu := false
  dns := some ["10.0.0.53", "fd00::53"]
  mtu := some 1420
  ipv4 := some "10.3.2.7"
  ipv6 := some "fd00::3:2:7"
  allowedSubnets := ["192.168.7.0/24"]
  userId := ⟨0x4e1d, by decide⟩

theorem decodeClientConfig_heidisLaptop :
    decodeClientConfig (buildClientConfig heidisLaptop none {} "private" "server") = some {
      privateKey := "private"
      address := some "10.3.2.7/32, fd00::3:2:7/128"
      dns := some "10.0.0.53, fd00::53"
      mtu := some 1420
      publicKey := "server"
      presharedKey := some "psk-laptop"
      allowedIps := some "0.0.0.0/0, ::/0"
      endpoint := "localhost:51820"
      persistentKeepalive := some 25 } :=
  (decodeClientConfig_buildClientConfig ⟨by decide, by decide⟩).config.trans (by decide)

end WireGui
