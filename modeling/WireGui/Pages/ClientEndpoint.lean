import WireGui.Pages.Devices
import WireGui.Utils.WgConf
import WireGui.Wg.Endpoint

/-!
# The endpoint of a configuration file

names the host that is configured for the device.  `endpointLine_iff`: it can be read back unless the
host is an IPv6 address, or a device that does not use the default has no host of its own.
-/

namespace WireGui

/-- The value of a line that starts with `Endpoint = `. -/
def endpointValue (line : List Char) : Option (List Char) := line.dropPrefix? "Endpoint = ".toList

/-- The value of the last such line. -/
def endpointLine (file : String) : Option String :=
  ((file.toList.splitOn '\n').filterMap endpointValue).getLast?.map String.ofList

/-- **The host configured for a device**: its own, else the stored default, else that of the
environment. -/
def configuredHost (d : Device) (dbConfig : Option Configuration) (settings : ClientSettings) :
    String :=
  (if d.useDefaultEndpoint then none else d.endpoint).getD
    ((truthy (dbConfig.bind Configuration.defaultClientEndpoint)).getD settings.wgEndpointHost)

section Endpoint

variable {d : Device} {dbConfig : Option Configuration} {settings : ClientSettings}

lemma isHost_configuredHost (hown : ∀ host ∈ d.endpoint, Wg.IsHost host)
    (hstored : ∀ host ∈ truthy (dbConfig.bind Configuration.defaultClientEndpoint), Wg.IsHost host)
    (henv : Wg.IsHost settings.wgEndpointHost) :
    Wg.IsHost (configuredHost d dbConfig settings) := by
  have hdefault : Wg.IsHost ((truthy (dbConfig.bind Configuration.defaultClientEndpoint)).getD
      settings.wgEndpointHost) := by
    cases h : truthy (dbConfig.bind Configuration.defaultClientEndpoint) with
    | none => exact henv
    | some host => exact hstored host h
  unfold configuredHost
  split
  · exact hdefault
  · cases h : d.endpoint with
    | none => exact hdefault
    | some host => exact hown host h

/-- The host that is written: the configured one, unless a device has none of its own. -/
lemma resolveEndpointHost_eq : (resolveEndpointHost d dbConfig settings).getD "None" =
    if d.useDefaultEndpoint = true ∨ d.endpoint ≠ none then configuredHost d dbConfig settings
    else "None" := by
  unfold resolveEndpointHost configuredHost
  by_cases hdefault : d.useDefaultEndpoint = true
  · rw [if_pos hdefault, if_pos hdefault, if_pos (.inl hdefault)]
    rfl
  · rw [if_neg hdefault, if_neg hdefault]
    cases d.endpoint with
    | none => simp [hdefault]
    | some host => simp

/-- A line of the endpoint, and one that is none. -/
lemma endpointValue_endpoint (s : String) :
    endpointValue ("Endpoint = " ++ s).toList = some s.toList := by
  rw [endpointValue, String.toList_append]
  exact List.dropPrefix?_append_of_beq _ (BEq.refl _)

lemma endpointValue_keepalive (s : String) :
    endpointValue ("PersistentKeepalive" ++ " = " ++ s).toList = none := by
  rw [String.toList_append, String.toList_append]
  rfl

/-- Whatever stands in the lines before, the last one of the endpoint is the right one. -/
lemma endpointLine_buildClientConfig (h : '\n' ∉ (endpointText d dbConfig settings).toList)
    (privateKey serverPublicKey : String) :
    endpointLine (buildClientConfig d dbConfig settings privateKey serverPublicKey) =
      some (endpointText d dbConfig settings) := by
  obtain ⟨before, hfile⟩ : ∃ before,
      buildClientConfig d dbConfig settings privateKey serverPublicKey =
        "\n".intercalate (before ++ ["Endpoint = " ++ endpointText d dbConfig settings] ++
          optionalLine "PersistentKeepalive" (numberValue (resolveKeepalive d dbConfig settings))) ++
          "\n" := ⟨_, rfl⟩
  have hendpoint : ("Endpoint = " ++ endpointText d dbConfig settings).toList.splitOn '\n' =
      [("Endpoint = " ++ endpointText d dbConfig settings).toList] :=
    List.splitOn_eq_singleton (newline_notMem_append (by decide) h)
  have hafter : ((optionalLine "PersistentKeepalive"
      (numberValue (resolveKeepalive d dbConfig settings))).flatMap fun l =>
        l.toList.splitOn '\n').filterMap endpointValue = [] := by
    cases hvalue : numberValue (resolveKeepalive d dbConfig settings) with
    | none => rfl
    | some v =>
      have hline : '\n' ∉ ("PersistentKeepalive" ++ " = " ++ v).toList :=
        newline_notMem_append (by decide) (newline_notMem_numberValue v hvalue)
      rw [optionalLine, Option.toList_some, List.map_singleton, List.flatMap_singleton,
        List.splitOn_eq_singleton hline, List.filterMap_cons_none (endpointValue_keepalive v),
        List.filterMap_nil]
  rw [endpointLine, hfile, toList_intercalate_newline (by simp), splitOn_flatMap_newline,
    List.flatMap_append, List.flatMap_append, List.flatMap_singleton, hendpoint,
    List.filterMap_append, List.filterMap_append, hafter, List.append_nil, List.filterMap_append,
    List.filterMap_cons_some (endpointValue_endpoint _)]
  have hlast : [([] : List Char)].filterMap endpointValue = [] := rfl
  rw [hlast, List.append_nil, List.filterMap_nil, List.getLast?_concat, Option.map_some,
    String.ofList_toList]

/-- A host is a single line. -/
lemma newline_notMem_host {host : String} (h : Wg.IsHost host) : '\n' ∉ host.toList := by
  intro hc
  rcases h with h | h | h
  · exact absurd (h.2 _ hc) (by decide)
  · obtain ⟨a, ha⟩ := Option.ne_none_iff_exists'.1 h
    exact absurd (Ip.isAddrChar_of_parseAddr ha hc) (by decide)
  · obtain ⟨a, ha⟩ := Option.ne_none_iff_exists'.1 h
    exact absurd (Ip.isAddrChar_of_parseAddr ha hc) (by decide)

/-- **The endpoint can be used** if and only if the port is one, the host is no IPv6 address, and the
device uses the default or has a host of its own (or `None` is what the host is called). -/
theorem endpointLine_iff (hown : ∀ host ∈ d.endpoint, Wg.IsHost host)
    (hstored : ∀ host ∈ truthy (dbConfig.bind Configuration.defaultClientEndpoint), Wg.IsHost host)
    (henv : Wg.IsHost settings.wgEndpointHost) (privateKey serverPublicKey : String) :
    (endpointLine (buildClientConfig d dbConfig settings privateKey serverPublicKey)).bind
        Wg.readEndpoint = some (configuredHost d dbConfig settings, settings.wgEndpointPort) ↔
      (0 ≤ settings.wgEndpointPort ∧ settings.wgEndpointPort ≤ 65535) ∧
        ¬ Wg.IsIpv6 (configuredHost d dbConfig settings) ∧
          (d.useDefaultEndpoint = true ∨ d.endpoint ≠ none ∨
            configuredHost d dbConfig settings = "None") := by
  have hconfigured := isHost_configuredHost hown hstored henv
  have hhost : Wg.IsHost ((resolveEndpointHost d dbConfig settings).getD "None") := by
    rw [resolveEndpointHost_eq]
    split
    · exact hconfigured
    · exact .inl (by decide)
  have hnewline : '\n' ∉ (endpointText d dbConfig settings).toList :=
    newline_notMem_append (newline_notMem_append (newline_notMem_host hhost) (by decide))
      (notMem_toString (by decide) (by decide) _)
  rw [endpointLine_buildClientConfig hnewline, Option.bind_some, endpointText,
    Wg.readEndpoint_eq_some_iff hhost, resolveEndpointHost_eq, Prod.mk.injEq]
  split
  next hnamed => tauto
  next hnone =>
    have hname : ¬ Wg.IsIpv6 "None" := by decide
    constructor
    · rintro ⟨-, hport, hhost, -⟩
      exact ⟨hport, hhost ▸ hname, .inr (.inr hhost)⟩
    · rintro ⟨hport, -, hcases⟩
      rcases hcases with h | h | h
      · exact absurd (.inl h) hnone
      · exact absurd (.inr h) hnone
      · exact ⟨hname, hport, h, rfl⟩

end Endpoint

/-! A device of which the form was saved with an IPv6 address for its endpoint, and one with no
endpoint at all. -/

def endpointForm (endpoint : String) : DeviceForm where
  name := "laptop"
  description := ""
  useDefaultAllowedIps := true
  useDefaultDns := true
  useDefaultEndpoint := false
  useDefaultMtu := true
  useDefaultPersistentKeepalive := true
  endpoint := endpoint
  dns := ""
  mtu := ""
  persistentKeepalive := ""
  allowedIps := ""

theorem endpointLine_iff_vpn :
    (endpointLine (buildClientConfig { heidisLaptop with
        useDefaultEndpoint := false
        endpoint := some "vpn.example.com" } none {} "private" "server")).bind Wg.readEndpoint =
      some ("vpn.example.com", 51820) :=
  (endpointLine_iff (by decide) (by decide) (by decide) "private" "server").2 (by decide)

/-- The form with that host is saved, and then the endpoint cannot be used. -/
def EndpointLost (host : String) : Prop :=
  ∃ d, (endpointForm host).applyTo heidisLaptop = some d ∧ d.Storable ∧
    (∀ host ∈ d.endpoint, Wg.IsHost host) ∧
    ∀ privateKey serverPublicKey : String,
      (endpointLine (buildClientConfig d none {} privateKey serverPublicKey)).bind
          Wg.readEndpoint ≠ some (configuredHost d none {}, 51820)

theorem endpointLine_ipv6 : EndpointLost "fd00::1" ∧ EndpointLost "" := by
  constructor
  · refine ⟨_, rfl, by decide, by decide, fun privateKey serverPublicKey => ?_⟩
    rw [endpointLine_buildClientConfig (by decide)]
    decide
  · refine ⟨_, rfl, by decide, by decide, fun privateKey serverPublicKey => ?_⟩
    rw [endpointLine_buildClientConfig (by decide)]
    decide

end WireGui
