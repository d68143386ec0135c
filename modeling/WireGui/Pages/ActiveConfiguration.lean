import WireGui.Utils.WgConf

/-!
# The card `Active Configuration`

of the page of a device.  `activeConfiguration_iff`: it shows what the configuration file says only as
long as the stored defaults are those of the environment.
-/

namespace WireGui

structure ActiveConfiguration where
  allowedIps : String
  dns : String
  endpoint : String
  mtu : String
  persistentKeepalive : String
  deriving DecidableEq

/-- `str(v) if isinstance(v, str) else ", ".join(v) if v else "-"` -/
def shownList : Option TextOrList → String
  | some (.text s) => s
  | some (.list items) => if items = [] then "-" else ", ".intercalate items
  | none => "-"

/-- `f"{host}:{port}" if host else "-"` -/
def shownEndpoint (host : Option String) (port : ℤ) : String :=
  (truthy host).elim "-" fun h => h ++ ":" ++ toString port

/-- `str(n) if n else "-"` -/
def shownNumber (n : Option ℤ) : String := (n.filter (· ≠ 0)).elim "-" toString

section Card

variable (d : Device) (dbConfig : Option Configuration) (settings : ClientSettings)

/-- What `device_detail_page` shows. -/
def activeConfiguration : ActiveConfiguration where
  allowedIps := shownList (if ¬ d.useDefaultAllowedIps then d.allowedIps.map .list
    else some (.text settings.wgAllowedIps))
  dns := shownList (if ¬ d.useDefaultDns then d.dns.map .list else some (.text settings.wgDns))
  endpoint := shownEndpoint (if ¬ d.useDefaultEndpoint then d.endpoint
    else some settings.wgEndpointHost) settings.wgEndpointPort
  mtu := shownNumber (if ¬ d.useDefaultMtu then d.mtu else some settings.wgMtu)
  persistentKeepalive := shownNumber (if ¬ d.useDefaultPersistentKeepalive then d.persistentKeepalive
    else some settings.wgPersistentKeepalive)

/-- **What `build_client_config` resolves**, shown in the same way. -/
def resolvedConfiguration : ActiveConfiguration where
  allowedIps := shownList (resolveAllowedIps d dbConfig settings)
  dns := shownList (resolveDns d dbConfig settings)
  endpoint := shownEndpoint (resolveEndpointHost d dbConfig settings) settings.wgEndpointPort
  mtu := shownNumber (resolveMtu d dbConfig settings)
  persistentKeepalive := shownNumber (resolveKeepalive d dbConfig settings)

end Card

/-- The stored defaults that the device uses are those of the environment. -/
structure DefaultsAgree (d : Device) (config : Configuration) (settings : ClientSettings) : Prop where
  allowedIps : d.useDefaultAllowedIps = true → ∀ items ∈ config.defaultClientAllowedIps, items ≠ [] →
    ", ".intercalate items = settings.wgAllowedIps
  dns : d.useDefaultDns = true → ∀ items ∈ config.defaultClientDns, items ≠ [] →
    ", ".intercalate items = settings.wgDns
  endpoint : d.useDefaultEndpoint = true → ∀ host ∈ truthy config.defaultClientEndpoint,
    host = settings.wgEndpointHost
  mtu : d.useDefaultMtu = true → config.defaultClientMtu = settings.wgMtu
  persistentKeepalive : d.useDefaultPersistentKeepalive = true →
    config.defaultClientPersistentKeepalive = settings.wgPersistentKeepalive

section Shown

variable {d : Device} {config : Configuration} {settings : ClientSettings}

lemma toString_injective : Function.Injective fun n : ℤ => toString n := by
  intro n m h
  have hread := readInteger_toString n
  have heq : toString n = toString m := h
  rw [heq, readInteger_toString] at hread
  exact (Option.some.inj hread).symm

lemma toString_ne_dash (n : ℤ) : toString n ≠ "-" := by
  intro h
  have hread := readInteger_toString n
  rw [h] at hread
  cases hread

/-- Different numbers are shown differently. -/
lemma shownNumber_some_inj {n m : ℤ} : shownNumber (some n) = shownNumber (some m) ↔ n = m := by
  refine ⟨fun h => ?_, fun h => h ▸ rfl⟩
  by_cases hn : n = 0
  · by_cases hm : m = 0
    · rw [hn, hm]
    · have hdash : "-" = toString m := by simpa [shownNumber, Option.filter_some, hn, hm] using h
      exact absurd hdash.symm (toString_ne_dash m)
  · by_cases hm : m = 0
    · have hdash : toString n = "-" := by simpa [shownNumber, Option.filter_some, hn, hm] using h
      exact absurd hdash (toString_ne_dash n)
    · have heq : toString n = toString m := by simpa [shownNumber, Option.filter_some, hn, hm] using h
      exact toString_injective heq

/-- One number: it is shown as it is resolved if the defaults agree, or are not used. -/
lemma shownNumber_iff {useDefault : Bool} {own : Option ℤ} {stored env : ℤ} :
    shownNumber (if ¬ useDefault then own else some env) =
        shownNumber (if useDefault then some stored else own) ↔
      (useDefault = true → stored = env) := by
  cases useDefault with
  | true => simp [shownNumber_some_inj, eq_comm]
  | false => simp

/-- The same for a list. -/
lemma shownList_iff {useDefault : Bool} {own stored : Option (List String)} {env : String} :
    shownList (if ¬ useDefault then own.map .list else some (.text env)) =
        shownList (if useDefault then some (storedOr stored env) else own.map .list) ↔
      (useDefault = true → ∀ items ∈ stored, items ≠ [] → ", ".intercalate items = env) := by
  cases useDefault with
  | true =>
    rcases stored with _ | _ | ⟨item, items⟩
    · simp [storedOr]
    · simp [storedOr]
    · simp [storedOr, shownList, eq_comm]
  | false => simp

lemma shownEndpoint_some {host : String} (h : host ≠ "") (port : ℤ) :
    shownEndpoint (some host) port = host ++ ":" ++ toString port := by
  simp [shownEndpoint, truthy, Option.filter_some, h]

/-- A host that is not empty is shown as no other is. -/
lemma shownEndpoint_inj {host env : String} {port : ℤ} (h : host ≠ "") :
    shownEndpoint (some env) port = shownEndpoint (some host) port ↔ host = env := by
  refine ⟨fun he => ?_, fun he => by rw [he]⟩
  rw [shownEndpoint_some h] at he
  by_cases henv : env = ""
  · have hdash : "-" = host ++ ":" ++ toString port := by
      simpa [shownEndpoint, truthy, Option.filter_some, henv] using he
    have hcolon : ':' ∈ ("-" : String).toList := by
      rw [hdash]
      simp
    exact absurd hcolon (by decide)
  · rw [shownEndpoint_some henv] at he
    have heq : env = host := by simpa using he
    exact heq.symm

/-- The same for the host. -/
lemma shownEndpoint_iff {useDefault : Bool} {own stored : Option String} {env : String} {port : ℤ} :
    shownEndpoint (if ¬ useDefault then own else some env) port =
        shownEndpoint (if useDefault then some ((truthy stored).getD env) else own) port ↔
      (useDefault = true → ∀ host ∈ truthy stored, host = env) := by
  cases useDefault with
  | true =>
    cases hstored : truthy stored with
    | none => simp
    | some host =>
      have hne : host ≠ "" := by simpa using (Option.filter_eq_some_iff.1 hstored).2
      simp [shownEndpoint_inj hne]
  | false => simp

/-- **With a configuration row**, the card is right if and only if the defaults agree. -/
lemma activeConfiguration_some_iff :
    activeConfiguration d settings = resolvedConfiguration d (some config) settings ↔
      DefaultsAgree d config settings := by
  rw [activeConfiguration, resolvedConfiguration, ActiveConfiguration.mk.injEq]
  constructor
  · rintro ⟨hips, hdns, hendpoint, hmtu, hkeepalive⟩
    exact ⟨shownList_iff.1 hips, shownList_iff.1 hdns, shownEndpoint_iff.1 hendpoint,
      shownNumber_iff.1 hmtu, shownNumber_iff.1 hkeepalive⟩
  · intro h
    exact ⟨shownList_iff.2 h.allowedIps, shownList_iff.2 h.dns, shownEndpoint_iff.2 h.endpoint,
      shownNumber_iff.2 h.mtu, shownNumber_iff.2 h.persistentKeepalive⟩

/-- Without one it is right anyway. -/
lemma activeConfiguration_none :
    activeConfiguration d settings = resolvedConfiguration d none settings := by
  rw [activeConfiguration, resolvedConfiguration, ActiveConfiguration.mk.injEq]
  have hnone : ∀ {α : Type} {p : α → Prop}, ∀ a ∈ (none : Option α), p a := by
    rintro α p a ⟨⟩
  exact ⟨shownList_iff.2 fun _ => hnone, shownList_iff.2 fun _ => hnone,
    shownEndpoint_iff.2 fun _ => hnone, shownNumber_iff.2 fun _ => rfl,
    shownNumber_iff.2 fun _ => rfl⟩

/-- **The card shows the configuration in force** if and only if the stored defaults that the device
uses, if there are any, are those of the environment. -/
theorem activeConfiguration_iff (d : Device) (dbConfig : Option Configuration)
    (settings : ClientSettings) :
    activeConfiguration d settings = resolvedConfiguration d dbConfig settings ↔
      ∀ config ∈ dbConfig, DefaultsAgree d config settings := by
  cases dbConfig with
  | none => simp [activeConfiguration_none]
  | some config => simp [activeConfiguration_some_iff]

end Shown

/-! An admin has raised the default of the MTU. -/

def raisedMtu : Configuration := { defaultClientMtu := 1420, updatedAt := 0 }

def defaultsDevice : Device := { heidisLaptop with useDefaultMtu := true, useDefaultDns := true }

/-- The card shows the MTU of the environment. -/
theorem activeConfiguration_raisedMtu :
    activeConfiguration defaultsDevice {} ≠
      resolvedConfiguration defaultsDevice (some raisedMtu) {} := by
  decide

end WireGui
