import Mathlib.Logic.Equiv.Basic
import Mathlib.Logic.Function.Basic
import WireGui.Lib.Run
import WireGui.Pages.AdminSettings

/-!
# `auth/oidc.py`: the clients of identity providers

The provider is read from the database whenever its client is asked for.  It is registered anew if
the fingerprint is not that of the last registration; the client itself is kept by the OAuth library
until then.  `run_clients_iff` says from which lists of providers the client is always that of the
stored provider.

The digest of a text is a parameter, `sha256`.
-/

namespace WireGui

/-- What the OAuth library makes a client of. -/
structure OidcClient where
  clientId : Json.Value
  clientSecret : Json.Value
  serverMetadataUrl : Json.Value
  scope : Json.Value
  deriving DecidableEq

/-- `_CLIENT_KEYS`. -/
def clientKeys : List String :=
  ["client_id", "client_secret", "discovery_document_uri", "scope"]

/-- The client of a registration. -/
def oidcClient (provider : Provider) : OidcClient where
  clientId := provider.get "client_id"
  clientSecret := provider.get "client_secret"
  serverMetadataUrl := provider.get "discovery_document_uri"
  scope := (provider.lookup "scope").getD (.str "openid email profile")

/-- The truth value of an id. -/
def truthyId : Json.Value → Bool
  | .null => false
  | .bool b => b
  | .str s => s ≠ ""

/-- `_registered`, and what the OAuth library has stored and has built. -/
structure OidcRegistry where
  registered : Json.Value → Option String
  registry : Json.Value → Option OidcClient
  clients : Json.Value → Option OidcClient

namespace OidcRegistry

def empty : OidcRegistry := ⟨fun _ => none, fun _ => none, fun _ => none⟩

/-- `create_client` of the library: the client that is there, else one that is built as registered. -/
def createClient (name : Json.Value) (r : OidcRegistry) : Option OidcClient × OidcRegistry :=
  match r.clients name with
  | some client => (some client, r)
  | none =>
    match r.registry name with
    | none => (none, r)
    | some client => (some client, { r with clients := Function.update r.clients name (some client) })

/-- `register` of the library. -/
def register (name : Json.Value) (client : OidcClient) (r : OidcRegistry) : OidcRegistry :=
  (createClient name { r with registry := Function.update r.registry name (some client) }).2

end OidcRegistry

/-- `_fingerprint`. -/
def fingerprint (sha256 : String → String) (provider : Provider) : String :=
  sha256 (Json.dumps (clientKeys.map fun k => (k, provider.get k)))

/-- `register_provider`. -/
def registerProvider (sha256 : String → String) (provider : Provider) (r : OidcRegistry) :
    OidcRegistry :=
  let id := provider.get "id"
  if truthyId id = false ∨ r.registered id = some (fingerprint sha256 provider) then r
  else
    let r := { r with clients := Function.update r.clients id none }
    let r := r.register id (oidcClient provider)
    { r with
      registered := Function.update r.registered id (some (fingerprint sha256 provider)) }

/-- `unregister_provider`. -/
def unregisterProvider (id : Json.Value) (r : OidcRegistry) : OidcRegistry where
  registered := Function.update r.registered id none
  registry := Function.update r.registry id none
  clients := Function.update r.clients id none

/-- `register_providers`. -/
def registerProviders (sha256 : String → String) (providers : List Provider) (r : OidcRegistry) :
    OidcRegistry :=
  providers.foldl (fun r p => registerProvider sha256 p r) r

/-- `load_providers`. -/
def loadProviders (config : Configuration) : List Provider :=
  config.openidConnectProviders.getD []

/-- `get_provider_config`. -/
def getProviderConfig (config : Configuration) (id : String) : Option Provider :=
  (loadProviders config).find? fun p => p.get "id" = .str id

/-- The service: its configuration, and its clients. -/
structure OidcServer where
  config : Configuration
  oauth : OidcRegistry

/-- The service after `register_providers` at startup. -/
def OidcServer.startup (sha256 : String → String) (config : Configuration) : OidcServer :=
  ⟨config, registerProviders sha256 (loadProviders config) .empty⟩

/-- `get_client`: the client, or a `ValueError`. -/
def OidcServer.getClient (sha256 : String → String) (id : String) (s : OidcServer) :
    Except String OidcClient × OidcServer :=
  match getProviderConfig s.config id with
  | none => (.error ("OIDC provider '" ++ id ++ "' is not configured"), s)
  | some provider =>
    match (registerProvider sha256 provider s.oauth).createClient (.str id) with
    | (none, oauth) =>
      (.error ("OIDC provider '" ++ id ++ "' is not registered"), { s with oauth := oauth })
    | (some client, oauth) => (.ok client, { s with oauth := oauth })

/-- Writes the new list back. -/
def OidcServer.commit (e : ProviderEdit) (now : ℕ) (s : OidcServer) : OidcServer :=
  { s with
    config := { s.config with
      openidConnectProviders := some (e.applyTo s.config.openidConnectProviders)
      updatedAt := now } }

/-- A provider is saved or deleted on the page, or its client is asked for. -/
inductive OidcEvent where
  | save (form : OidcForm) (now : ℕ)
  | delete (id : String) (now : ℕ)
  | getClient (id : String)

def OidcEvent.next (sha256 : String → String) (e : OidcEvent) (s : OidcServer) : OidcServer :=
  match e with
  | .save form now =>
    match saveOidcProvider form with
    | none => s
    | some edit => s.commit edit now
  | .delete id now =>
    let s := s.commit (deleteOidcProvider id) now
    { s with oauth := unregisterProvider (.str id) s.oauth }
  | .getClient id => (s.getClient sha256 id).2

/-- **The client that is asked for** is that of the first stored provider with the id, and there is
none without such a provider. -/
def OidcEvent.Reflects (sha256 : String → String) (e : OidcEvent) (s : OidcServer) : Prop :=
  match e with
  | .getClient id =>
    match getProviderConfig s.config id with
    | none => ∃ error, (s.getClient sha256 id).1 = .error error
    | some provider => ∀ client, (s.getClient sha256 id).1 = .ok client →
        client = oidcClient provider
  | _ => True

/-- The providers have the same values under the keys that make a client; a missing key is as good
as null. -/
def Provider.Agrees (p q : Provider) : Prop := ∀ k ∈ clientKeys, p.get k = q.get k

instance (p q : Provider) : Decidable (p.Agrees q) := by unfold Provider.Agrees; infer_instance

/-- The provider of the registration, after `p` has been registered. -/
def registeredFor (last : Option Provider) (p : Provider) : Option Provider :=
  if ∃ c ∈ last, c.Agrees p then last else some p

/-- Of the providers with one id, the one that the last registration was made for. -/
def lastRegistered (providers : List Provider) : Option Provider :=
  providers.foldl registeredFor none

/-- **The client is that of the first provider with the id**, after all have been registered: if the
last registration was made for one that agrees with it, they both have a scope or both have none. -/
def Coherent (providers : List Provider) (id : String) : Prop :=
  let entries := providers.filter fun p => p.get "id" = .str id
  ∀ last ∈ lastRegistered entries, ∀ first ∈ entries.head?, last.Agrees first →
    (last.lookup "scope" = none ↔ first.lookup "scope" = none)

instance (providers : List Provider) (id : String) : Decidable (Coherent providers id) := by
  unfold Coherent; infer_instance

/-! ### What the fingerprint tells -/

section Fingerprint

variable {sha256 : String → String} {p q : Provider}

lemma fingerprint_eq_iff (hsha : Function.Injective sha256) :
    fingerprint sha256 p = fingerprint sha256 q ↔ p.Agrees q := by
  have hkeys : ∀ p : Provider,
      (clientKeys.map fun k => (k, p.get k)).map Prod.fst = clientKeys := by
    intro p
    rw [List.map_map]
    exact List.map_id _
  have hsorted : clientKeys.Pairwise (· ≤ ·) := by decide
  unfold fingerprint Provider.Agrees
  rw [hsha.eq_iff]
  constructor
  · intro h k hk
    have hitems := Json.dumps_injective ((hkeys p).trans (hkeys q).symm)
      ((hkeys p).symm ▸ hsorted) h
    exact (Prod.mk.inj (List.map_inj_left.1 hitems k hk)).2
  · intro h
    rw [List.map_congr_left fun k hk => by rw [h k hk]]

/-- Providers that agree have one client, but for the scope that is taken if there is none. -/
lemma oidcClient_eq_iff (h : p.Agrees q) :
    oidcClient p = oidcClient q ↔ (p.lookup "scope" = none ↔ q.lookup "scope" = none) := by
  have hscope : p.get "scope" = q.get "scope" := h "scope" (by decide)
  have hother : oidcClient p = oidcClient q ↔ (oidcClient p).scope = (oidcClient q).scope := by
    refine ⟨congrArg _, fun hs => ?_⟩
    have hid := h "client_id" (by decide)
    have hsecret := h "client_secret" (by decide)
    have huri := h "discovery_document_uri" (by decide)
    have hs' : (p.lookup "scope").getD (.str "openid email profile") =
        (q.lookup "scope").getD (.str "openid email profile") := hs
    unfold oidcClient
    rw [hid, hsecret, huri, hs']
  rw [hother]
  dsimp only [oidcClient, Json.Object.get] at hscope ⊢
  cases hp : p.lookup "scope" with
  | none =>
    cases hq : q.lookup "scope" with
    | none => simp
    | some v =>
      rw [hp, hq] at hscope
      have hv : v = .null := hscope.symm
      simp [hv]
  | some v =>
    cases hq : q.lookup "scope" with
    | none =>
      rw [hp, hq] at hscope
      have hv : v = .null := hscope
      simp [hv]
    | some w =>
      rw [hp, hq] at hscope
      have hv : v = w := hscope
      simp [hv]

end Fingerprint

/-! ### What is kept for an id -/

/-- The last registration under the id was for `cur`, and the client that is kept is the one it made. -/
structure OidcRegistry.At (sha256 : String → String) (r : OidcRegistry) (id : Json.Value)
    (cur : Option Provider) : Prop where
  registered : r.registered id = cur.map (fingerprint sha256)
  registry : r.registry id = cur.map oidcClient
  clients : r.clients id = cur.map oidcClient

section Registrations

variable {sha256 : String → String} {r : OidcRegistry} {id : Json.Value} {cur : Option Provider}
  {p : Provider} {providers : List Provider}

lemma OidcRegistry.at_empty : OidcRegistry.empty.At sha256 id none := ⟨rfl, rfl, rfl⟩

/-- The library returns the client of the last registration. -/
lemma OidcRegistry.At.createClient (h : r.At sha256 id cur) :
    r.createClient id = (cur.map oidcClient, r) := by
  unfold OidcRegistry.createClient
  cases cur with
  | none =>
    rw [h.clients, h.registry]
    rfl
  | some c =>
    rw [h.clients]
    rfl

lemma OidcRegistry.At.unregister (h : r.At sha256 id cur) (id' : Json.Value) :
    (unregisterProvider id' r).At sha256 id (if id = id' then none else cur) := by
  unfold unregisterProvider
  by_cases hid : id = id'
  · rw [if_pos hid, hid]
    exact ⟨Function.update_self .., Function.update_self .., Function.update_self ..⟩
  · rw [if_neg hid]
    exact ⟨(Function.update_of_ne hid ..).trans h.registered,
      (Function.update_of_ne hid ..).trans h.registry,
      (Function.update_of_ne hid ..).trans h.clients⟩

/-- A registration that is made anew. -/
lemma registerProvider_eq :
    registerProvider sha256 p r =
      if truthyId (p.get "id") = false ∨ r.registered (p.get "id") = some (fingerprint sha256 p) then r
      else
        { registered := Function.update r.registered (p.get "id") (some (fingerprint sha256 p))
          registry := Function.update r.registry (p.get "id") (some (oidcClient p))
          clients := Function.update r.clients (p.get "id") (some (oidcClient p)) } := by
  unfold registerProvider OidcRegistry.register OidcRegistry.createClient
  dsimp only
  rw [Function.update_self, Function.update_self]
  dsimp only
  rw [Function.update_idem]

/-- **One registration**: it is made anew if the provider does not agree with that of the last one. -/
lemma OidcRegistry.At.registerProvider (hsha : Function.Injective sha256) (h : r.At sha256 id cur)
    (p : Provider) :
    (registerProvider sha256 p r).At sha256 id
      (if p.get "id" = id ∧ truthyId id = true then registeredFor cur p else cur) := by
  have hsame : r.registered id = some (fingerprint sha256 p) ↔ ∃ c ∈ cur, c.Agrees p := by
    rw [h.registered]
    cases cur with
    | none => simp
    | some c => simp [fingerprint_eq_iff hsha]
  rw [registerProvider_eq]
  by_cases hid : p.get "id" = id
  · rw [hid]
    by_cases htruthy : truthyId id = true
    · rw [if_pos (c := id = id ∧ _) ⟨rfl, htruthy⟩, registeredFor]
      by_cases hagrees : ∃ c ∈ cur, c.Agrees p
      · rw [if_pos (.inr (hsame.2 hagrees)), if_pos hagrees]
        exact h
      · have hanew : ¬ (truthyId id = false ∨ r.registered id = some (fingerprint sha256 p)) := by
          rw [hsame, htruthy]
          simpa using hagrees
        rw [if_neg hanew, if_neg hagrees]
        exact ⟨Function.update_self .., Function.update_self .., Function.update_self ..⟩
    · rw [if_pos (.inl (Bool.eq_false_of_not_eq_true htruthy)), if_neg fun hc => htruthy hc.2]
      exact h
  · have hne : id ≠ p.get "id" := fun he => hid he.symm
    rw [if_neg (c := p.get "id" = id ∧ _) fun hc => hid hc.1]
    split
    · exact h
    · exact ⟨(Function.update_of_ne hne ..).trans h.registered,
        (Function.update_of_ne hne ..).trans h.registry,
        (Function.update_of_ne hne ..).trans h.clients⟩

/-- **All registrations**: those of the providers with the id matter. -/
lemma OidcRegistry.At.registerProviders (hsha : Function.Injective sha256) (h : r.At sha256 id cur) :
    (registerProviders sha256 providers r).At sha256 id
      (if truthyId id = true then
        (providers.filter fun p => p.get "id" = id).foldl registeredFor cur
      else cur) := by
  unfold WireGui.registerProviders
  induction providers generalizing r cur with
  | nil => simpa using h
  | cons p providers ih =>
    rw [List.foldl_cons]
    have hp := ih (h.registerProvider hsha p)
    by_cases hid : p.get "id" = id
    · rw [List.filter_cons_of_pos (by simpa using hid), List.foldl_cons]
      by_cases htruthy : truthyId id = true
      · rw [if_pos htruthy, if_pos ⟨hid, htruthy⟩] at hp
        rwa [if_pos htruthy]
      · rw [if_neg htruthy, if_neg fun hc : _ ∧ _ => htruthy hc.2] at hp
        rwa [if_neg htruthy]
    · rw [List.filter_cons_of_neg (by simpa using hid)]
      rwa [if_neg fun hc : p.get "id" = id ∧ _ => hid hc.1] at hp

/-- After the start of the service. -/
lemma OidcServer.at_startup (hsha : Function.Injective sha256) (config : Configuration) (id : String) :
    (startup sha256 config).oauth.At sha256 (.str id)
      (if id = "" then none
      else lastRegistered ((loadProviders config).filter fun p => p.get "id" = .str id)) := by
  have hempty : OidcRegistry.empty.At sha256 (.str id) none := OidcRegistry.at_empty
  have h : (startup sha256 config).oauth.At sha256 (.str id) _ := hempty.registerProviders hsha
  by_cases hid : id = ""
  · rw [if_pos hid]
    rwa [if_neg (by simp [truthyId, hid])] at h
  · rw [if_neg hid]
    rwa [if_pos (by simpa [truthyId] using hid)] at h

end Registrations

/-! ### What `get_client` returns -/

section Server

variable {sha256 : String → String} {s : OidcServer} {id : String} {cur : Option Provider}
  {p : Provider}

lemma get_of_getProviderConfig {config : Configuration} (h : getProviderConfig config id = some p) :
    p.get "id" = .str id := by
  unfold getProviderConfig at h
  simpa using List.find?_some h

lemma getProviderConfig_commit {e : ProviderEdit} {now : ℕ} :
    getProviderConfig (s.commit e now).config id =
      if .str id = e.id then
        match e with
        | .save provider => some provider
        | .delete _ => none
      else getProviderConfig s.config id := by
  unfold getProviderConfig
  split_ifs with hid
  · rw [hid]
    exact ProviderEdit.find?_applyTo_self
  · exact ProviderEdit.find?_applyTo_of_ne hid

/-- What the last registration was for, after the client has been asked for. -/
lemma at_getClient (hsha : Function.Injective sha256) (h : s.oauth.At sha256 (.str id) cur)
    (hp : getProviderConfig s.config id = some p) :
    (registerProvider sha256 p s.oauth).At sha256 (.str id)
      (if id = "" then cur else registeredFor cur p) := by
  have hreg := h.registerProvider hsha p
  by_cases hid : id = ""
  · rw [if_pos hid]
    rwa [if_neg (by simp [truthyId, hid])] at hreg
  · rw [if_neg hid]
    rwa [if_pos ⟨get_of_getProviderConfig hp, by simpa [truthyId] using hid⟩] at hreg

/-- What the client is, if there is one, and that the registration is all that changes. -/
lemma getClient_eq (hsha : Function.Injective sha256) (h : s.oauth.At sha256 (.str id) cur)
    (hempty : id = "" → cur = none) (hp : getProviderConfig s.config id = some p) :
    s.getClient sha256 id =
      (if id = "" then .error ("OIDC provider '" ++ id ++ "' is not registered")
        else .ok (oidcClient ((registeredFor cur p).getD p)),
        { s with oauth := registerProvider sha256 p s.oauth }) := by
  have hcreate := (at_getClient hsha h hp).createClient
  unfold OidcServer.getClient
  rw [hp]
  dsimp only
  by_cases hid : id = ""
  · rw [if_pos hid, hempty hid] at hcreate
    rw [hcreate, if_pos hid]
    rfl
  · have hsome : ∃ c, registeredFor cur p = some c := by
      unfold registeredFor
      split_ifs with hagrees
      · obtain ⟨c, hc, -⟩ := hagrees
        exact ⟨c, hc⟩
      · exact ⟨p, rfl⟩
    obtain ⟨c, hc⟩ := hsome
    rw [if_neg hid, hc] at hcreate
    rw [hcreate, if_neg hid, hc]
    rfl

/-- The client that is kept for the id is that of the stored provider, or it is not that of a provider
that agrees with it. -/
def OidcServer.Current (sha256 : String → String) (s : OidcServer) (id : String) : Prop :=
  ∃ cur, s.oauth.At sha256 (.str id) cur ∧ (id = "" → cur = none) ∧
    ∀ c ∈ cur, ∀ p ∈ getProviderConfig s.config id, c.Agrees p → oidcClient c = oidcClient p

lemma oidcClient_registeredFor
    (hcur : ∀ c ∈ cur, c.Agrees p → oidcClient c = oidcClient p) :
    oidcClient ((registeredFor cur p).getD p) = oidcClient p := by
  unfold registeredFor
  split_ifs with hagrees
  · obtain ⟨c, hc, hcp⟩ := hagrees
    rw [Option.mem_def.1 hc]
    exact hcur c hc hcp
  · rfl

/-- **One request** for a client. -/
lemma OidcServer.Current.reflects (hsha : Function.Injective sha256) (h : s.Current sha256 id) :
    (OidcEvent.getClient id).Reflects sha256 s := by
  obtain ⟨cur, hat, hempty, hcur⟩ := h
  cases hp : getProviderConfig s.config id with
  | none =>
    simp only [OidcEvent.Reflects, OidcServer.getClient, hp]
    exact ⟨_, rfl⟩
  | some p =>
    simp only [OidcEvent.Reflects, hp]
    intro client hclient
    rw [getClient_eq hsha hat hempty hp] at hclient
    split_ifs at hclient
    rw [← Except.ok.inj hclient]
    exact oidcClient_registeredFor fun c hc => hcur c hc p hp

/-- A provider that was saved on the page has a scope, and so has each provider that agrees with it. -/
lemma oidcClient_eq_of_form {c : Provider} {form : OidcForm} (h : c.Agrees form.provider) :
    oidcClient c = oidcClient form.provider := by
  have hform : form.provider.lookup "scope" = some (.str (strip form.scope)) := rfl
  rw [oidcClient_eq_iff h, hform]
  have hscope : c.get "scope" = .str (strip form.scope) := h "scope" (by decide)
  refine iff_of_false (fun hnone => ?_) nofun
  rw [Json.Object.get, hnone] at hscope
  cases hscope

/-- **Each step** keeps the clients of all ids. -/
lemma current_next (hsha : Function.Injective sha256) (e : OidcEvent)
    (h : ∀ id, s.Current sha256 id) (id : String) : (e.next sha256 s).Current sha256 id := by
  obtain ⟨cur, hat, hempty, hcur⟩ := h id
  cases e with
  | save form now =>
    unfold OidcEvent.next saveOidcProvider
    dsimp only
    split_ifs with hfields
    · refine ⟨cur, hat, hempty, fun c hc p hp hagrees => ?_⟩
      rw [getProviderConfig_commit] at hp
      split_ifs at hp with hid
      · cases hp
        exact oidcClient_eq_of_form hagrees
      · exact hcur c hc p hp hagrees
    · exact ⟨cur, hat, hempty, hcur⟩
  | delete deleted now =>
    have hnext : ((OidcEvent.delete deleted now).next sha256 s).oauth =
        unregisterProvider (.str deleted) s.oauth := rfl
    refine ⟨_, hnext ▸ hat.unregister (.str deleted), fun hid => ?_, fun c hc p hp hagrees => ?_⟩
    · rw [hempty hid, ite_self]
    · have hconfig : getProviderConfig (s.commit (.delete deleted) now).config id = some p := hp
      rw [getProviderConfig_commit] at hconfig
      by_cases hid : Json.Value.str id = .str deleted
      · rw [if_pos hid] at hc
        cases hc
      · rw [if_neg hid] at hc
        rw [if_neg (c := _ = ProviderEdit.id _) hid] at hconfig
        exact hcur c hc p hconfig hagrees
  | getClient asked =>
    obtain ⟨curAsked, hasked, hemptyAsked, -⟩ := h asked
    simp only [OidcEvent.next]
    cases hp : getProviderConfig s.config asked with
    | none =>
      have hnone : (s.getClient sha256 asked).2 = s := by
        unfold OidcServer.getClient
        rw [hp]
      rw [hnone]
      exact h id
    | some p =>
      rw [getClient_eq hsha hasked hemptyAsked hp]
      refine ⟨_, hat.registerProvider hsha p, fun hid => ?_, fun c hc q hq hagrees => ?_⟩
      · rw [if_neg (by simp [truthyId, hid])]
        exact hempty hid
      · split_ifs at hc with hid
        · have hqp : q = p := by
            rw [get_of_getProviderConfig hp, Json.Value.str.injEq] at hid
            rw [hid.1] at hp
            exact Option.some.inj (hq.symm.trans hp)
          have hreg := oidcClient_registeredFor fun c hc => hcur c hc q hq
          rwa [hqp, Option.mem_def.1 hc, Option.getD_some, ← hqp] at hreg
        · exact hcur c hc q hq hagrees

/-! ### Runs -/

lemma mem_of_lastRegistered {l : List Provider} (h : p ∈ lastRegistered l) : p ∈ l := by
  induction l using List.reverseRecOn with
  | nil => cases h
  | append_singleton l q ih =>
    unfold lastRegistered at h ih
    rw [List.foldl_append, List.foldl_cons, List.foldl_nil, registeredFor] at h
    split_ifs at h
    · exact List.mem_append_left _ (ih h)
    · cases h
      exact List.mem_append_right _ (List.mem_singleton_self p)

/-- **A list is coherent** if no provider of it has null for its scope. -/
lemma coherent_of_scope_ne_null {l : List Provider} (h : ∀ p ∈ l, p.lookup "scope" ≠ some .null)
    (id : String) : Coherent l id := by
  have hget : ∀ p ∈ l, p.lookup "scope" = none ↔ p.get "scope" = .null := by
    intro p hp
    unfold Json.Object.get
    cases hs : p.lookup "scope" with
    | none => simp
    | some v => simpa [hs] using h p hp
  intro last hlast first hfirst hagrees
  have hlast' : last ∈ l := (List.mem_filter.1 (mem_of_lastRegistered hlast)).1
  have hfirst' : first ∈ l := (List.mem_filter.1 (List.mem_of_mem_head? hfirst)).1
  rw [hget last hlast', hget first hfirst', hagrees "scope" (by decide)]

/-- **At the start** the client of an id is that of its first provider just if the list is coherent. -/
lemma current_startup (hsha : Function.Injective sha256) {config : Configuration}
    (hcoh : ∀ id ≠ "", Coherent (loadProviders config) id) (id : String) :
    (OidcServer.startup sha256 config).Current sha256 id := by
  refine ⟨_, OidcServer.at_startup hsha config id, fun hid => if_pos hid, fun c hc p hp hagrees => ?_⟩
  split_ifs at hc with hid
  · cases hc
  have hfirst : p ∈ ((loadProviders config).filter fun p => p.get "id" = .str id).head? := by
    rw [List.head?_filter]
    exact hp
  rw [oidcClient_eq_iff hagrees]
  exact hcoh id hid c hc p hfirst hagrees

/-- A list that is not coherent shows at the first request for a client. -/
lemma not_reflects_startup (hsha : Function.Injective sha256) {config : Configuration} (hid : id ≠ "")
    (hcoh : ¬ Coherent (loadProviders config) id) :
    ¬ (OidcEvent.getClient id).Reflects sha256 (.startup sha256 config) := by
  simp only [Coherent, not_forall] at hcoh
  obtain ⟨last, hlast, first, hfirst, hagrees, hscope⟩ := hcoh
  have hp : getProviderConfig config id = some first := by
    rw [List.head?_filter] at hfirst
    exact hfirst
  have hat := OidcServer.at_startup hsha config id
  rw [if_neg hid, Option.mem_def.1 hlast] at hat
  have hreg : registeredFor (some last) first = some last := if_pos ⟨last, rfl, hagrees⟩
  have hget := getClient_eq hsha hat (fun he => absurd he hid) hp
  rw [hreg, if_neg hid, Option.getD_some] at hget
  have hconfig : getProviderConfig (OidcServer.startup sha256 config).config id = some first := hp
  simp only [OidcEvent.Reflects, hconfig, hget]
  exact fun h => hscope ((oidcClient_eq_iff hagrees).1 (h _ rfl))

/-- **From which lists of providers every client is always that of the stored provider**, whatever
is saved, deleted and asked for. -/
theorem run_clients_iff (hsha : Function.Injective sha256) (config : Configuration) :
    (∀ events, Run.Throughout (OidcEvent.next sha256) (OidcEvent.Reflects sha256) events
      (.startup sha256 config)) ↔ ∀ id ≠ "", Coherent (loadProviders config) id := by
  constructor
  · intro h id hid
    by_contra hcoh
    exact not_reflects_startup hsha hid hcoh (h [.getClient id]).1
  · intro hcoh events
    have halways : Run.Always (OidcEvent.next sha256) (fun s => ∀ id, s.Current sha256 id) events
        (.startup sha256 config) :=
      Run.always_of_step (A := fun _ _ => True) (fun e _ h _ => current_next hsha e h)
        (current_startup hsha hcoh) (Run.throughout_of_forall fun _ _ => trivial)
    refine halways.throughout.imp fun e s h => ?_
    cases e with
    | save form now => trivial
    | delete id now => trivial
    | getClient id => exact (h id).reflects hsha

end Server

/-! A list with three entries for one provider: the client of the second one differs, and the third one
has null for its scope where the first one has none. -/

def oktaEntry (clientId : String) : Provider :=
  List.toFinmap
    [⟨"id", .str "okta"⟩, ⟨"client_id", .str clientId⟩, ⟨"client_secret", .str "s"⟩,
      ⟨"discovery_document_uri", .str "https://okta.example.com"⟩]

def oktaTwice : Configuration where
  openidConnectProviders :=
    some [oktaEntry "a", oktaEntry "b", (oktaEntry "a").insert "scope" .null]
  updatedAt := 0

def oktaOnce : Configuration where
  openidConnectProviders := some [oktaEntry "a"]
  updatedAt := 0

/-- What the digest is made of. -/
def oktaText (clientId : String) : String :=
  "\x7b\"client_id\": \"" ++ clientId ++ "\", \"client_secret\": \"s\", " ++
    "\"discovery_document_uri\": \"https://okta.example.com\", \"scope\": null\x7d"

/-- A digest that is SHA-256 on these texts. -/
def oktaDigest : String → String :=
  (Equiv.swap (oktaText "a")
      "71bcb9613e515768318c15fc27ee04e8897d4ba5f0d5f6a96f109bd62318c840").trans
    (Equiv.swap (oktaText "b")
      "6a2dbbd81603231ad2150b4f000c3d046c18e9c19dba0bdd7203c7c7643a2bb4")

lemma oktaDigest_injective : Function.Injective oktaDigest := Equiv.injective _

example : fingerprint oktaDigest (oktaEntry "a") =
    "71bcb9613e515768318c15fc27ee04e8897d4ba5f0d5f6a96f109bd62318c840" := by decide

/-- **The client has another scope than the first provider's.** -/
theorem run_clients_stale :
    ¬ Run.Throughout (OidcEvent.next oktaDigest) (OidcEvent.Reflects oktaDigest)
      [.getClient "okta"] (.startup oktaDigest oktaTwice) :=
  fun h => not_reflects_startup oktaDigest_injective (by decide) (by decide) h.1

/-- The provider is deleted and made anew, with another client. -/
def madeAnew : List OidcEvent :=
  [.getClient "okta", .delete "okta" 1, .getClient "okta",
    .save ⟨"okta", "Okta", "openid", "b", "s", "https://okta.example.com", false⟩ 2,
    .getClient "okta"]

theorem run_clients_iff_once :
    Run.Throughout (OidcEvent.next oktaDigest) (OidcEvent.Reflects oktaDigest) madeAnew
      (.startup oktaDigest oktaOnce) :=
  (run_clients_iff oktaDigest_injective oktaOnce).2
    (fun id _ => coherent_of_scope_ne_null (by decide) id) madeAnew

end WireGui
