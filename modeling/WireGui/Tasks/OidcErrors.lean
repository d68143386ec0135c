import WireGui.Auth.Oidc
import WireGui.Tasks.OidcRefresh
import WireGui.Tasks.VpnSession

/-!
# `tasks/oidc_refresh.py`: errors

Each attempt to refresh a token can fail at the discovery, at the request or when the token is
stored.  The configuration has a switch that is to cut the VPN access of the user; the task adds a
notification and leaves the peers alone.

* `db_refreshAll`: what a round writes is what `Database.refreshAll` says, whatever fails.
* `refreshAll_cuts_iff`: when the access of the users with errors is cut.
-/

namespace WireGui

/-! ### Attempts -/

/-- What the steps of an attempt come to: the discovery of the token endpoint, the request for a new
token, and the commit of the connection. -/
structure RefreshOutcome where
  discovery : Except String (Option String)
  token : Option String → Except String OidcToken
  commit : Except String Unit

/-- One attempt: an error, a new token, or nothing if the provider has no discovery document. -/
def attemptRefresh (provider : Provider) (o : RefreshOutcome) : Except String (Option OidcToken) :=
  if "client_id" ∉ provider then .error "'client_id'"
  else if "client_secret" ∉ provider then .error "'client_secret'"
  else if truthyId (provider.get "discovery_document_uri") = false then .ok none
  else do
    let endpoint ← o.discovery
    let token ← o.token endpoint
    o.commit
    return some token

/-- `provider_map`: the last provider with the id. -/
def providerMap (providers : List Provider) (id : String) : Option Provider :=
  (providers.filter fun p => p.lookup "id" = some (.str id)).getLast?

/-- `load_providers`. -/
def Database.providers (db : Database) : List Provider :=
  (db.configuration.map loadProviders).getD []

/-! ### The loop -/

/-- An entry of the notification queue. -/
structure Notification where
  severity : String
  message : String
  user : Option String
  deriving DecidableEq

/-- The service on its host, and its notifications, the newest first. -/
structure OidcHost extends Host where
  notifications : List Notification

/-- `notifications.add`, to a queue of at most a hundred. -/
def OidcHost.notify (n : Notification) (h : OidcHost) : OidcHost :=
  { h with notifications := (n :: h.notifications).take 100 }

/-- What is done about an error. -/
def OidcHost.onRefreshError (conn : OidcConnection) (h : OidcHost) : OidcHost :=
  match h.db.configuration with
  | none => h
  | some config =>
    if config.disableVpnOnOidcError then
      match h.db.users.find? (·.id = conn.userId) with
      | none => h
      | some user =>
        h.notify ⟨"error", s!"OIDC refresh failed for {user.email} ({conn.provider}). " ++
          "VPN access may be affected.", some user.email⟩
    else h

/-- The new token is stored in the row of the connection. -/
def Database.storeToken (now : ℕ) (id : Uuid) (token : OidcToken) (db : Database) : Database :=
  { db with
    oidcConnections := db.oidcConnections.map fun c =>
      if c.id = id then c.refreshed now (some token) else c }

section Loop

variable (providers : List Provider) (outcomes : Uuid → RefreshOutcome) (now : ℕ)

/-- One connection. -/
def OidcHost.refreshOne (h : OidcHost) (conn : OidcConnection) : OidcHost :=
  match providerMap providers conn.provider with
  | none => h
  | some provider =>
    match attemptRefresh provider (outcomes conn.id) with
    | .ok none => h
    | .ok (some token) => { h with db := h.db.storeToken now conn.id token }
    | .error _ => h.onRefreshError conn

/-- `_refresh_all`; a provider without an id is a `KeyError` before the first connection. -/
def OidcHost.refreshAll (h : OidcHost) : OidcHost :=
  if ∃ p ∈ h.db.providers, "id" ∉ p then h
  else
    (h.db.oidcConnections.filter (·.refreshToken ≠ none)).foldl
      (OidcHost.refreshOne h.db.providers outcomes now) h

end Loop

/-- The token that the attempt for a connection brings. -/
def OidcConnection.newToken (providers : List Provider) (outcomes : Uuid → RefreshOutcome)
    (conn : OidcConnection) : Option OidcToken :=
  match (providerMap providers conn.provider).map fun p => attemptRefresh p (outcomes conn.id) with
  | some (.ok token) => token
  | _ => none

/-- **A refresh of the user has failed.** -/
def Database.RefreshFails (db : Database) (outcomes : Uuid → RefreshOutcome) (u : Uuid) : Prop :=
  (∀ p ∈ db.providers, "id" ∈ p) ∧
    ∃ conn ∈ db.oidcConnections, conn.userId = u ∧ conn.refreshToken ≠ none ∧
      ∃ provider ∈ providerMap db.providers conn.provider,
        ∃ e, attemptRefresh provider (outcomes conn.id) = .error e

/-- The peer is as before. -/
structure Wg.SamePeer (w w' : Peers) (k : String) : Prop where
  mem : k ∈ w'.peers ↔ k ∈ w.peers
  psk : w'.psk k = w.psk k
  holder : ∀ n, w'.holder n = some k ↔ w.holder n = some k

/-- **Refresh errors cut VPN access** if the switch says so, and change nothing else. -/
structure OidcHost.CutsAccess (outcomes : Uuid → RefreshOutcome) (h h' : OidcHost) : Prop where
  cut : ∀ config ∈ h.db.configuration, config.disableVpnOnOidcError = true →
    ∀ d ∈ h.db.devices, h.db.RefreshFails outcomes d.userId → d.publicKey ∉ h'.peers.peers
  others : ∀ d ∈ h.db.devices, ¬ h.db.RefreshFails outcomes d.userId →
    Wg.SamePeer h.peers h'.peers d.publicKey
  off : ∀ config ∈ h.db.configuration, config.disableVpnOnOidcError = false → h'.peers = h.peers

section Round

variable {providers : List Provider} {outcomes : Uuid → RefreshOutcome} {now : ℕ} {h : OidcHost}
  {conn : OidcConnection}

lemma toHost_onRefreshError : (h.onRefreshError conn).toHost = h.toHost := by
  unfold OidcHost.onRefreshError
  split
  · rfl
  · split
    · split <;> rfl
    · rfl

/-- What a connection changes of the service: at most its row. -/
lemma toHost_refreshOne :
    (h.refreshOne providers outcomes now conn).toHost = { h.toHost with
      db := (conn.newToken providers outcomes).elim h.db (h.db.storeToken now conn.id) } := by
  unfold OidcHost.refreshOne OidcConnection.newToken
  cases providerMap providers conn.provider with
  | none => rfl
  | some provider =>
    simp only [Option.map_some]
    cases attemptRefresh provider (outcomes conn.id) with
    | error e => exact toHost_onRefreshError
    | ok token => cases token <;> rfl

/-- **No connection touches the peers.** -/
lemma peers_foldl_refreshOne (conns : List OidcConnection) (h : OidcHost) :
    (conns.foldl (OidcHost.refreshOne providers outcomes now) h).peers = h.peers := by
  induction conns generalizing h with
  | nil => rfl
  | cons conn conns ih =>
    rw [List.foldl_cons, ih, toHost_refreshOne]

lemma peers_refreshAll : (h.refreshAll outcomes now).peers = h.peers := by
  unfold OidcHost.refreshAll
  split
  · rfl
  · exact peers_foldl_refreshOne _ h

/-- **When refresh errors cut access**: with the switch on, when no device of a user with an error is
a peer in the first place. -/
theorem refreshAll_cuts_iff (outcomes : Uuid → RefreshOutcome) (now : ℕ) (h : OidcHost) :
    OidcHost.CutsAccess outcomes h (h.refreshAll outcomes now) ↔
      ∀ config ∈ h.db.configuration, config.disableVpnOnOidcError = true →
        ∀ d ∈ h.db.devices, h.db.RefreshFails outcomes d.userId → d.publicKey ∉ h.peers.peers := by
  have hsame : (h.refreshAll outcomes now).peers = h.peers := peers_refreshAll
  constructor
  · intro hcut config hc hon d hd hfail
    rw [← hsame]
    exact hcut.cut config hc hon d hd hfail
  · intro hnone
    refine ⟨fun config hc hon d hd hfail => ?_, fun d _ _ => ?_, fun _ _ _ => hsame⟩
    · rw [hsame]
      exact hnone config hc hon d hd hfail
    · rw [hsame]
      exact ⟨Iff.rfl, rfl, fun _ => Iff.rfl⟩

/-! ### What is stored -/

lemma refreshed_none (c : OidcConnection) : c.refreshed now none = c := rfl

lemma id_refreshed (c : OidcConnection) (answer : Option OidcToken) :
    (c.refreshed now answer).id = c.id := by
  cases answer <;> rfl

lemma oidcConnections_refreshOne :
    (h.refreshOne providers outcomes now conn).db.oidcConnections =
      h.db.oidcConnections.map fun c =>
        if c.id = conn.id then c.refreshed now (conn.newToken providers outcomes) else c := by
  rw [toHost_refreshOne]
  cases conn.newToken providers outcomes with
  | none => simp [refreshed_none]
  | some token => rfl

/-- The rows after a loop over connections with ids of their own: each has its own answer. -/
lemma oidcConnections_foldl {conns : List OidcConnection}
    (hids : (conns.map OidcConnection.id).Nodup) (h : OidcHost) :
    (conns.foldl (OidcHost.refreshOne providers outcomes now) h).db.oidcConnections =
      h.db.oidcConnections.map fun c => c.refreshed now
        ((conns.find? (·.id = c.id)).bind (OidcConnection.newToken providers outcomes)) := by
  induction conns generalizing h with
  | nil => simp [refreshed_none]
  | cons conn conns ih =>
    rw [List.map_cons, List.nodup_cons] at hids
    rw [List.foldl_cons, ih hids.2, oidcConnections_refreshOne, List.map_map]
    refine List.map_congr_left fun c _ => ?_
    rw [Function.comp_apply]
    by_cases hc : c.id = conn.id
    · have hnone : conns.find? (·.id = conn.id) = none := by
        refine List.find?_eq_none.2 fun c' hc' => ?_
        simp only [decide_eq_true_eq]
        exact fun he => hids.1 (he ▸ List.mem_map_of_mem hc')
      rw [if_pos hc, id_refreshed, hc, hnone, List.find?_cons_of_pos (by simp)]
      rfl
    · rw [if_neg hc, List.find?_cons_of_neg (by simpa using Ne.symm hc)]

/-- **What a round writes** are the tokens of the attempts that succeed. -/
theorem db_refreshAll (hids : (h.db.oidcConnections.map OidcConnection.id).Nodup) :
    ∃ answers, (h.refreshAll outcomes now).db.oidcConnections =
      (h.db.refreshAll now answers).oidcConnections := by
  unfold OidcHost.refreshAll
  split
  · refine ⟨fun _ => none, ?_⟩
    simp [Database.refreshAll, refreshed_none]
  · refine ⟨fun id => ((h.db.oidcConnections.filter (·.refreshToken ≠ none)).find? (·.id = id)).bind
      (OidcConnection.newToken h.db.providers outcomes), ?_⟩
    rw [oidcConnections_foldl (hids.sublist (List.filter_sublist.map _))]
    refine List.map_congr_left fun c hc => ?_
    split
    next hnone =>
      have hfind : (h.db.oidcConnections.filter (·.refreshToken ≠ none)).find? (·.id = c.id) =
          none := by
        refine List.find?_eq_none.2 fun c' hc' => ?_
        obtain ⟨hc', htoken⟩ := List.mem_filter.1 hc'
        simp only [decide_eq_true_eq] at htoken ⊢
        intro he
        rw [List.inj_on_of_nodup_map hids hc' hc he] at htoken
        exact htoken hnone
      rw [hfind]
      rfl
    next => rfl

end Round

/-! A user whose provider is down. -/

def idp : Provider :=
  (((((∅ : Provider).insert "id" (.str "idp")).insert "client_id" (.str "wiregui")).insert
    "client_secret" (.str "secret")).insert "discovery_document_uri" (.str "https://idp"))

def providerDown : Uuid → RefreshOutcome :=
  fun _ => ⟨.error "timeout", fun _ => .error "timeout", .ok ()⟩

def idpDatabase : Database :=
  { timedUsers with
    oidcConnections := [⟨⟨0xc1, by decide⟩, "idp", some "r1", none, alice⟩]
    configuration := some
      { disableVpnOnOidcError := true, openidConnectProviders := some [idp], updatedAt := 0 } }

def idpHost : OidcHost := { timedHost.toHost with db := idpDatabase, notifications := [] }

lemma refreshFails_alice : idpDatabase.RefreshFails providerDown alice :=
  ⟨by decide, _, List.mem_cons_self, rfl, by decide, idp, by decide, "timeout", rfl⟩

/-- **The user keeps the peer**; there is a notification. -/
theorem refreshAll_keeps_peer :
    ¬ OidcHost.CutsAccess providerDown idpHost (idpHost.refreshAll providerDown 0) := by
  intro h
  have hgone := h.cut _ rfl rfl laptop List.mem_cons_self refreshFails_alice
  rw [peers_refreshAll] at hgone
  exact hgone (Finset.mem_insert_self _ _)

end WireGui
