import WireGui.Pages.AuthOidc

/-!
# `tasks/oidc_refresh.py`: refresh tokens

The callback of a provider and the refresh task write the refresh token of a connection, one after
the other.  `run_latest_iff` says in which runs it is always the last one that the provider has
returned.
-/

namespace WireGui

/-- `new_token.get("refresh_token", default)`. -/
def OidcToken.refreshTokenOr (token : OidcToken) (default : Option String) : Option String :=
  token.refreshToken.getD default

/-- What `_refresh_all` makes of a connection, given the answer to its request; `none` if no request
is made or it fails. -/
def OidcConnection.refreshed (now : ℕ) (answer : Option OidcToken) (c : OidcConnection) :
    OidcConnection :=
  match answer with
  | none => c
  | some token =>
    { c with refreshToken := token.refreshTokenOr c.refreshToken, refreshedAt := some now }

/-- `_refresh_all`, which goes through the connections with a refresh token. -/
def Database.refreshAll (now : ℕ) (answers : Uuid → Option OidcToken) (db : Database) : Database :=
  { db with
    oidcConnections := db.oidcConnections.map fun c =>
      if c.refreshToken = none then c else c.refreshed now (answers c.id) }

/-- The database, and the last refresh token that the provider has returned for the connection. -/
structure TokenHistory where
  db : Database
  returned : Option String

/-- The last refresh token, after an answer of the provider. -/
def OidcToken.after (token : OidcToken) (returned : Option String) : Option String :=
  token.refreshToken.join <|> returned

/-- A login of the user through the provider, or a round of the refresh task. -/
inductive ConnectionEvent where
  | login (token : OidcToken) (now : ℕ) (connectionId : Uuid)
  | refresh (now : ℕ) (answers : Uuid → Option OidcToken)

section Next

variable (email : String) (u : Uuid) (providerId : String)

/-- The user may log in. -/
def Database.Admits (db : Database) : Prop :=
  ∃ user ∈ db.users, user.email = email ∧ user.disabledAt = none

instance (db : Database) : Decidable (db.Admits email) := by
  unfold Database.Admits; infer_instance

/-- What the provider of the connection has returned in a round of the task. -/
def TokenHistory.answered (answers : Uuid → Option OidcToken) (s : TokenHistory) : Option String :=
  ((s.db.connectionsOf u providerId).filter (·.refreshToken ≠ none)).foldl
    (fun returned c => (answers c.id).elim returned (·.after returned)) s.returned

def ConnectionEvent.next (e : ConnectionEvent) (s : TokenHistory) : TokenHistory :=
  match e with
  | .login token now connectionId =>
    let cb : OidcCallback := ⟨providerId, email, token, now, connectionId⟩
    if s.db.Admits email then ⟨(cb.alone s.db).1, token.after s.returned⟩
    else ⟨(cb.alone s.db).1, s.returned⟩
  | .refresh now answers => ⟨s.db.refreshAll now answers, s.answered u providerId answers⟩

/-- **The stored refresh token is the last one returned.** -/
def TokenHistory.Latest (s : TokenHistory) : Prop :=
  ∀ c ∈ s.db.connectionsOf u providerId, c.refreshToken = s.returned

instance (s : TokenHistory) : Decidable (s.Latest u providerId) := by
  unfold TokenHistory.Latest; infer_instance

/-- **No answer loses the token**: a login brings a refresh token, unless none has been returned
yet, and a refresh does not bring null for one. -/
def ConnectionEvent.BringsToken (e : ConnectionEvent) (s : TokenHistory) : Prop :=
  match e with
  | .login token _ _ => s.db.Admits email → token.refreshToken.join ≠ none ∨ s.returned = none
  | .refresh _ answers => ∀ c ∈ s.db.connectionsOf u providerId, c.refreshToken ≠ none →
      ∀ token ∈ answers c.id, token.refreshToken ≠ some none

/-- There is one connection at most, and none before the provider has returned anything for it. -/
structure TokenHistory.Ok (s : TokenHistory) : Prop where
  one : s.db.OneConnection email u providerId
  none : s.db.connectionsOf u providerId = [] → s.returned = .none

end Next

section Steps

variable {email providerId : String} {u : Uuid} {s : TokenHistory} {db : Database} {now : ℕ}
  {answers : Uuid → Option OidcToken} {token : OidcToken} {connectionId : Uuid}

/-- A round of the task leaves the connections whose they are. -/
lemma connectionsOf_refreshAll : (db.refreshAll now answers).connectionsOf u providerId =
    (db.connectionsOf u providerId).map fun c =>
      if c.refreshToken = none then c else c.refreshed now (answers c.id) := by
  rw [Database.connectionsOf, Database.refreshAll, List.filter_map, Database.connectionsOf]
  congr 1
  refine List.filter_congr fun c _ => ?_
  rw [Function.comp_apply]
  split
  · rfl
  · unfold OidcConnection.refreshed
    split <;> rfl

lemma Database.OneConnection.refreshAll (hdb : db.OneConnection email u providerId) :
    (db.refreshAll now answers).OneConnection email u providerId where
  user := hdb.user
  length := by
    rw [connectionsOf_refreshAll, List.length_map]
    exact hdb.length
  method user hu hid hm := by
    rw [connectionsOf_refreshAll, ne_eq, List.map_eq_nil_iff]
    exact hdb.method user hu hid hm

/-- **Each step** leaves one connection at most. -/
lemma TokenHistory.ok_next (e : ConnectionEvent) (hok : s.Ok email u providerId) :
    (e.next email u providerId s).Ok email u providerId := by
  cases e with
  | login token now connectionId =>
    rcases alone_cases ⟨providerId, email, token, now, connectionId⟩ hok.one ⟨rfl, rfl⟩ with
      ⟨hno, halone⟩ | ⟨hadm, user, existing, hu, hconns, halone⟩
    · have hnext : (ConnectionEvent.login token now connectionId).next email u providerId s = s := by
        simp only [ConnectionEvent.next, halone, Database.Admits, if_neg hno]
      rwa [hnext]
    · simp only [ConnectionEvent.next, halone, Database.Admits, if_pos hadm]
      have hsome : existing ≠ none → s.db.connectionsOf u providerId ≠ [] := by
        rintro hne hnil
        rw [hnil] at hconns
        exact hne (Option.toList_eq_nil_iff.1 hconns.symm)
      refine ⟨hok.one.write rfl hu (fun hnone => ?_) hsome, fun hnil => ?_⟩
      · rw [hconns, hnone]
        rfl
      · exact absurd hnil (connectionsOf_write_self rfl hu hsome)
  | refresh now answers =>
    refine ⟨hok.one.refreshAll, fun hnil => ?_⟩
    simp only [ConnectionEvent.next] at hnil ⊢
    rw [connectionsOf_refreshAll, List.map_eq_nil_iff] at hnil
    rw [TokenHistory.answered, hnil]
    exact hok.none hnil

/-- **A login** stores the last refresh token just if it brings one, or there has not been any. -/
lemma latest_login_iff (hok : s.Ok email u providerId) (hlatest : s.Latest u providerId) :
    ((ConnectionEvent.login token now connectionId).next email u providerId s).Latest u providerId ↔
      (ConnectionEvent.login token now connectionId).BringsToken email u providerId s := by
  rcases alone_cases ⟨providerId, email, token, now, connectionId⟩ hok.one ⟨rfl, rfl⟩ with
    ⟨hno, halone⟩ | ⟨hadm, user, existing, hu, hconns, halone⟩
  · have hnext : (ConnectionEvent.login token now connectionId).next email u providerId s = s := by
      simp only [ConnectionEvent.next, halone, Database.Admits, if_neg hno]
    rw [hnext]
    exact iff_of_true hlatest fun hadm => absurd hadm hno
  · obtain ⟨c, hc, htoken⟩ := connectionsOf_write
      ⟨providerId, email, token, now, connectionId⟩ rfl hu hconns
    have hadm' : s.db.Admits email := hadm
    simp only [TokenHistory.Latest, ConnectionEvent.next, ConnectionEvent.BringsToken, halone,
      if_pos hadm', hc, List.forall_mem_singleton, htoken, OidcCallback.refreshToken,
      OidcToken.after]
    cases token.refreshToken.join with
    | none => simp [hadm', eq_comm]
    | some t => simp

/-- What the task returns and stores for one connection. -/
lemma refreshed_eq_after_iff {c : OidcConnection} {answer : Option OidcToken}
    (hc : c.refreshToken ≠ none) :
    (c.refreshed now answer).refreshToken =
        answer.elim c.refreshToken (·.after c.refreshToken) ↔
      ∀ token ∈ answer, token.refreshToken ≠ some none := by
  cases answer with
  | none => simp [OidcConnection.refreshed]
  | some token =>
    simp only [OidcConnection.refreshed, Option.elim_some, OidcToken.refreshTokenOr,
      OidcToken.after, Option.mem_def, Option.some.injEq, forall_eq']
    rcases token.refreshToken with _ | _ | t
    · simp
    · simpa using Ne.symm hc
    · simp

/-- **A round of the task** keeps the last refresh token just if no answer has null for one. -/
lemma latest_refresh_iff (hok : s.Ok email u providerId) (hlatest : s.Latest u providerId) :
    ((ConnectionEvent.refresh now answers).next email u providerId s).Latest u providerId ↔
      (ConnectionEvent.refresh now answers).BringsToken email u providerId s := by
  have hlen := hok.one.length
  simp only [TokenHistory.Latest, ConnectionEvent.next, ConnectionEvent.BringsToken,
    connectionsOf_refreshAll, TokenHistory.answered]
  rcases hl : s.db.connectionsOf u providerId with _ | ⟨c, _ | ⟨c', cs⟩⟩
  · simp
  · have hreturned : s.returned = c.refreshToken :=
      (hlatest c (by rw [hl]; exact List.mem_singleton_self c)).symm
    rw [hreturned, List.map_singleton, List.forall_mem_singleton, List.forall_mem_singleton]
    by_cases hc : c.refreshToken = none
    · simp [hc]
    · rw [if_neg hc, List.filter_cons_of_pos (by simpa using hc), List.filter_nil, List.foldl_cons,
        List.foldl_nil, refreshed_eq_after_iff hc]
      exact ⟨fun h _ => h, fun h => h hc⟩
  · rw [hl] at hlen
    simp at hlen

/-- **Each step** stores the last refresh token just if no answer loses it. -/
theorem latest_next_iff (e : ConnectionEvent) (hok : s.Ok email u providerId)
    (hlatest : s.Latest u providerId) :
    (e.next email u providerId s).Latest u providerId ↔ e.BringsToken email u providerId s := by
  cases e with
  | login token now connectionId => exact latest_login_iff hok hlatest
  | refresh now answers => exact latest_refresh_iff hok hlatest

/-- **In which runs of logins and refreshes the stored refresh token is always the last one
returned.** -/
theorem run_latest_iff (hok : s.Ok email u providerId) (hlatest : s.Latest u providerId)
    (events : List ConnectionEvent) :
    Run.Always (ConnectionEvent.next email u providerId) (TokenHistory.Latest u providerId) events s ↔
      Run.Throughout (ConnectionEvent.next email u providerId)
        (ConnectionEvent.BringsToken email u providerId) events s :=
  Run.always_iff (I := fun s => s.Ok email u providerId) (A := fun _ _ => True)
    (fun e _ hok => TokenHistory.ok_next e hok) (fun e _ hok _ => latest_next_iff e hok) hok hlatest
    (Run.throughout_of_forall fun _ _ => trivial)

end Steps

/-! A user logs in twice; the provider returns a refresh token the first time only. -/

def beforeLogin : TokenHistory := ⟨accounts, none⟩

lemma beforeLogin_ok : beforeLogin.Ok "alice@example.com" alice "idp" :=
  ⟨accounts_oneConnection, fun _ => rfl⟩

def logInTwice : List ConnectionEvent :=
  [.login ⟨some (some "r1")⟩ 1 ⟨0xc1a, by decide⟩, .login ⟨none⟩ 2 ⟨0xc1b, by decide⟩]

/-- A login, and a round of the task in which the provider does not return a new refresh token. -/
def logInAndRefresh : List ConnectionEvent :=
  [.login ⟨some (some "r1")⟩ 1 ⟨0xc1a, by decide⟩, .refresh 2 fun _ => some ⟨none⟩]

/-- **The second login loses the refresh token.** -/
theorem run_latest_lost :
    beforeLogin.Ok "alice@example.com" alice "idp" ∧ beforeLogin.Latest alice "idp" ∧
      ¬ Run.Always (ConnectionEvent.next "alice@example.com" alice "idp")
        (TokenHistory.Latest alice "idp") logInTwice beforeLogin :=
  ⟨beforeLogin_ok, by decide, by decide⟩

theorem run_latest_iff_refresh :
    Run.Always (ConnectionEvent.next "alice@example.com" alice "idp")
      (TokenHistory.Latest alice "idp") logInAndRefresh beforeLogin := by
  refine (run_latest_iff beforeLogin_ok (by decide) logInAndRefresh).2 ⟨fun _ => .inl nofun, ?_,
    trivial⟩
  intro c _ _ token htoken
  cases htoken
  exact nofun

end WireGui
