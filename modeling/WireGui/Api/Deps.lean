import WireGui.Api.Rules
import WireGui.Pages.SignIn

/-!
# `api/deps.py` and `auth/api_token.py`

Who may use the REST API.  The digest of a token is a parameter, `hmac`.
-/

namespace WireGui

variable (hmac : String → String) (now : ℕ) (db : Database)

/-- `resolve_bearer_token`; that a digest is there twice is an error as well. -/
def resolveBearerToken (token : String) : Option User :=
  match db.apiTokens.filter (·.tokenHash = hmac token) with
  | [apiToken] =>
    if ∃ t ∈ apiToken.expiresAt, t < now then none
    else (db.user apiToken.userId).filter fun user => user.disabledAt = none
  | _ => none

/-- `get_current_api_user`. -/
def getCurrentApiUser (authorization : String) : Except HttpError User :=
  if "Bearer ".toList <+: authorization.toList then
    match resolveBearerToken hmac now db (String.ofList (authorization.toList.drop 7)) with
    | none => .error ⟨401, "Invalid or expired API token"⟩
    | some user => .ok user
  else .error ⟨401, "Missing or invalid Authorization header"⟩

/-- `require_admin`. -/
def requireAdmin (authorization : String) : Except HttpError User :=
  match getCurrentApiUser hmac now db authorization with
  | .error e => .error e
  | .ok user => if user.role = "admin" then .ok user else .error ⟨403, "Admin access required"⟩

/-- The token is one of the user's and has not expired. -/
def ValidToken (u : Uuid) (token : String) : Prop :=
  ∃ apiToken, db.apiTokens.filter (·.tokenHash = hmac token) = [apiToken] ∧
    apiToken.userId = u ∧ ∀ t ∈ apiToken.expiresAt, now ≤ t

variable {hmac now db} {u : Uuid} {token : String}

/-- **Whom a token is resolved to**, where no two rows have one digest. -/
theorem resolveBearerToken_eq_some_iff (hids : (db.users.map User.id).Nodup)
    (hhashes : (db.apiTokens.map ApiToken.tokenHash).Nodup) {user : User} :
    resolveBearerToken hmac now db token = some user ↔
      ∃ r ∈ db.apiTokens, r.tokenHash = hmac token ∧ (∀ t ∈ r.expiresAt, now ≤ t) ∧
        user ∈ db.users ∧ user.id = r.userId ∧ user.disabledAt = none := by
  have huser : ∀ v, db.user v = some user ↔ user ∈ db.users ∧ user.id = v := fun v =>
    List.find?_eq_some_of_nodup_map hids
  have hexp : ∀ r : ApiToken, (∃ t ∈ r.expiresAt, t < now) ↔ ¬ ∀ t ∈ r.expiresAt, now ≤ t := by
    intro r
    push Not
    rfl
  unfold resolveBearerToken
  constructor
  · intro h
    split at h
    next r hr =>
      have hmem : r ∈ db.apiTokens.filter (·.tokenHash = hmac token) := by
        rw [hr]
        exact List.mem_singleton_self r
      obtain ⟨hrm, hdigest⟩ := List.mem_filter.1 hmem
      split at h
      · cases h
      next hlive =>
        rw [hexp, not_not] at hlive
        obtain ⟨hu, hen⟩ := Option.filter_eq_some_iff.1 h
        exact ⟨r, hrm, of_decide_eq_true hdigest, hlive, ((huser _).1 hu).1, ((huser _).1 hu).2,
          of_decide_eq_true hen⟩
    · cases h
  · rintro ⟨r, hr, hdigest, hlive, hu, hid, hen⟩
    rw [← hdigest, List.filter_eq_singleton_of_nodup_map hhashes hr]
    dsimp only
    rw [if_neg (by rwa [hexp, not_not])]
    exact Option.filter_eq_some_iff.2 ⟨(huser _).2 ⟨hu, hid⟩, decide_eq_true hen⟩

/-- The user of a token is the row with the id. -/
lemma user_of_resolveBearerToken {user : User} (h : resolveBearerToken hmac now db token = some user) :
    db.user user.id = some user := by
  unfold resolveBearerToken at h
  split at h
  · split at h
    · cases h
    next apiToken _ _ =>
      obtain ⟨hrow, -⟩ := Option.filter_eq_some_iff.1 h
      rw [(List.mem_of_find?_key hrow).2, hrow]
  · cases h

/-- So is whoever may use the endpoints of admins. -/
lemma user_of_requireAdmin {authorization : String} {user : User}
    (h : requireAdmin hmac now db authorization = .ok user) : db.user user.id = some user := by
  unfold requireAdmin getCurrentApiUser at h
  split at h
  · cases h
  next caller hcaller =>
    have hrow : db.user caller.id = some caller := by
      split at hcaller
      · split at hcaller
        · cases hcaller
        next user' huser =>
          obtain rfl := Except.ok.inj hcaller
          exact user_of_resolveBearerToken huser
      · cases hcaller
    split at h
    · obtain rfl := Except.ok.inj h
      exact hrow
    · cases h

/-- With a valid token, the user is up to the row with the id. -/
lemma getCurrentApiUser_of_valid (h : ValidToken hmac now db u token) :
    getCurrentApiUser hmac now db ("Bearer " ++ token) =
      match (db.user u).filter fun user => user.disabledAt = none with
      | none => .error ⟨401, "Invalid or expired API token"⟩
      | some user => .ok user := by
  obtain ⟨apiToken, hrow, rfl, hexp⟩ := h
  have hlist : ("Bearer " ++ token).toList = "Bearer ".toList ++ token.toList :=
    String.toList_append
  have htoken : String.ofList (("Bearer " ++ token).toList.drop 7) = token := by
    rw [hlist, show 7 = "Bearer ".toList.length from rfl, List.drop_left, String.ofList_toList]
  have hlive : ¬ ∃ t ∈ apiToken.expiresAt, t < now := by
    rintro ⟨t, ht, hlt⟩
    exact absurd (hexp t ht) (Nat.not_le.2 hlt)
  rw [getCurrentApiUser, if_pos (hlist ▸ List.prefix_append _ _), htoken, resolveBearerToken, hrow]
  simp only [if_neg hlive]

/-- **Whom `require_admin` accepts** with a valid token: who is there, enabled and an admin. -/
theorem requireAdmin_iff (hids : (db.users.map User.id).Nodup)
    (h : ValidToken hmac now db u token) :
    (∃ user, requireAdmin hmac now db ("Bearer " ++ token) = .ok user) ↔
      Account.Accurate db ⟨u, "admin"⟩ := by
  rw [requireAdmin, getCurrentApiUser_of_valid h]
  have hrow : ∀ user, db.user u = some user ↔ user ∈ db.users ∧ user.id = u := fun user =>
    List.find?_eq_some_of_nodup_map hids
  constructor
  · rintro ⟨user, huser⟩
    cases hu : (db.user u).filter fun user => user.disabledAt = none with
    | none =>
      rw [hu] at huser
      cases huser
    | some c =>
      obtain ⟨hc, hen⟩ := Option.filter_eq_some_iff.1 hu
      rw [hu] at huser
      dsimp only at huser
      split at huser
      next hrole =>
        exact ⟨c, ((hrow c).1 hc).1, ((hrow c).1 hc).2, of_decide_eq_true hen, hrole⟩
      next => cases huser
  · rintro ⟨c, hc, hid, hen, hrole⟩
    have hu : (db.user u).filter (fun user => user.disabledAt = none) = some c :=
      Option.filter_eq_some_iff.2 ⟨(hrow c).2 ⟨hc, hid⟩, decide_eq_true hen⟩
    rw [hu]
    exact ⟨c, if_pos hrole⟩

end WireGui
