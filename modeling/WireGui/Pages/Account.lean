import Mathlib.Logic.Equiv.Basic
import WireGui.Api.Deps
import WireGui.Services.Frame
import WireGui.Services.Users

/-!
# `pages/account.py`: API tokens

A token is shown once, when its row has been stored; the row has only its digest.
`run_tokens_authenticate` says whom a token stands for throughout.

A point in time is a number of microseconds since the beginning of the year 1.
-/

namespace WireGui

/-- Where `datetime` ends. -/
def maxTime : ℕ := 3652059 * 86400000000

/-- `now + timedelta(days=days)` for a positive number of days; `none` is an `OverflowError`. -/
def afterDays (now : ℕ) (days : ℤ) : Option ℕ :=
  let t := now + days.toNat * 86400000000
  if t < maxTime then some t else none

/-- When a token expires that is made with this text in the field of its days, if ever; `none` is an
error. -/
def tokenExpiry (now : ℕ) (tokenDays : String) : Option (Option ℕ) := do
  let days ← if tokenDays = "" then some 30 else readInt tokenDays
  if 0 < days then return some (← afterDays now days) else return none

/-- The database takes the row: its user is there, and its id and its digest are new. -/
def Database.Takes (db : Database) (t : ApiToken) : Prop :=
  (∃ user ∈ db.users, user.id = t.userId) ∧
    ∀ r ∈ db.apiTokens, r.id ≠ t.id ∧ r.tokenHash ≠ t.tokenHash

instance (db : Database) (t : ApiToken) : Decidable (db.Takes t) := by
  unfold Database.Takes; infer_instance

def Database.insertToken (db : Database) (t : ApiToken) : Option Database :=
  if db.Takes t then some { db with apiTokens := db.apiTokens ++ [t] } else none

structure TokenHost where
  db : Database
  now : ℕ

section Handlers

variable (hmac : String → String)

/-- `create_token`, with what is drawn for it: the token and the id of its row. -/
def TokenHost.createToken (userId : Uuid) (tokenDays plaintext : String) (id : Uuid)
    (s : TokenHost) : TokenHost :=
  match tokenExpiry s.now tokenDays with
  | none => s
  | some expiresAt =>
    let row : ApiToken := ⟨id, hmac plaintext, expiresAt, userId⟩
    match s.db.insertToken row with
    | none => s
    | some db => { s with db := db }

/-- `delete_token`. -/
def TokenHost.deleteToken (userId tokenId : Uuid) (s : TokenHost) : TokenHost :=
  match s.db.apiTokens.find? (·.id = tokenId) with
  | none => s
  | some t =>
    if t.userId = userId then
      { s with
        db := { s.db with apiTokens := s.db.apiTokens.filter (·.id ≠ tokenId) } }
    else s

/-- A user is disabled or enabled again. -/
def TokenHost.setDisabled (u : Uuid) (disabledAt : Option ℕ) (s : TokenHost) : TokenHost :=
  { s with
    db := { s.db with
      users := s.db.users.map fun user =>
        if user.id = u then { user with disabledAt := disabledAt } else user } }

end Handlers

inductive TokenEvent where
  | create (userId : Uuid) (tokenDays plaintext : String) (id : Uuid)
  | delete (userId tokenId : Uuid)
  | setDisabled (u : Uuid) (disabledAt : Option ℕ)
  | deleteUser (u : Uuid)
  | advance (dt : ℕ)

def TokenEvent.next (hmac : String → String) (e : TokenEvent) (s : TokenHost) : TokenHost :=
  match e with
  | .create userId tokenDays plaintext id => s.createToken hmac userId tokenDays plaintext id
  | .delete userId tokenId => s.deleteToken userId tokenId
  | .setDisabled u disabledAt => s.setDisabled u disabledAt
  | .deleteUser u => { s with db := s.db.deleteUser u }
  | .advance dt => { s with now := s.now + dt }

section History

variable (hmac : String → String)

/-- The step makes the token for the user `u`: the days can be read, and the database takes the row,
which is shown as `id`. -/
def TokenEvent.Creates (e : TokenEvent) (s : TokenHost) (token : String) (id u : Uuid)
    (expiresAt : Option ℕ) : Prop :=
  ∃ tokenDays, e = .create u tokenDays token id ∧ tokenExpiry s.now tokenDays = some expiresAt ∧
    s.db.Takes ⟨id, hmac token, expiresAt, u⟩

/-- Some step made the token for the user `u`, and `u` has not deleted it since then. -/
def Undeleted (steps : List (TokenEvent × TokenHost)) (token : String) (id u : Uuid)
    (expiresAt : Option ℕ) : Prop :=
  ∃ before step after, steps = before ++ step :: after ∧
    step.1.Creates hmac step.2 token id u expiresAt ∧ ∀ later ∈ after, later.1 ≠ .delete u id

/-- **The token stands for the user** after the steps: it was made for the user and is not deleted, it
has not expired, and the user is there and enabled. -/
def TokenHost.StandsFor (steps : List (TokenEvent × TokenHost)) (s : TokenHost) (token : String)
    (user : User) : Prop :=
  ∃ id expiresAt, Undeleted hmac steps token id user.id expiresAt ∧ (∀ t ∈ expiresAt, s.now ≤ t) ∧
    user ∈ s.db.users ∧ user.disabledAt = none

/-- **A token is taken for the user it stands for**, and the lookup of its digest never finds more
than one row. -/
def TokenHost.Authenticates (steps : List (TokenEvent × TokenHost)) (s : TokenHost) : Prop :=
  ∀ token, (s.db.apiTokens.filter (·.tokenHash = hmac token)).length ≤ 1 ∧
    ∀ user, resolveBearerToken hmac s.now s.db token = some user ↔ s.StandsFor hmac steps token user

/-- The rows are those of the tokens that are not deleted, of the users who are there. -/
structure TokenHost.Traced (steps : List (TokenEvent × TokenHost)) (s : TokenHost) : Prop where
  users : (s.db.users.map User.id).Nodup
  ids : (s.db.apiTokens.map ApiToken.id).Nodup
  hashes : (s.db.apiTokens.map ApiToken.tokenHash).Nodup
  rows : ∀ r, r ∈ s.db.apiTokens ↔
    (∃ token, r.tokenHash = hmac token ∧ Undeleted hmac steps token r.id r.userId r.expiresAt) ∧
      ∃ user ∈ s.db.users, user.id = r.userId

end History

section Steps

variable {hmac : String → String} {steps : List (TokenEvent × TokenHost)} {s : TokenHost}
  {db : Database} {u userId tokenId id : Uuid}

/-- One step more: it makes the token, or the token is there and is not deleted. -/
lemma undeleted_append {step : TokenEvent × TokenHost} {token : String} {expiresAt : Option ℕ} :
    Undeleted hmac (steps ++ [step]) token id u expiresAt ↔
      step.1.Creates hmac step.2 token id u expiresAt ∨
        (Undeleted hmac steps token id u expiresAt ∧ step.1 ≠ .delete u id) := by
  constructor
  · rintro ⟨before, made, after, hsteps, hmade, hkept⟩
    rcases List.eq_nil_or_concat after with rfl | ⟨after, last, rfl⟩
    · obtain ⟨-, hlast⟩ := List.append_inj' hsteps rfl
      obtain rfl := List.head_eq_of_cons_eq hlast
      exact .inl hmade
    · rw [List.concat_eq_append] at hsteps hkept
      rw [← List.cons_append, ← List.append_assoc] at hsteps
      obtain ⟨rfl, hlast⟩ := List.append_inj' hsteps rfl
      obtain rfl := List.head_eq_of_cons_eq hlast
      refine .inr ⟨⟨before, made, after, rfl, hmade, fun later hl => ?_⟩, ?_⟩
      · exact hkept later (List.mem_append_left _ hl)
      · exact hkept step (List.mem_append_right _ (List.mem_singleton_self _))
  · rintro (hmade | ⟨⟨before, made, after, rfl, hmade, hkept⟩, hnot⟩)
    · exact ⟨steps, step, [], rfl, hmade, fun later hl => absurd hl List.not_mem_nil⟩
    · refine ⟨before, made, after ++ [step], by simp, hmade, fun later hl => ?_⟩
      rcases List.mem_append.1 hl with hl | hl
      · exact hkept later hl
      · rwa [List.mem_singleton.1 hl]

/-- A step that neither makes a token nor deletes one. -/
lemma undeleted_append_of_other {e : TokenEvent}
    (hcreate : ∀ userId tokenDays plaintext id, e ≠ .create userId tokenDays plaintext id)
    (hdelete : ∀ userId tokenId, e ≠ .delete userId tokenId) {token : String}
    {expiresAt : Option ℕ} :
    Undeleted hmac (steps ++ [(e, s)]) token id u expiresAt ↔
      Undeleted hmac steps token id u expiresAt := by
  rw [undeleted_append]
  constructor
  · rintro (⟨tokenDays, he, -⟩ | ⟨h, -⟩)
    · exact absurd he (hcreate _ _ _ _)
    · exact h
  · exact fun h => .inr ⟨h, hdelete u id⟩

/-- **A new token** gets a row, if the database takes it. -/
lemma TokenHost.Traced.createToken {tokenDays plaintext : String} (h : s.Traced hmac steps) :
    (s.createToken hmac userId tokenDays plaintext id).Traced hmac
      (steps ++ [(.create userId tokenDays plaintext id, s)]) := by
  have hkept {token : String} {i v : Uuid} {expiresAt : Option ℕ} :
      Undeleted hmac (steps ++ [(.create userId tokenDays plaintext id, s)]) token i v expiresAt ↔
        (TokenEvent.create userId tokenDays plaintext id).Creates hmac s token i v expiresAt ∨
          Undeleted hmac steps token i v expiresAt := by
    rw [undeleted_append]
    simp
  -- what is refused leaves no row
  have hsame (hno : ∀ token i v expiresAt,
      ¬ (TokenEvent.create userId tokenDays plaintext id).Creates hmac s token i v expiresAt) :
      s.Traced hmac (steps ++ [(.create userId tokenDays plaintext id, s)]) := by
    refine ⟨h.users, h.ids, h.hashes, fun r => (h.rows r).trans ?_⟩
    simp only [hkept, hno, false_or]
  unfold TokenHost.createToken
  split
  next hnone =>
    refine hsame fun token i v expiresAt => ?_
    rintro ⟨days, he, hexp, -⟩
    obtain ⟨rfl, rfl, rfl, rfl⟩ := TokenEvent.create.inj he
    cases hnone.symm.trans hexp
  next expiresAt hexp =>
    dsimp only
    by_cases htakes : s.db.Takes ⟨id, hmac plaintext, expiresAt, userId⟩
    · rw [Database.insertToken, if_pos htakes]
      obtain ⟨huser, hnew⟩ := htakes
      refine ⟨h.users, List.nodup_map_append_singleton h.ids fun r hr => (hnew r hr).1,
        List.nodup_map_append_singleton h.hashes fun r hr => (hnew r hr).2, fun r => ?_⟩
      rw [List.mem_append, List.mem_singleton, h.rows r]
      constructor
      · rintro (⟨⟨token, hhash, hlive⟩, hr⟩ | rfl)
        · exact ⟨⟨token, hhash, hkept.2 (.inr hlive)⟩, hr⟩
        · exact ⟨⟨plaintext, rfl, hkept.2 (.inl ⟨tokenDays, rfl, hexp, huser, hnew⟩)⟩, huser⟩
      · rintro ⟨⟨token, hhash, hlive⟩, hr⟩
        rcases hkept.1 hlive with ⟨days, he, hexp', -⟩ | hlive
        · obtain ⟨hu, rfl, rfl, hi⟩ := TokenEvent.create.inj he
          obtain rfl := Option.some.inj (hexp.symm.trans hexp')
          obtain ⟨rid, rhash, rexp, ruser⟩ := r
          obtain rfl : rhash = hmac plaintext := hhash
          obtain rfl : userId = ruser := hu
          obtain rfl : id = rid := hi
          exact .inr rfl
        · exact .inl ⟨⟨token, hhash, hlive⟩, hr⟩
    · rw [Database.insertToken, if_neg htakes]
      refine hsame fun token i v expiresAt' => ?_
      rintro ⟨days, he, hexp', htakes'⟩
      obtain ⟨rfl, rfl, rfl, rfl⟩ := TokenEvent.create.inj he
      obtain rfl := Option.some.inj (hexp.symm.trans hexp')
      exact htakes htakes'

/-- **A token that its user deletes** loses its row, and all others keep theirs. -/
lemma TokenHost.Traced.deleteToken (h : s.Traced hmac steps) :
    (s.deleteToken userId tokenId).Traced hmac (steps ++ [(.delete userId tokenId, s)]) := by
  have hkept {token : String} {i v : Uuid} {expiresAt : Option ℕ} :
      Undeleted hmac (steps ++ [(.delete userId tokenId, s)]) token i v expiresAt ↔
        Undeleted hmac steps token i v expiresAt ∧ ¬ (userId = v ∧ tokenId = i) := by
    rw [undeleted_append]
    simp [TokenEvent.Creates]
  have hrows (r : ApiToken) : (r ∈ s.db.apiTokens ∧ ¬ (userId = r.userId ∧ tokenId = r.id)) ↔
      (∃ token, r.tokenHash = hmac token ∧ Undeleted hmac
        (steps ++ [(.delete userId tokenId, s)]) token r.id r.userId r.expiresAt) ∧
        ∃ user ∈ s.db.users, user.id = r.userId := by
    rw [h.rows r]
    simp only [hkept]
    constructor
    · rintro ⟨⟨⟨token, hhash, hlive⟩, hr⟩, hnot⟩
      exact ⟨⟨token, hhash, hlive, hnot⟩, hr⟩
    · rintro ⟨⟨token, hhash, hlive, hnot⟩, hr⟩
      exact ⟨⟨⟨token, hhash, hlive⟩, hr⟩, hnot⟩
  -- nothing is deleted where the page finds no token of the user
  have hsame (hno : ∀ r ∈ s.db.apiTokens, ¬ (userId = r.userId ∧ tokenId = r.id)) :
      s.Traced hmac (steps ++ [(.delete userId tokenId, s)]) :=
    ⟨h.users, h.ids, h.hashes, fun r => (and_iff_left_of_imp (hno r)).symm.trans (hrows r)⟩
  unfold TokenHost.deleteToken
  split
  next hnone =>
    refine hsame fun r hr hown => ?_
    simpa [hown.2] using List.find?_eq_none.1 hnone r hr
  next t ht =>
    have hid : t.id = tokenId := by simpa using List.find?_some ht
    have hmem := List.mem_of_find?_eq_some ht
    have honly : ∀ r ∈ s.db.apiTokens, r.id = tokenId → r = t := fun r hr hr' =>
      List.inj_on_of_nodup_map h.ids hr hmem (hr'.trans hid.symm)
    split
    next hown =>
      refine ⟨h.users, h.ids.sublist (List.filter_sublist.map _),
        h.hashes.sublist (List.filter_sublist.map _), fun r => ?_⟩
      rw [← hrows r, List.mem_filter, decide_eq_true_iff]
      refine and_congr_right fun hr => ⟨fun hne hboth => hne hboth.2.symm, fun hnot hr' => ?_⟩
      rw [honly r hr hr'] at hnot
      exact hnot ⟨hown.symm, hid.symm⟩
    next hother =>
      refine hsame fun r hr hown => hother ?_
      rw [← honly r hr hown.2.symm, hown.1]

/-- **Deleting a user** takes the rows of the user's tokens. -/
lemma TokenHost.Traced.deleteUser (h : s.Traced hmac steps) :
    TokenHost.Traced hmac (steps ++ [(.deleteUser u, s)]) { s with db := s.db.deleteUser u } := by
  refine ⟨h.users.sublist (List.filter_sublist.map _), h.ids.sublist (List.filter_sublist.map _),
    h.hashes.sublist (List.filter_sublist.map _), fun r => ?_⟩
  simp only [undeleted_append_of_other (s := s) (e := .deleteUser u) nofun nofun]
  show r ∈ s.db.apiTokens.filter (·.userId ≠ u) ↔
    _ ∧ ∃ user ∈ s.db.users.filter (·.id ≠ u), user.id = r.userId
  rw [List.mem_filter, decide_eq_true_iff, h.rows r, and_assoc]
  refine and_congr_right fun _ => ?_
  constructor
  · rintro ⟨⟨user, hm, hid⟩, hne⟩
    exact ⟨user, List.mem_filter.2 ⟨hm, decide_eq_true (hid ▸ hne)⟩, hid⟩
  · rintro ⟨user, hm, hid⟩
    obtain ⟨hm, hne⟩ := List.mem_filter.1 hm
    exact ⟨⟨user, hm, hid⟩, hid ▸ of_decide_eq_true hne⟩

lemma map_id_setDisabled {t : Option ℕ} :
    (s.setDisabled u t).db.users.map User.id = s.db.users.map User.id := by
  rw [TokenHost.setDisabled, List.map_map]
  refine List.map_congr_left fun user _ => ?_
  rw [Function.comp_apply, apply_ite User.id, ite_self]

/-- Disabling a user leaves the tokens alone. -/
lemma TokenHost.Traced.setDisabled {t : Option ℕ} (h : s.Traced hmac steps) :
    (s.setDisabled u t).Traced hmac (steps ++ [(.setDisabled u t, s)]) := by
  refine ⟨by rw [map_id_setDisabled]; exact h.users, h.ids, h.hashes, fun r => ?_⟩
  simp only [undeleted_append_of_other (s := s) (e := .setDisabled u t) nofun nofun]
  rw [← List.mem_map, map_id_setDisabled, List.mem_map]
  exact h.rows r

/-- **Every step** keeps the rows with the history. -/
lemma TokenHost.Traced.next (e : TokenEvent) (h : s.Traced hmac steps) :
    (e.next hmac s).Traced hmac (steps ++ [(e, s)]) := by
  cases e with
  | create userId tokenDays plaintext id => exact h.createToken
  | delete userId tokenId => exact h.deleteToken
  | setDisabled u t => exact h.setDisabled
  | deleteUser u => exact h.deleteUser
  | advance dt =>
    refine ⟨h.users, h.ids, h.hashes, fun r => ?_⟩
    simp only [undeleted_append_of_other (s := s) (e := .advance dt) nofun nofun]
    exact h.rows r

/-- **Whom a token is taken for** where the rows go with the history. -/
theorem TokenHost.Traced.authenticates (hinj : Function.Injective hmac) (h : s.Traced hmac steps) :
    s.Authenticates hmac steps := by
  intro token
  refine ⟨?_, fun user => ?_⟩
  · by_cases hex : ∃ r ∈ s.db.apiTokens, r.tokenHash = hmac token
    · obtain ⟨r, hr, hdigest⟩ := hex
      rw [← hdigest, List.filter_eq_singleton_of_nodup_map h.hashes hr, List.length_singleton]
    · have hnone : s.db.apiTokens.filter (·.tokenHash = hmac token) = [] :=
        List.filter_eq_nil_iff.2 fun r hr hd => hex ⟨r, hr, of_decide_eq_true hd⟩
      rw [hnone]
      exact Nat.zero_le 1
  · rw [resolveBearerToken_eq_some_iff h.users h.hashes]
    constructor
    · rintro ⟨r, hr, hdigest, hlive, huser, hid, hen⟩
      obtain ⟨⟨token', hhash, hkept⟩, -⟩ := (h.rows r).1 hr
      obtain rfl := hinj (hhash.symm.trans hdigest)
      exact ⟨r.id, r.expiresAt, hid ▸ hkept, hlive, huser, hen⟩
    · rintro ⟨id, expiresAt, hkept, hlive, huser, hen⟩
      refine ⟨⟨id, hmac token, expiresAt, user.id⟩, ?_, rfl, hlive, huser, rfl, hen⟩
      exact (h.rows _).2 ⟨⟨token, rfl, hkept⟩, user, huser, rfl⟩

/-- **A token stands for its user throughout**, in whatever order tokens are made and deleted and
users disabled, enabled and deleted. -/
theorem run_tokens_authenticate (hinj : Function.Injective hmac)
    (husers : (db.users.map User.id).Nodup) (hnone : db.apiTokens = []) (now : ℕ)
    (events : List TokenEvent) :
    (Run.final (TokenEvent.next hmac) events ⟨db, now⟩).Authenticates hmac
      (Run.steps (TokenEvent.next hmac) events ⟨db, now⟩) := by
  have hstart : TokenHost.Traced hmac [] ⟨db, now⟩ := by
    refine ⟨husers, ?_, ?_, fun r => ?_⟩
    · simp [hnone]
    · simp [hnone]
    · simp [hnone, Undeleted]
  have htraced : (Run.final (TokenEvent.next hmac) events ⟨db, now⟩).Traced hmac
      ([] ++ Run.steps (TokenEvent.next hmac) events ⟨db, now⟩) := by
    refine Run.final_of_past (A := fun _ _ => True)
      (J := fun steps s => TokenHost.Traced hmac steps s) ?_ hstart
      (Run.throughout_of_forall fun _ _ => trivial)
    exact fun past e s h _ => h.next e
  rw [List.nil_append] at htraced
  exact htraced.authenticates hinj

end Steps

/-! A user makes a token that is good for a day, is disabled for a while, and deletes the token. -/

/-- The digest of the one token there is, with the secret key of the default settings. -/
def sampleHmac : String → String :=
  Equiv.swap "aToken" "494248ad6e0c8f50704a5fc0ba115c34d9fc2e37af600dd1a1db00fae141b1c7"

def tokenId : Uuid := ⟨0x70c3e, by decide⟩

def tokenDay : List TokenEvent :=
  [.create alice "1" "aToken" tokenId, .setDisabled alice (some 0), .setDisabled alice none,
    .advance 86400000000, .delete alice tokenId]

theorem run_tokens_authenticate_alice :
    (Run.final (TokenEvent.next sampleHmac) tokenDay ⟨accounts, 0⟩).Authenticates sampleHmac
      (Run.steps (TokenEvent.next sampleHmac) tokenDay ⟨accounts, 0⟩) :=
  run_tokens_authenticate (Equiv.injective _) (by decide) rfl 0 tokenDay

end WireGui
