import WireGui.Api.Deps
import WireGui.Services.Users

/-!
# `api/v0/users.py`

What the endpoints for users write.  `hashPassword` is `hash_password` with the salt it draws; it
refuses a password that is too long.  Between reading a row and the commit others may have written
to it: the commit is given both the row that was read and what became of it.
-/

namespace WireGui

/-- PostgreSQL stores a text if there is no NUL character in it. -/
def storableText (s : String) : Bool := s.toList.all (· ≠ Char.ofNat 0)

/-- A `datetime`, which may have an offset or not. -/
structure Datetime where
  time : ℕ
  aware : Bool
  deriving DecidableEq

/-- `UserCreate`, with its defaults. -/
structure UserCreate where
  email : String
  password : String
  role : String := "unprivileged"

/-- `UserUpdate`: for each field nothing, or a value that may be null. -/
structure UserUpdate where
  email : Option (Option String) := none
  password : Option (Option String) := none
  role : Option (Option String) := none
  disabledAt : Option (Option Datetime) := none

/-- `password_hash` from the body; null cannot be hashed. -/
def UserUpdate.passwordHash (hashPassword : String → Option String) (body : UserUpdate)
    (user : User) : Option (Option String) :=
  match body.password with
  | none => some user.passwordHash
  | some none => none
  | some (some plain) => (hashPassword plain).map some

/-- `disabled_at` from the body; the database refuses a time without an offset. -/
def UserUpdate.disabled (body : UserUpdate) (user : User) : Option (Option ℕ) :=
  match body.disabledAt with
  | none => some user.disabledAt
  | some none => some none
  | some (some d) => if d.aware then some (some d.time) else none

/-- `setattr` for the fields that are set; `none` if that raises, or at the commit because a column
must not be null. -/
def UserUpdate.applyTo (hashPassword : String → Option String) (body : UserUpdate) (user : User) :
    Option User := do
  let passwordHash ← body.passwordHash hashPassword user
  let email ← body.email.getD (some user.email)
  let role ← body.role.getD (some user.role)
  let disabledAt ← body.disabled user
  return { user with
    email := email
    passwordHash := passwordHash
    role := role
    disabledAt := disabledAt }

/-- The row of a new user. -/
def newUser (id : Uuid) (now : ℕ) (email passwordHash role : String) : User where
  id := id
  email := email
  passwordHash := some passwordHash
  role := role
  disabledAt := none
  themePreference := "auto"
  insertedAt := now
  updatedAt := now

/-- The texts that are written can be stored. -/
def User.Storable (user : User) : Prop :=
  storableText user.email = true ∧ storableText user.role = true ∧
    ∀ hash ∈ user.passwordHash, storableText hash = true

instance (user : User) : Decidable user.Storable := by unfold User.Storable; infer_instance

/-- Writes a row back. -/
def Database.setUser (db : Database) (user : User) : Database :=
  { db with users := db.users.map fun c => if c.id = user.id then user else c }

/-- The row after an update that has read `row` and made `row'` of it: only what it has changed is
written. -/
def User.written (row row' user : User) : User :=
  { user with
    email := if row'.email = row.email then user.email else row'.email
    passwordHash :=
      if row'.passwordHash = row.passwordHash then user.passwordHash else row'.passwordHash
    role := if row'.role = row.role then user.role else row'.role
    disabledAt := if row'.disabledAt = row.disabledAt then user.disabledAt else row'.disabledAt }

/-- The commit of an update: the row must be there still, and emails are unique. -/
def Database.commitUser (row row' : User) (db : Database) : Option Database :=
  match db.user row.id with
  | none => none
  | some user =>
    let user' := row.written row' user
    if user'.Storable ∧ ∀ c ∈ db.users, c.email = user'.email → c.id = user'.id then
      some (db.setUser user')
    else none

/-- The commit of a new user. -/
def Database.insertUser (user : User) (db : Database) : Option Database :=
  if user.Storable ∧ ∀ c ∈ db.users, c.id ≠ user.id ∧ c.email ≠ user.email then
    some { db with users := db.users ++ [user] }
  else none

/-! ### Commits -/

section Commit

variable {db db' : Database} {row row' user c : User}

/-- **What the commit of an update does**: it writes the row as it is now, with the changes. -/
lemma commitUser_eq_some (h : db.commitUser row row' = some db') :
    ∃ user ∈ db.users, user.id = row.id ∧ db' = db.setUser (row.written row' user) := by
  unfold Database.commitUser at h
  split at h
  · cases h
  next user huser =>
    simp only at h
    split at h
    · obtain ⟨hmem, hid⟩ := List.mem_of_find?_key huser
      exact ⟨user, hmem, hid, (Option.some.inj h).symm⟩
    · cases h

lemma insertUser_eq_some (h : db.insertUser user = some db') :
    (∀ c ∈ db.users, c.id ≠ user.id) ∧ db' = { db with users := db.users ++ [user] } := by
  unfold Database.insertUser at h
  split at h
  next hok => exact ⟨fun c hc => (hok.2 c hc).1, (Option.some.inj h).symm⟩
  next => cases h

lemma mem_setUser_iff (hu : ∃ c ∈ db.users, c.id = user.id) :
    c ∈ (db.setUser user).users ↔ c = user ∨ (c ∈ db.users ∧ c.id ≠ user.id) :=
  List.mem_writeBack_iff hu

lemma map_id_setUser : (db.setUser user).users.map User.id = db.users.map User.id :=
  List.map_writeBack fun _ _ hid => hid.symm

end Commit

end WireGui
