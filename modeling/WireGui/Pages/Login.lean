import WireGui.Models
import WireGui.Lib.Text
import WireGui.Services.Firewall

/-!
# `pages/login.py` and `pages/mfa_challenge.py`

Signing in with email and password, in one session: what the session stores, the pages that are open
in it and the handlers that wait for the database.  Wherever the code waits, anything else may come
in between, so a handler is cut there and goes on as an event of its own.

Passwords and codes are checked by libraries: `Checks` stands for them.
-/

namespace WireGui

/-- `verify_password`, and `verify_totp_code` at a point in time, which raises if the secret is not
one. -/
structure Checks where
  password : String → String → Bool
  totp : ℕ → String → String → Option Bool

/-- `authenticate_user`; that an email is there twice is an error as well. -/
def authenticateUser (checks : Checks) (db : Database) (email password : String) : Option User :=
  match db.users.filter (·.email = email) with
  | [user] =>
    match user.passwordHash with
    | none => none
    | some hash =>
      if checks.password password hash ∧ user.disabledAt = none then some user else none
  | _ => none

/-- What every way to sign in writes to the row of the user. -/
def User.signedIn (now : ℕ) (method : String) (user : User) : User :=
  { user with lastSignedInAt := some now, lastSignedInMethod := some method }

/-- The login that waits for a second factor. -/
structure PendingMfa where
  userId : Uuid
  email : String
  role : String
  themePreference : String
  deriving DecidableEq

/-- `app.storage.user`. -/
structure UserStorage where
  authenticated : Bool := false
  userId : Option Uuid := none
  email : Option String := none
  role : Option String := none
  themePreference : Option String := none
  pendingMfa : Option PendingMfa := none
  deriving DecidableEq

/-- The update that signs somebody in. -/
def UserStorage.signIn (storage : UserStorage) (user : PendingMfa) : UserStorage :=
  { storage with
    authenticated := true
    userId := some user.userId
    email := some user.email
    role := some user.role
    themePreference := some user.themePreference }

/-- A page with its closures. -/
inductive Page where
  | login
  | mfa (pending : PendingMfa) (totpMethods : List MfaMethod)
  deriving DecidableEq

/-- A handler that waits: `try_login` has found the user, the `/mfa` page is to load the methods,
`verify_code` has accepted a code. -/
inductive Waiting where
  | tryLogin (user : User)
  | mfaChallengePage (pending : PendingMfa)
  | verifyCode (pending : PendingMfa)
  deriving DecidableEq

/-- A session and the database.  `passed` are the second factors that were checked successfully. -/
structure Session where
  db : Database
  storage : UserStorage
  pages : List Page
  waiting : List Waiting
  passed : List MfaMethod
  deriving DecidableEq

/-- What happens: others change the database, the user opens a page or uses one, a
handler goes on. -/
inductive SessionEvent where
  | change (db : Database)
  | openLogin
  | tryLogin (email password : String)
  | openMfa
  | verifyCode (page : ℕ) (now : ℕ) (code : String)
  | cancelMfa
  | resume (handler : ℕ)

def User.pendingMfa (user : User) : PendingMfa where
  userId := user.id
  email := user.email
  role := user.role
  themePreference := user.themePreference

def Database.methodsOf (db : Database) (u : Uuid) : List MfaMethod :=
  db.mfaMethods.filter (·.userId = u)

/-- `_complete_login`. -/
def completeLogin (pending : PendingMfa) (storage : UserStorage) : UserStorage :=
  { storage.signIn pending with pendingMfa := none }

/-- The loop of `verify_code`: the method that accepts the code.  An exception ends the loop. -/
def acceptedBy (checks : Checks) (now : ℕ) (code : String) : List MfaMethod → Option MfaMethod
  | [] => none
  | method :: methods =>
    match truthy (method.payload.lookup "secret") with
    | none => acceptedBy checks now code methods
    | some secret =>
      match checks.totp now secret code with
      | none => none
      | some true => some method
      | some false => acceptedBy checks now code methods

/-- The rest of a handler, after what it waits for. -/
def Waiting.resume (s : Session) : Waiting → Session
  | .tryLogin user =>
    if s.db.users.any (·.id = user.id) then
      if s.db.methodsOf user.id ≠ [] then
        { s with storage := { s.storage with pendingMfa := some user.pendingMfa } }
      else { s with storage := s.storage.signIn user.pendingMfa }
    else s
  | .mfaChallengePage pending =>
    let totpMethods := (s.db.methodsOf pending.userId).filter (·.type = "totp")
    if totpMethods = [] then { s with storage := completeLogin pending s.storage }
    else { s with pages := s.pages ++ [.mfa pending totpMethods] }
  | .verifyCode pending => { s with storage := completeLogin pending s.storage }

/-- `verify_code` on the `/mfa` page, up to the update of the method. -/
def verifyCode (checks : Checks) (now : ℕ) (input : String) (pending : PendingMfa)
    (totpMethods : List MfaMethod) (s : Session) : Session :=
  let code := strip input
  if code = "" then s
  else
    match acceptedBy checks now code totpMethods with
    | none => s
    | some method =>
      { s with passed := method :: s.passed, waiting := s.waiting ++ [.verifyCode pending] }

/-- **One event** of a session. -/
def SessionEvent.next (checks : Checks) (e : SessionEvent) (s : Session) : Session :=
  match e with
  | .change db => { s with db := db }
  | .openLogin => if s.storage.authenticated then s else { s with pages := s.pages ++ [.login] }
  | .tryLogin email password =>
    if .login ∈ s.pages then
      match authenticateUser checks s.db email password with
      | none => s
      | some user => { s with waiting := s.waiting ++ [.tryLogin user] }
    else s
  | .openMfa =>
    match s.storage.pendingMfa with
    | none => s
    | some pending => { s with waiting := s.waiting ++ [.mfaChallengePage pending] }
  | .verifyCode page now input =>
    match s.pages[page]? with
    | some (.mfa pending totpMethods) => WireGui.verifyCode checks now input pending totpMethods s
    | _ => s
  | .cancelMfa =>
    if s.pages.any (· matches .mfa ..) then { s with storage := {} } else s
  | .resume handler =>
    match s.waiting[handler]? with
    | none => s
    | some waiting => waiting.resume { s with waiting := s.waiting.eraseIdx handler }

end WireGui
