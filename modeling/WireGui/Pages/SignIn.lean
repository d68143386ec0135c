import WireGui.Lib.Run
import WireGui.Pages.Login

/-!
# All ways to sign in

Password, password and second factor, magic link, and the callback of an OIDC or SAML provider with
`/auth/complete` after it, in one browser.  Each handler is cut wherever it waits for the database,
and others may change the database in between.

A login carries a copy of the account from step to step: in a handler, on the `/mfa` page, as
`pending_mfa` or in the session cookie.  `run_logins_accurate` says in which runs the copy is still
right when it is written into the session.
-/

namespace WireGui

/-- What a login carries of the account. -/
structure Account where
  id : Uuid
  role : String
  deriving DecidableEq

/-- The account is there and enabled, and has the role. -/
def Account.Accurate (db : Database) (a : Account) : Prop :=
  ∃ user ∈ db.users, user.id = a.id ∧ user.disabledAt = none ∧ user.role = a.role

/-- `authenticated=True` is written for the account, and what the database is then. -/
structure LoginRecord where
  account : Account
  db : Database

/-- `oidc_user_id`, `oidc_email` and `oidc_role` in the session cookie. -/
structure SsoSession where
  userId : Uuid
  email : String
  role : String
  deriving DecidableEq

/-- A handler that waits: `try_login` has checked the password, has read the second factors, has
recorded the sign-in; the `/mfa` page is to load the methods; a code has been accepted; the page of
a magic link has read the user, has recorded the sign-in; the callback of a provider has found the
user, has made one, has committed. -/
inductive LoginHandler where
  | authenticated (user : User)
  | methodsRead (user : User) (mfaMethods : List MfaMethod)
  | tracked (user : User) (mfaMethods : List MfaMethod)
  | mfaPage (pending : PendingMfa)
  | codeAccepted (pending : PendingMfa)
  | magicRead (user : User)
  | magicTracked (user : User)
  | ssoFound (user : User) (method : String)
  | ssoMade (id : Uuid) (email method : String)
  | ssoCommitted (user : User)

/-- The database, and one browser with its storage, its cookie, its open pages and the handlers that
wait.  `logins` are the logins so far. -/
structure Browser where
  db : Database
  storage : UserStorage
  sso : Option SsoSession
  pages : List Page
  waiting : List LoginHandler
  logins : List LoginRecord

/-- What happens: others change the database, the user opens a page or uses one, a provider calls
back with an email, a handler goes on.  The subject of a magic link is what its token says, if that
is valid. -/
inductive LoginEvent where
  | change (db : Database)
  | openLogin
  | tryLogin (email password : String)
  | openMfa
  | verifyCode (page : ℕ) (now : ℕ) (code : String)
  | cancelMfa
  | magicLink (userId : Uuid) (subject : Option Uuid)
  | ssoCallback (method email : String) (autoCreate : Bool) (newId : Uuid)
  | authComplete
  | logout
  | resume (handler : ℕ) (now : ℕ)

def Database.user (db : Database) (id : Uuid) : Option User := db.users.find? (·.id = id)

/-- The update that records a sign-in. -/
def Database.track (u : Uuid) (method : String) (now : ℕ) (db : Database) : Database :=
  { db with users := db.users.map fun user => if user.id = u then user.signedIn now method else user }

/-- The user that a provider's callback makes. -/
def ssoUser (id : Uuid) (email : String) : User where
  id := id
  email := email
  passwordHash := none
  role := "unprivileged"
  disabledAt := none
  themePreference := "auto"

/-- `role or "unprivileged"`. -/
def orUnprivileged (role : String) : String := if role = "" then "unprivileged" else role

namespace Browser

def wait (handler : LoginHandler) (s : Browser) : Browser :=
  { s with waiting := s.waiting ++ [handler] }

/-- Writes `authenticated=True` and the account into the storage. -/
def logIn (account : Account) (storage : UserStorage) (s : Browser) : Browser :=
  { s with storage := storage, logins := ⟨account, s.db⟩ :: s.logins }

/-- `auth_complete_page`. -/
def authComplete (s : Browser) : Browser :=
  match s.sso with
  | none => s
  | some sso =>
    let s := { s with sso := none }
    if sso.email = "" then s
    else
      let role := orUnprivileged sso.role
      s.logIn ⟨sso.userId, role⟩
        { s.storage with
          authenticated := true
          userId := some sso.userId
          email := some sso.email
          role := some role }

/-- `oidc_callback` and `saml_callback`, once the provider has given an email. -/
def ssoCallback (method email : String) (autoCreate : Bool) (newId : Uuid) (s : Browser) : Browser :=
  if email = "" then s
  else
    match s.db.users.filter (·.email = email) with
    | [] => if autoCreate then s.wait (.ssoMade newId email method) else s
    | [user] => if user.disabledAt = none then s.wait (.ssoFound user method) else s
    | _ => s

/-- `magic_link_verify_page`. -/
def magicLink (userId : Uuid) (subject : Option Uuid) (s : Browser) : Browser :=
  if subject = some userId then
    match s.db.user userId with
    | none => s
    | some user => if user.disabledAt = none then s.wait (.magicRead user) else s
  else s

/-- `verify_code` on the `/mfa` page, up to the update of the method. -/
def verifyCode (checks : Checks) (now : ℕ) (input : String) (pending : PendingMfa)
    (totpMethods : List MfaMethod) (s : Browser) : Browser :=
  let code := strip input
  if code = "" then s
  else
    match acceptedBy checks now code totpMethods with
    | none => s
    | some _ => s.wait (.codeAccepted pending)

end Browser

def PendingMfa.account (pending : PendingMfa) : Account := ⟨pending.userId, pending.role⟩

/-- The rest of a handler, up to where it waits next. -/
def LoginHandler.resume (now : ℕ) (s : Browser) : LoginHandler → Browser
  | .authenticated user => s.wait (.methodsRead user (s.db.methodsOf user.id))
  | .methodsRead user mfaMethods =>
    match s.db.user user.id with
    | none => s
    | some _ =>
      { s with db := s.db.track user.id "local" now }.wait (.tracked user mfaMethods)
  | .tracked user mfaMethods =>
    if mfaMethods ≠ [] then
      { s with storage := { s.storage with pendingMfa := some user.pendingMfa } }
    else s.logIn user.pendingMfa.account (s.storage.signIn user.pendingMfa)
  | .mfaPage pending =>
    let totpMethods := (s.db.methodsOf pending.userId).filter (·.type = "totp")
    if totpMethods = [] then s.logIn pending.account (completeLogin pending s.storage)
    else { s with pages := s.pages ++ [.mfa pending totpMethods] }
  | .codeAccepted pending => s.logIn pending.account (completeLogin pending s.storage)
  | .magicRead user =>
    match s.db.user user.id with
    | none => s
    | some _ => { s with db := s.db.track user.id "magic_link" now }.wait (.magicTracked user)
  | .magicTracked user => s.logIn user.pendingMfa.account (s.storage.signIn user.pendingMfa)
  | .ssoFound user method =>
    match s.db.user user.id with
    | none => s
    | some _ => { s with db := s.db.track user.id method now }.wait (.ssoCommitted user)
  | .ssoMade id email method =>
    if s.db.users.any fun user => user.id = id ∨ user.email = email then s
    else
      let user := (ssoUser id email).signedIn now method
      { s with db := { s.db with users := s.db.users ++ [user] } }.wait (.ssoCommitted user)
  | .ssoCommitted user => { s with sso := some ⟨user.id, user.email, user.role⟩ }

/-- **One event** in the browser. -/
def LoginEvent.next (checks : Checks) (e : LoginEvent) (s : Browser) : Browser :=
  match e with
  | .change db => { s with db := db }
  | .openLogin => if s.storage.authenticated then s else { s with pages := s.pages ++ [.login] }
  | .tryLogin email password =>
    if .login ∈ s.pages then
      match authenticateUser checks s.db email password with
      | none => s
      | some user => s.wait (.authenticated user)
    else s
  | .openMfa =>
    match s.storage.pendingMfa with
    | none => s
    | some pending => s.wait (.mfaPage pending)
  | .verifyCode page now input =>
    match s.pages[page]? with
    | some (.mfa pending totpMethods) => s.verifyCode checks now input pending totpMethods
    | _ => s
  | .cancelMfa => if s.pages.any (· matches .mfa ..) then { s with storage := {} } else s
  | .magicLink userId subject => s.magicLink userId subject
  | .ssoCallback method email autoCreate newId => s.ssoCallback method email autoCreate newId
  | .authComplete => s.authComplete
  | .logout => { s with storage := {} }
  | .resume handler now =>
    match s.waiting[handler]? with
    | none => s
    | some waiting => waiting.resume now { s with waiting := s.waiting.eraseIdx handler }

/-! ### The accounts that are carried along -/

def Page.account : Page → Option Account
  | .login => none
  | .mfa pending _ => some pending.account

/-- The account that a handler goes on with.  A user that is to be made is not there yet. -/
def LoginHandler.account : LoginHandler → Option Account
  | .authenticated user | .methodsRead user _ | .tracked user _ | .magicRead user
  | .magicTracked user => some ⟨user.id, user.role⟩
  | .mfaPage pending | .codeAccepted pending => some pending.account
  | .ssoFound user _ | .ssoCommitted user => some ⟨user.id, orUnprivileged user.role⟩
  | .ssoMade .. => none

def SsoSession.account (sso : SsoSession) : Account := ⟨sso.userId, orUnprivileged sso.role⟩

/-- A login is under way with this account. -/
def Browser.Carries (s : Browser) (a : Account) : Prop :=
  (∃ pending ∈ s.storage.pendingMfa, pending.account = a) ∨
    (∃ page ∈ s.pages, page.account = some a) ∨
    (∃ handler ∈ s.waiting, handler.account = some a) ∨
    ∃ sso ∈ s.sso, sso.account = a

/-- The session is that of the account. -/
def Browser.In (s : Browser) (a : Account) : Prop :=
  s.storage.authenticated = true ∧ s.storage.userId = some a.id ∧ s.storage.role = some a.role

/-- **Every login was right when it was written.** -/
def Browser.Sound (s : Browser) : Prop := ∀ l ∈ s.logins, l.account.Accurate l.db

/-- A provider calls back for a user whose role is the empty text, which is then taken for none. -/
def LoginEvent.Blank (e : LoginEvent) (s : Browser) (a : Account) : Prop :=
  match e with
  | .ssoCallback _ email _ _ => ∃ user ∈ s.db.users, user.email = email ∧ user.disabledAt = none ∧
      user.role = "" ∧ a = ⟨user.id, "unprivileged"⟩
  | _ => False

/-- **No login under way is overtaken**: a change of the database leaves the accounts of the logins
under way there, enabled and in their roles.  And no provider calls back for a user whose role is
the empty text. -/
def LoginEvent.KeepsAccounts (e : LoginEvent) (s : Browser) : Prop :=
  match e with
  | .change db => ∀ a, s.Carries a → a.Accurate db
  | e => ∀ a, ¬ e.Blank s a

/-! ### One event -/

/-- What an event other than a change by others does, where `H` are the accounts it may go on with:
the database stays right for whom it was right, logins under way and the session are for accounts
it may go on with or that it has just read, and what is written is for one of the former. -/
structure Browser.Advances (H : Account → Prop) (s s' : Browser) : Prop where
  accurate : ∀ a : Account, a.Accurate s.db → a.Accurate s'.db
  carries : ∀ a, s'.Carries a → H a ∨ a.Accurate s'.db
  logins : s'.logins = s.logins ∨ ∃ a, H a ∧ s'.logins = ⟨a, s.db⟩ :: s.logins
  isIn : s'.storage.authenticated = true → (∃ a, H a ∧ s'.In a) ∨ s.storage.authenticated = true ∧
    s'.storage.userId = s.storage.userId ∧ s'.storage.role = s.storage.role

section Steps

variable {checks : Checks} {s : Browser} {H : Account → Prop} {a : Account} {db : Database}
  {u : Uuid} {method : String} {now : ℕ} {w : LoginHandler}

lemma accurate_track (h : a.Accurate db) : a.Accurate (db.track u method now) := by
  obtain ⟨user, hu, hid, hen, hrole⟩ := h
  refine ⟨_, List.mem_map_of_mem hu, ?_⟩
  split
  · exact ⟨hid, hen, hrole⟩
  · exact ⟨hid, hen, hrole⟩

lemma accurate_append {users : List User} (h : a.Accurate db) :
    a.Accurate { db with users := db.users ++ users } := by
  obtain ⟨user, hu, h⟩ := h
  exact ⟨user, List.mem_append_left _ hu, h⟩

/-- An account is read as it is in the database. -/
lemma accurate_of_mem {user : User} (hu : user ∈ db.users) (hen : user.disabledAt = none) :
    Account.Accurate db ⟨user.id, user.role⟩ := ⟨user, hu, rfl, hen, rfl⟩

lemma authenticateUser_eq_some {email password : String} {user : User}
    (h : authenticateUser checks db email password = some user) :
    user ∈ db.users ∧ user.disabledAt = none := by
  unfold authenticateUser at h
  split at h
  next c hc =>
    have hmem : c ∈ db.users := (List.mem_filter.1 (hc ▸ List.mem_cons_self)).1
    split at h
    · cases h
    · split at h
      next hok =>
        obtain rfl := Option.some.inj h
        exact ⟨hmem, hok.2⟩
      next => cases h
  · cases h

/-- A step that only drops pages, handlers and the like. -/
lemma Browser.Advances.refl (hH : ∀ a, s.Carries a → H a) : s.Advances H s :=
  ⟨fun _ h => h, fun a h => .inl (hH a h), .inl rfl, fun h => .inr ⟨h, rfl, rfl⟩⟩

/-- A handler that waits, after a step that may write to the database. -/
lemma advances_wait (hH : ∀ a, s.Carries a → H a)
    (hdb : ∀ a : Account, a.Accurate s.db → a.Accurate db)
    (hw : ∀ a, w.account = some a → H a ∨ a.Accurate db) :
    s.Advances H ({ s with db := db }.wait w) where
  accurate := hdb
  carries a := by
    rintro (hp | hp | ⟨c, hc, hca⟩ | hp)
    · exact .inl (hH a (.inl hp))
    · exact .inl (hH a (.inr (.inl hp)))
    · rcases List.mem_append.1 hc with hc | hc
      · exact .inl (hH a (.inr (.inr (.inl ⟨c, hc, hca⟩))))
      · obtain rfl := List.mem_singleton.1 hc
        exact hw a hca
    · exact .inl (hH a (.inr (.inr (.inr hp))))
  logins := .inl rfl
  isIn h := .inr ⟨h, rfl, rfl⟩

/-- A login that is completed. -/
lemma advances_logIn (storage : UserStorage) (hH : ∀ a, s.Carries a → H a) (ha : H a)
    (hp : ∀ pending ∈ storage.pendingMfa, H pending.account)
    (hin : (s.logIn a storage).In a) : s.Advances H (s.logIn a storage) where
  accurate _ h := h
  carries b := by
    rintro (⟨pending, hpend, rfl⟩ | hb)
    · exact .inl (hp pending hpend)
    · exact .inl (hH b (.inr hb))
  logins := .inr ⟨a, ha, rfl⟩
  isIn _ := .inl ⟨a, ha, hin⟩

/-- A page that is opened. -/
lemma advances_openPage {page : Page} (hH : ∀ a, s.Carries a → H a)
    (hpage : ∀ a, page.account = some a → H a) :
    s.Advances H { s with pages := s.pages ++ [page] } where
  accurate _ h := h
  carries a := by
    rintro (ha | ⟨page', hp, ha⟩ | ha)
    · exact .inl (hH a (.inl ha))
    · rcases List.mem_append.1 hp with hp | hp
      · exact .inl (hH a (.inr (.inl ⟨page', hp, ha⟩)))
      · rw [List.mem_singleton.1 hp] at ha
        exact .inl (hpage a ha)
    · exact .inl (hH a (.inr (.inr ha)))
  logins := .inl rfl
  isIn h := .inr ⟨h, rfl, rfl⟩

/-- The storage is emptied. -/
lemma advances_clear (hH : ∀ a, s.Carries a → H a) : s.Advances H { s with storage := {} } where
  accurate _ h := h
  carries a := by
    rintro (⟨pending, hp, -⟩ | ha)
    · cases hp
    · exact .inl (hH a (.inr ha))
  logins := .inl rfl
  isIn := nofun

/-- **A handler that goes on**, with its own account. -/
lemma advances_resume (now : ℕ) (hH : ∀ a, s.Carries a → H a) (hw : ∀ a, w.account = some a → H a) :
    s.Advances H (w.resume now s) := by
  have hpend : ∀ pending ∈ s.storage.pendingMfa, H pending.account := fun p hp =>
    hH _ (.inl ⟨p, hp, rfl⟩)
  cases w with
  | authenticated user => exact advances_wait hH (fun _ h => h) fun a ha => .inl (hw a ha)
  | methodsRead user mfaMethods =>
    rw [LoginHandler.resume]
    split
    · exact .refl hH
    · exact advances_wait hH (fun _ => accurate_track) fun a ha => .inl (hw a ha)
  | tracked user mfaMethods =>
    rw [LoginHandler.resume]
    split
    · refine ⟨fun _ h => h, fun a => ?_, .inl rfl, fun h => .inr ⟨h, rfl, rfl⟩⟩
      rintro (⟨pending, hp, rfl⟩ | ha)
      · obtain rfl := Option.some.inj hp
        exact .inl (hw _ rfl)
      · exact .inl (hH a (.inr ha))
    · exact advances_logIn _ hH (hw _ rfl) hpend ⟨rfl, rfl, rfl⟩
  | mfaPage pending =>
    rw [LoginHandler.resume]
    split
    · exact advances_logIn _ hH (hw _ rfl) nofun ⟨rfl, rfl, rfl⟩
    · exact advances_openPage hH hw
  | codeAccepted pending => exact advances_logIn _ hH (hw _ rfl) nofun ⟨rfl, rfl, rfl⟩
  | magicRead user =>
    rw [LoginHandler.resume]
    split
    · exact .refl hH
    · exact advances_wait hH (fun _ => accurate_track) fun a ha => .inl (hw a ha)
  | magicTracked user => exact advances_logIn _ hH (hw _ rfl) hpend ⟨rfl, rfl, rfl⟩
  | ssoFound user method =>
    rw [LoginHandler.resume]
    split
    · exact .refl hH
    · exact advances_wait hH (fun _ => accurate_track) fun a ha => .inl (hw a ha)
  | ssoMade id email method =>
    rw [LoginHandler.resume]
    split
    · exact .refl hH
    · refine advances_wait hH (fun _ => accurate_append) fun a ha => .inr ?_
      obtain rfl := Option.some.inj ha
      exact ⟨_, List.mem_append_right _ List.mem_cons_self, rfl, rfl, rfl⟩
  | ssoCommitted user =>
    refine ⟨fun _ h => h, fun a => ?_, .inl rfl, fun h => .inr ⟨h, rfl, rfl⟩⟩
    rintro (ha | ha | ha | ⟨sso, hsso, rfl⟩)
    · exact .inl (hH a (.inl ha))
    · exact .inl (hH a (.inr (.inl ha)))
    · exact .inl (hH a (.inr (.inr (.inl ha))))
    · obtain rfl := Option.some.inj hsso
      exact .inl (hw _ rfl)

/-- The code is checked for the account of the page. -/
lemma advances_verifyCode (hH : ∀ a, s.Carries a → H a) {input : String} {pending : PendingMfa}
    {totpMethods : List MfaMethod} (hp : H pending.account) :
    s.Advances H (s.verifyCode checks now input pending totpMethods) := by
  unfold Browser.verifyCode
  simp only
  split
  · exact .refl hH
  · split
    · exact .refl hH
    · refine advances_wait hH (fun _ h => h) fun a ha => .inl ?_
      obtain rfl := Option.some.inj ha
      exact hp

/-- The page of a magic link goes on with a user it has just read. -/
lemma advances_magicLink (hH : ∀ a, s.Carries a → H a) {subject : Option Uuid} :
    s.Advances H (s.magicLink u subject) := by
  unfold Browser.magicLink
  split
  · split
    · exact .refl hH
    next user huser =>
      split
      next hen =>
        refine advances_wait hH (fun _ h => h) fun a ha => .inr ?_
        obtain rfl := Option.some.inj ha
        exact accurate_of_mem (List.mem_of_find?_key huser).1 hen
      next => exact .refl hH
  · exact .refl hH

/-- So does the callback of a provider, but for a role that is the empty text. -/
lemma advances_ssoCallback (hH : ∀ a, s.Carries a → H a) {email : String} {autoCreate : Bool}
    (hblank : ∀ user ∈ s.db.users, user.email = email → user.disabledAt = none → user.role = "" →
      H ⟨user.id, "unprivileged"⟩) :
    s.Advances H (s.ssoCallback method email autoCreate u) := by
  unfold Browser.ssoCallback
  split
  · exact .refl hH
  · split
    · split
      · exact advances_wait hH (fun _ h => h) nofun
      · exact .refl hH
    next user huser =>
      obtain ⟨hu, hemail⟩ := List.mem_filter.1 (huser ▸ List.mem_cons_self)
      split
      next hen =>
        refine advances_wait hH (fun _ h => h) fun a ha => ?_
        obtain rfl := Option.some.inj ha
        by_cases hrole : user.role = ""
        · refine .inl ?_
          rw [orUnprivileged, if_pos hrole]
          exact hblank user hu (of_decide_eq_true hemail) hen hrole
        · rw [orUnprivileged, if_neg hrole]
          exact .inr (accurate_of_mem hu hen)
      next => exact .refl hH
    · exact .refl hH

/-- `/auth/complete` takes the account out of the cookie. -/
lemma advances_authComplete (hH : ∀ a, s.Carries a → H a) : s.Advances H s.authComplete := by
  unfold Browser.authComplete
  split
  · exact .refl hH
  next sso hsso =>
    have hpop : ∀ a, ({ s with sso := none } : Browser).Carries a → H a := by
      rintro a (ha | ha | ha | ⟨c, hc, -⟩)
      · exact hH a (.inl ha)
      · exact hH a (.inr (.inl ha))
      · exact hH a (.inr (.inr (.inl ha)))
      · cases hc
    have hown : H sso.account := hH _ (.inr (.inr (.inr ⟨sso, hsso, rfl⟩)))
    simp only
    split
    · exact ⟨fun _ h => h, fun a h => .inl (hpop a h), .inl rfl, fun h => .inr ⟨h, rfl, rfl⟩⟩
    · have hstep := advances_logIn (a := sso.account)
        { s.storage with
          authenticated := true
          userId := some sso.userId
          email := some sso.email
          role := some (orUnprivileged sso.role) } hpop hown
        (fun p hp => hH _ (.inl ⟨p, hp, rfl⟩)) ⟨rfl, rfl, rfl⟩
      exact ⟨hstep.accurate, hstep.carries, hstep.logins, hstep.isIn⟩

/-- **One event** other than a change by others. -/
theorem advances_next (checks : Checks) {e : LoginEvent} (he : ∀ db, e ≠ .change db) :
    s.Advances (fun a => s.Carries a ∨ e.Blank s a) (e.next checks s) := by
  have hH : ∀ a, s.Carries a → s.Carries a ∨ e.Blank s a := fun _ => .inl
  cases e with
  | change db => exact absurd rfl (he db)
  | openLogin =>
    rw [LoginEvent.next]
    split
    · exact .refl hH
    · exact advances_openPage hH nofun
  | tryLogin email password =>
    rw [LoginEvent.next]
    split
    · split
      · exact .refl hH
      next user huser =>
        obtain ⟨hu, hen⟩ := authenticateUser_eq_some huser
        refine advances_wait hH (fun _ h => h) fun a ha => .inr ?_
        obtain rfl := Option.some.inj ha
        exact accurate_of_mem hu hen
    · exact .refl hH
  | openMfa =>
    rw [LoginEvent.next]
    split
    · exact .refl hH
    next pending hp =>
      refine advances_wait hH (fun _ h => h) fun a ha => .inl (.inl (.inl ⟨pending, hp, ?_⟩))
      exact Option.some.inj ha
  | verifyCode page now input =>
    rw [LoginEvent.next]
    split
    next pending totpMethods hp =>
      have hcarried : s.Carries pending.account :=
        .inr (.inl ⟨_, List.mem_of_getElem? hp, rfl⟩)
      exact advances_verifyCode hH (.inl hcarried)
    · exact .refl hH
  | cancelMfa =>
    rw [LoginEvent.next]
    split
    · exact advances_clear hH
    · exact .refl hH
  | magicLink userId subject => exact advances_magicLink hH
  | ssoCallback method email autoCreate newId =>
    refine advances_ssoCallback hH fun user hu hemail hen hrole => .inr ?_
    exact ⟨user, hu, hemail, hen, hrole, rfl⟩
  | authComplete => exact advances_authComplete hH
  | logout => exact advances_clear hH
  | resume handler now =>
    rw [LoginEvent.next]
    split
    · exact .refl hH
    next w hw =>
      have hmem := List.mem_of_getElem? hw
      have hdrop : ∀ a, ({ s with waiting := s.waiting.eraseIdx handler } : Browser).Carries a →
          s.Carries a ∨ (LoginEvent.resume handler now).Blank s a := by
        rintro a (ha | ha | ⟨c, hc, ha⟩ | ha)
        · exact .inl (.inl ha)
        · exact .inl (.inr (.inl ha))
        · exact .inl (.inr (.inr (.inl ⟨c, List.mem_of_mem_eraseIdx hc, ha⟩)))
        · exact .inl (.inr (.inr (.inr ha)))
      have hstep := advances_resume (w := w) now hdrop
        fun a ha => .inl (.inr (.inr (.inl ⟨w, hmem, ha⟩)))
      exact ⟨hstep.accurate, hstep.carries, hstep.logins, hstep.isIn⟩

/-- **Logins under way stay right**, and so do the logins, while nobody overtakes them. -/
lemma sound_next {e : LoginEvent} (hs : (∀ a, s.Carries a → a.Accurate s.db) ∧ s.Sound)
    (he : e.KeepsAccounts s) :
    (∀ a, (e.next checks s).Carries a → a.Accurate (e.next checks s).db) ∧
      (e.next checks s).Sound := by
  obtain ⟨hcarry, hsound⟩ := hs
  by_cases hchange : ∃ db, e = .change db
  · obtain ⟨db, rfl⟩ := hchange
    exact ⟨he, hsound⟩
  push Not at hchange
  have hblank : ∀ a, ¬ e.Blank s a := by
    cases e with
    | change db => exact fun _ => id
    | _ => exact he
  have hH : ∀ a, s.Carries a ∨ e.Blank s a → a.Accurate s.db := fun a ha =>
    hcarry a (ha.resolve_right (hblank a))
  have hstep := advances_next checks (s := s) hchange
  refine ⟨fun a ha => ?_, ?_⟩
  · rcases hstep.carries a ha with ha | ha
    · exact hstep.accurate a (hH a ha)
    · exact ha
  · intro l hl
    rcases hstep.logins with hsame | ⟨a, ha, hnew⟩
    · exact hsound l (hsame ▸ hl)
    · rw [hnew] at hl
      rcases List.mem_cons.1 hl with rfl | hl
      · exact hH a ha
      · exact hsound l hl

/-- **In which runs every login is right**: whenever `authenticated=True` is written, the account is
there and enabled and has the role that is written, if no login under way is overtaken. -/
theorem run_logins_accurate (hcarry : ∀ a, s.Carries a → a.Accurate s.db) (hsound : s.Sound)
    {events : List LoginEvent}
    (hkeep : Run.Throughout (LoginEvent.next checks) LoginEvent.KeepsAccounts events s) :
    Run.Always (LoginEvent.next checks) Browser.Sound events s := by
  have hrun : Run.Always (LoginEvent.next checks)
      (fun s => (∀ a, s.Carries a → a.Accurate s.db) ∧ s.Sound) events s := by
    refine Run.always_of_step ?_ ⟨hcarry, hsound⟩ hkeep
    exact fun _ _ hs he => sound_next hs he
  exact hrun.imp fun _ hs => hs.2

end Steps

/-! A user comes back from the provider and is disabled before `/auth/complete` is opened. -/

def dave : User where
  id := ⟨0xda, by decide⟩
  email := "dave@example.com"
  passwordHash := none
  role := "unprivileged"
  disabledAt := none
  themePreference := "auto"

def daveIs (dave : User) : Database where
  users := [dave]
  devices := []
  rules := []
  mfaMethods := []
  configuration := none

/-- A browser in which nobody is in and nothing is open. -/
def Browser.start (db : Database) : Browser where
  db := db
  storage := {}
  sso := none
  pages := []
  waiting := []
  logins := []

lemma Browser.not_carries_start (db : Database) (a : Account) : ¬ (Browser.start db).Carries a := by
  rintro (⟨p, hp, -⟩ | ⟨p, hp, -⟩ | ⟨w, hw, -⟩ | ⟨c, hc, -⟩)
  · cases hp
  · cases hp
  · cases hw
  · cases hc

def noChecks : Checks := ⟨fun _ _ => false, fun _ _ _ => none⟩

/-- The callback of the provider, to its end. -/
def returns : List LoginEvent :=
  [.ssoCallback "oidc:corp" dave.email false dave.id, .resume 0 1, .resume 0 1]

def overtaken : List LoginEvent :=
  returns ++ [.change (daveIs { dave with disabledAt := some 2 }), .authComplete]

/-- **A disabled user gets in.** -/
theorem run_login_disabled :
    ¬ Run.Always (LoginEvent.next noChecks) Browser.Sound overtaken (.start (daveIs dave)) := by
  intro h
  have hlogin : (⟨⟨dave.id, "unprivileged"⟩, daveIs { dave with disabledAt := some 2 }⟩ :
      LoginRecord) ∈ (Run.final (LoginEvent.next noChecks) overtaken
        (.start (daveIs dave))).logins := List.mem_cons_self
  obtain ⟨user, hu, -, hen, -⟩ := h.final _ hlogin
  rw [List.mem_singleton.1 hu] at hen
  cases hen

lemma keepsAccounts_returns :
    Run.Throughout (LoginEvent.next noChecks) LoginEvent.KeepsAccounts (returns ++ [.authComplete])
      (.start (daveIs dave)) := by
  have hrole : ∀ a, ¬ (LoginEvent.ssoCallback "oidc:corp" dave.email false dave.id).Blank
      (.start (daveIs dave)) a := by
    rintro a ⟨user, hu, -, -, hblank, -⟩
    rw [List.mem_singleton.1 hu] at hblank
    exact absurd hblank (by decide)
  exact ⟨hrole, fun _ => id, fun _ => id, fun _ => id, trivial⟩

theorem run_logins_accurate_returns :
    Run.Always (LoginEvent.next noChecks) Browser.Sound (returns ++ [.authComplete])
      (.start (daveIs dave)) :=
  run_logins_accurate (fun a ha => absurd ha (Browser.not_carries_start _ a))
    (fun _ hl => absurd hl List.not_mem_nil) keepsAccounts_returns

end WireGui
