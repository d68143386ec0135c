import WireGui.Pages.SignIn

/-!
# `pages/auth_magic.py` and the switches of the sign-in methods

The page that sends magic links, beside the other ways to sign in.  `local_auth_enabled` is stored
in the configuration, `magic_link_enabled` is a setting of the service.  `run_honoured_iff` says in
which runs a method that is switched off signs nobody in.

The text of a token is a parameter, `createAccessToken`.
-/

namespace WireGui

/-- The settings that the sign-in pages have to do with. -/
structure AuthSettings where
  magicLinkEnabled : Bool
  smtpHost : Option String
  smtpFrom : String
  externalUrl : String

structure Mail where
  sender : String
  recipient : String
  subject : String
  body : String
  deriving DecidableEq

/-- A browser, whether the page `/auth/magic-link` is open in it, and the mails that were sent. -/
structure SignInSite where
  browser : Browser
  requestPage : Bool
  sent : List Mail

/-- `send_email`, where the server takes the mail or does not. -/
def sendEmail (settings : AuthSettings) (accepted : Bool) (recipient subject body : String)
    (sent : List Mail) : List Mail :=
  if settings.smtpHost = none ∨ settings.smtpHost = some "" ∨ accepted = false then sent
  else sent ++ [⟨settings.smtpFrom, recipient, subject, body⟩]

/-- `send_magic_link`. -/
def sendMagicLink (settings : AuthSettings) (accepted : Bool) (recipient link : String)
    (sent : List Mail) : List Mail :=
  sendEmail settings accepted recipient "WireGUI — Sign in link"
    ("You requested a sign-in link for WireGUI.\n\nClick here to sign in:\n" ++ link ++
      "\n\nThis link expires in 15 minutes. If you didn't request this, you can safely ignore " ++
      "this email.\n")
    sent

/-- A page is opened or used, or a mail with a link is asked for; the server takes the mail or does
not. -/
inductive SignInEvent where
  | browser (e : LoginEvent)
  | openMagicLink
  | requestLink (email : String) (now : ℕ) (accepted : Bool)

section Next

variable (checks : Checks) (settings : AuthSettings)
  (createAccessToken : String → String → ℕ → String)

/-- `request_link`; that an email is there twice is an error as well. -/
def SignInSite.requestLink (email : String) (now : ℕ) (accepted : Bool) (s : SignInSite) :
    SignInSite :=
  let emailVal := strip email
  if emailVal = "" then s
  else
    match s.browser.db.users.filter (·.email = emailVal) with
    | [user] =>
      if user.disabledAt = none then
        let token := createAccessToken user.id.str user.role (now + 15 * 60)
        let link := settings.externalUrl ++ "/auth/magic/" ++ user.id.str ++ "/" ++ token
        { s with sent := sendMagicLink settings accepted emailVal link s.sent }
      else s
    | _ => s

def SignInEvent.next (e : SignInEvent) (s : SignInSite) : SignInSite :=
  match e with
  | .browser e => { s with browser := e.next checks s.browser }
  | .openMagicLink =>
    if s.browser.storage.authenticated then s else { s with requestPage := true }
  | .requestLink email now accepted =>
    if s.requestPage then s.requestLink settings createAccessToken email now accepted else s

end Next

/-! ### The switches -/

inductive SignInMethod where
  | password
  | magicLink
  | sso
  deriving DecidableEq

/-- The method that a handler belongs to.  The `/mfa` page goes on with what `try_login` has left. -/
def LoginHandler.method : LoginHandler → SignInMethod
  | .authenticated _ | .methodsRead .. | .tracked .. | .mfaPage _ | .codeAccepted _ => .password
  | .magicRead _ | .magicTracked _ => .magicLink
  | .ssoFound .. | .ssoMade .. | .ssoCommitted _ => .sso

/-- The method of an event in the browser. -/
def LoginEvent.method (e : LoginEvent) (s : Browser) : Option SignInMethod :=
  match e with
  | .resume handler _ => s.waiting[handler]?.map LoginHandler.method
  | .authComplete => some .sso
  | _ => none

def SignInSite.LocalAuthOff (s : SignInSite) : Prop :=
  ∃ config ∈ s.browser.db.configuration, config.localAuthEnabled = false

instance (s : SignInSite) : Decidable s.LocalAuthOff := by
  unfold SignInSite.LocalAuthOff; infer_instance

/-- `authenticated=True` is written by this event, and it is one of the method. -/
def SignInEvent.SignsInBy (checks : Checks) (method : SignInMethod) (e : SignInEvent)
    (s : SignInSite) : Prop :=
  match e with
  | .browser e => e.method s.browser = some method ∧
      (e.next checks s.browser).logins ≠ s.browser.logins
  | _ => False

deriving instance DecidableEq for LoginRecord

instance (checks : Checks) (method : SignInMethod) (e : SignInEvent) (s : SignInSite) :
    Decidable (e.SignsInBy checks method s) := by
  unfold SignInEvent.SignsInBy; cases e <;> infer_instance

section Honoured

variable (checks : Checks) (settings : AuthSettings)
  (createAccessToken : String → String → ℕ → String)

/-- **A method that is switched off** signs nobody in, and no link is sent. -/
def SignInEvent.Honours (e : SignInEvent) (s : SignInSite) : Prop :=
  (s.LocalAuthOff → ¬ e.SignsInBy checks .password s) ∧
    (settings.magicLinkEnabled = false → ¬ e.SignsInBy checks .magicLink s ∧
      (e.next checks settings createAccessToken s).sent = s.sent)

instance (e : SignInEvent) (s : SignInSite) :
    Decidable (e.Honours checks settings createAccessToken s) := by
  unfold SignInEvent.Honours; infer_instance

/-- The handler is about to write `authenticated=True`. -/
def LoginHandler.Completes (db : Database) : LoginHandler → Prop
  | .tracked _ mfaMethods => mfaMethods = []
  | .mfaPage pending => (db.methodsOf pending.userId).filter (·.type = "totp") = []
  | .codeAccepted _ | .magicTracked _ => True
  | _ => False

/-- A link is asked for by a user who can sign in, and the mail can be sent. -/
def SignInSite.Sends (email : String) (accepted : Bool) (s : SignInSite) : Prop :=
  s.requestPage = true ∧ strip email ≠ "" ∧
    (∃ user, s.browser.db.users.filter (·.email = strip email) = [user] ∧
      user.disabledAt = none) ∧
    settings.smtpHost ≠ none ∧ settings.smtpHost ≠ some "" ∧ accepted = true

/-- The event does not complete a login by a method that is off, and does not ask for a link. -/
def SignInEvent.Within (e : SignInEvent) (s : SignInSite) : Prop :=
  match e with
  | .browser (.resume i _) => ∀ handler ∈ s.browser.waiting[i]?, handler.Completes s.browser.db →
      (handler.method = .password → ¬ s.LocalAuthOff) ∧
        (handler.method = .magicLink → settings.magicLinkEnabled = true)
  | .browser _ | .openMagicLink => True
  | .requestLink email _ accepted => s.Sends settings email accepted → settings.magicLinkEnabled = true

end Honoured

section Steps

variable {checks : Checks} {settings : AuthSettings}
  {createAccessToken : String → String → ℕ → String} {s : SignInSite} {b : Browser} {now : ℕ}
  {email : String} {accepted : Bool} {handler : LoginHandler} {e : SignInEvent}

lemma logins_logIn_ne (account : Account) (storage : UserStorage) :
    (b.logIn account storage).logins ≠ b.logins := by
  intro h
  have hlen := congrArg List.length h
  simp [Browser.logIn] at hlen

/-- **A handler** writes a login just if it is about to. -/
lemma logins_resume_iff (hsso : handler.method ≠ .sso) :
    (handler.resume now b).logins ≠ b.logins ↔ handler.Completes b.db := by
  cases handler with
  | authenticated user => exact iff_of_false (fun h => h rfl) id
  | methodsRead user mfaMethods =>
    refine iff_of_false (fun h => h ?_) id
    unfold LoginHandler.resume
    dsimp only
    split
    · rfl
    · rfl
  | tracked user mfaMethods =>
    unfold LoginHandler.resume LoginHandler.Completes
    dsimp only
    split_ifs with hm
    · exact iff_of_false (fun h => h rfl) hm
    · exact iff_of_true (logins_logIn_ne _ _) (not_not.1 hm)
  | mfaPage pending =>
    unfold LoginHandler.resume LoginHandler.Completes
    dsimp only
    split_ifs with hm
    · exact iff_of_true (logins_logIn_ne _ _) hm
    · exact iff_of_false (fun h => h rfl) hm
  | codeAccepted pending => exact iff_of_true (logins_logIn_ne _ _) trivial
  | magicRead user =>
    refine iff_of_false (fun h => h ?_) id
    unfold LoginHandler.resume
    dsimp only
    split
    · rfl
    · rfl
  | magicTracked user => exact iff_of_true (logins_logIn_ne _ _) trivial
  | ssoFound user method => exact absurd rfl hsso
  | ssoMade id email method => exact absurd rfl hsso
  | ssoCommitted user => exact absurd rfl hsso

lemma sendEmail_eq_self_iff {recipient subject body : String} {sent : List Mail} :
    sendEmail settings accepted recipient subject body sent = sent ↔
      ¬ (settings.smtpHost ≠ none ∧ settings.smtpHost ≠ some "" ∧ accepted = true) := by
  unfold sendEmail
  split_ifs with hno
  · refine iff_of_true rfl ?_
    rintro ⟨hhost, hempty, haccepted⟩
    rcases hno with h | h | h
    · exact hhost h
    · exact hempty h
    · exact absurd haccepted (by simp [h])
  · refine iff_of_false (fun h => ?_) (not_not.2 ?_)
    · have hlen := congrArg List.length h
      simp at hlen
    · simpa [not_or] using hno

/-- **A link** is sent just if one is asked for and can be sent. -/
lemma sent_requestLink_iff :
    ((SignInEvent.requestLink email now accepted).next checks settings createAccessToken s).sent =
      s.sent ↔ ¬ s.Sends settings email accepted := by
  unfold SignInEvent.next SignInSite.requestLink SignInSite.Sends
  dsimp only
  by_cases hpage : s.requestPage = true
  · rw [if_pos hpage]
    by_cases hblank : strip email = ""
    · rw [if_pos hblank]
      exact iff_of_true rfl fun h => h.2.1 hblank
    · rw [if_neg hblank]
      split
      next user hrow =>
        by_cases hen : user.disabledAt = none
        · rw [if_pos hen, sendMagicLink, sendEmail_eq_self_iff]
          refine not_congr ⟨fun h => ⟨hpage, hblank, ⟨user, hrow, hen⟩, h⟩, fun h => h.2.2.2⟩
        · rw [if_neg hen]
          refine iff_of_true rfl ?_
          rintro ⟨-, -, ⟨user', hrow', hen'⟩, -⟩
          rw [hrow] at hrow'
          cases hrow'
          exact hen hen'
      next hrows =>
        refine iff_of_true rfl ?_
        rintro ⟨-, -, ⟨user, hrow, -⟩, -⟩
        exact hrows user hrow
  · rw [if_neg hpage]
    exact iff_of_true rfl fun h => hpage h.1

/-- Whether a handler that goes on signs somebody in. -/
lemma signsInBy_resume_iff {i : ℕ} {method : SignInMethod} (hsso : method ≠ .sso) :
    (SignInEvent.browser (.resume i now)).SignsInBy checks method s ↔
      ∃ handler ∈ s.browser.waiting[i]?, handler.method = method ∧
        handler.Completes s.browser.db := by
  unfold SignInEvent.SignsInBy LoginEvent.method LoginEvent.next
  dsimp only
  cases s.browser.waiting[i]? with
  | none => simp
  | some handler =>
    simp only [Option.map_some, Option.some.injEq, Option.mem_def, exists_eq_left']
    refine and_congr_right fun hm => ?_
    exact logins_resume_iff (b := { s.browser with waiting := s.browser.waiting.eraseIdx i })
      (hm ▸ hsso)

/-- Whether a handler may go on. -/
lemma honours_resume_iff {i : ℕ} :
    (SignInEvent.browser (.resume i now)).Honours checks settings createAccessToken s ↔
      (SignInEvent.browser (.resume i now)).Within settings s := by
  unfold SignInEvent.Honours SignInEvent.Within
  rw [signsInBy_resume_iff (by decide), signsInBy_resume_iff (by decide)]
  dsimp only [SignInEvent.next]
  constructor
  · rintro ⟨hpassword, hmagic⟩ handler hw hcompletes
    refine ⟨fun hm hoff => hpassword hoff ⟨handler, hw, hm, hcompletes⟩, fun hm => ?_⟩
    by_contra hoff
    exact (hmagic (Bool.eq_false_of_not_eq_true hoff)).1 ⟨handler, hw, hm, hcompletes⟩
  · intro h
    refine ⟨fun hoff => ?_, fun hoff => ⟨?_, rfl⟩⟩
    · rintro ⟨handler, hw, hm, hcompletes⟩
      exact (h handler hw hcompletes).1 hm hoff
    · rintro ⟨handler, hw, hm, hcompletes⟩
      exact absurd ((h handler hw hcompletes).2 hm) (by simp [hoff])

/-- An event of no method, or of a provider. -/
lemma honours_of_method {e : LoginEvent} (hm : ∀ m ∈ e.method s.browser, m = .sso) :
    (SignInEvent.browser e).Honours checks settings createAccessToken s := by
  refine ⟨fun _ h => ?_, fun _ => ⟨fun h => ?_, rfl⟩⟩
  · cases hm _ h.1
  · cases hm _ h.1

/-- **Which events honour the switches.** -/
lemma honours_iff : e.Honours checks settings createAccessToken s ↔ e.Within settings s := by
  cases e with
  | browser e =>
    cases e with
    | resume i now => exact honours_resume_iff
    | authComplete =>
      refine iff_of_true (honours_of_method fun m hm => ?_) trivial
      cases hm
      rfl
    | change db | openLogin | tryLogin email password | openMfa | verifyCode page now code | cancelMfa
    | magicLink userId subject | ssoCallback method email autoCreate newId | logout =>
      exact iff_of_true (honours_of_method fun m hm => by cases hm) trivial
  | openMagicLink =>
    refine iff_of_true ⟨fun _ => id, fun _ => ⟨id, ?_⟩⟩ trivial
    unfold SignInEvent.next
    dsimp only
    split_ifs
    · rfl
    · rfl
  | requestLink email now accepted =>
    unfold SignInEvent.Honours SignInEvent.Within SignInEvent.SignsInBy
    rw [sent_requestLink_iff]
    cases settings.magicLinkEnabled with
    | true => simp
    | false => simp

/-- A browser in which nobody is in and nothing is open. -/
def SignInSite.start (db : Database) : SignInSite := ⟨.start db, false, []⟩

/-- **In which runs a method that is switched off signs nobody in.** -/
theorem run_honoured_iff (db : Database) (events : List SignInEvent) :
    Run.Throughout (SignInEvent.next checks settings createAccessToken)
        (SignInEvent.Honours checks settings createAccessToken) events (.start db) ↔
      Run.Throughout (SignInEvent.next checks settings createAccessToken)
        (SignInEvent.Within settings) events (.start db) :=
  ⟨Run.Throughout.imp fun _ _ => honours_iff.1, Run.Throughout.imp fun _ _ => honours_iff.2⟩

/-! ### Where a login with a password comes from -/

/-- Nothing is left of a submission of a password. -/
structure Browser.NoPassword (b : Browser) : Prop where
  pending : b.storage.pendingMfa = none
  pages : ∀ page ∈ b.pages, page = .login
  waiting : ∀ handler ∈ b.waiting, handler.method ≠ .password

def SignInEvent.SubmitsPassword : SignInEvent → Prop
  | .browser (.tryLogin _ _) => True
  | _ => False

lemma Browser.NoPassword.wait (h : b.NoPassword) (hm : handler.method ≠ .password) :
    (b.wait handler).NoPassword where
  pending := h.pending
  pages := h.pages
  waiting w hw := by
    rcases List.mem_append.1 hw with hw | hw
    · exact h.waiting w hw
    · rw [List.mem_singleton.1 hw]
      exact hm

lemma Browser.NoPassword.resume (h : b.NoPassword) (hm : handler.method ≠ .password) :
    (handler.resume now b).NoPassword := by
  have hdb : ∀ db, ({ b with db := db } : Browser).NoPassword := fun _ =>
    ⟨h.pending, h.pages, h.waiting⟩
  cases handler with
  | authenticated user | methodsRead user mfaMethods | tracked user mfaMethods | mfaPage pending
  | codeAccepted pending => exact absurd rfl hm
  | magicRead user =>
    unfold LoginHandler.resume
    dsimp only
    split
    · exact h
    · exact (hdb _).wait nofun
  | magicTracked user => exact ⟨h.pending, h.pages, h.waiting⟩
  | ssoFound user method =>
    unfold LoginHandler.resume
    dsimp only
    split
    · exact h
    · exact (hdb _).wait nofun
  | ssoMade id email method =>
    unfold LoginHandler.resume
    dsimp only
    split_ifs
    · exact h
    · exact (hdb _).wait nofun
  | ssoCommitted user => exact ⟨h.pending, h.pages, h.waiting⟩

/-- An event that submits no password leaves it so. -/
lemma Browser.NoPassword.next {e : LoginEvent} (h : b.NoPassword)
    (he : ¬ (SignInEvent.browser e).SubmitsPassword) : (e.next checks b).NoPassword := by
  unfold LoginEvent.next
  cases e with
  | change db => exact ⟨h.pending, h.pages, h.waiting⟩
  | openLogin =>
    dsimp only
    split_ifs
    · exact h
    · refine ⟨h.pending, fun page hpage => ?_, h.waiting⟩
      rcases List.mem_append.1 hpage with hpage | hpage
      · exact h.pages page hpage
      · exact List.mem_singleton.1 hpage
  | tryLogin email password => exact absurd trivial he
  | openMfa =>
    dsimp only
    rw [h.pending]
    exact h
  | verifyCode page now code =>
    dsimp only
    split
    next pending totpMethods hpage => cases h.pages _ (List.mem_of_getElem? hpage)
    next => exact h
  | cancelMfa =>
    dsimp only
    split_ifs
    · exact ⟨rfl, h.pages, h.waiting⟩
    · exact h
  | magicLink userId subject =>
    dsimp only [Browser.magicLink]
    split
    · split
      · exact h
      · split
        · exact h.wait nofun
        · exact h
    · exact h
  | ssoCallback method email autoCreate newId =>
    dsimp only [Browser.ssoCallback]
    split
    · exact h
    · split
      · split
        · exact h.wait nofun
        · exact h
      · split
        · exact h.wait nofun
        · exact h
      · exact h
  | authComplete =>
    dsimp only [Browser.authComplete]
    split
    · exact h
    · split
      · exact ⟨h.pending, h.pages, h.waiting⟩
      · exact ⟨h.pending, h.pages, h.waiting⟩
  | logout => exact ⟨rfl, h.pages, h.waiting⟩
  | resume i now =>
    dsimp only
    split
    · exact h
    next handler hw =>
      have herase : ({ b with waiting := b.waiting.eraseIdx i } : Browser).NoPassword :=
        ⟨h.pending, h.pages, fun w hmem => h.waiting w (List.mem_of_mem_eraseIdx hmem)⟩
      exact herase.resume (h.waiting handler (List.mem_of_getElem? hw))

/-- The page that sends links leaves the rest of the browser alone. -/
lemma browser_next :
    (e.next checks settings createAccessToken s).browser =
      match e with
      | .browser e => e.next checks s.browser
      | _ => s.browser := by
  unfold SignInEvent.next
  cases e with
  | browser e => rfl
  | openMagicLink =>
    dsimp only
    split_ifs
    · rfl
    · rfl
  | requestLink email now accepted =>
    dsimp only [SignInSite.requestLink]
    split
    · split
      · rfl
      · split
        · split
          · rfl
          · rfl
        · rfl
    · rfl

/-- **Nobody signs in with a password** in a run in which none is submitted. -/
theorem run_not_signsInBy_password (db : Database) {events : List SignInEvent}
    (h : ∀ e ∈ events, ¬ e.SubmitsPassword) :
    Run.Throughout (SignInEvent.next checks settings createAccessToken)
      (fun e s => ¬ e.SignsInBy checks .password s) events (.start db) := by
  have halways : Run.Always (SignInEvent.next checks settings createAccessToken)
      (fun s => s.browser.NoPassword) events (.start db) := by
    refine Run.always_of_step (A := fun e _ => ¬ e.SubmitsPassword) (fun e s hs he => ?_)
      ⟨rfl, nofun, nofun⟩ (Run.throughout_of_mem fun e he _ => h e he)
    rw [browser_next]
    cases e with
    | browser e => exact hs.next he
    | openMagicLink => exact hs
    | requestLink email now accepted => exact hs
  refine halways.throughout.imp fun e s hs hsigns => ?_
  cases e with
  | browser e =>
    obtain ⟨hm, -⟩ := hsigns
    cases e with
    | resume i now =>
      obtain ⟨handler, hw, hmethod⟩ := Option.map_eq_some_iff.1 hm
      exact hs.waiting handler (List.mem_of_getElem? hw) hmethod
    | authComplete => cases hm
    | change db | openLogin | tryLogin email password | openMfa | verifyCode page now code | cancelMfa
    | magicLink userId subject | ssoCallback method email autoCreate newId | logout => cases hm
  | openMagicLink | requestLink email now accepted => exact hsigns

end Steps

/-! Both methods are off, and a user signs in with each of them. -/

def signInChecks : Checks := ⟨fun password hash => password = hash, fun _ _ _ => none⟩

def bothOff : Database :=
  { daveIs { dave with passwordHash := some "secret" } with
    configuration := some { localAuthEnabled := false, updatedAt := 0 } }

def linksOff : AuthSettings where
  magicLinkEnabled := false
  smtpHost := some "localhost"
  smtpFrom := "wiregui@localhost"
  externalUrl := "http://localhost:13000"

/-- The page `/login`, up to the end of its handler. -/
def byPassword : List SignInEvent :=
  [.browser .openLogin, .browser (.tryLogin dave.email "secret"), .browser (.resume 0 1),
    .browser (.resume 0 1), .browser (.resume 0 1)]

def asksForLink : List SignInEvent := [.openMagicLink, .requestLink dave.email 1 true]

def byLink : List SignInEvent :=
  [.browser (.magicLink dave.id (some dave.id)), .browser (.resume 0 1), .browser (.resume 0 1)]

/-- What the switches ask for, in a run from the start. -/
def HonouredWhileOff (events : List SignInEvent) : Prop :=
  Run.Throughout (SignInEvent.next signInChecks linksOff fun _ _ _ => "token")
    (SignInEvent.Honours signInChecks linksOff fun _ _ _ => "token") events (.start bothOff)

instance (events : List SignInEvent) : Decidable (HonouredWhileOff events) := by
  unfold HonouredWhileOff; infer_instance

/-- **They are in**, and the link was sent. -/
theorem run_signed_in_off :
    ¬ HonouredWhileOff byPassword ∧ ¬ HonouredWhileOff asksForLink ∧ ¬ HonouredWhileOff byLink := by
  decide

end WireGui
