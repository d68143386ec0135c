import WireGui.Pages.AuthMagic

/-!
# What a login rests on

A user signs in with a password, with a link from a mail or by way of a provider.  Handlers wait,
logins go from page to page and through the session cookie, and a link is opened long after it was
asked for.  `run_logins_backed`: still, each login is for a user for whom one of these was
presented, and a link is good for a quarter of an hour.

What PyJWT makes of a token is a parameter, `decodeAccessToken`: the subject, as long as the token is
valid.
-/

namespace WireGui

/-! ### What a browser is about -/

def LoginHandler.userId : LoginHandler → Uuid
  | .authenticated user | .methodsRead user _ | .tracked user _ | .magicRead user
  | .magicTracked user | .ssoFound user _ | .ssoCommitted user => user.id
  | .mfaPage pending | .codeAccepted pending => pending.userId
  | .ssoMade id _ _ => id

/-- All logins in the browser are for these users. -/
structure Browser.For (H : Uuid → Prop) (b : Browser) : Prop where
  pending : ∀ pending ∈ b.storage.pendingMfa, H pending.userId
  pages : ∀ pending totpMethods, .mfa pending totpMethods ∈ b.pages → H pending.userId
  waiting : ∀ handler ∈ b.waiting, H handler.userId
  sso : ∀ sso ∈ b.sso, H sso.userId
  logins : ∀ l ∈ b.logins, H l.account.id
  session : b.storage.authenticated = true → ∀ u ∈ b.storage.userId, H u

/-- The word of a provider is taken for the user: the email is the user's, or the user is made. -/
def Database.Names (db : Database) (email : String) (autoCreate : Bool) (newId u : Uuid) : Prop :=
  (∃ user ∈ db.users, user.id = u ∧ user.email = email ∧ user.disabledAt = none) ∨
    autoCreate = true ∧ newId = u ∧ ∀ user ∈ db.users, user.email ≠ email

/-- A login of the user begins with this event. -/
def LoginEvent.Begins (checks : Checks) (e : LoginEvent) (b : Browser) (u : Uuid) : Prop :=
  match e with
  | .tryLogin email password =>
    ∃ user, authenticateUser checks b.db email password = some user ∧ user.id = u
  | .magicLink userId subject => userId = u ∧ subject = some u
  | .ssoCallback _ email autoCreate newId => b.db.Names email autoCreate newId u
  | _ => False

section Browsers

variable {checks : Checks} {H H' : Uuid → Prop} {b : Browser} {now : ℕ} {handler : LoginHandler}

lemma Browser.For.imp (h : b.For H) (hH : ∀ u, H u → H' u) : b.For H' where
  pending p hp := hH _ (h.pending p hp)
  pages p totp hp := hH _ (h.pages p totp hp)
  waiting w hw := hH _ (h.waiting w hw)
  sso c hc := hH _ (h.sso c hc)
  logins l hl := hH _ (h.logins l hl)
  session ha u hu := hH _ (h.session ha u hu)

lemma Browser.For.wait (h : b.For H) (hw : H handler.userId) : (b.wait handler).For H where
  pending := h.pending
  pages := h.pages
  waiting w hmem := by
    rcases List.mem_append.1 hmem with hmem | hmem
    · exact h.waiting w hmem
    · rw [List.mem_singleton.1 hmem]
      exact hw
  sso := h.sso
  logins := h.logins
  session := h.session

lemma Browser.For.logIn {account : Account} {storage : UserStorage} (h : b.For H)
    (ha : H account.id) (hp : ∀ pending ∈ storage.pendingMfa, H pending.userId)
    (hu : storage.userId = some account.id) : (b.logIn account storage).For H where
  pending := hp
  pages := h.pages
  waiting := h.waiting
  sso := h.sso
  logins l hl := by
    rcases List.mem_cons.1 hl with rfl | hl
    · exact ha
    · exact h.logins l hl
  session _ u hmem := by
    have hmem : some u = some account.id := hmem.symm.trans hu
    rw [Option.some.inj hmem]
    exact ha

lemma Browser.for_start (db : Database) : (Browser.start db).For H where
  pending p hp := by cases (hp : none = some p)
  pages p totp hp := absurd hp List.not_mem_nil
  waiting w hw := absurd hw List.not_mem_nil
  sso c hc := by cases (hc : none = some c)
  logins l hl := absurd hl List.not_mem_nil
  session ha := by cases (ha : false = true)

lemma Browser.For.clear (h : b.For H) : Browser.For H { b with storage := {} } :=
  ⟨nofun, h.pages, h.waiting, h.sso, h.logins, nofun⟩

/-- **A handler that goes on** does so for its user. -/
lemma Browser.For.resume (h : b.For H) (hw : H handler.userId) :
    (handler.resume now b).For H := by
  have hdb : ∀ db, ({ b with db := db } : Browser).For H := fun _ =>
    ⟨h.pending, h.pages, h.waiting, h.sso, h.logins, h.session⟩
  cases handler with
  | authenticated user => exact h.wait hw
  | methodsRead user mfaMethods =>
    unfold LoginHandler.resume
    dsimp only
    split
    · exact h
    · exact (hdb _).wait hw
  | tracked user mfaMethods =>
    unfold LoginHandler.resume
    dsimp only
    split
    · refine ⟨fun p hp => ?_, h.pages, h.waiting, h.sso, h.logins, h.session⟩
      obtain rfl := Option.some.inj hp
      exact hw
    · exact h.logIn hw h.pending rfl
  | mfaPage pending =>
    unfold LoginHandler.resume
    dsimp only
    split
    · exact h.logIn hw nofun rfl
    · refine ⟨h.pending, fun p totp hp => ?_, h.waiting, h.sso, h.logins, h.session⟩
      rcases List.mem_append.1 hp with hp | hp
      · exact h.pages p totp hp
      · cases List.mem_singleton.1 hp
        exact hw
  | codeAccepted pending => exact h.logIn hw nofun rfl
  | magicRead user =>
    unfold LoginHandler.resume
    dsimp only
    split
    · exact h
    · exact (hdb _).wait hw
  | magicTracked user => exact h.logIn hw h.pending rfl
  | ssoFound user method =>
    unfold LoginHandler.resume
    dsimp only
    split
    · exact h
    · exact (hdb _).wait hw
  | ssoMade id email method =>
    unfold LoginHandler.resume
    dsimp only
    split
    · exact h
    · exact (hdb _).wait hw
  | ssoCommitted user =>
    refine ⟨h.pending, h.pages, h.waiting, fun c hc => ?_, h.logins, h.session⟩
    obtain rfl := Option.some.inj hc
    exact hw

/-- **One event** in a browser is for the users it was about, or for one whose login begins. -/
theorem Browser.For.next {e : LoginEvent} (h : b.For H) (he : ∀ u, e.Begins checks b u → H u) :
    (e.next checks b).For H := by
  unfold LoginEvent.next
  cases e with
  | change db => exact ⟨h.pending, h.pages, h.waiting, h.sso, h.logins, h.session⟩
  | openLogin =>
    dsimp only
    split
    · exact h
    · refine ⟨h.pending, fun p totp hp => ?_, h.waiting, h.sso, h.logins, h.session⟩
      rcases List.mem_append.1 hp with hp | hp
      · exact h.pages p totp hp
      · cases List.mem_singleton.1 hp
  | tryLogin email password =>
    dsimp only
    split
    · split
      · exact h
      next user huser => exact h.wait (he user.id ⟨user, huser, rfl⟩)
    · exact h
  | openMfa =>
    dsimp only
    split
    · exact h
    next pending hp => exact h.wait (h.pending pending hp)
  | verifyCode page now input =>
    dsimp only
    split
    next pending totpMethods hp =>
      have hpage : H pending.userId := h.pages pending totpMethods (List.mem_of_getElem? hp)
      unfold Browser.verifyCode
      dsimp only
      split
      · exact h
      · split
        · exact h
        · exact h.wait hpage
    · exact h
  | cancelMfa =>
    dsimp only
    split
    · exact h.clear
    · exact h
  | magicLink userId subject =>
    dsimp only [Browser.magicLink]
    split
    next hsubject =>
      split
      · exact h
      next user huser =>
        have hid : user.id = userId := (List.mem_of_find?_key huser).2
        split
        · exact h.wait (he user.id ⟨hid.symm, hsubject.trans (congrArg some hid.symm)⟩)
        · exact h
    · exact h
  | ssoCallback method email autoCreate newId =>
    dsimp only [Browser.ssoCallback]
    split
    · exact h
    · split
      next hnone =>
        split
        next hauto =>
          refine h.wait (he newId (.inr ⟨hauto, rfl, fun user huser hemail => ?_⟩))
          exact List.filter_eq_nil_iff.1 hnone user huser (decide_eq_true hemail)
        · exact h
      next user hone =>
        obtain ⟨hu, hemail⟩ := List.mem_filter.1 (hone ▸ List.mem_cons_self)
        split
        next hen => exact h.wait (he user.id (.inl ⟨user, hu, rfl, of_decide_eq_true hemail, hen⟩))
        · exact h
      · exact h
  | authComplete =>
    dsimp only [Browser.authComplete]
    split
    · exact h
    next sso hsso =>
      have hown : H sso.userId := h.sso sso hsso
      have hpop : ({ b with sso := none } : Browser).For H :=
        ⟨h.pending, h.pages, h.waiting, nofun, h.logins, h.session⟩
      split
      · exact hpop
      · exact hpop.logIn hown h.pending rfl
  | logout => exact h.clear
  | resume i now =>
    dsimp only
    split
    · exact h
    next handler hw =>
      have herase : ({ b with waiting := b.waiting.eraseIdx i } : Browser).For H :=
        ⟨h.pending, h.pages, fun w hmem => h.waiting w (List.mem_of_mem_eraseIdx hmem), h.sso,
          h.logins, h.session⟩
      exact herase.resume (h.waiting handler (List.mem_of_getElem? hw))

end Browsers

/-! ### Links in mails -/

/-- A link that was mailed, and when it expires. -/
structure MagicLink where
  userId : Uuid
  token : String
  expires : ℕ

/-- The address in the mail. -/
def MagicLink.url (link : MagicLink) (settings : AuthSettings) : String :=
  settings.externalUrl ++ "/auth/magic/" ++ link.userId.str ++ "/" ++ link.token

/-- The mail takes the link to the user. -/
structure Mail.Brings (mail : Mail) (link : MagicLink) (user : User) (settings : AuthSettings) :
    Prop where
  recipient : mail.recipient = user.email
  body : ∃ before after, mail.body = before ++ link.url settings ++ after

/-- The pages, and the links that were mailed. -/
structure LinkSite extends SignInSite where
  links : List MagicLink

/-- Nobody has signed in yet, and no link is out. -/
def LinkSite.start (db : Database) : LinkSite := ⟨.start db, []⟩

/-- What happens on the pages, or a link is opened.  In `SignInEvent` a link comes with what its
token has been found to say. -/
inductive CredentialEvent where
  | signIn (e : SignInEvent)
  | openLink (userId : Uuid) (token : String) (now : ℕ)

section Links

variable (checks : Checks) (settings : AuthSettings)
  (createAccessToken : String → String → ℕ → String) (decodeAccessToken : ℕ → String → Option String)

/-- The link in the mail that `request_link` sends, if it sends one. -/
def SignInSite.mailedLink (email : String) (now : ℕ) (accepted : Bool) (s : SignInSite) :
    List MagicLink :=
  if (s.requestLink settings createAccessToken email now accepted).sent = s.sent then []
  else
    (s.browser.db.users.filter (·.email = strip email)).map fun user =>
      ⟨user.id, createAccessToken user.id.str user.role (now + 15 * 60), now + 15 * 60⟩

/-- `magic_link_verify_page`, for the token in the link. -/
def LinkSite.openLink (userId : Uuid) (token : String) (now : ℕ) (s : LinkSite) : LinkSite :=
  if decodeAccessToken now token = some userId.str then
    { s with browser := s.browser.magicLink userId (some userId) }
  else s

def CredentialEvent.next (e : CredentialEvent) (s : LinkSite) : LinkSite :=
  match e with
  | .signIn e =>
    { toSignInSite := e.next checks settings createAccessToken s.toSignInSite
      links := s.links ++
        match e with
        | .requestLink email now accepted =>
          if s.requestPage then
            s.mailedLink settings createAccessToken email now accepted
          else []
        | _ => [] }
  | .openLink userId token now => s.openLink decodeAccessToken userId token now

/-- Nobody makes up a token: one that is valid is from a mail.  And links are opened with their
tokens. -/
def CredentialEvent.Genuine (e : CredentialEvent) (s : LinkSite) : Prop :=
  match e with
  | .signIn (.browser (.magicLink _ _)) => False
  | .signIn _ => True
  | .openLink _ token now => decodeAccessToken now token ≠ none →
      ∃ link ∈ s.links, link.token = token

/-- **What a login of the user rests on**, in the steps of a run. -/
inductive Backed (steps : List (CredentialEvent × LinkSite)) (u : Uuid) : Prop
  /-- The password of the user was accepted. -/
  | password {email password : String} {s : LinkSite} {user : User}
    (hstep : (.signIn (.browser (.tryLogin email password)), s) ∈ steps)
    (haccepted : authenticateUser checks s.browser.db email password = some user)
    (hid : user.id = u) : Backed steps u
  /-- A provider gave the email of the user, or one for whom a user is made. -/
  | provider {method email : String} {autoCreate : Bool} {newId : Uuid} {s : LinkSite}
    (hstep : (.signIn (.browser (.ssoCallback method email autoCreate newId)), s) ∈ steps)
    (hnames : s.browser.db.Names email autoCreate newId u) : Backed steps u
  /-- A link was mailed to the user, and opened soon after. -/
  | link {email token : String} {now later : ℕ} {accepted : Bool} {s s' : LinkSite} {user : User}
    (hsteps : [(.signIn (.requestLink email now accepted), s), (.openLink u token later, s')].Sublist
      steps)
    (huser : user ∈ s.browser.db.users ∧ user.id = u ∧ user.disabledAt = none)
    (hmail : ∃ mail : Mail, mail.Brings ⟨u, token, now + 15 * 60⟩ user settings ∧
      (s.requestLink settings createAccessToken email now accepted).sent = s.sent ++ [mail])
    (hlater : later < now + 15 * 60) : Backed steps u

/-- The link was mailed in this run. -/
def MagicLink.Mailed (steps : List (CredentialEvent × LinkSite)) (link : MagicLink) : Prop :=
  ∃ email now accepted, ∃ s : LinkSite,
    (.signIn (.requestLink email now accepted), s) ∈ steps ∧
      link ∈ s.mailedLink settings createAccessToken email now accepted

/-- What PyJWT documents: a token is valid until it expires, and then it says what was put into
it. -/
structure LawfulTokens : Prop where
  decode : ∀ sub role expires now, decodeAccessToken now (createAccessToken sub role expires) =
    if now < expires then some sub else none

end Links

section Steps

variable {checks : Checks} {settings : AuthSettings}
  {createAccessToken : String → String → ℕ → String} {decodeAccessToken : ℕ → String → Option String}
  {steps : List (CredentialEvent × LinkSite)} {step : CredentialEvent × LinkSite} {s : LinkSite}
  {u : Uuid}
  {link : MagicLink} {email : String} {now : ℕ} {accepted : Bool} {site : SignInSite}

lemma Backed.mono (h : Backed checks settings createAccessToken steps u) :
    Backed checks settings createAccessToken (steps ++ [step]) u := by
  cases h with
  | password hstep haccepted hid =>
    exact .password (List.mem_append_left _ hstep) haccepted hid
  | provider hstep hnames => exact .provider (List.mem_append_left _ hstep) hnames
  | link hsteps huser hmail hlater =>
    exact .link (hsteps.trans (List.sublist_append_left _ _)) huser hmail hlater

lemma MagicLink.Mailed.mono (h : link.Mailed settings createAccessToken steps) :
    link.Mailed settings createAccessToken (steps ++ [step]) := by
  obtain ⟨email, now, accepted, s, hstep, hlink⟩ := h
  exact ⟨email, now, accepted, s, List.mem_append_left _ hstep, hlink⟩

/-- **A mailed link** is for an enabled user, to whom the mail went. -/
lemma mem_mailedLink (h : link ∈ site.mailedLink settings createAccessToken email now accepted) :
    ∃ user ∈ site.browser.db.users, user.id = link.userId ∧ user.disabledAt = none ∧
      link.token = createAccessToken user.id.str user.role (now + 15 * 60) ∧
      link.expires = now + 15 * 60 ∧ ∃ mail : Mail, mail.Brings link user settings ∧
        (site.requestLink settings createAccessToken email now accepted).sent =
          site.sent ++ [mail] := by
  unfold SignInSite.mailedLink at h
  split at h
  · cases h
  next hsent =>
    obtain ⟨user, huser, rfl⟩ := List.mem_map.1 h
    obtain ⟨hmem, hemail⟩ := List.mem_filter.1 huser
    have hemail : user.email = strip email := of_decide_eq_true hemail
    -- something was sent, so the user is the only one with this email
    unfold SignInSite.requestLink at hsent ⊢
    dsimp only at hsent ⊢
    split at hsent
    · exact absurd rfl hsent
    next hblank =>
      rw [if_neg hblank]
      split at hsent
      next row hrow =>
        obtain rfl : row = user := by
          rw [hrow] at huser
          exact (List.mem_singleton.1 huser).symm
        split at hsent
        next hen =>
          refine ⟨row, hmem, rfl, hen, rfl, rfl, ?_⟩
          rw [if_pos hen]
          dsimp only at hsent ⊢
          unfold sendMagicLink sendEmail at hsent ⊢
          split at hsent
          · exact absurd rfl hsent
          next hok =>
            rw [if_neg hok]
            exact ⟨_, ⟨hemail.symm, _, _, String.append_assoc⟩, rfl⟩
        · exact absurd rfl hsent
      · exact absurd rfl hsent

/-- What is kept along a run. -/
structure LinkSite.Traced (checks : Checks) (settings : AuthSettings)
    (createAccessToken : String → String → ℕ → String) (steps : List (CredentialEvent × LinkSite))
    (s : LinkSite) : Prop where
  browser : s.browser.For (Backed checks settings createAccessToken steps)
  links : ∀ link ∈ s.links, link.Mailed settings createAccessToken steps

/-- **One step** on the pages. -/
lemma LinkSite.Traced.signIn {e : SignInEvent}
    (h : s.Traced checks settings createAccessToken steps)
    (he : (CredentialEvent.signIn e).Genuine decodeAccessToken s) :
    ((CredentialEvent.signIn e).next checks settings createAccessToken decodeAccessToken s).Traced
      checks settings createAccessToken (steps ++ [(.signIn e, s)]) := by
  have hlast : (CredentialEvent.signIn e, s) ∈ steps ++ [(.signIn e, s)] :=
    List.mem_append_right _ List.mem_cons_self
  have hold : s.browser.For (Backed checks settings createAccessToken (steps ++ [(.signIn e, s)])) :=
    h.browser.imp fun _ hu => hu.mono
  constructor
  · show (e.next checks settings createAccessToken s.toSignInSite).browser.For _
    rw [browser_next]
    cases e with
    | browser e =>
      refine hold.next fun u hu => ?_
      cases e with
      | tryLogin email password =>
        obtain ⟨user, huser, hid⟩ := hu
        exact .password hlast huser hid
      | magicLink userId subject => exact he.elim
      | ssoCallback method email autoCreate newId => exact .provider hlast hu
      | change db | openLogin | openMfa | verifyCode page now code | cancelMfa | authComplete
      | logout | resume handler now => exact hu.elim
    | openMagicLink => exact hold
    | requestLink email now accepted => exact hold
  · intro link hlink
    rcases List.mem_append.1 hlink with hlink | hlink
    · exact (h.links link hlink).mono
    · cases e with
      | requestLink email now accepted =>
        dsimp only at hlink
        split at hlink
        · exact ⟨email, now, accepted, s, hlast, hlink⟩
        · cases hlink
      | browser e => cases hlink
      | openMagicLink => cases hlink

/-- **A link that is opened.** -/
lemma LinkSite.Traced.openLink (hjwt : LawfulTokens createAccessToken decodeAccessToken)
    {userId : Uuid} {token : String} (h : s.Traced checks settings createAccessToken steps)
    (he : (CredentialEvent.openLink userId token now).Genuine decodeAccessToken s) :
    (s.openLink decodeAccessToken userId token now).Traced checks settings createAccessToken
      (steps ++ [(.openLink userId token now, s)]) := by
  have hold : s.Traced checks settings createAccessToken
      (steps ++ [(.openLink userId token now, s)]) :=
    ⟨h.browser.imp fun _ hu => hu.mono, fun link hlink => (h.links link hlink).mono⟩
  unfold LinkSite.openLink
  split
  next hvalid =>
    refine ⟨?_, hold.links⟩
    have hbacked : Backed checks settings createAccessToken
        (steps ++ [(.openLink userId token now, s)]) userId := by
      obtain ⟨link, hlink, rfl⟩ := he (by rw [hvalid]; exact Option.some_ne_none _)
      obtain ⟨email, asked, accepted, s₀, hstep, hmailed⟩ := h.links link hlink
      obtain ⟨user, hmem, hid, hen, htoken, hexpires, hmail⟩ := mem_mailedLink hmailed
      rw [htoken, hjwt.decode] at hvalid
      split at hvalid
      next hlater =>
        obtain rfl : user.id = userId := Uuid.str_injective (Option.some.inj hvalid)
        have hsteps := (List.singleton_sublist.2 hstep).append (List.Sublist.refl
          [((.openLink user.id link.token now, s) : CredentialEvent × LinkSite)])
        have hlink : link = ⟨user.id, link.token, asked + 15 * 60⟩ := by rw [hid, ← hexpires]
        exact .link hsteps ⟨hmem, rfl, hen⟩ (hlink ▸ hmail) hlater
      · cases hvalid
    have hnext : ((LoginEvent.magicLink userId (some userId)).next checks s.browser).For _ :=
      hold.browser.next fun u hu => hu.1 ▸ hbacked
    exact hnext
  · exact hold

/-- **Nobody signs in without a credential**: in every run that begins with nobody signed in, each
login so far, and the session that is open, is for a user whose password was accepted, whose email a
provider gave, or who opened a link less than fifteen minutes after it was mailed to the user. -/
theorem run_logins_backed (hjwt : LawfulTokens createAccessToken decodeAccessToken) (db : Database)
    {events : List CredentialEvent}
    (hgenuine : Run.Throughout
      (CredentialEvent.next checks settings createAccessToken decodeAccessToken)
      (CredentialEvent.Genuine decodeAccessToken) events (.start db)) :
    let next := CredentialEvent.next checks settings createAccessToken decodeAccessToken
    let steps := Run.steps next events (.start db)
    let b := (Run.final next events (.start db)).browser
    (∀ l ∈ b.logins, Backed checks settings createAccessToken steps l.account.id) ∧
      (b.storage.authenticated = true → ∀ u ∈ b.storage.userId,
        Backed checks settings createAccessToken steps u) := by
  intro next steps b
  have hstart : LinkSite.Traced checks settings createAccessToken [] (.start db) :=
    ⟨Browser.for_start db, fun link hlink => absurd hlink List.not_mem_nil⟩
  have htraced : (Run.final next events (.start db)).Traced checks settings createAccessToken
      ([] ++ steps) := by
    refine Run.final_of_past (A := CredentialEvent.Genuine decodeAccessToken)
      (J := fun steps s => s.Traced checks settings createAccessToken steps)
      (fun past e s hs he => ?_) hstart hgenuine
    cases e with
    | signIn e => exact hs.signIn he
    | openLink userId token now => exact hs.openLink hjwt he
  exact ⟨htraced.browser.logins, htraced.browser.session⟩

end Steps

/-! A link is asked for, and the user signs in with it. -/

/-- A token in the clear, in three parts as a JWT: when it expires, who it is for, and no
signature. -/
def clearToken (sub _ : String) (expires : ℕ) : String :=
  String.ofList (List.replicate expires '1' ++ '.' :: (sub.toList ++ ['.']))

def readToken (now : ℕ) (token : String) : Option String :=
  match token.toList.dropWhile (· = '1') with
  | '.' :: rest =>
    if now < (token.toList.takeWhile (· = '1')).length then some (String.ofList rest.dropLast)
    else none
  | _ => none

lemma lawful_clearToken : LawfulTokens clearToken readToken where
  decode sub role expires now := by
    have hones : ∀ c ∈ List.replicate expires '1', decide (c = '1') = true := by
      intro c hc
      exact decide_eq_true (List.eq_of_mem_replicate hc)
    unfold readToken clearToken
    rw [String.toList_ofList, List.dropWhile_append_of_pos hones,
      List.takeWhile_append_of_pos hones, List.dropWhile_cons_of_neg (by decide),
      List.takeWhile_cons_of_neg (by decide)]
    simp

def linksOn : AuthSettings := { linksOff with magicLinkEnabled := true }

/-- The mail of the first minute is read in the tenth. -/
def byMail : List CredentialEvent :=
  [.signIn .openMagicLink, .signIn (.requestLink dave.email 60 true),
    .openLink dave.id (clearToken dave.id.str dave.role (60 + 15 * 60)) 600,
    .signIn (.browser (.resume 0 600)), .signIn (.browser (.resume 0 601))]

theorem run_logins_backed_mail :
    let next := CredentialEvent.next signInChecks linksOn clearToken readToken
    let s := LinkSite.start (daveIs dave)
    ∀ l ∈ (Run.final next byMail s).browser.logins,
      Backed signInChecks linksOn clearToken (Run.steps next byMail s) l.account.id := by
  intro next s
  have hgenuine : Run.Throughout next (CredentialEvent.Genuine readToken) byMail s := by
    refine ⟨trivial, trivial, fun _ => ?_, trivial, trivial, trivial⟩
    exact ⟨⟨dave.id, _, 60 + 15 * 60⟩, List.mem_cons_self, rfl⟩
  exact (run_logins_backed lawful_clearToken (daveIs dave) hgenuine).1

end WireGui
