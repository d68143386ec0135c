import WireGui.Lib.Run
import WireGui.Pages.Login

/-!
# The second factor

Who has a second factor shall not get in with the password alone.  `run_secondFactor_iff` says for
which runs of the login pages that is so.
-/

namespace WireGui

variable (checks : Checks) (u : Uuid)

/-- A second factor of the user has been checked. -/
def Session.Passed (s : Session) : Prop := ∃ m ∈ s.passed, m.userId = u

/-- **The user is in only after a second factor.** -/
def Session.Guarded (s : Session) : Prop :=
  s.storage.authenticated = true → s.storage.userId = some u → s.Passed u

/-- The user has a second factor, of whatever type. -/
def Session.HasMethod (s : Session) : Prop := s.db.methodsOf u ≠ []

instance : DecidablePred (Session.HasMethod u) := fun s => by
  unfold Session.HasMethod; infer_instance

/-- When the `/mfa` page has loaded the methods of the user, there is a `totp` method among them, or
a second factor has been checked before. -/
def SessionEvent.Challenges (e : SessionEvent) (s : Session) : Prop :=
  match e with
  | .resume handler => ∀ pending, s.waiting[handler]? = some (.mfaChallengePage pending) →
      pending.userId = u → (∃ m ∈ s.db.methodsOf u, m.type = "totp") ∨ s.Passed u
  | _ => True

variable {checks u}

/-! ### What the pages and handlers hold -/

/-- The methods of a page are those of its user, and where a code has been accepted a second factor
of the user has been checked. -/
structure Session.Ok (s : Session) : Prop where
  pages : ∀ pending totpMethods, .mfa pending totpMethods ∈ s.pages →
    ∀ m ∈ totpMethods, m.userId = pending.userId
  accepted : ∀ pending, .verifyCode pending ∈ s.waiting → s.Passed pending.userId

lemma mem_of_acceptedBy {now : ℕ} {code : String} {methods : List MfaMethod} {m : MfaMethod}
    (h : acceptedBy checks now code methods = some m) : m ∈ methods := by
  induction methods with
  | nil => cases h
  | cons method methods ih =>
    rw [acceptedBy] at h
    split at h
    · exact List.mem_cons_of_mem _ (ih h)
    · split at h
      · cases h
      · obtain rfl := Option.some.inj h
        exact List.mem_cons_self
      · exact List.mem_cons_of_mem _ (ih h)

section Steps

variable {s : Session}

lemma Session.ok_resume (hs : s.Ok) (w : Waiting) : (w.resume s).Ok := by
  cases w with
  | tryLogin user =>
    rw [Waiting.resume]
    split
    · split
      · exact ⟨hs.pages, hs.accepted⟩
      · exact ⟨hs.pages, hs.accepted⟩
    · exact hs
  | mfaChallengePage pending =>
    rw [Waiting.resume]
    split
    · exact ⟨hs.pages, hs.accepted⟩
    · refine ⟨fun p totp hp m hm => ?_, hs.accepted⟩
      rcases List.mem_append.1 hp with hp | hp
      · exact hs.pages p totp hp m hm
      · cases List.mem_singleton.1 hp
        have hm := (List.mem_filter.1 (List.mem_filter.1 hm).1).2
        simpa using hm
  | verifyCode pending => exact ⟨hs.pages, hs.accepted⟩

lemma Session.ok_verifyCode (hs : s.Ok) {pending : PendingMfa} {totpMethods : List MfaMethod}
    (hp : .mfa pending totpMethods ∈ s.pages) (now : ℕ) (input : String) :
    (verifyCode checks now input pending totpMethods s).Ok := by
  unfold verifyCode
  simp only
  split
  · exact hs
  · split
    · exact hs
    next m hm =>
      have hmem : m ∈ totpMethods := mem_of_acceptedBy hm
      refine ⟨hs.pages, fun p hpw => ?_⟩
      rcases List.mem_append.1 hpw with hpw | hpw
      · obtain ⟨m', hm', hu⟩ := hs.accepted p hpw
        exact ⟨m', List.mem_cons_of_mem _ hm', hu⟩
      · cases List.mem_singleton.1 hpw
        exact ⟨m, List.mem_cons_self, hs.pages pending totpMethods hp m hmem⟩

/-- **Every event keeps it so.** -/
lemma Session.ok_next (e : SessionEvent) (hs : s.Ok) : (e.next checks s).Ok := by
  have waits : ∀ w : Waiting, (∀ p, w ≠ .verifyCode p) →
      ({ s with waiting := s.waiting ++ [w] } : Session).Ok := by
    refine fun w hw => ⟨hs.pages, fun p hp => ?_⟩
    rcases List.mem_append.1 hp with hp | hp
    · exact hs.accepted p hp
    · exact absurd (List.mem_singleton.1 hp).symm (hw p)
  cases e with
  | change db => exact ⟨hs.pages, hs.accepted⟩
  | openLogin =>
    unfold SessionEvent.next
    simp only
    split
    · exact hs
    · refine ⟨fun p totp hp => ?_, hs.accepted⟩
      rcases List.mem_append.1 hp with hp | hp
      · exact hs.pages p totp hp
      · cases List.mem_singleton.1 hp
  | tryLogin email password =>
    unfold SessionEvent.next
    simp only
    split
    · split
      · exact hs
      · exact waits _ nofun
    · exact hs
  | openMfa =>
    unfold SessionEvent.next
    simp only
    split
    · exact hs
    · exact waits _ nofun
  | verifyCode page now input =>
    unfold SessionEvent.next
    simp only
    split
    next pending totp hp => exact Session.ok_verifyCode hs (List.mem_of_getElem? hp) now input
    · exact hs
  | cancelMfa =>
    unfold SessionEvent.next
    simp only
    split
    · exact ⟨hs.pages, hs.accepted⟩
    · exact hs
  | resume handler =>
    unfold SessionEvent.next
    simp only
    split
    · exact hs
    next w hw =>
      have hrest : ({ s with waiting := s.waiting.eraseIdx handler } : Session).Ok :=
        ⟨hs.pages, fun p hp => hs.accepted p (List.mem_of_mem_eraseIdx hp)⟩
      exact Session.ok_resume hrest w

/-! ### Who gets in -/

/-- Signing somebody in keeps the guard if and only if it is somebody else or a second factor has
been checked. -/
lemma guarded_signIn (pending : PendingMfa) {storage : UserStorage}
    (ha : storage.authenticated = true) (hu : storage.userId = some pending.userId) :
    ({ s with storage := storage } : Session).Guarded u ↔ (pending.userId = u → s.Passed u) := by
  unfold Session.Guarded
  simp only [ha, hu, forall_const, Option.some.injEq]
  rfl

/-- The rest of a handler, and what it has to do with the guard. -/
lemma guarded_resume (hg : s.Guarded u) (hm : s.HasMethod u) {w : Waiting}
    (hw : ∀ pending, w = .verifyCode pending → s.Passed pending.userId) :
    (w.resume s).Guarded u ↔ ∀ pending, w = .mfaChallengePage pending → pending.userId = u →
      (∃ m ∈ s.db.methodsOf u, m.type = "totp") ∨ s.Passed u := by
  cases w with
  | tryLogin user =>
    refine iff_of_true ?_ nofun
    rw [Waiting.resume]
    split
    · split
      · exact hg
      next hno =>
        refine (guarded_signIn user.pendingMfa rfl rfl).2 fun h => ?_
        obtain rfl : user.id = u := h
        exact absurd hm hno
    · exact hg
  | mfaChallengePage pending =>
    have hiff : (Waiting.resume s (.mfaChallengePage pending)).Guarded u ↔
        (pending.userId = u → (∃ m ∈ s.db.methodsOf u, m.type = "totp") ∨ s.Passed u) := by
      rw [Waiting.resume]
      split
      next hnone =>
        refine (guarded_signIn pending rfl rfl).trans ⟨fun h hu => .inr (h hu), fun h hu => ?_⟩
        refine (h hu).resolve_left ?_
        rintro ⟨m, hm, ht⟩
        subst hu
        have hmem : m ∈ (s.db.methodsOf pending.userId).filter (·.type = "totp") :=
          List.mem_filter.2 ⟨hm, by simpa using ht⟩
        rw [hnone] at hmem
        cases hmem
      next hsome =>
        refine iff_of_true hg fun hu => .inl ?_
        obtain ⟨m, htotp⟩ := List.exists_mem_of_ne_nil _ hsome
        subst hu
        obtain ⟨hmem, ht⟩ := List.mem_filter.1 htotp
        exact ⟨m, hmem, by simpa using ht⟩
    rw [hiff]
    exact ⟨fun h p hp => by cases hp; exact h, fun h => h pending rfl⟩
  | verifyCode pending =>
    refine iff_of_true ((guarded_signIn pending rfl rfl).2 fun h => ?_) nofun
    exact h ▸ hw pending rfl

/-- **One event** keeps the guard if and only if it challenges the user. -/
lemma guarded_next_iff (e : SessionEvent) (hs : s.Ok) (hm : s.HasMethod u) (hg : s.Guarded u) :
    (e.next checks s).Guarded u ↔ e.Challenges u s := by
  cases e with
  | change db => exact iff_of_true hg trivial
  | openLogin =>
    refine iff_of_true ?_ trivial
    unfold SessionEvent.next
    simp only
    split <;> exact hg
  | tryLogin email password =>
    refine iff_of_true ?_ trivial
    unfold SessionEvent.next
    simp only
    split
    · split <;> exact hg
    · exact hg
  | openMfa =>
    refine iff_of_true ?_ trivial
    unfold SessionEvent.next
    simp only
    split <;> exact hg
  | verifyCode page now input =>
    refine iff_of_true ?_ trivial
    unfold SessionEvent.next
    simp only
    split
    · unfold verifyCode
      simp only
      split
      · exact hg
      · split
        · exact hg
        · intro ha hu
          obtain ⟨m, hm, hmu⟩ := hg ha hu
          exact ⟨m, List.mem_cons_of_mem _ hm, hmu⟩
    · exact hg
  | cancelMfa =>
    refine iff_of_true ?_ trivial
    unfold SessionEvent.next
    simp only
    split
    · exact nofun
    · exact hg
  | resume handler =>
    unfold SessionEvent.next SessionEvent.Challenges
    simp only
    split
    next hnone => exact iff_of_true hg fun p hp => by rw [hnone] at hp; cases hp
    next w hw =>
      have hmem := List.mem_of_getElem? hw
      have hiff := guarded_resume (s := { s with waiting := s.waiting.eraseIdx handler }) (u := u)
        hg hm (w := w) fun p hp => hs.accepted p (hp ▸ hmem)
      rw [hiff, hw]
      simp only [Option.some.injEq]
      rfl

end Steps

/-- A fresh session: nobody is in, and nothing is open. -/
def Session.start (db : Database) (pendingMfa : Option PendingMfa) : Session where
  db := db
  storage := { pendingMfa := pendingMfa }
  pages := []
  waiting := []
  passed := []

/-- **When the second factor cannot be skipped**: if and only if every time the `/mfa` page has
loaded the methods of the user, there is a `totp` method among them, or a second factor was checked
before. -/
theorem run_secondFactor_iff (es : List SessionEvent) (db : Database)
    (pendingMfa : Option PendingMfa)
    (hmethod : Run.Always (SessionEvent.next checks) (Session.HasMethod u) es
      (.start db pendingMfa)) :
    Run.Always (SessionEvent.next checks) (Session.Guarded u) es (.start db pendingMfa) ↔
      Run.Throughout (SessionEvent.next checks) (SessionEvent.Challenges u) es
        (.start db pendingMfa) :=
  Run.always_iff (fun e _ hs => Session.ok_next e hs)
    (fun e _ hs hm hg => guarded_next_iff e hs hm hg) ⟨nofun, nofun⟩ nofun hmethod.throughout

/-! A user with a password, and a security key or an authenticator. -/

def carol : User where
  id := ⟨0xca, by decide⟩
  email := "carol@example.com"
  passwordHash := some "hash"
  role := "unprivileged"
  disabledAt := none
  themePreference := "auto"

def securityKey : MfaMethod := ⟨⟨0x51, by decide⟩, "Security Key", "portable", [], carol.id⟩

def authenticator : MfaMethod :=
  ⟨⟨0x52, by decide⟩, "Authenticator", "totp", [("secret", "JBSWY3DPEHPK3PXP")], carol.id⟩

def carolWith (method : MfaMethod) : Database where
  users := [carol]
  devices := []
  rules := []
  mfaMethods := [method]
  configuration := none

/-- The password of `carol` is accepted, and one code of the authenticator. -/
def sampleChecks : Checks where
  password := fun plain hash => plain = "secret" ∧ hash = "hash"
  totp := fun _ secret code => some (secret = "JBSWY3DPEHPK3PXP" ∧ code = "492039")

/-- The password is entered, and the page for the second factor opened. -/
def passwordOnly : List SessionEvent :=
  [.openLogin, .tryLogin "carol@example.com" "secret", .resume 0, .openMfa, .resume 0]

def withCode : List SessionEvent := passwordOnly ++ [.verifyCode 1 0 " 492039 ", .resume 0]

/-- **The second factor is skipped** if it is a security key. -/
theorem run_secondFactor_skipped :
    Run.Always (SessionEvent.next sampleChecks) (Session.HasMethod carol.id) passwordOnly
        (.start (carolWith securityKey) none) ∧
      ¬ Run.Always (SessionEvent.next sampleChecks) (Session.Guarded carol.id) passwordOnly
        (.start (carolWith securityKey) none) := by
  refine ⟨by decide, ?_⟩
  rintro ⟨-, -, -, -, -, h⟩
  obtain ⟨m, hm, -⟩ := h.head (by decide) (by decide)
  cases hm

theorem run_secondFactor_iff_withCode :
    Run.Always (SessionEvent.next sampleChecks) (Session.Guarded carol.id) withCode
        (.start (carolWith authenticator) none) ∧
      (Run.final (SessionEvent.next sampleChecks) withCode
        (.start (carolWith authenticator) none)).storage.authenticated = true := by
  refine ⟨(run_secondFactor_iff withCode _ none (by decide)).2 ?_, by decide⟩
  have hloaded : ∃ m ∈ (carolWith authenticator).methodsOf carol.id, m.type = "totp" := by decide
  exact ⟨trivial, trivial, nofun, trivial, fun _ _ _ => .inl hloaded, trivial, nofun, trivial⟩

end WireGui
