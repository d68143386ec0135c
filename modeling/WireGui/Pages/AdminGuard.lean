import WireGui.Api.Deps

/-!
# The guard of the pages under `/admin`

`_guard` reads the role that was written into the session at the login, `require_admin` reads the
database.  `run_guarded` says in which runs they agree, whenever a page is loaded.
-/

namespace WireGui

/-- `_guard`, the same on every page under `/admin`. -/
def UserStorage.guard (storage : UserStorage) : Bool :=
  storage.authenticated && storage.role == some "admin"

/-- **The guards agree**: when `_guard` lets a page load, the account of the session is there,
enabled and an admin, and `require_admin` accepts every valid token of it. -/
def Browser.Guarded (s : Browser) : Prop :=
  s.storage.guard = true →
    ∃ u, s.storage.userId = some u ∧ Account.Accurate s.db ⟨u, "admin"⟩ ∧
      ∀ hmac now token, ValidToken hmac now s.db u token →
        ∃ user, requireAdmin hmac now s.db ("Bearer " ++ token) = .ok user

/-- **No admin is overtaken**: a change of the database leaves those there, enabled and admins who
are in as admins or whose logins under way are those of admins. -/
def LoginEvent.KeepsAdmins (e : LoginEvent) (s : Browser) : Prop :=
  match e with
  | .change db => ∀ u, s.Carries ⟨u, "admin"⟩ ∨ s.In ⟨u, "admin"⟩ → Account.Accurate db ⟨u, "admin"⟩
  | _ => True

/-- Who is in has an account, and an admin in the session or in a login under way is one. -/
structure Browser.Admins (s : Browser) : Prop where
  isIn : s.storage.authenticated = true → ∃ a, s.In a
  accurate : ∀ u, s.Carries ⟨u, "admin"⟩ ∨ s.In ⟨u, "admin"⟩ → Account.Accurate s.db ⟨u, "admin"⟩

variable {checks : Checks} {s : Browser} {e : LoginEvent}

lemma Browser.In.eq {a b : Account} (ha : s.In a) (hb : s.In b) : a = b := by
  obtain ⟨id, role⟩ := a
  obtain ⟨id', role'⟩ := b
  obtain rfl := Option.some.inj (ha.2.1.symm.trans hb.2.1)
  obtain rfl := Option.some.inj (ha.2.2.symm.trans hb.2.2)
  rfl

/-- Whose role is the empty text does not become an admin. -/
lemma LoginEvent.Blank.role_eq {a : Account} (h : e.Blank s a) : a.role = "unprivileged" := by
  cases e with
  | ssoCallback method email autoCreate newId =>
    obtain ⟨-, -, -, -, -, rfl⟩ := h
    rfl
  | _ => exact h.elim

/-- **One event** keeps the admins. -/
lemma Browser.Admins.next (h : s.Admins) (he : e.KeepsAdmins s) : (e.next checks s).Admins := by
  by_cases hchange : ∃ db, e = .change db
  · obtain ⟨db, rfl⟩ := hchange
    exact ⟨h.isIn, he⟩
  push Not at hchange
  have hstep := advances_next checks (s := s) hchange
  -- what the event goes on with is an admin in the database, if it is one at all
  have hH : ∀ u, s.Carries ⟨u, "admin"⟩ ∨ e.Blank s ⟨u, "admin"⟩ →
      Account.Accurate s.db ⟨u, "admin"⟩ := by
    rintro u (hc | hb)
    · exact h.accurate u (.inl hc)
    · exact absurd hb.role_eq (show "admin" ≠ "unprivileged" by decide)
  refine ⟨fun hauth => ?_, ?_⟩
  · rcases hstep.isIn hauth with ⟨a, -, hin⟩ | ⟨hs, hid, hrole⟩
    · exact ⟨a, hin⟩
    · obtain ⟨a, ha⟩ := h.isIn hs
      exact ⟨a, hauth, hid.trans ha.2.1, hrole.trans ha.2.2⟩
  · rintro u (hc | hin)
    · rcases hstep.carries _ hc with hu | hu
      · exact hstep.accurate _ (hH u hu)
      · exact hu
    · rcases hstep.isIn hin.1 with ⟨a, ha, hin'⟩ | ⟨hs, hid, hrole⟩
      · obtain rfl := hin.eq hin'
        exact hstep.accurate _ (hH u ha)
      · exact hstep.accurate _
          (h.accurate u (.inr ⟨hs, hid.symm.trans hin.2.1, hrole.symm.trans hin.2.2⟩))

lemma Browser.Admins.guarded (h : s.Admins) (hids : (s.db.users.map User.id).Nodup) :
    s.Guarded := by
  intro hguard
  obtain ⟨hauth, hrole⟩ := Bool.and_eq_true_iff.1 hguard
  obtain ⟨⟨u, role⟩, hin⟩ := h.isIn hauth
  obtain rfl := Option.some.inj (hin.2.2.symm.trans (eq_of_beq hrole))
  have hacc := h.accurate u (.inr hin)
  exact ⟨u, hin.2.1, hacc, fun hmac now token htoken => (requireAdmin_iff hids htoken).2 hacc⟩

/-- **In which runs the guards agree** at every load of a page: if no admin is overtaken.  The ids
of users are a primary key. -/
theorem run_guarded {events : List LoginEvent} (hs : s.Admins)
    (hids : Run.Always (LoginEvent.next checks) (fun s => (s.db.users.map User.id).Nodup) events s)
    (hkeep : Run.Throughout (LoginEvent.next checks) LoginEvent.KeepsAdmins events s) :
    Run.Always (LoginEvent.next checks) Browser.Guarded events s := by
  have hadmins : Run.Always (LoginEvent.next checks) Browser.Admins events s := by
    refine Run.always_of_step ?_ hs hkeep
    exact fun _ _ hs he => hs.next he
  exact (hadmins.and hids).imp fun _ h => h.1.guarded h.2

/-! An admin comes in from the provider, and is made a user like the others. -/

def promoted : User := { dave with role := "admin" }

def demotion : List LoginEvent := returns ++ [.authComplete, .change (daveIs dave)]

/-- **Who was an admin still loads the pages.** -/
theorem demoted_not_guarded :
    ¬ Run.Always (LoginEvent.next noChecks) Browser.Guarded demotion (.start (daveIs promoted)) := by
  intro h
  obtain ⟨u, -, ⟨user, hu, -, -, hrole⟩, -⟩ := h.final rfl
  rw [List.mem_singleton.1 hu] at hrole
  exact absurd hrole (show "unprivileged" ≠ "admin" by decide)

lemma Browser.admins_start (db : Database) : (Browser.start db).Admins where
  isIn := nofun
  accurate u := by
    rintro (hc | hin)
    · exact absurd hc (Browser.not_carries_start db _)
    · cases hin.1

theorem run_guarded_returns :
    Run.Always (LoginEvent.next noChecks) Browser.Guarded (returns ++ [.authComplete])
      (.start (daveIs promoted)) :=
  run_guarded (Browser.admins_start _) (by decide) ⟨trivial, trivial, trivial, trivial, trivial⟩

end WireGui
