import WireGui.Pages.LastAdmin
import WireGui.Pages.SignIn

/-!
# Passwords

A password is set when a user is made, on the page of the admins, by an admin over the API, or by the
user on `/account`, and each handler waits before it commits.  `run_passwords`: a user signs in with
the password whose hash was committed last for the user, and with no other.

`bcrypt` is a parameter: `hashPassword` with the salt it draws, and `checks.password`.
-/

namespace WireGui

/-- What happens to users: what `UserOperation` says, the password form on `/account` is sent, a
provider's callback makes a user, who has no password. -/
inductive PasswordEvent where
  | manage (op : UserOperation)
  | savePw (userId : Uuid) (salt : ℕ) (current new confirm : String)
  | ssoCallback (id : Uuid) (email : String)

section Next

variable (hmac : String → String) (hashPassword : ℕ → String → Option String) (checks : Checks)

/-- `save_pw`, up to the commit.  A user who is gone and one without a password raise. -/
def UserManagement.savePw (userId : Uuid) (salt : ℕ) (current new confirm : String)
    (s : UserManagement) : UserManagement :=
  if current = "" ∨ new = "" then s
  else if new ≠ confirm then s
  else if new.length < 8 then s
  else
    match s.db.user userId with
    | none => s
    | some user =>
      match user.passwordHash with
      | none => s
      | some hash =>
        if checks.password current hash then
          s.waitFor ((hashPassword salt new).map fun hash =>
            .update user { user with passwordHash := some hash })
        else s

def PasswordEvent.next (e : PasswordEvent) (s : UserManagement) : UserManagement :=
  match e with
  | .manage op => op.next hmac hashPassword s
  | .savePw userId salt current new confirm =>
    s.savePw hashPassword checks userId salt current new confirm
  | .ssoCallback id email => s.wait (.insert (ssoUser id email))

/-- What a handler writes into `password_hash` of the user when it goes on; `none` if it does not
write there. -/
def UserHandler.writesHash (db : Database) (u : Uuid) : UserHandler → Option (Option String)
  | .insert user =>
    if user.id = u ∧ (db.insertUser user).isSome then some user.passwordHash else none
  | .update row row' =>
    if row.id = u ∧ row'.passwordHash ≠ row.passwordHash ∧ (db.commitUser row row').isSome then
      some row'.passwordHash
    else none
  | .delete _ | .accountPage _ | .authorized .. => none

/-- What an event writes into `password_hash` of the user. -/
def PasswordEvent.writesHash (e : PasswordEvent) (s : UserManagement) (u : Uuid) :
    Option (Option String) :=
  match e with
  | .manage (.resume handler) => s.waiting[handler]?.bind (·.writesHash s.db u)
  | .manage (.restart id salt now adminEmail adminPassword) =>
    if s.db.users ≠ [] then none
    else
      (hashPassword salt adminPassword).bind fun hash =>
        (UserHandler.insert (newUser id now adminEmail hash "admin")).writesHash s.db u
  | _ => none

/-- **The last hash** that was written for the user. -/
def lastHash (steps : List (PasswordEvent × UserManagement)) (u : Uuid) : Option (Option String) :=
  (steps.filterMap fun step => step.1.writesHash hashPassword step.2 u).getLast?

/-- The password is given for the user: where the user is made, on the page of the admins, by an
admin over the API, by the user, who knows the password so far, or in the settings for the first
start. -/
def PasswordEvent.Gives (e : PasswordEvent) (s : UserManagement) (u : Uuid) (salt : ℕ)
    (password : String) : Prop :=
  match e with
  | .manage (.createUser id salt' _ _ password' _) => id = u ∧ salt' = salt ∧ password' = password
  | .manage (.saveEdit id salt' _ _ password' _ _) =>
    id = u ∧ salt' = salt ∧ password' = password ∧ password ≠ ""
  | .manage (.resume handler) => ∃ caller, caller.role = "admin" ∧
      ((∃ now body, s.waiting[handler]? = some (.authorized caller (.create u salt now body)) ∧
        body.password = password) ∨
      ∃ body, s.waiting[handler]? = some (.authorized caller (.update u salt body)) ∧
        body.password = some (some password))
  | .manage (.restart id salt' _ _ adminPassword) =>
    id = u ∧ salt' = salt ∧ adminPassword = password ∧ s.db.users = []
  | .savePw userId salt' current new confirm =>
    userId = u ∧ salt' = salt ∧ new = password ∧ new = confirm ∧ 8 ≤ new.length ∧
      ∃ user hash, s.db.user u = some user ∧ user.passwordHash = some hash ∧
        checks.password current hash = true
  | _ => False

/-- **The password of the user**: it was given for the user, and its hash was written last. -/
def IsPassword (steps : List (PasswordEvent × UserManagement)) (u : Uuid) (password : String) :
    Prop :=
  ∃ given ∈ steps, ∃ salt hash, given.1.Gives checks given.2 u salt password ∧
    hashPassword salt password = some hash ∧ lastHash hashPassword steps u = some (some hash)

/-- What `bcrypt` documents: a password is checked against the hash of a password. -/
structure LawfulHash : Prop where
  check : ∀ salt password hash, hashPassword salt password = some hash → ∀ typed,
    checks.password typed hash = true ↔ typed = password

end Next

/-! ### Rows -/

section Rows

variable {hashPassword : ℕ → String → Option String} {checks : Checks}
  {hmac : String → String} {steps : List (PasswordEvent × UserManagement)}
  {step : PasswordEvent × UserManagement} {db db' : Database} {user row row' : User} {u : Uuid}
  {w : UserHandler} {s : UserManagement}

/-- The handler is to write this hash for the user. -/
def UserHandler.Brings (w : UserHandler) (u : Uuid) (hash : String) : Prop :=
  match w with
  | .insert user => user.id = u ∧ user.passwordHash = some hash
  | .update row row' =>
    row.id = u ∧ row'.passwordHash = some hash ∧ row'.passwordHash ≠ row.passwordHash
  | .delete _ | .accountPage _ | .authorized .. => False

lemma brings_of_writesHash {hash : String} (h : w.writesHash db u = some (some hash)) :
    w.Brings u hash := by
  cases w with
  | insert user =>
    dsimp only [UserHandler.writesHash] at h
    split at h
    next hok => exact ⟨hok.1, Option.some.inj h⟩
    · cases h
  | update row row' =>
    dsimp only [UserHandler.writesHash] at h
    split at h
    next hok => exact ⟨hok.1, Option.some.inj h, hok.2.1⟩
    · cases h
  | delete id | accountPage user | authorized caller request => cases h

/-- Emails are unique. -/
def Database.UniqueEmails (db : Database) : Prop :=
  ∀ a ∈ db.users, ∀ b ∈ db.users, a.email = b.email → a.id = b.id

/-- **What happens to the rows** when these hashes are written. -/
structure Database.Becomes (db db' : Database) (writes : Uuid → Option (Option String)) : Prop where
  ids : (db.users.map User.id).Nodup → (db'.users.map User.id).Nodup
  emails : db.UniqueEmails → db'.UniqueEmails
  hashes : ∀ c ∈ db'.users, writes c.id = some c.passwordHash ∨
    writes c.id = none ∧ ∃ old ∈ db.users, old.id = c.id ∧ old.passwordHash = c.passwordHash

lemma becomes_refl : db.Becomes db fun _ => none :=
  ⟨id, id, fun c hc => .inr ⟨rfl, c, hc, rfl, rfl⟩⟩

lemma becomes_deleteUser (u : Uuid) : db.Becomes (db.deleteUser u) fun _ => none where
  ids h := h.sublist (List.filter_sublist.map _)
  emails h a ha b hb := h a (List.mem_of_mem_filter ha) b (List.mem_of_mem_filter hb)
  hashes c hc := .inr ⟨rfl, c, List.mem_of_mem_filter hc, rfl, rfl⟩

lemma becomes_insertUser : db.Becomes ((db.insertUser user).getD db)
    fun u => (UserHandler.insert user).writesHash db u := by
  dsimp only [UserHandler.writesHash]
  cases h : db.insertUser user with
  | none => exact ⟨id, id, fun c hc => .inr ⟨if_neg (by simp), c, hc, rfl, rfl⟩⟩
  | some db' =>
    have hfree : ∀ c ∈ db.users, c.id ≠ user.id ∧ c.email ≠ user.email := by
      by_contra hno
      rw [Database.insertUser, if_neg fun hok => hno hok.2] at h
      cases h
    obtain ⟨-, rfl⟩ := insertUser_eq_some h
    have hmem : ∀ c ∈ db.users ++ [user], c ∈ db.users ∨ c = user := fun c hc =>
      (List.mem_append.1 hc).imp_right List.mem_singleton.1
    refine ⟨fun hids => List.nodup_map_append_singleton hids fun c hc => (hfree c hc).1, ?_, ?_⟩
    · intro hemails a ha b hb hab
      rcases hmem a ha with hold | rfl
      · rcases hmem b hb with hold' | rfl
        · exact hemails a hold b hold' hab
        · exact absurd hab (hfree a hold).2
      · rcases hmem b hb with hold' | rfl
        · exact absurd hab.symm (hfree b hold').2
        · rfl
    · intro c hc
      rcases hmem c hc with hc | rfl
      · exact .inr ⟨if_neg fun hid => (hfree c hc).1 hid.1.symm, c, hc, rfl, rfl⟩
      · exact .inl (if_pos ⟨rfl, rfl⟩)

/-- The row that an update goes to, and what must hold of its email. -/
lemma exists_of_commitUser (h : db.commitUser row row' = some db') :
    ∃ stored ∈ db.users, stored.id = row.id ∧ db' = db.setUser (row.written row' stored) ∧
      ∀ c ∈ db.users, c.email = (row.written row' stored).email → c.id = stored.id := by
  unfold Database.commitUser at h
  split at h
  · cases h
  next stored hstored =>
    dsimp only at h
    split at h
    next hok =>
      obtain ⟨hmem, hid⟩ := List.mem_of_find?_key hstored
      exact ⟨stored, hmem, hid, (Option.some.inj h).symm, hok.2⟩
    · cases h

lemma becomes_commitUser : db.Becomes ((db.commitUser row row').getD db)
    fun u => (UserHandler.update row row').writesHash db u := by
  dsimp only [UserHandler.writesHash]
  cases h : db.commitUser row row' with
  | none => exact ⟨id, id, fun c hc => .inr ⟨if_neg (by simp), c, hc, rfl, rfl⟩⟩
  | some db' =>
    obtain ⟨stored, hmem, hid, rfl, hemail⟩ := exists_of_commitUser h
    have hrow : ∃ c ∈ db.users, c.id = (row.written row' stored).id := ⟨stored, hmem, rfl⟩
    refine ⟨fun hids => map_id_setUser.symm ▸ hids, ?_, ?_⟩
    · intro hemails a ha b hb hab
      rcases (mem_setUser_iff hrow).1 ha with rfl | ⟨ha, hane⟩
      · rcases (mem_setUser_iff hrow).1 hb with rfl | ⟨hb, hbne⟩
        · rfl
        · exact absurd (hemail b hb hab.symm) hbne
      · rcases (mem_setUser_iff hrow).1 hb with rfl | ⟨hb, hbne⟩
        · exact absurd (hemail a ha hab) hane
        · exact hemails a ha b hb hab
    · intro c hc
      rcases (mem_setUser_iff hrow).1 hc with rfl | ⟨hc, hne⟩
      · by_cases hsame : row'.passwordHash = row.passwordHash
        · refine .inr ⟨if_neg fun hw => hw.2.1 hsame, stored, hmem, rfl, ?_⟩
          exact (if_pos hsame).symm
        · refine .inl ((if_pos ⟨hid.symm, hsame, rfl⟩).trans ?_)
          exact congrArg some (if_neg hsame).symm
      · exact .inr ⟨if_neg fun hw => hne (hw.1.symm.trans hid.symm), c, hc, rfl, rfl⟩

/-! ### Events -/

lemma becomes_resume : s.db.Becomes (w.resume hashPassword s).db fun u => w.writesHash s.db u := by
  cases w with
  | insert user => exact becomes_insertUser
  | update row row' => exact becomes_commitUser
  | delete id => exact becomes_deleteUser id
  | accountPage user => exact becomes_refl
  | authorized caller request =>
    rw [UserHandler.resume, db_waitFor]
    exact becomes_refl

/-- **What `save_pw` can do**: nothing, or it checks the password so far and waits to write the new
one. -/
lemma savePw_cases {salt : ℕ} {current new confirm : String} :
    s.savePw hashPassword checks u salt current new confirm = s ∨
      new = confirm ∧ 8 ≤ new.length ∧ ∃ user hash, s.db.user u = some user ∧
        user.passwordHash = some hash ∧ checks.password current hash = true ∧
        s.savePw hashPassword checks u salt current new confirm =
          s.waitFor ((hashPassword salt new).map fun hash =>
            .update user { user with passwordHash := some hash }) := by
  unfold UserManagement.savePw
  by_cases hempty : current = "" ∨ new = ""
  · exact .inl (if_pos hempty)
  rw [if_neg hempty]
  by_cases hconfirm : new ≠ confirm
  · exact .inl (if_pos hconfirm)
  rw [if_neg hconfirm]
  by_cases hlength : new.length < 8
  · exact .inl (if_pos hlength)
  rw [if_neg hlength]
  cases huser : s.db.user u with
  | none => exact .inl rfl
  | some user =>
    dsimp only
    cases hstored : user.passwordHash with
    | none => exact .inl rfl
    | some hash =>
      dsimp only
      by_cases hcheck : checks.password current hash = true
      · refine .inr ⟨not_not.1 hconfirm, not_lt.1 hlength, user, hash, rfl, hstored, hcheck, ?_⟩
        exact if_pos hcheck
      · exact .inl (if_neg hcheck)

lemma db_savePw {salt : ℕ} {current new confirm : String} :
    (s.savePw hashPassword checks u salt current new confirm).db = s.db := by
  rcases savePw_cases with h | ⟨-, -, user, hash, -, -, -, h⟩
  · rw [h]
  · rw [h, db_waitFor]

/-- **One event** writes what it writes. -/
lemma becomes_next (e : PasswordEvent) :
    s.db.Becomes (e.next hmac hashPassword checks s).db fun u => e.writesHash hashPassword s u := by
  cases e with
  | manage op =>
    cases op with
    | resume handler =>
      dsimp only [PasswordEvent.next, PasswordEvent.writesHash, UserOperation.next]
      cases s.waiting[handler]? with
      | none => exact becomes_refl
      | some w => exact becomes_resume (s := { s with waiting := s.waiting.eraseIdx handler })
    | restart id salt now email password =>
      dsimp only [PasswordEvent.next, PasswordEvent.writesHash, UserOperation.next, seedAdmin]
      split_ifs with hseeded
      · exact becomes_refl
      · cases hashPassword salt password with
        | none => exact becomes_refl
        | some hash => exact becomes_insertUser
    | createUser | saveEdit | deleteUser | openAccount | doDel | api =>
      rw [PasswordEvent.next, db_next id]
      exact becomes_refl
  | savePw userId salt current new confirm =>
    rw [PasswordEvent.next, db_savePw]
    exact becomes_refl
  | ssoCallback id email => exact becomes_refl

/-- The event gives a password for the user, with this hash. -/
def PasswordEvent.Hashes (hashPassword : ℕ → String → Option String) (checks : Checks)
    (e : PasswordEvent) (s : UserManagement) (u : Uuid) (hash : String) : Prop :=
  ∃ salt password, e.Gives checks s u salt password ∧ hashPassword salt password = some hash

lemma hashes_of_applyTo {body : UserUpdate} {salt : ℕ} {hash : String}
    (h : body.applyTo (hashPassword salt) row = some row') (hhash : row'.passwordHash = some hash)
    (hne : row'.passwordHash ≠ row.passwordHash) :
    ∃ password, body.password = some (some password) ∧ hashPassword salt password = some hash := by
  unfold UserUpdate.applyTo at h
  simp only [Option.bind_eq_bind, Option.bind_eq_some_iff, Option.pure_def, Option.some_inj] at h
  obtain ⟨passwordHash, hpassword, _, -, _, -, _, -, rfl⟩ := h
  unfold UserUpdate.passwordHash at hpassword
  split at hpassword
  · exact absurd (Option.some.inj hpassword).symm hne
  · cases hpassword
  next plain hplain =>
    obtain ⟨hash', hhash', rfl⟩ := Option.map_eq_some_iff.1 hpassword
    obtain rfl := Option.some.inj hhash
    exact ⟨plain, hplain, hhash'⟩

lemma hashes_of_saveEdit {salt now : ℕ} {email password role : String} {disabled : Bool}
    {hash : String}
    (h : row.saveEdit (hashPassword salt) now email password role disabled = some row')
    (hhash : row'.passwordHash = some hash) (hne : row'.passwordHash ≠ row.passwordHash) :
    password ≠ "" ∧ hashPassword salt password = some hash := by
  unfold User.saveEdit at h
  dsimp only at h
  split at h
  · obtain rfl := Option.some.inj h
    exact absurd rfl hne
  next hgiven =>
    obtain ⟨_, hpassword, h⟩ := Option.bind_eq_some_iff.1 h
    obtain ⟨hash', hhash', rfl⟩ := Option.map_eq_some_iff.1 hpassword
    obtain rfl := Option.some.inj h
    obtain rfl := Option.some.inj hhash
    exact ⟨hgiven, hhash'⟩

lemma role_of_requireAdmin {now : ℕ} {authorization : String} {caller : User}
    (h : requireAdmin hmac now db authorization = .ok caller) : caller.role = "admin" := by
  unfold requireAdmin at h
  split at h
  · cases h
  · split at h
    next hrole =>
      obtain rfl := Except.ok.inj h
      exact hrole
    · cases h

/-- A request that is under way comes from an admin. -/
def UserHandler.OfAdmin : UserHandler → Prop
  | .authorized caller _ => caller.role = "admin"
  | _ => True

/-- **A handler that is new** in the list brings the hash of a password that the event has given. -/
def UserHandler.Fresh (hashPassword : ℕ → String → Option String) (checks : Checks)
    (e : PasswordEvent) (s : UserManagement) (w : UserHandler) : Prop :=
  (∀ u hash, w.Brings u hash → e.Hashes hashPassword checks s u hash) ∧ w.OfAdmin

lemma fresh_waitFor {e : PasswordEvent} {handler : Option UserHandler} {s₀ : UserManagement}
    (hs : ∀ w ∈ s₀.waiting, w ∈ s.waiting)
    (h : ∀ w, handler = some w → w.Fresh hashPassword checks e s) :
    ∀ w ∈ (s₀.waitFor handler).waiting, w ∈ s.waiting ∨ w.Fresh hashPassword checks e s := by
  intro w hw
  cases handler with
  | none => exact .inl (hs w hw)
  | some handler =>
    rcases List.mem_append.1 hw with hw | hw
    · exact .inl (hs w hw)
    · rw [List.mem_singleton.1 hw]
      exact .inr (h handler rfl)

lemma fresh_wait {e : PasswordEvent} (h : w.Fresh hashPassword checks e s) :
    ∀ w' ∈ (s.wait w).waiting, w' ∈ s.waiting ∨ w'.Fresh hashPassword checks e s := by
  intro w' hw
  rcases List.mem_append.1 hw with hw | hw
  · exact .inl hw
  · rw [List.mem_singleton.1 hw]
    exact .inr h

/-- A deletion brings no hash, nor does the page `/account`. -/
lemma fresh_delete {e : PasswordEvent} {id : Uuid} :
    (UserHandler.delete id).Fresh hashPassword checks e s :=
  ⟨fun _ _ h => h.elim, trivial⟩

lemma fresh_accountPage {e : PasswordEvent} :
    (UserHandler.accountPage user).Fresh hashPassword checks e s :=
  ⟨fun _ _ h => h.elim, trivial⟩

lemma fresh_of_map {e : PasswordEvent} {o : Option User} {f : User → UserHandler}
    (h : ∀ user, (f user).Fresh hashPassword checks e s) :
    ∀ w, o.map f = some w → w.Fresh hashPassword checks e s := by
  intro w hw
  obtain ⟨row, -, rfl⟩ := Option.map_eq_some_iff.1 hw
  exact h row

/-- **A request of an admin.** -/
lemma fresh_handler {caller : User} {request : UserRequest} {handler : ℕ}
    (hw : s.waiting[handler]? = some (.authorized caller request)) (hadmin : caller.role = "admin")
    (h : request.handler hashPassword caller s.db = some w) :
    w.Fresh hashPassword checks (.manage (.resume handler)) s := by
  cases request with
  | create id salt now body =>
    obtain ⟨hash, hhash, h⟩ := Option.bind_eq_some_iff.1 h
    obtain rfl := Option.some.inj h
    refine ⟨?_, trivial⟩
    rintro u hash' ⟨rfl, hh⟩
    obtain rfl := Option.some.inj hh
    exact ⟨salt, body.password, ⟨caller, hadmin, .inl ⟨now, body, hw, rfl⟩⟩, hhash⟩
  | update id salt body =>
    obtain ⟨row, hrow, h⟩ := Option.bind_eq_some_iff.1 h
    obtain ⟨row', hrow', h⟩ := Option.bind_eq_some_iff.1 h
    obtain rfl := Option.some.inj h
    have hid : row.id = id := by
      unfold sessionGet at hrow
      split at hrow
      next hid => exact Option.some.inj hrow ▸ hid.symm
      · exact (List.mem_of_find?_key hrow).2
    refine ⟨?_, trivial⟩
    rintro u hash ⟨rfl, hh, hne⟩
    obtain ⟨password, hpassword, hhash⟩ := hashes_of_applyTo hrow' hh hne
    subst hid
    exact ⟨salt, password, ⟨caller, hadmin, .inr ⟨body, hw, hpassword⟩⟩, hhash⟩
  | delete id =>
    obtain ⟨row, -, h⟩ := Option.bind_eq_some_iff.1 h
    obtain rfl := Option.some.inj h
    exact fresh_delete

section Waiting

variable {salt now : ℕ} {email password role current new confirm : String}

lemma waiting_createUser : ∀ w ∈ ((UserOperation.createUser u salt now email password role).next hmac
    hashPassword s).waiting, w ∈ s.waiting ∨
      w.Fresh hashPassword checks (.manage (.createUser u salt now email password role)) s := by
  dsimp only [UserOperation.next]
  split
  · exact fun w => .inl
  · refine fresh_waitFor (fun _ h => h) fun w hw => ?_
    obtain ⟨hash, hhash, rfl⟩ := Option.map_eq_some_iff.1 hw
    refine ⟨?_, trivial⟩
    rintro u' hash' ⟨hid, hh⟩
    obtain rfl := Option.some.inj hh
    exact ⟨salt, password, ⟨hid, rfl, rfl⟩, hhash⟩

lemma waiting_saveEdit {disabled : Bool} :
    ∀ w ∈ ((UserOperation.saveEdit u salt now email password role disabled).next hmac hashPassword
      s).waiting, w ∈ s.waiting ∨ w.Fresh hashPassword checks
        (.manage (.saveEdit u salt now email password role disabled)) s := by
  refine fresh_waitFor (fun _ h => h) fun w hw => ?_
  obtain ⟨row, hrow, hw⟩ := Option.bind_eq_some_iff.1 hw
  obtain ⟨row', hrow', hw⟩ := Option.bind_eq_some_iff.1 hw
  obtain rfl := Option.some.inj hw
  refine ⟨?_, trivial⟩
  rintro u' hash ⟨hid, hh, hne⟩
  obtain ⟨hgiven, hhash⟩ := hashes_of_saveEdit hrow' hh hne
  have hid : u = u' := (List.mem_of_find?_key hrow).2.symm.trans hid
  exact ⟨salt, password, ⟨hid, rfl, rfl, hgiven⟩, hhash⟩

lemma waiting_doDel {page : ℕ} {typed : String} {e : PasswordEvent} :
    ∀ w ∈ ((UserOperation.doDel page typed).next hmac hashPassword s).waiting,
      w ∈ s.waiting ∨ w.Fresh hashPassword checks e s := by
  dsimp only [UserOperation.next]
  split
  · exact fun w => .inl
  next page _ =>
    unfold AccountPage.doDel
    split
    · exact fun w => .inl
    · exact fresh_waitFor (fun _ h => h) (fresh_of_map fun _ => fresh_delete)

lemma waiting_api {authorization : String} {request : UserRequest} {e : PasswordEvent} :
    ∀ w ∈ ((UserOperation.api authorization now request).next hmac hashPassword s).waiting,
      w ∈ s.waiting ∨ w.Fresh hashPassword checks e s := by
  dsimp only [UserOperation.next]
  split
  · exact fun w => .inl
  next caller hcaller =>
    exact fresh_wait ⟨fun _ _ => False.elim, role_of_requireAdmin hcaller⟩

lemma waiting_resume {handler : ℕ}
    (hcallers : ∀ w ∈ s.waiting, w.OfAdmin) :
    ∀ w ∈ ((UserOperation.resume handler).next hmac hashPassword s).waiting,
      w ∈ s.waiting ∨ w.Fresh hashPassword checks (.manage (.resume handler)) s := by
  dsimp only [UserOperation.next]
  split
  · exact fun w => .inl
  next w hw =>
    have herase : ∀ w ∈ s.waiting.eraseIdx handler, w ∈ s.waiting := fun w =>
      List.mem_of_mem_eraseIdx
    cases w with
    | authorized caller request =>
      have hadmin : caller.role = "admin" := hcallers _ (List.mem_of_getElem? hw)
      exact fresh_waitFor herase fun w hnew => fresh_handler hw hadmin hnew
    | insert user | update row row' | delete id | accountPage user =>
      exact fun w hw => .inl (herase w hw)

lemma waiting_savePw : ∀ w ∈ (s.savePw hashPassword checks u salt current new confirm).waiting,
    w ∈ s.waiting ∨ w.Fresh hashPassword checks (.savePw u salt current new confirm) s := by
  rcases savePw_cases with h | ⟨hconfirm, hlength, user, hash, huser, hstored, hcheck, h⟩
  · rw [h]
    exact fun w => .inl
  · rw [h]
    refine fresh_waitFor (fun _ h => h) fun w hw => ?_
    obtain ⟨hash', hhash', rfl⟩ := Option.map_eq_some_iff.1 hw
    refine ⟨?_, trivial⟩
    rintro u' hash'' ⟨hid, hh, -⟩
    obtain rfl := Option.some.inj hh
    obtain rfl : u = u' := (List.mem_of_find?_key huser).2.symm.trans hid
    exact ⟨salt, new, ⟨rfl, rfl, rfl, hconfirm, hlength, user, hash, huser, hstored, hcheck⟩,
      hhash'⟩

/-- **The handlers that wait** after an event. -/
lemma waiting_next (e : PasswordEvent)
    (hcallers : ∀ w ∈ s.waiting, w.OfAdmin) :
    ∀ w ∈ (e.next hmac hashPassword checks s).waiting,
      w ∈ s.waiting ∨ w.Fresh hashPassword checks e s := by
  cases e with
  | manage op =>
    dsimp only [PasswordEvent.next]
    cases op with
    | createUser id salt now email password role => exact waiting_createUser
    | saveEdit id salt now email password role disabled => exact waiting_saveEdit
    | deleteUser current id =>
      dsimp only [UserOperation.next]
      split
      · exact fun w => .inl
      · exact fresh_waitFor (fun _ h => h) (fresh_of_map fun _ => fresh_delete)
    | openAccount userId =>
      exact fresh_waitFor (fun _ h => h) (fresh_of_map fun _ => fresh_accountPage)
    | doDel page typed => exact waiting_doDel
    | api authorization now request => exact waiting_api
    | resume handler => exact waiting_resume hcallers
    | restart id salt now email password => exact fun w hw => absurd hw List.not_mem_nil
  | savePw userId salt current new confirm => exact waiting_savePw
  | ssoCallback id email =>
    exact fresh_wait ⟨fun u hash h => absurd h.2 (Option.some_ne_none hash).symm, trivial⟩

end Waiting

/-- An event that writes a hash has given the password, or a handler brings it. -/
lemma brings_or_hashes {e : PasswordEvent} {hash : String}
    (h : e.writesHash hashPassword s u = some (some hash)) :
    (∃ w ∈ s.waiting, w.Brings u hash) ∨ e.Hashes hashPassword checks s u hash := by
  unfold PasswordEvent.writesHash at h
  split at h
  next handler =>
    obtain ⟨w, hw, h⟩ := Option.bind_eq_some_iff.1 h
    exact .inl ⟨w, List.mem_of_getElem? hw, brings_of_writesHash h⟩
  next id salt now email password =>
    split at h
    · cases h
    next hseeded =>
      obtain ⟨hash', hhash', h⟩ := Option.bind_eq_some_iff.1 h
      obtain ⟨hid, hh⟩ := brings_of_writesHash h
      obtain rfl := Option.some.inj hh
      exact .inr ⟨salt, password, ⟨hid, rfl, rfl, not_not.1 hseeded⟩, hhash'⟩
  · cases h

/-- The password of this hash was given for the user. -/
def Known (hashPassword : ℕ → String → Option String) (checks : Checks)
    (steps : List (PasswordEvent × UserManagement)) (u : Uuid) (hash : String) : Prop :=
  ∃ given ∈ steps, given.1.Hashes hashPassword checks given.2 u hash

lemma Known.mono {hash : String} (h : Known hashPassword checks steps u hash) :
    Known hashPassword checks (steps ++ [step]) u hash := by
  obtain ⟨given, hmem, hgiven⟩ := h
  exact ⟨given, List.mem_append_left _ hmem, hgiven⟩

/-- The last hash after one more event. -/
lemma lastHash_append (u : Uuid) : lastHash hashPassword (steps ++ [step]) u =
    (step.1.writesHash hashPassword step.2 u).or (lastHash hashPassword steps u) := by
  unfold lastHash
  rw [List.filterMap_append, List.getLast?_append]
  congr 1
  cases h : step.1.writesHash hashPassword step.2 u with
  | none => simp [h]
  | some hash => simp [h]

/-- What is kept along a run. -/
structure UserManagement.Traced (hashPassword : ℕ → String → Option String) (checks : Checks)
    (steps : List (PasswordEvent × UserManagement)) (s : UserManagement) : Prop where
  ids : (s.db.users.map User.id).Nodup
  emails : s.db.UniqueEmails
  callers : ∀ w ∈ s.waiting, w.OfAdmin
  waiting : ∀ w ∈ s.waiting, ∀ u hash, w.Brings u hash → Known hashPassword checks steps u hash
  last : ∀ user ∈ s.db.users, lastHash hashPassword steps user.id = some user.passwordHash
  known : ∀ user ∈ s.db.users, ∀ hash, user.passwordHash = some hash →
    Known hashPassword checks steps user.id hash

/-- **One event.** -/
lemma UserManagement.Traced.next (e : PasswordEvent) (h : s.Traced hashPassword checks steps) :
    (e.next hmac hashPassword checks s).Traced hashPassword checks (steps ++ [(e, s)]) := by
  have hrows : s.db.Becomes (e.next hmac hashPassword checks s).db
      fun u => e.writesHash hashPassword s u := becomes_next e
  have hwaiting : ∀ w ∈ (e.next hmac hashPassword checks s).waiting,
      w ∈ s.waiting ∨ w.Fresh hashPassword checks e s := waiting_next e h.callers
  have hthis : ∀ u hash, e.Hashes hashPassword checks s u hash →
      Known hashPassword checks (steps ++ [(e, s)]) u hash := fun u hash hh =>
    ⟨(e, s), List.mem_append_right _ List.mem_cons_self, hh⟩
  refine ⟨hrows.ids h.ids, hrows.emails h.emails, ?_, ?_, ?_, ?_⟩
  · intro w hw
    rcases hwaiting w hw with hw | hw
    · exact h.callers w hw
    · exact hw.2
  · intro w hw u hash hb
    rcases hwaiting w hw with hw | hw
    · exact (h.waiting w hw u hash hb).mono
    · exact hthis u hash (hw.1 u hash hb)
  · intro user huser
    rw [lastHash_append]
    rcases hrows.hashes user huser with hw | ⟨hw, old, hold, hid, hhash⟩
    · rw [hw]
      rfl
    · rw [hw, ← hid, ← hhash]
      exact h.last old hold
  · intro user huser hash hhash
    rcases hrows.hashes user huser with hw | ⟨hw, old, hold, hid, hsame⟩
    · rw [hhash] at hw
      have hfrom : (∃ w ∈ s.waiting, w.Brings user.id hash) ∨
          e.Hashes hashPassword checks s user.id hash := brings_or_hashes hw
      rcases hfrom with ⟨w, hw, hb⟩ | hh
      · exact (h.waiting w hw _ _ hb).mono
      · exact hthis _ _ hh
    · rw [← hid]
      exact (h.known old hold hash (hsame.trans hhash)).mono

/-- Who signs in, with unique ids and emails. -/
lemma authenticateUser_iff {email password : String} (hids : (db.users.map User.id).Nodup)
    (hemails : db.UniqueEmails) : authenticateUser checks db email password = some user ↔
      user ∈ db.users ∧ user.email = email ∧ user.disabledAt = none ∧
        ∃ hash, user.passwordHash = some hash ∧ checks.password password hash = true := by
  have hone : ∀ c ∈ db.users, c.email = email → db.users.filter (·.email = email) = [c] := by
    rintro c hc rfl
    rw [← List.filter_eq_singleton_of_nodup_map hids hc]
    refine List.filter_congr fun b hb => decide_eq_decide.2 ⟨fun h => hemails b hb c hc h, ?_⟩
    intro h
    rw [List.inj_on_of_nodup_map hids hb hc h]
  unfold authenticateUser
  constructor
  · intro h
    split at h
    next c hrows =>
      obtain ⟨hc, hemail⟩ := List.mem_filter.1 (hrows ▸ List.mem_cons_self)
      split at h
      · cases h
      next hash hhash =>
        split at h
        next hok =>
          obtain rfl := Option.some.inj h
          exact ⟨hc, of_decide_eq_true hemail, hok.2, hash, hhash, hok.1⟩
        · cases h
    · cases h
  · rintro ⟨hc, hemail, hen, hash, hhash, hcheck⟩
    rw [hone user hc hemail]
    dsimp only
    rw [hhash]
    exact if_pos ⟨hcheck, hen⟩

/-- **Which password is the right one**: in every run from a database without users, however the
handlers overtake each other, a user signs in with a password if and only if the user is there and
enabled and it is the password whose hash was committed last for the user; and it was given where
the user was made, on the page of the admins, by an admin over the API, or by who knew the password
so far. -/
theorem run_passwords (hbcrypt : LawfulHash hashPassword checks) {start : UserManagement}
    (hstart : start.db.users = [] ∧ start.waiting = []) (events : List PasswordEvent)
    (email password : String) (user : User) :
    let next := PasswordEvent.next hmac hashPassword checks
    let db := (Run.final next events start).db
    authenticateUser checks db email password = some user ↔
      user ∈ db.users ∧ user.email = email ∧ user.disabledAt = none ∧
        IsPassword hashPassword checks (Run.steps next events start) user.id password := by
  intro next db
  have htraced : (Run.final next events start).Traced hashPassword checks
      ([] ++ Run.steps next events start) := by
    refine Run.final_of_past (A := fun _ _ => True)
      (J := fun steps s => UserManagement.Traced hashPassword checks steps s)
      (fun _ e _ h _ => h.next e) ?_
      (Run.throughout_of_forall fun _ _ => trivial)
    have hno : ∀ user, user ∉ start.db.users := by simp [hstart.1]
    exact ⟨by simp [hstart.1], fun a ha => absurd ha (hno a), by simp [hstart.2],
      by simp [hstart.2], fun a ha => absurd ha (hno a), fun a ha => absurd ha (hno a)⟩
  rw [List.nil_append] at htraced
  rw [authenticateUser_iff htraced.ids htraced.emails]
  refine and_congr_right fun huser => and_congr_right fun _ => and_congr_right fun _ => ?_
  have hlast := htraced.last user huser
  constructor
  · rintro ⟨hash, hhash, hcheck⟩
    obtain ⟨given, hmem, salt, password', hgives, hmade⟩ := htraced.known user huser hash hhash
    obtain rfl := (hbcrypt.check salt password' hash hmade password).1 hcheck
    exact ⟨given, hmem, salt, hash, hgives, hmade, hhash ▸ hlast⟩
  · rintro ⟨given, hmem, salt, hash, hgives, hmade, hwritten⟩
    have hhash : user.passwordHash = some hash := Option.some.inj (hlast.symm.trans hwritten)
    exact ⟨hash, hhash, (hbcrypt.check salt password hash hmade password).2 rfl⟩

end Rows

/-! The first admin changes the password from the settings. -/

def plainHash (_ : ℕ) (password : String) : Option String := some password

def plainChecks : Checks := ⟨fun typed hash => typed = hash, fun _ _ _ => none⟩

def judy : Uuid := ⟨0x10d, by decide⟩

def noUsers : UserManagement where
  db := { users := [], devices := [], rules := [], mfaMethods := [], configuration := none }
  pages := []
  waiting := []

def passwordChanged : List PasswordEvent :=
  [.manage (.restart judy 0 1 "judy@example.com" "from the settings"),
    .savePw judy 1 "from the settings" "my own one" "my own one", .manage (.resume 0)]

theorem run_passwords_judy :
    IsPassword plainHash plainChecks
      (Run.steps (PasswordEvent.next id plainHash plainChecks) passwordChanged noUsers) judy
      "my own one" := by
  have hlawful : LawfulHash plainHash plainChecks := by
    refine ⟨fun salt password hash h typed => ?_⟩
    obtain rfl := Option.some.inj h
    exact decide_eq_true_iff
  have hsigned : authenticateUser plainChecks (Run.final (PasswordEvent.next id plainHash plainChecks)
      passwordChanged noUsers).db "judy@example.com" "my own one" =
        some (newUser judy 1 "judy@example.com" "my own one" "admin") := by
    decide
  exact ((run_passwords hlawful ⟨rfl, rfl⟩ passwordChanged _ _ _).1 hsigned).2.2.2

end WireGui
