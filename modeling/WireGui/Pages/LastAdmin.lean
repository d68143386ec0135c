import WireGui.Api.Updates
import WireGui.Lib.Run

/-!
# Who can make, change and delete users

The page `/admin/users`, the danger zone of `/account` and the endpoints for users, any number of
them at work at once: a handler is cut wherever it waits for the database.  Only `/account` looks at
how many admins there are, and only while the page is made.  `run_hasAdmin_iff` says in which runs
there is an admin in every state.
-/

namespace WireGui

/-- **There is an administrator.** -/
def Database.HasAdmin (db : Database) : Prop := ∃ user ∈ db.users, user.role = "admin"

instance (db : Database) : Decidable db.HasAdmin := by unfold Database.HasAdmin; infer_instance

/-- A page `/account`: the user it was made for, and whether its button is disabled. -/
structure AccountPage where
  user : User
  isOnlyAdmin : Bool

/-- A request for users over the API. -/
inductive UserRequest where
  | create (id : Uuid) (salt now : ℕ) (body : UserCreate)
  | update (id : Uuid) (salt : ℕ) (body : UserUpdate)
  | delete (id : Uuid)

/-- A handler that waits: to commit a new user, an update or a deletion, to count the admins for
`/account`, to go on after `require_admin`. -/
inductive UserHandler where
  | insert (user : User)
  | update (row row' : User)
  | delete (id : Uuid)
  | accountPage (user : User)
  | authorized (caller : User) (request : UserRequest)

/-- The database, the open pages `/account`, and the handlers that wait. -/
structure UserManagement where
  db : Database
  pages : List AccountPage
  waiting : List UserHandler

/-- What happens: the page `/admin/users` is used, by the user `current` where that matters; a user
opens `/account` or types an email there to delete the account; a request comes in; a handler goes
on; the service starts again. -/
inductive UserOperation where
  | createUser (id : Uuid) (salt now : ℕ) (email password role : String)
  | saveEdit (id : Uuid) (salt now : ℕ) (email password role : String) (disabled : Bool)
  | deleteUser (current : Option Uuid) (id : Uuid)
  | openAccount (userId : Uuid)
  | doDel (page : ℕ) (typed : String)
  | api (authorization : String) (now : ℕ) (request : UserRequest)
  | resume (handler : ℕ)
  | restart (id : Uuid) (salt now : ℕ) (adminEmail adminPassword : String)

/-- `save_edit` on `/admin/users`, for the row that it has read. -/
def User.saveEdit (hashPassword : String → Option String) (now : ℕ)
    (email password role : String) (disabled : Bool) (user : User) : Option User := do
  let passwordHash ←
    if password = "" then some user.passwordHash else (hashPassword password).map some
  return { user with
    email := strip email
    passwordHash := passwordHash
    role := role
    disabledAt := if disabled then user.disabledAt.or (some now) else none }

namespace UserManagement

def wait (handler : UserHandler) (s : UserManagement) : UserManagement :=
  { s with waiting := s.waiting ++ [handler] }

/-- A commit that fails leaves the database as it is. -/
def commit (db : Option Database) (s : UserManagement) : UserManagement :=
  { s with db := db.getD s.db }

/-- The handler that waits with a row it has made, if it could. -/
def waitFor (handler : Option UserHandler) (s : UserManagement) : UserManagement :=
  match handler with
  | none => s
  | some handler => s.wait handler

end UserManagement

section Handlers

variable (hmac : String → String) (hashPassword : ℕ → String → Option String)

/-- `seed_admin`. -/
def seedAdmin (id : Uuid) (salt now : ℕ) (adminEmail adminPassword : String) (db : Database) :
    Database :=
  if db.users ≠ [] then db
  else
    match hashPassword salt adminPassword with
    | none => db
    | some hash => (db.insertUser (newUser id now adminEmail hash "admin")).getD db

/-- `session.get` in a request: the caller has been read before. -/
def sessionGet (caller : User) (db : Database) (id : Uuid) : Option User :=
  if id = caller.id then some caller else db.user id

/-- `create_user`, `update_user` and `delete_user` of the API, up to the commit. -/
def UserRequest.handler (caller : User) (db : Database) : UserRequest → Option UserHandler
  | .create id salt now body => do
    let hash ← hashPassword salt body.password
    return .insert (newUser id now body.email hash body.role)
  | .update id salt body => do
    let row ← sessionGet caller db id
    let row' ← body.applyTo (hashPassword salt) row
    return .update row row'
  | .delete id => do
    let _ ← sessionGet caller db id
    return .delete id

/-- The rest of a handler, up to where it waits next. -/
def UserHandler.resume (s : UserManagement) : UserHandler → UserManagement
  | .insert user => s.commit (s.db.insertUser user)
  | .update row row' => s.commit (s.db.commitUser row row')
  | .delete id => s.commit (s.db.deleteUser id)
  | .accountPage user =>
    let adminCount := (s.db.users.filter (·.role = "admin")).length
    let isOnlyAdmin := user.role = "admin" ∧ adminCount ≤ 1
    { s with pages := s.pages ++ [⟨user, isOnlyAdmin⟩] }
  | .authorized caller request => s.waitFor (request.handler hashPassword caller s.db)

/-- `do_del` of `/account`, up to the commit. -/
def AccountPage.doDel (typed : String) (s : UserManagement) (page : AccountPage) : UserManagement :=
  if page.isOnlyAdmin ∨ strip typed ≠ page.user.email then s
  else s.waitFor ((s.db.user page.user.id).map fun _ => .delete page.user.id)

/-- **One event.** -/
def UserOperation.next (op : UserOperation) (s : UserManagement) : UserManagement :=
  match op with
  | .createUser id salt now email password role =>
    let email := strip email
    if email = "" ∨ password = "" ∨ s.db.users.any (·.email = email) then s
    else s.waitFor ((hashPassword salt password).map fun hash =>
      .insert (newUser id now email hash role))
  | .saveEdit id salt now email password role disabled =>
    s.waitFor do
      let row ← s.db.user id
      let row' ← row.saveEdit (hashPassword salt) now email password role disabled
      return .update row row'
  | .deleteUser current id =>
    if current = some id then s else s.waitFor ((s.db.user id).map fun _ => .delete id)
  | .openAccount userId => s.waitFor ((s.db.user userId).map .accountPage)
  | .doDel page typed =>
    match s.pages[page]? with
    | none => s
    | some page => page.doDel typed s
  | .api authorization now request =>
    match requireAdmin hmac now s.db authorization with
    | .error _ => s
    | .ok caller => s.wait (.authorized caller request)
  | .resume handler =>
    match s.waiting[handler]? with
    | none => s
    | some waiting =>
      waiting.resume hashPassword { s with waiting := s.waiting.eraseIdx handler }
  | .restart id salt now adminEmail adminPassword =>
    ⟨seedAdmin hashPassword id salt now adminEmail adminPassword s.db, [], []⟩

end Handlers

/-- The handler is about to take the user away, or the role of an administrator from the user. -/
def UserHandler.Takes (db : Database) (u : Uuid) : UserHandler → Prop
  | .delete id => id = u
  | .update row row' => row.id = u ∧ row'.role ≠ row.role ∧ row'.role ≠ "admin" ∧
      db.commitUser row row' ≠ none
  | _ => False

/-- **The last admin stays**: what is taken from a user is taken while there is an admin besides. -/
def UserOperation.KeepsLast (op : UserOperation) (s : UserManagement) : Prop :=
  match op with
  | .resume handler => ∀ waiting ∈ s.waiting[handler]?, ∀ u, waiting.Takes s.db u →
      ∃ user ∈ s.db.users, user.id ≠ u ∧ user.role = "admin"
  | _ => True

/-- A handler goes on or the service starts. -/
def UserOperation.Writes : UserOperation → Prop
  | .resume .. | .restart .. => True
  | _ => False

/-! ### One event -/

section Next

variable {hmac : String → String} {hashPassword : ℕ → String → Option String}
  {s : UserManagement} {db : Database} {op : UserOperation} {w : UserHandler} {user : User}

@[simp] lemma db_waitFor (handler : Option UserHandler) : (s.waitFor handler).db = s.db := by
  cases handler with
  | none => rfl
  | some handler => rfl

/-- Without users there is no admin; with users, nothing is seeded. -/
lemma seedAdmin_of_hasAdmin {id : Uuid} {salt now : ℕ} {email password : String}
    (h : db.HasAdmin) : seedAdmin hashPassword id salt now email password db = db := by
  obtain ⟨user, hu, -⟩ := h
  exact if_pos (List.ne_nil_of_mem hu)

lemma db_next (hw : ¬ op.Writes) : (op.next hmac hashPassword s).db = s.db := by
  cases op with
  | createUser id salt now email password role =>
    simp only [UserOperation.next]
    split
    · rfl
    · exact db_waitFor _
  | saveEdit id salt now email password role disabled => exact db_waitFor _
  | deleteUser current id =>
    rw [UserOperation.next]
    split
    · rfl
    · exact db_waitFor _
  | openAccount userId => exact db_waitFor _
  | doDel page typed =>
    rw [UserOperation.next]
    split
    · rfl
    · unfold AccountPage.doDel
      split
      · rfl
      · exact db_waitFor _
  | api authorization now request =>
    rw [UserOperation.next]
    split
    · rfl
    · rfl
  | resume handler => exact absurd trivial hw
  | restart id salt now email password => exact absurd trivial hw

lemma nodup_insertUser (h : (s.db.users.map User.id).Nodup) :
    (((s.db.insertUser user).getD s.db).users.map User.id).Nodup := by
  cases hins : s.db.insertUser user with
  | none => exact h
  | some db' =>
    obtain ⟨hfresh, rfl⟩ := insertUser_eq_some hins
    exact List.nodup_map_append_singleton h hfresh

/-- The ids of users stay a primary key. -/
lemma nodup_resume (h : (s.db.users.map User.id).Nodup) :
    ((w.resume hashPassword s).db.users.map User.id).Nodup := by
  cases w with
  | insert user => exact nodup_insertUser h
  | update row row' =>
    rw [UserHandler.resume, UserManagement.commit]
    cases hc : s.db.commitUser row row' with
    | none => exact h
    | some db' =>
      obtain ⟨c, -, -, rfl⟩ := commitUser_eq_some hc
      rw [Option.getD_some, map_id_setUser]
      exact h
  | delete id => exact h.sublist (List.filter_sublist.map _)
  | accountPage user => exact h
  | authorized caller request =>
    rw [UserHandler.resume, db_waitFor]
    exact h

lemma nodup_next (h : (s.db.users.map User.id).Nodup) :
    ((op.next hmac hashPassword s).db.users.map User.id).Nodup := by
  cases op with
  | resume handler =>
    rw [UserOperation.next]
    split
    · exact h
    · exact nodup_resume h
  | restart id salt now email password =>
    rw [UserOperation.next, seedAdmin]
    split
    · exact h
    · split
      · exact h
      · exact nodup_insertUser (s := s) h
  | _ =>
    rw [db_next id]
    exact h

/-- A deletion leaves an admin exactly if there is one besides. -/
lemma hasAdmin_deleteUser_iff {u : Uuid} :
    (db.deleteUser u).HasAdmin ↔ ∃ user ∈ db.users, user.id ≠ u ∧ user.role = "admin" := by
  have hmem : ∀ a, a ∈ (db.deleteUser u).users ↔ a ∈ db.users ∧ a.id ≠ u := by
    intro a
    rw [Database.deleteUser, List.mem_filter, decide_eq_true_iff]
  constructor
  · rintro ⟨a, ha, hrole⟩
    exact ⟨a, ((hmem a).1 ha).1, ((hmem a).1 ha).2, hrole⟩
  · rintro ⟨a, ha, hne, hrole⟩
    exact ⟨a, (hmem a).2 ⟨ha, hne⟩, hrole⟩

/-- An update that writes another role than that of an admin leaves an admin exactly if there is one
besides; any other update leaves an admin. -/
lemma hasAdmin_commitUser_iff {row row' : User} {db' : Database}
    (hids : (db.users.map User.id).Nodup) (h : db.HasAdmin)
    (hc : db.commitUser row row' = some db') :
    db'.HasAdmin ↔ (row'.role ≠ row.role ∧ row'.role ≠ "admin" →
      ∃ user ∈ db.users, user.id ≠ row.id ∧ user.role = "admin") := by
  obtain ⟨c, hcm, hid, rfl⟩ := commitUser_eq_some hc
  have hmem : ∀ a, a ∈ (db.setUser (row.written row' c)).users ↔
      a = row.written row' c ∨ (a ∈ db.users ∧ a.id ≠ c.id) := fun a =>
    mem_setUser_iff ⟨c, hcm, rfl⟩
  have hrole : (row.written row' c).role = if row'.role = row.role then c.role else row'.role := rfl
  by_cases htake : row'.role ≠ row.role ∧ row'.role ≠ "admin"
  · -- the row is written without the role
    rw [if_neg htake.1] at hrole
    constructor
    · rintro ⟨a, ha, harole⟩ -
      rcases (hmem a).1 ha with rfl | ⟨ham, hne⟩
      · exact absurd (hrole.symm.trans harole) htake.2
      · exact ⟨a, ham, hid ▸ hne, harole⟩
    · intro hother
      obtain ⟨a, ha, hne, harole⟩ := hother htake
      exact ⟨a, (hmem a).2 (.inr ⟨ha, hid.symm ▸ hne⟩), harole⟩
  · -- the row keeps the role, or gets it
    refine iff_of_true ?_ fun hno => absurd hno htake
    obtain ⟨a, ha, harole⟩ := h
    by_cases hac : a.id = c.id
    · obtain rfl : a = c := List.inj_on_of_nodup_map hids ha hcm hac
      refine ⟨_, (hmem _).2 (.inl rfl), ?_⟩
      rw [hrole]
      split
      · exact harole
      next hne => exact not_not.1 fun hadmin => htake ⟨hne, hadmin⟩
    · exact ⟨a, (hmem a).2 (.inr ⟨ha, hac⟩), harole⟩

/-- **A handler that goes on** leaves an admin exactly if it takes the role from no last one. -/
lemma hasAdmin_resume_iff (hids : (s.db.users.map User.id).Nodup) (h : s.db.HasAdmin) :
    (w.resume hashPassword s).db.HasAdmin ↔
      ∀ u, w.Takes s.db u → ∃ user ∈ s.db.users, user.id ≠ u ∧ user.role = "admin" := by
  cases w with
  | insert user =>
    refine iff_of_true ?_ nofun
    rw [UserHandler.resume, UserManagement.commit]
    cases hins : s.db.insertUser user with
    | none => exact h
    | some db' =>
      obtain ⟨-, rfl⟩ := insertUser_eq_some hins
      obtain ⟨a, ha, hrole⟩ := h
      exact ⟨a, List.mem_append_left _ ha, hrole⟩
  | update row row' =>
    rw [UserHandler.resume, UserManagement.commit]
    cases hc : s.db.commitUser row row' with
    | none => exact iff_of_true h fun u hu => absurd hc hu.2.2.2
    | some db' =>
      rw [Option.getD_some, hasAdmin_commitUser_iff hids h hc]
      constructor
      · rintro hother u ⟨rfl, hne, hno, -⟩
        exact hother ⟨hne, hno⟩
      · intro hother htake
        exact hother row.id ⟨rfl, htake.1, htake.2, by rw [hc]; exact Option.some_ne_none _⟩
  | delete id =>
    rw [UserHandler.resume, UserManagement.commit, Option.getD_some, hasAdmin_deleteUser_iff]
    constructor
    · rintro hother u rfl
      exact hother
    · exact fun hother => hother id rfl
  | accountPage user => exact iff_of_true h nofun
  | authorized caller request =>
    rw [UserHandler.resume, db_waitFor]
    exact iff_of_true h nofun

lemma hasAdmin_next_iff (hids : (s.db.users.map User.id).Nodup) (h : s.db.HasAdmin) :
    (op.next hmac hashPassword s).db.HasAdmin ↔ op.KeepsLast s := by
  cases op with
  | resume handler =>
    rw [UserOperation.next, UserOperation.KeepsLast]
    split
    next hnone =>
      rw [hnone]
      exact iff_of_true h fun w hw => absurd hw (Option.not_mem_none w)
    next w hw =>
      rw [hw]
      refine (hasAdmin_resume_iff (s := { s with waiting := s.waiting.eraseIdx handler }) hids
        h).trans ?_
      constructor
      · rintro hother w' hw'
        obtain rfl := Option.some.inj hw'
        exact hother
      · exact fun hother => hother w rfl
  | restart id salt now email password =>
    rw [UserOperation.next, seedAdmin_of_hasAdmin h]
    exact iff_of_true h trivial
  | _ =>
    rw [db_next id]
    exact iff_of_true h trivial

lemma sessionGet_of_row {caller : User} (h : db.user caller.id = some caller) (id : Uuid) :
    sessionGet caller db id = db.user id := by
  unfold sessionGet
  split
  next hid => rw [hid, h]
  next => rfl

/-- With nothing else under way, a handler goes on at once. -/
lemma next_resume_waitFor (hw : s.waiting = []) (handler : Option UserHandler) :
    (UserOperation.resume 0).next hmac hashPassword (s.waitFor handler) =
      handler.elim s fun w => w.resume hashPassword s := by
  obtain ⟨db, pages, waiting⟩ := s
  obtain rfl : waiting = [] := hw
  cases handler with
  | none => rfl
  | some w => rfl

/-- **A request that runs by itself** does what the endpoint says. -/
theorem db_update_alone (hw : s.waiting = []) {authorization : String} {now salt : ℕ} {id : Uuid}
    {body : UserUpdate} :
    (Run.final (UserOperation.next hmac hashPassword)
        [.api authorization now (.update id salt body), .resume 0, .resume 0] s).db =
      (Api.updateUser hmac (hashPassword salt) now authorization id body s.db).2 := by
  have hresume : ∀ handler, (UserOperation.resume 0).next hmac hashPassword (s.waitFor handler) =
      handler.elim s fun w => w.resume hashPassword s := next_resume_waitFor hw
  simp only [Run.final]
  rw [UserOperation.next, Api.updateUser]
  cases hadmin : requireAdmin hmac now s.db authorization with
  | error e =>
    have hidle : (UserOperation.resume 0).next hmac hashPassword s = s := hresume none
    simp only [hidle]
  | ok caller =>
    have hstart : (UserOperation.resume 0).next hmac hashPassword
        (s.wait (.authorized caller (.update id salt body))) =
          s.waitFor (UserRequest.handler hashPassword caller s.db (.update id salt body)) :=
      hresume (some _)
    simp only [hstart, hresume, UserRequest.handler,
      sessionGet_of_row (user_of_requireAdmin hadmin)]
    cases s.db.user id with
    | none => rfl
    | some row =>
      simp only [Option.bind_eq_bind, Option.bind_some]
      cases body.applyTo (hashPassword salt) row with
      | none => rfl
      | some row' =>
        simp only [Option.bind_some, Option.pure_def, Option.elim_some, UserHandler.resume,
          UserManagement.commit]
        cases s.db.commitUser row row' with
        | none => rfl
        | some db' => exact (Api.snd_respond _).symm

end Next

/-- **In which runs there is always an administrator.** -/
theorem run_hasAdmin_iff (hmac : String → String) (hashPassword : ℕ → String → Option String)
    {events : List UserOperation} {s : UserManagement} (hids : (s.db.users.map User.id).Nodup)
    (h : s.db.HasAdmin) :
    Run.Always (UserOperation.next hmac hashPassword) (fun s => s.db.HasAdmin) events s ↔
      Run.Throughout (UserOperation.next hmac hashPassword) UserOperation.KeepsLast events s := by
  refine Run.always_iff (I := fun s : UserManagement => (s.db.users.map User.id).Nodup)
    (A := fun _ _ => True) (fun _ _ => nodup_next)
    (fun _ _ hids _ h => hasAdmin_next_iff hids h) hids h ?_
  exact Run.throughout_of_forall fun _ _ => trivial

/-! Two admins have `/account` open, and delete their accounts one after the other. -/

def admin (id : Uuid) (email : String) : User := newUser id 0 email "$2b$12$" "admin"

def erin : Uuid := ⟨0xe1, by decide⟩
def frank : Uuid := ⟨0xf1, by decide⟩

def twoAdmins : UserManagement where
  db :=
    { users := [admin erin "erin@example.com", admin frank "frank@example.com"]
      devices := []
      rules := []
      mfaMethods := []
      configuration := none }
  pages := []
  waiting := []

def oneLeaves : List UserOperation :=
  [.openAccount erin, .resume 0, .openAccount frank, .resume 0, .doDel 0 "erin@example.com",
    .resume 0]

def bothLeave : List UserOperation := oneLeaves ++ [.doDel 1 "frank@example.com", .resume 0]

/-- **No admin is left.** -/
theorem run_hasAdmin_lost :
    ¬ Run.Always (UserOperation.next id fun _ _ => none) (fun s => s.db.HasAdmin) bothLeave
      twoAdmins := by
  decide

theorem run_hasAdmin_iff_oneLeaves :
    Run.Throughout (UserOperation.next id fun _ _ => none) UserOperation.KeepsLast oneLeaves
      twoAdmins :=
  (run_hasAdmin_iff _ _ (by decide) (by decide)).1 (by decide)

end WireGui
