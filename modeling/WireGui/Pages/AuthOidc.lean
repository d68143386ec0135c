import WireGui.Lib.Transactions
import WireGui.Pages.SignIn
import WireGui.Services.Frame

/-!
# `pages/auth_oidc.py`: the connection of a user to a provider

`oidc_callback`, once the provider has given an email.  Its statements are the query for the user,
the query for the connection, the insertion or the update of the connection, and the commit.  Before
the query for the connection the session sends what it has to write so far: the update of the user's
row.  So the row is locked before anybody looks for a connection, and `run_oneConnection` says that
there is never a second one.
-/

namespace WireGui

/-- What the provider has sent.  The refresh token may be missing or null. -/
structure OidcToken where
  refreshToken : Option (Option String)

/-- A callback: its provider, what it has learned there, what time it is and the id for a new
connection. -/
structure OidcCallback where
  providerId : String
  email : String
  token : OidcToken
  now : ℕ
  connectionId : Uuid

/-- The connections of a user to a provider. -/
def Database.connectionsOf (db : Database) (u : Uuid) (providerId : String) :
    List OidcConnection :=
  db.oidcConnections.filter fun c => c.userId = u ∧ c.provider = providerId

/-- Where a callback is: it has been called, has found its user, has updated the user's row, has
looked for the connection, has inserted or updated it; or it is over: committed, refused, with an
error from the query for the connection, or with another error. -/
inductive OidcPhase where
  | called
  | found (user : User)
  | tracked (user : User)
  | lookedUp (user : User) (existing : Option OidcConnection)
  | stored (user : User) (existing : Option OidcConnection)
  | raising
  | committed
  | refused
  | raised
  | failed
  deriving DecidableEq

namespace OidcCallback

variable (cb : OidcCallback)

def method : String := "oidc:" ++ cb.providerId

/-- The sign-in is written if it differs from what was loaded. -/
def Tracks (user : User) : Prop :=
  some cb.now ≠ user.lastSignedInAt ∨ some cb.method ≠ user.lastSignedInMethod

instance : DecidablePred cb.Tracks := fun user => by unfold Tracks; infer_instance

/-- The update of the user's row. -/
def track (user row : User) : User :=
  { row with
    lastSignedInAt := Tx.written user.lastSignedInAt (some cb.now) row.lastSignedInAt
    lastSignedInMethod :=
      Tx.written user.lastSignedInMethod (some cb.method) row.lastSignedInMethod }

/-- `token.get("refresh_token")`. -/
def refreshToken : Option String := cb.token.refreshToken.join

def newConnection (user : User) : OidcConnection where
  id := cb.connectionId
  provider := cb.providerId
  refreshToken := cb.refreshToken
  refreshedAt := some cb.now
  userId := user.id

/-- The update of the connection. -/
def renew (existing row : OidcConnection) : OidcConnection :=
  { row with
    refreshToken := Tx.written existing.refreshToken cb.refreshToken row.refreshToken
    refreshedAt := Tx.written existing.refreshedAt (some cb.now) row.refreshedAt }

/-- What the transaction has written. -/
def write (user : User) (existing : Option OidcConnection) (db : Database) : Database :=
  { db with
    users := db.users.map fun row => if row.id = user.id then cb.track user row else row
    oidcConnections := match existing with
      | some conn =>
        db.oidcConnections.map fun row => if row.id = conn.id then cb.renew conn row else row
      | none => db.oidcConnections ++ [cb.newConnection user] }

/-- The query for the user.  That an email is there twice is an error as well; the user is there, and
the branch that makes one is left out. -/
def findUser (db : Database) : OidcPhase :=
  match db.users.filter (·.email = cb.email) with
  | [user] => if user.disabledAt = none then .found user else .refused
  | _ => .refused

/-- The query for the connection: `scalar_one_or_none` raises on two rows. -/
def lookUp (user : User) (db : Database) : OidcPhase :=
  match db.connectionsOf user.id cb.providerId with
  | [] => .lookedUp user none
  | [conn] => .lookedUp user (some conn)
  | _ => .raising

/-- **The statements of `oidc_callback`.** -/
def prog : OidcPhase → Tx.Stmt Database OidcPhase
  | .called => .query cb.findUser
  | .found user => if cb.Tracks user then .lock (.tracked user) else .query (cb.lookUp user)
  | .tracked user => .query (cb.lookUp user)
  | .lookedUp user existing => .query fun _ => .stored user existing
  | .stored user existing => .commit (cb.write user existing) .committed
  | .raising => .commit id .raised
  | .committed | .refused | .raised | .failed => .stop

/-- The rest of a callback with nobody else about, and where it ends. -/
def aloneFrom (user : User) (db : Database) : Database × OidcPhase :=
  match db.connectionsOf user.id cb.providerId with
  | [] => (cb.write user none db, .committed)
  | [conn] => (cb.write user (some conn) db, .committed)
  | _ => (db, .raised)

/-- **`oidc_callback` with nobody else about.** -/
def alone (db : Database) : Database × OidcPhase :=
  match cb.findUser db with
  | .found user => cb.aloneFrom user db
  | phase => (db, phase)

end OidcCallback

/-- The statements of several callbacks. -/
abbrev callbackProgs {ι : Type} (cbs : ι → OidcCallback) (i : ι) :
    OidcPhase → Tx.Stmt Database OidcPhase :=
  (cbs i).prog

/-- **The user has one connection to the provider at most**, and one if they last signed in there:
that is written by callbacks only, together with a connection. -/
structure Database.OneConnection (email : String) (u : Uuid) (providerId : String)
    (db : Database) : Prop where
  user : ∃ user, db.users.filter (·.email = email) = [user] ∧ user.id = u
  length : (db.connectionsOf u providerId).length ≤ 1
  method : ∀ user ∈ db.users, user.id = u → user.lastSignedInMethod = some ("oidc:" ++ providerId) →
    db.connectionsOf u providerId ≠ []

/-- What a callback knows: if it has found no connection, it has the lock and there is none. -/
def OidcPhase.Knows (u : Uuid) (providerId : String) (locked : Bool) (db : Database) :
    OidcPhase → Prop
  | .found user => user.id = u ∧ (user.lastSignedInMethod = some ("oidc:" ++ providerId) →
      db.connectionsOf u providerId ≠ [])
  | .tracked user => user.id = u ∧ locked = true
  | .lookedUp user existing | .stored user existing => user.id = u ∧
      (existing = none → locked = true ∧ db.connectionsOf u providerId = []) ∧
      (existing ≠ none → db.connectionsOf u providerId ≠ [])
  | .raising | .raised => False
  | .called | .committed | .refused | .failed => True

section Callbacks

variable {email providerId : String} {u : Uuid} {db : Database} {cb : OidcCallback} {user : User}
  {existing : Option OidcConnection}

lemma mem_connectionsOf_iff {c : OidcConnection} :
    c ∈ db.connectionsOf u providerId ↔
      c ∈ db.oidcConnections ∧ c.userId = u ∧ c.provider = providerId := by
  simp [Database.connectionsOf]

lemma users_write : (cb.write user existing db).users =
    db.users.map fun row => if row.id = user.id then cb.track user row else row := rfl

/-- A commit comes after the connection was written, or ends a callback that has raised. -/
lemma prog_eq_commit {phase k : OidcPhase} {write : Database → Database}
    (h : cb.prog phase = .commit write k) :
    (∃ user existing, phase = .stored user existing ∧ write = cb.write user existing ∧
      k = .committed) ∨ phase = .raising := by
  cases phase with
  | stored user existing =>
    cases h
    exact .inl ⟨user, existing, rfl, rfl, rfl⟩
  | raising => exact .inr rfl
  | found user =>
    simp only [OidcCallback.prog] at h
    split at h <;> cases h
  | called | tracked | lookedUp | committed | refused | raised | failed => cases h

/-- Whose a connection is does not change. -/
lemma connectionsOf_write_some {conn : OidcConnection} :
    (cb.write user (some conn) db).connectionsOf u providerId =
      (db.connectionsOf u providerId).map fun row =>
        if row.id = conn.id then cb.renew conn row else row := by
  rw [Database.connectionsOf, OidcCallback.write, List.filter_map, Database.connectionsOf]
  congr 1
  refine List.filter_congr fun row _ => ?_
  rw [Function.comp_apply]
  split <;> rfl

lemma connectionsOf_write_none :
    (cb.write user none db).connectionsOf user.id cb.providerId =
      db.connectionsOf user.id cb.providerId ++ [cb.newConnection user] := by
  rw [Database.connectionsOf, OidcCallback.write, List.filter_append, Database.connectionsOf]
  simp [OidcCallback.newConnection]

/-- A connection that is there stays. -/
lemma connectionsOf_write_ne_nil (h : db.connectionsOf u providerId ≠ []) :
    (cb.write user existing db).connectionsOf u providerId ≠ [] := by
  cases existing with
  | some conn =>
    rw [connectionsOf_write_some]
    simpa using h
  | none =>
    obtain ⟨c, hc⟩ := List.exists_mem_of_ne_nil _ h
    obtain ⟨hcm, hcu⟩ := mem_connectionsOf_iff.1 hc
    exact List.ne_nil_of_mem (mem_connectionsOf_iff.2 ⟨List.mem_append_left _ hcm, hcu⟩)

/-- After a callback there is a connection. -/
lemma connectionsOf_write_self (hp : cb.providerId = providerId) (hu : user.id = u)
    (hex : existing ≠ none → db.connectionsOf u providerId ≠ []) :
    (cb.write user existing db).connectionsOf u providerId ≠ [] := by
  subst hp hu
  cases existing with
  | some conn => exact connectionsOf_write_ne_nil (hex (Option.some_ne_none conn))
  | none =>
    rw [connectionsOf_write_none]
    exact List.append_ne_nil_of_right_ne_nil _ (List.cons_ne_nil _ _)

/-- **The connection after a callback** that has found all there were. -/
lemma connectionsOf_write (cb : OidcCallback) (hp : cb.providerId = providerId) (hu : user.id = u)
    (hconns : db.connectionsOf u providerId = existing.toList) :
    ∃ c, (cb.write user existing db).connectionsOf u providerId = [c] ∧
      c.refreshToken = cb.refreshToken := by
  cases existing with
  | some conn =>
    refine ⟨cb.renew conn conn, ?_, Tx.written_self _ _⟩
    rw [connectionsOf_write_some, hconns]
    simp
  | none =>
    subst hp hu
    refine ⟨cb.newConnection user, ?_, rfl⟩
    rw [connectionsOf_write_none, hconns]
    rfl

/-- **A commit** leaves one connection. -/
lemma Database.OneConnection.write (hdb : db.OneConnection email u providerId)
    (hp : cb.providerId = providerId) (hu : user.id = u)
    (hnone : existing = none → db.connectionsOf u providerId = [])
    (hsome : existing ≠ none → db.connectionsOf u providerId ≠ []) :
    (cb.write user existing db).OneConnection email u providerId where
  user := by
    obtain ⟨row, hrow, hid⟩ := hdb.user
    refine ⟨if row.id = user.id then cb.track user row else row, ?_, ?_⟩
    · rw [users_write, List.filter_map]
      have hfilter : db.users.filter ((fun x : User => decide (x.email = email)) ∘ fun row =>
          if row.id = user.id then cb.track user row else row) = [row] := by
        rw [← hrow]
        refine List.filter_congr fun x _ => ?_
        rw [Function.comp_apply]
        split <;> rfl
      rw [hfilter]
      rfl
    · rw [← hid]
      split <;> rfl
  length := by
    cases existing with
    | some conn =>
      rw [connectionsOf_write_some, List.length_map]
      exact hdb.length
    | none =>
      subst hp hu
      rw [connectionsOf_write_none, hnone rfl]
      exact le_rfl
  method _ _ _ _ := connectionsOf_write_self hp hu hsome

/-- **The query for the connection** never finds two, and finds one unless the row is locked. -/
lemma knows_lookUp {locked : Bool} (hdb : db.OneConnection email u providerId)
    (hp : cb.providerId = providerId) (hu : user.id = u)
    (hex : locked = true ∨ db.connectionsOf u providerId ≠ []) :
    (cb.lookUp user db).Knows u providerId locked db := by
  subst hp hu
  unfold OidcCallback.lookUp
  have hlen := hdb.length
  split
  next hnone =>
    exact ⟨rfl, fun _ => ⟨hex.resolve_right (not_not.2 hnone), hnone⟩, fun h => absurd rfl h⟩
  next conn hone =>
    refine ⟨rfl, nofun, fun _ => ?_⟩
    rw [hone]
    exact List.cons_ne_nil _ _
  next conns hnone hmany =>
    -- the list has at most one member
    rcases hl : db.connectionsOf user.id cb.providerId with _ | ⟨a, _ | ⟨b, l⟩⟩
    · exact absurd hl hnone
    · exact absurd hl (hmany a)
    · rw [hl] at hlen
      simp at hlen

/-- The query for the user finds theirs. -/
lemma knows_findUser {locked : Bool} (hdb : db.OneConnection email u providerId)
    (hemail : cb.email = email) : (cb.findUser db).Knows u providerId locked db := by
  unfold OidcCallback.findUser
  obtain ⟨user, hone, hu⟩ := hdb.user
  rw [hemail, hone]
  dsimp only
  split
  · have hmem : user ∈ db.users.filter (·.email = email) := by
      rw [hone]
      exact List.mem_singleton_self user
    exact ⟨hu, hdb.method user (List.mem_of_mem_filter hmem) hu⟩
  · trivial

/-- **A commit takes nothing from what another callback knows**: of two callbacks one has found a
connection, since who has found none has the lock. -/
lemma knows_write {locked locked' : Bool} {other : OidcPhase}
    (hlocks : ¬ (locked = true ∧ locked' = true))
    (hknows : (OidcPhase.stored user existing).Knows u providerId locked db)
    (hother : other.Knows u providerId locked' db) :
    other.Knows u providerId locked' (cb.write user existing db) := by
  obtain ⟨-, hnone, hsome⟩ := hknows
  have hkeep : db.connectionsOf u providerId ≠ [] →
      (cb.write user existing db).connectionsOf u providerId ≠ [] := connectionsOf_write_ne_nil
  have hfound : ∀ found : Option OidcConnection,
      (found = none → locked' = true ∧ db.connectionsOf u providerId = []) → found ≠ none := by
    rintro found hnot rfl
    obtain ⟨hlocked', hempty⟩ := hnot rfl
    cases existing with
    | none => exact hlocks ⟨(hnone rfl).1, hlocked'⟩
    | some conn => exact hsome (Option.some_ne_none conn) hempty
  cases other with
  | found user' => exact ⟨hother.1, fun h => hkeep (hother.2 h)⟩
  | lookedUp user' existing' | stored user' existing' =>
    have hne := hfound existing' hother.2.1
    exact ⟨hother.1, fun h => absurd h hne, fun h => hkeep (hother.2.2 h)⟩
  | tracked user' => exact hother
  | raising | raised => exact hother
  | called | committed | refused | failed => trivial

/-- **What callbacks of one user and provider know** is not disturbed by the others. -/
theorem outline_callbacks {ι : Type} [DecidableEq ι] {cbs : ι → OidcCallback}
    (hcbs : ∀ i, (cbs i).email = email ∧ (cbs i).providerId = providerId) :
    Tx.Outline (callbackProgs cbs) .failed (Database.OneConnection email u providerId)
      (fun _ locked db phase => OidcPhase.Knows u providerId locked db phase) where
  query := by
    intro i locked db phase k hdb hknows hprog
    obtain ⟨hemail, hp⟩ := hcbs i
    cases phase with
    | called =>
      cases hprog
      exact knows_findUser hdb hemail
    | found user =>
      simp only [OidcCallback.prog] at hprog
      split at hprog
      · cases hprog
      next hsame =>
        cases hprog
        refine knows_lookUp hdb hp hknows.1 (.inr (hknows.2 ?_))
        have hmethod : some (cbs i).method = user.lastSignedInMethod :=
          not_not.1 fun hne => hsame (.inr hne)
        rw [← hmethod, OidcCallback.method, hp]
    | tracked user =>
      cases hprog
      exact knows_lookUp hdb hp hknows.1 (.inl hknows.2)
    | lookedUp user existing =>
      cases hprog
      exact hknows
    | stored | raising | committed | refused | raised | failed => cases hprog
  lock := by
    intro i locked db phase k hdb hknows hprog
    cases phase with
    | found user =>
      simp only [OidcCallback.prog] at hprog
      split at hprog
      · cases hprog
        exact ⟨hknows.1, rfl⟩
      · cases hprog
    | called | tracked | lookedUp | stored | raising | committed | refused | raised | failed =>
      cases hprog
  commit := by
    intro i locked db phase write k hdb hknows hprog
    rcases prog_eq_commit hprog with ⟨user, existing, rfl, rfl, rfl⟩ | rfl
    · obtain ⟨hu, hnone, hsome⟩ := hknows
      exact ⟨hdb.write (hcbs i).2 hu (fun h => (hnone h).2) hsome, trivial⟩
    · exact hknows.elim
  free := by
    intro i j locked locked' db phase write k other hlocks hdb hknows hprog hother
    rcases prog_eq_commit hprog with ⟨user, existing, rfl, rfl, rfl⟩ | rfl
    · exact knows_write hlocks hknows hother
    · exact hknows.elim
  rollback := fun _ => trivial

/-- The query for the user. -/
lemma findUser_cases (cb : OidcCallback) (db : Database) :
    (∃ user, cb.findUser db = .found user) ∨ cb.findUser db = .refused := by
  unfold OidcCallback.findUser
  split
  next user _ =>
    split
    · exact .inl ⟨user, rfl⟩
    · exact .inr rfl
  · exact .inr rfl

section Alone

variable {ι : Type} [DecidableEq ι] {cbs : ι → OidcCallback} {i : ι}
  {s : Tx.State ι Database OidcPhase}

/-- The callback `i` of `cbs` takes `n` steps in a row. -/
abbrev stepsOf (cbs : ι → OidcCallback) (i : ι) (n : ℕ) (s : Tx.State ι Database OidcPhase) :
    Tx.State ι Database OidcPhase :=
  Run.final (Tx.Event.next (callbackProgs cbs) .failed) (List.replicate n (.step i)) s

lemma stepsOf_succ (n : ℕ) :
    stepsOf cbs i (n + 1) s =
      stepsOf cbs i n ((Tx.Event.step i).next (callbackProgs cbs) .failed s) := rfl

/-- A callback that writes its connection commits. -/
lemma steps_lookedUp (n : ℕ) (h : s.procs i = .lookedUp user existing) :
    (stepsOf cbs i (n + 2) s).store = (cbs i).write user existing s.store ∧
      (stepsOf cbs i (n + 2) s).procs i = .committed := by
  have hquery : callbackProgs cbs i (s.procs i) = .query fun _ => .stored user existing := by
    rw [h]
    rfl
  have hcommit : callbackProgs cbs i ((s.goto i (.stored user existing)).procs i) =
      .commit ((cbs i).write user existing) .committed := by
    rw [Tx.procs_goto_self]
    rfl
  rw [stepsOf_succ, Tx.next_query hquery]
  exact Tx.final_commit hcommit rfl n

/-- A callback that has looked for its connection goes on to its end. -/
lemma steps_lookUp (n : ℕ) (h : s.procs i = (cbs i).lookUp user s.store) :
    (stepsOf cbs i (n + 2) s).store = ((cbs i).aloneFrom user s.store).1 ∧
      (stepsOf cbs i (n + 2) s).procs i = ((cbs i).aloneFrom user s.store).2 := by
  unfold OidcCallback.lookUp at h
  unfold OidcCallback.aloneFrom
  rcases hl : s.store.connectionsOf user.id (cbs i).providerId with _ | ⟨conn, _ | ⟨conn', conns⟩⟩
  · rw [hl] at h
    exact steps_lookedUp n h
  · rw [hl] at h
    exact steps_lookedUp n h
  · rw [hl] at h
    have hcommit : callbackProgs cbs i (s.procs i) = .commit id .raised := by
      rw [h]
      rfl
    exact Tx.final_commit hcommit rfl (n + 1)

/-- **A callback with nobody else about** comes to its end in five steps. -/
theorem steps_alone (h : s.procs i = .called) (hfree : s.holder = none) :
    (stepsOf cbs i 5 s).store = ((cbs i).alone s.store).1 ∧
      (stepsOf cbs i 5 s).procs i = ((cbs i).alone s.store).2 := by
  have hquery : callbackProgs cbs i (s.procs i) = .query (cbs i).findUser := by
    rw [h]
    rfl
  rw [stepsOf_succ, Tx.next_query hquery]
  have hat : (s.goto i ((cbs i).findUser s.store)).procs i = (cbs i).findUser s.store :=
    Tx.procs_goto_self
  unfold OidcCallback.alone
  rcases findUser_cases (cbs i) s.store with ⟨user, hf⟩ | hf
  · rw [hf] at hat ⊢
    by_cases htrack : (cbs i).Tracks user
    · have hlock : callbackProgs cbs i ((s.goto i (.found user)).procs i) = .lock (.tracked user) := by
        rw [hat]
        exact if_pos htrack
      rw [stepsOf_succ, Tx.next_lock hlock hfree]
      set t : Tx.State ι Database OidcPhase :=
        { (s.goto i (.found user)).goto i (.tracked user) with holder := some i }
      have hquery' : callbackProgs cbs i (t.procs i) = .query ((cbs i).lookUp user) := by
        rw [show t.procs i = .tracked user from Tx.procs_goto_self]
        rfl
      rw [stepsOf_succ, Tx.next_query hquery']
      exact steps_lookUp 0 Tx.procs_goto_self
    · have hquery' : callbackProgs cbs i ((s.goto i (.found user)).procs i) =
          .query ((cbs i).lookUp user) := by
        rw [hat]
        exact if_neg htrack
      rw [stepsOf_succ, Tx.next_query hquery']
      exact steps_lookUp 1 Tx.procs_goto_self
  · rw [hf] at hat ⊢
    have hstop : callbackProgs cbs i ((s.goto i .refused).procs i) = .stop := by
      rw [hat]
      rfl
    have hfinal : stepsOf cbs i 4 (s.goto i .refused) = s.goto i .refused := Tx.final_stop hstop 4
    rw [hfinal]
    exact ⟨rfl, hat⟩

/-- **How a callback with nobody else about ends**, with one connection at most: it is refused, or
it writes the connection that it has found, or a new one. -/
lemma alone_cases (cb : OidcCallback) (hdb : db.OneConnection email u providerId)
    (hcb : cb.email = email ∧ cb.providerId = providerId) :
    ((¬ ∃ user ∈ db.users, user.email = email ∧ user.disabledAt = none) ∧
        cb.alone db = (db, .refused)) ∨
      ((∃ user ∈ db.users, user.email = email ∧ user.disabledAt = none) ∧
        ∃ user existing, user.id = u ∧ db.connectionsOf u providerId = existing.toList ∧
          cb.alone db = (cb.write user existing db, .committed)) := by
  obtain ⟨user, hone, hu⟩ := hdb.user
  have hmem : ∀ x, x ∈ db.users ∧ x.email = email ↔ x = user := fun x => by
    have hx : x ∈ db.users.filter (·.email = email) ↔ x = user := by rw [hone, List.mem_singleton]
    rwa [List.mem_filter, decide_eq_true_iff] at hx
  have henabled : (∃ x ∈ db.users, x.email = email ∧ x.disabledAt = none) ↔
      user.disabledAt = none := by
    constructor
    · rintro ⟨x, hx, hemail, hen⟩
      rwa [(hmem x).1 ⟨hx, hemail⟩] at hen
    · exact fun hen => ⟨user, ((hmem user).2 rfl).1, ((hmem user).2 rfl).2, hen⟩
  rw [henabled]
  have hlen := hdb.length
  have hfind : cb.findUser db = if user.disabledAt = none then .found user else .refused := by
    unfold OidcCallback.findUser
    rw [hcb.1, hone]
  unfold OidcCallback.alone
  rw [hfind]
  by_cases hen : user.disabledAt = none
  · refine .inr ⟨hen, user, ?_⟩
    rw [if_pos hen]
    dsimp only
    unfold OidcCallback.aloneFrom
    rw [hu, hcb.2]
    rcases hl : db.connectionsOf u providerId with _ | ⟨conn, _ | ⟨conn', conns⟩⟩
    · exact ⟨none, rfl, rfl, rfl⟩
    · exact ⟨some conn, rfl, rfl, rfl⟩
    · rw [hl] at hlen
      simp at hlen
  · refine .inl ⟨hen, ?_⟩
    rw [if_neg hen]

/-- **Callbacks can be served**: the user has one connection at most, no callback has failed in the
query for it, and one that is called with no other under way comes to its end. -/
structure CallbacksServed (cbs : ι → OidcCallback) (u : Uuid) (providerId : String)
    (s : Tx.State ι Database OidcPhase) : Prop where
  length : (s.store.connectionsOf u providerId).length ≤ 1
  raised : ∀ i, s.procs i ≠ .raising ∧ s.procs i ≠ .raised
  later : ∀ i, s.procs i = .called → s.holder = none →
    (stepsOf cbs i 5 s).procs i = .committed ∨ (stepsOf cbs i 5 s).procs i = .refused

/-- **Callbacks of one user and one provider**, any number of them and in any order of their
statements, never make a second connection and never stumble over one. -/
theorem run_oneConnection (hcbs : ∀ i, (cbs i).email = email ∧ (cbs i).providerId = providerId)
    (hdb : db.OneConnection email u providerId) (events : List (Tx.Event ι)) :
    Run.Always (Tx.Event.next (callbackProgs cbs) .failed) (CallbacksServed cbs u providerId) events
      ⟨db, fun _ => .called, none⟩ := by
  have hstart : Tx.State.Sound (Database.OneConnection email u providerId)
      (fun _ locked db phase => OidcPhase.Knows u providerId locked db phase)
      (⟨db, fun _ => .called, none⟩ : Tx.State ι Database OidcPhase) := ⟨hdb, fun _ => trivial⟩
  refine ((outline_callbacks hcbs).always hstart events).imp fun s hs => ⟨hs.store.length, ?_, ?_⟩
  · intro i
    have hknows := hs.procs i
    constructor <;>
    · intro he
      rw [he] at hknows
      exact hknows
  · intro i hcalled hfree
    rw [(steps_alone hcalled hfree).2]
    rcases alone_cases (cbs i) hs.store (hcbs i) with ⟨-, halone⟩ | ⟨-, user, existing, -, -, halone⟩
    · exact .inr (congrArg Prod.snd halone)
    · exact .inl (congrArg Prod.snd halone)

end Alone

end Callbacks

/-! Two callbacks for one user at once, the second one a second later. -/

def aliceCallback (second : Bool) : OidcCallback where
  providerId := "idp"
  email := "alice@example.com"
  token := ⟨none⟩
  now := if second then 2000000 else 1000000
  connectionId := if second then ⟨0xc0b, by decide⟩ else ⟨0xc0a, by decide⟩

lemma aliceCallback_of (i : Bool) :
    (aliceCallback i).email = "alice@example.com" ∧ (aliceCallback i).providerId = "idp" :=
  ⟨rfl, rfl⟩

lemma accounts_oneConnection :
    accounts.OneConnection "alice@example.com" alice "idp" where
  user := ⟨aliceUser, by decide, rfl⟩
  length := by decide
  method := by decide

theorem run_oneConnection_twoLogins :
    Run.Always (Tx.Event.next (callbackProgs aliceCallback) .failed)
      (CallbacksServed aliceCallback alice "idp")
      [.step false, .step true, .step false, .step true, .step false, .step false, .step false,
        .step true]
      ⟨accounts, fun _ => .called, none⟩ :=
  run_oneConnection aliceCallback_of accounts_oneConnection _

end WireGui
