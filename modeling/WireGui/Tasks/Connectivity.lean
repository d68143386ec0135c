import WireGui.Lib.Run
import WireGui.Services.Interface
import WireGui.Services.Notifications

/-!
# `tasks/connectivity.py`

Every five minutes the loop checks the connection to the outside and then makes sure of the
interface.  Other programs on the host take addresses off the interface, put it down or delete it in
the meantime.  `run_converges`: one round without an error brings the interface back up with the
addresses of the server, and where it was not deleted its key, its port and its peers are what the
service has made them; a link that was deleted comes back without its private key.  The routes that
Linux drops meanwhile are none of the loop's business.
-/

namespace WireGui

open Raise (Ends)

structure ConnectivityCheck where
  url : String
  responseCode : Option ℕ
  responseHeaders : Option (List (String × String)) := none
  responseBody : String

structure Response where
  statusCode : ℕ
  headers : List (String × String)
  text : String

def defaultUrl : String := "https://1.1.1.1/cdn-cgi/trace"

/-- The first 500 characters. -/
def clip (s : String) : String := String.ofList (s.toList.take 500)

/-- What the loop works on. -/
structure Watch where
  link : Option Link
  checks : List ConnectivityCheck := []
  notifications : Notifications := []

/-- What happens in one round of the loop, as far as it does not depend on what is there: the
response or the error of the request, whether the row can be written, the commands that fail of
themselves, and the id and the time for a notification. -/
structure Round where
  response : Except String Response
  commits : Bool
  fails : LinkCmd → Bool
  id : Uuid
  now : ℕ

/-- `_check_connectivity`; an error of the database is logged by the loop. -/
def checkConnectivity (r : Round) (w : Watch) : Watch :=
  let (check, notifications) := match r.response with
    | .ok resp => (ConnectivityCheck.mk defaultUrl (some resp.statusCode) (some resp.headers)
        (clip resp.text), w.notifications)
    | .error e => (ConnectivityCheck.mk defaultUrl none none (clip e),
        w.notifications.add (.checkFailed e) r.id r.now)
  { w with
    checks := if r.commits then w.checks ++ [check] else w.checks
    notifications := notifications }

/-- One round of `connectivity_loop`; what `ensure_interface` raises is logged. -/
def connectivityRound (settings : Settings) (r : Round) (w : Watch) : Watch :=
  let w := checkConnectivity r w
  if settings.wgEnabled then
    { w with link := Raise.left (ensureInterface r.fails settings) w.link }
  else w

/-- What happens to the interface: a round of the loop, a command of the service, or something that
another program does. -/
inductive LinkEvent where
  | round (r : Round)
  | wg (cmd : Wg.Cmd String Ip.Net String)
  | route (change : Routes → Routes)
  | addresses (change : Finset String → Finset String)
  | down
  | delete

/-- The link with other addresses.  With the last IPv4 address the kernel flushes the IPv4 routes. -/
def Link.setAddresses (addresses : Finset String) (l : Link) : Link :=
  { l with
    addresses := addresses
    routes := l.routes.filter fun n => n.fam = .v6 ∨ ∃ a ∈ addresses, family a = .v4 }

section Runs

variable (settings : Settings)

/-- `wg` needs the link, `ip route` needs it up.  A link that goes down loses its routes and its IPv6
addresses. -/
def LinkEvent.next : LinkEvent → Watch → Watch
  | .round r, w => connectivityRound settings r w
  | .wg cmd, w =>
    { w with link := w.link.map fun l =>
      { l with tunnel := { l.tunnel with peers := cmd.apply l.tunnel.peers } } }
  | .route change, w =>
    { w with link := w.link.map fun l => if l.up then { l with routes := change l.routes } else l }
  | .addresses change, w =>
    { w with link := w.link.map fun l => l.setAddresses (change l.addresses) }
  | .down, w =>
    { w with link := w.link.map fun l =>
      { l with
        addresses := l.addresses.filter fun a => family a = .v4
        up := false
        routes := ∅ } }
  | .delete, w => { w with link := none }

/-- What the service alone makes of the tunnel. -/
def LinkEvent.serve : LinkEvent → Tunnel → Tunnel
  | .wg cmd, t => { t with peers := cmd.apply t.peers }
  | _, t => t

variable {settings} {w : Watch} {es : List LinkEvent} {addresses : List String}

lemma connectivityRound_link (hwg : settings.wgEnabled = true) (r : Round) (w : Watch) :
    (connectivityRound settings r w).link =
      Raise.left (ensureInterface r.fails settings) w.link := by
  have hlink : (checkConnectivity r w).link = w.link := rfl
  unfold connectivityRound
  simp only [if_pos hwg, hlink]

/-- Whatever fails, a round takes nothing from a link, and a link it makes is new. -/
lemma exists_link_of_round (hwg : settings.wgEnabled = true)
    (hs : settings.serverAddresses = some addresses) (r : Round) (w : Watch) :
    (connectivityRound settings r w).link = w.link ∨
      ∃ l, (connectivityRound settings r w).link = some l ∧ (w.link.getD .new).Extends l := by
  rw [connectivityRound_link hwg]
  have hends := ensureInterface_ends r.fails w.link hs
  have heither : Ends (ensureInterface r.fails settings) w.link
      (fun _ link => link = w.link ∨ ∃ l, link = some l ∧ (w.link.getD .new).Extends l)
      fun _ link => link = w.link ∨ ∃ l, link = some l ∧ (w.link.getD .new).Extends l := by
    refine hends.imp ?_ fun _ _ h => h.2
    rintro - link ⟨-, -, l, hl, hext, -⟩
    exact .inr ⟨l, hl, hext⟩
  exact heither.left

/-- **A round without an error** leaves the link up with all addresses. -/
lemma up_of_round (hwg : settings.wgEnabled = true)
    (hs : settings.serverAddresses = some addresses) {r : Round} (hr : ∀ cmd, r.fails cmd = false)
    (w : Watch) :
    ∃ l, (connectivityRound settings r w).link = some l ∧ (w.link.getD .new).Extends l ∧
      l.up = true ∧ ∀ a ∈ addresses, a ∈ l.addresses := by
  rw [connectivityRound_link hwg]
  have hends := ensureInterface_ends r.fails w.link hs
  have hup : Ends (ensureInterface r.fails settings) w.link
      (fun _ link => ∃ l, link = some l ∧ (w.link.getD .new).Extends l ∧ l.up = true ∧
        ∀ a ∈ addresses, a ∈ l.addresses)
      fun _ link => ∃ l, link = some l ∧ (w.link.getD .new).Extends l ∧ l.up = true ∧
        ∀ a ∈ addresses, a ∈ l.addresses := by
    refine hends.imp (fun _ _ h => h.2.2) ?_
    rintro e link ⟨⟨cmd, hcmd⟩, -⟩
    exact absurd ((hr cmd).symm.trans hcmd) Bool.false_ne_true
  exact hup.left

/-! ### Runs -/

/-- While nobody deletes it the link stays, and its tunnel is the service's. -/
lemma tunnel_of_not_deleted (hwg : settings.wgEnabled = true)
    (hs : settings.serverAddresses = some addresses) {l : Link} (hl : w.link = some l)
    (hno : ∀ e ∈ es, e ≠ .delete) :
    ∃ l', (Run.final (LinkEvent.next settings) es w).link = some l' ∧
      l'.tunnel = Run.final LinkEvent.serve es l.tunnel := by
  induction es generalizing w l with
  | nil => exact ⟨l, hl, rfl⟩
  | cons e es ih =>
    have hno := List.forall_mem_cons.1 hno
    -- one event
    obtain ⟨l₁, h₁, ht₁⟩ : ∃ l₁, (e.next settings w).link = some l₁ ∧
        l₁.tunnel = e.serve l.tunnel := by
      cases e with
      | round r =>
        rcases exists_link_of_round hwg hs r w with h | ⟨l₁, h₁, hext⟩
        · exact ⟨l, h.trans hl, rfl⟩
        · rw [hl] at hext
          exact ⟨l₁, h₁, hext.tunnel⟩
      | wg cmd => exact ⟨_, congrArg (Option.map _) hl, rfl⟩
      | route change =>
        refine ⟨_, congrArg (Option.map _) hl, ?_⟩
        show (if l.up = true then _ else l).tunnel = l.tunnel
        split <;> rfl
      | addresses change => exact ⟨_, congrArg (Option.map _) hl, rfl⟩
      | down => exact ⟨_, congrArg (Option.map _) hl, rfl⟩
      | delete => exact absurd rfl hno.1
    obtain ⟨l', hl', ht'⟩ := ih h₁ hno.2
    exact ⟨l', hl', by rw [ht', ht₁]; rfl⟩

/-- The link, if there is one, has no private key and does not listen. -/
def Keyless (w : Watch) : Prop :=
  ∀ l ∈ w.link, l.tunnel.privateKey = none ∧ l.tunnel.listenPort = none

/-- A link that was deleted gets its key from none of the events. -/
lemma keyless_next (hwg : settings.wgEnabled = true)
    (hs : settings.serverAddresses = some addresses) (e : LinkEvent) (h : Keyless w) :
    Keyless (e.next settings w) := by
  intro l hl
  rw [Option.mem_def] at hl
  cases e with
  | round r =>
    rcases exists_link_of_round hwg hs r w with he | ⟨l₁, h₁, hext⟩
    · exact h l (he ▸ hl)
    · obtain rfl := Option.some.inj (h₁.symm.trans hl)
      rw [hext.tunnel]
      cases hw : w.link with
      | none => exact ⟨rfl, rfl⟩
      | some l₀ => exact h l₀ hw
  | wg cmd =>
    obtain ⟨l₀, h₀, rfl⟩ := Option.map_eq_some_iff.1 hl
    exact h l₀ h₀
  | route change =>
    obtain ⟨l₀, h₀, rfl⟩ := Option.map_eq_some_iff.1 hl
    split <;> exact h l₀ h₀
  | addresses change =>
    obtain ⟨l₀, h₀, rfl⟩ := Option.map_eq_some_iff.1 hl
    exact h l₀ h₀
  | down =>
    obtain ⟨l₀, h₀, rfl⟩ := Option.map_eq_some_iff.1 hl
    exact h l₀ h₀
  | delete => cases hl

lemma keyless_of_deleted (hwg : settings.wgEnabled = true)
    (hs : settings.serverAddresses = some addresses) (hdel : LinkEvent.delete ∈ es) :
    Keyless (Run.final (LinkEvent.next settings) es w) := by
  induction es generalizing w with
  | nil => exact absurd hdel List.not_mem_nil
  | cons e es ih =>
    rcases List.mem_cons.1 hdel with rfl | hdel
    · have hgone : Keyless (LinkEvent.delete.next settings w) := fun l hl => by cases hl
      show Keyless (Run.final (LinkEvent.next settings) es (LinkEvent.delete.next settings w))
      exact Run.final_of_stable (fun e _ h => keyless_next hwg hs e h) hgone
    · exact ih hdel

/-- **The interface converges.**  After any events, and a round without an error at last, the link
is there, up, and has the addresses of the server.  If nobody has deleted it, its key, its port and
its peers are what the service has made them; if somebody has, it has neither key nor port. -/
theorem run_converges (es : List LinkEvent) (w : Watch) (hwg : settings.wgEnabled = true)
    (hs : settings.serverAddresses = some addresses) {l : Link} (hl : w.link = some l)
    {r : Round} (hr : ∀ cmd, r.fails cmd = false) :
    ∃ l', (Run.final (LinkEvent.next settings) (es ++ [.round r]) w).link = some l' ∧
      l'.up = true ∧ (∀ a ∈ addresses, a ∈ l'.addresses) ∧
      ((∀ e ∈ es, e ≠ .delete) → l'.tunnel = Run.final LinkEvent.serve es l.tunnel) ∧
      (LinkEvent.delete ∈ es → l'.tunnel.privateKey = none ∧ l'.tunnel.listenPort = none) := by
  rw [Run.final_concat]
  obtain ⟨l', hl', hext, hup', haddr⟩ := up_of_round hwg hs hr
    (Run.final (LinkEvent.next settings) es w)
  refine ⟨l', hl', hup', haddr, fun hno => ?_, fun hdel => ?_⟩
  · obtain ⟨l₁, h₁, ht⟩ := tunnel_of_not_deleted hwg hs hl hno
    rw [h₁] at hext
    rw [hext.tunnel]
    exact ht
  · exact keyless_next hwg hs (.round r) (keyless_of_deleted hwg hs hdel) l' hl'

end Runs

/-! A link that loses its addresses and goes down, and a link that is deleted. -/

def servingLink : Link where
  addresses := {"10.3.2.1/24", "fd00::3:2:1/120"}
  up := true
  routes := ∅
  tunnel := ⟨some "priv", some 51820, Wg.Interface.empty.set "pk1" [] none⟩

/-- A round in which nothing fails. -/
def quietRound : Round := ⟨.ok ⟨200, [], "ok"⟩, true, fun _ => false, ⟨0x703, by decide⟩, 300⟩

lemma serverAddresses_default :
    defaultSettings.serverAddresses = some ["10.3.2.1/24", "fd00::3:2:1/120"] := by decide

theorem run_converges_stripped :
    (∃ l', (Run.final (LinkEvent.next defaultSettings)
        ([.addresses fun _ => ∅, .down] ++ [.round quietRound]) ⟨some servingLink, [], []⟩).link =
          some l' ∧ l'.up = true ∧ "10.3.2.1/24" ∈ l'.addresses ∧
        l'.tunnel.privateKey = some "priv") ∧
      ∃ l', (Run.final (LinkEvent.next defaultSettings) ([.delete] ++ [.round quietRound])
        ⟨some servingLink, [], []⟩).link = some l' ∧ l'.up = true ∧
          l'.tunnel.privateKey = none := by
  have hquiet : ∀ cmd, quietRound.fails cmd = false := fun _ => rfl
  constructor
  · obtain ⟨l', hl', hup, haddr, htunnel, -⟩ := run_converges [.addresses fun _ => ∅, .down]
      ⟨some servingLink, [], []⟩ rfl serverAddresses_default rfl hquiet
    refine ⟨l', hl', hup, haddr _ List.mem_cons_self, ?_⟩
    rw [htunnel (by simp)]
    rfl
  · obtain ⟨l', hl', hup, -, -, hdeleted⟩ := run_converges [.delete]
      ⟨some servingLink, [], []⟩ rfl serverAddresses_default rfl hquiet
    exact ⟨l', hl', hup, (hdeleted List.mem_cons_self).1⟩

end WireGui
