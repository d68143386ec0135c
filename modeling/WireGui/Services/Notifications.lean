import WireGui.Lib.BoundedQueue
import WireGui.Models

/-!
# `services/notifications.py`

Notifications are kept in memory, the newest first and no more than a hundred of them.  They come
from the background tasks; administrators clear one or all.  `run_current_iff` says which of them
are still shown.
-/

namespace WireGui

/-- A notification with the id and the time that it was given when it was added. -/
structure QueuedNotification where
  id : Uuid
  severity : String
  message : String
  user : Option String
  timestamp : ℕ
  deriving DecidableEq

/-- What the background tasks have to report. -/
inductive Notice where
  | sessionExpired (email : String)
  | refreshFailed (email provider : String)
  | checkFailed (error : String)

def Notice.severity : Notice → String
  | .sessionExpired _ | .checkFailed _ => "warning"
  | .refreshFailed .. => "error"

def Notice.message : Notice → String
  | .sessionExpired email => s!"VPN session expired for {email}"
  | .refreshFailed email provider =>
    s!"OIDC refresh failed for {email} ({provider}). VPN access may be affected."
  | .checkFailed error => s!"WAN connectivity check failed: {error}"

def Notice.user : Notice → Option String
  | .sessionExpired email | .refreshFailed email _ => some email
  | .checkFailed _ => none

def maxNotifications : ℕ := 100

/-- The deque; at its length limit an item that is put in front pushes the last one out. -/
abbrev Notifications := List QueuedNotification

namespace Notifications

/-- `add`, with the id and the time that it draws. -/
def add (notice : Notice) (id : Uuid) (now : ℕ) (ns : Notifications) : Notifications :=
  (⟨id, notice.severity, notice.message, notice.user, now⟩ :: ns).take maxNotifications

def current (ns : Notifications) : List QueuedNotification := ns

/-- `clear`: the first with the id. -/
def clear (id : Uuid) : Notifications → Notifications
  | [] => []
  | n :: ns => if n.id = id then ns else n :: clear id ns

def clearAll (_ns : Notifications) : Notifications := []

def count (ns : Notifications) : ℕ := ns.length

end Notifications

inductive NoticeEvent where
  | add (notice : Notice) (id : Uuid) (now : ℕ)
  | clear (id : Uuid)
  | clearAll

def NoticeEvent.next : NoticeEvent → Notifications → Notifications
  | .add notice id now => .add notice id now
  | .clear id => .clear id
  | .clearAll => .clearAll

/-- The notifications that nobody has cleared, however many there are. -/
def NoticeEvent.pending :
    NoticeEvent → List QueuedNotification → List QueuedNotification
  | .add notice id now, ns => ⟨id, notice.severity, notice.message, notice.user, now⟩ :: ns
  | .clear id, ns => Notifications.clear id ns
  | .clearAll, _ => []

/-- The ids that are drawn. -/
def drawn (es : List NoticeEvent) : List Uuid :=
  es.filterMap fun
    | .add _ id _ => some id
    | _ => none

section Runs

open BoundedQueue (Event)

/-- The queue of the service is one of the library. -/
def NoticeEvent.toQueue : NoticeEvent → Event QueuedNotification Uuid
  | .add notice id now => .push ⟨id, notice.severity, notice.message, notice.user, now⟩
  | .clear id => .remove id
  | .clearAll => .clear

lemma clear_eq_eraseP (id : Uuid) (ns : Notifications) :
    Notifications.clear id ns = ns.eraseP (·.id = id) := by
  induction ns with
  | nil => rfl
  | cons n ns ih =>
    rw [Notifications.clear, ih]
    by_cases hn : n.id = id
    · rw [if_pos hn, List.eraseP_cons_of_pos (by simpa using hn)]
    · rw [if_neg hn, List.eraseP_cons_of_neg (by simpa using hn)]

lemma next_toQueue (e : NoticeEvent) :
    BoundedQueue.next QueuedNotification.id maxNotifications e.toQueue = e.next := by
  cases e with
  | add notice id now => rfl
  | clear id => exact funext fun ns => (clear_eq_eraseP id ns).symm
  | clearAll => rfl

lemma log_toQueue (e : NoticeEvent) :
    BoundedQueue.log QueuedNotification.id e.toQueue = e.pending := by
  cases e with
  | add notice id now => rfl
  | clear id => exact funext fun ns => (clear_eq_eraseP id ns).symm
  | clearAll => rfl

lemma final_toQueue (es : List NoticeEvent) (ns : Notifications) :
    Run.final (BoundedQueue.next QueuedNotification.id maxNotifications)
        (es.map NoticeEvent.toQueue) ns =
      Run.final NoticeEvent.next es ns := by
  induction es generalizing ns with
  | nil => rfl
  | cons e es ih =>
    rw [List.map_cons, Run.final, Run.final, ih, next_toQueue]

lemma final_log_toQueue (es : List NoticeEvent) (ns : List QueuedNotification) :
    Run.final (BoundedQueue.log QueuedNotification.id) (es.map NoticeEvent.toQueue) ns =
      Run.final NoticeEvent.pending es ns := by
  induction es generalizing ns with
  | nil => rfl
  | cons e es ih =>
    rw [List.map_cons, Run.final, Run.final, ih, log_toQueue]

lemma pushed_toQueue (es : List NoticeEvent) :
    (BoundedQueue.pushed (es.map NoticeEvent.toQueue)).map QueuedNotification.id = drawn es := by
  induction es with
  | nil => rfl
  | cons e es ih =>
    unfold BoundedQueue.pushed drawn at ih ⊢
    rw [List.map_cons]
    cases e with
    | add notice id now =>
      rw [List.filterMap_cons_some (by rfl), List.filterMap_cons_some (by rfl), List.map_cons, ih]
    | clear id => rw [List.filterMap_cons_none (by rfl), List.filterMap_cons_none (by rfl), ih]
    | clearAll => rw [List.filterMap_cons_none (by rfl), List.filterMap_cons_none (by rfl), ih]

/-- **What is shown** after any run in which the ids are distinct: the newest pending notifications
in their order, a hundred at most; and of the pending ones just those that at no time had a hundred
newer pending ones. -/
theorem run_current_iff {es : List NoticeEvent} (hids : (drawn es).Nodup) :
    (Run.final NoticeEvent.next es []).current <+: Run.final NoticeEvent.pending es [] ∧
      (Run.final NoticeEvent.next es []).count ≤ maxNotifications ∧
      ∀ n ∈ Run.final NoticeEvent.pending es [],
        n ∈ (Run.final NoticeEvent.next es []).current ↔
          ∀ es', es' <+: es → n ∈ Run.final NoticeEvent.pending es' [] →
            (Run.final NoticeEvent.pending es' []).idxOf n < maxNotifications := by
  have hpre := BoundedQueue.prefix_log QueuedNotification.id maxNotifications
    (es.map NoticeEvent.toQueue)
  have hlen := BoundedQueue.length_final_le QueuedNotification.id maxNotifications
    (es.map NoticeEvent.toQueue)
  rw [final_toQueue] at hlen hpre
  rw [final_log_toQueue] at hpre
  refine ⟨hpre, hlen, fun n hn => ?_⟩
  rw [← final_log_toQueue] at hn
  have hiff : n ∈ Run.final (BoundedQueue.next QueuedNotification.id maxNotifications)
      (es.map NoticeEvent.toQueue) [] ↔ _ :=
    BoundedQueue.mem_final_iff ((pushed_toQueue es).symm ▸ hids) hn
  rw [final_toQueue] at hiff
  rw [Notifications.current, hiff]
  constructor
  · intro h es' he hm
    have hbegin : es'.map NoticeEvent.toQueue <+: es.map NoticeEvent.toQueue := he.map _
    have hlt := h _ hbegin
    rw [final_log_toQueue] at hlt
    exact hlt hm
  · intro h es' he
    -- a beginning of the events is the image of one
    obtain ⟨l, hl, rfl⟩ := List.prefix_map_iff.1 he
    rw [final_log_toQueue]
    exact h l hl

end Runs

/-! A check that fails, a session that expires, and the first of the two cleared. -/

def noticeRun : List NoticeEvent :=
  [.add (.checkFailed "timed out") ⟨0x701, by decide⟩ 60,
    .add (.sessionExpired "alice@example.com") ⟨0x702, by decide⟩ 90, .clear ⟨0x701, by decide⟩]

theorem run_current_iff_cleared :
    (Run.final NoticeEvent.next noticeRun []).current.map QueuedNotification.message =
        ["VPN session expired for alice@example.com"] ∧
      ∀ n ∈ Run.final NoticeEvent.pending noticeRun [],
        n ∈ (Run.final NoticeEvent.next noticeRun []).current := by
  refine ⟨by decide, fun n hn => ?_⟩
  have hids : (drawn noticeRun).Nodup := by decide
  have hiff := (run_current_iff hids).2.2 n hn
  refine hiff.2 fun es' he hm => (List.idxOf_lt_length_of_mem hm).trans ?_
  have hlen : ∀ l ∈ noticeRun.inits, (Run.final NoticeEvent.pending l []).length < 100 := by decide
  exact hlen es' ((List.mem_inits es' noticeRun).2 he)

end WireGui
