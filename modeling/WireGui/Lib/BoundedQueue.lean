import WireGui.Lib.List
import WireGui.Lib.Run
import Mathlib.Data.List.Induction

/-!
# A queue that holds the newest items

A push puts an item in front, and what then lies behind the first `cap` items is lost.  Items are
taken out by their key, or all at once.  `next` is the queue and `log` the same without a bound: the
queue is a beginning of the log (`prefix_log`), and `mem_final_iff` says which of the items of the
log it has.
-/

namespace Run

lemma final_concat {σ ε : Type} {next : ε → σ → σ} (es : List ε) (e : ε) (s : σ) :
    final next (es ++ [e]) s = next e (final next es s) := by
  induction es generalizing s with
  | nil => rfl
  | cons d es ih => exact ih (next d s)

end Run

namespace BoundedQueue

inductive Event (α κ : Type) where
  | push (a : α)
  | remove (k : κ)
  | clear

section Queue

variable {α κ : Type} [DecidableEq κ] (key : α → κ) (cap : ℕ)

def next : Event α κ → List α → List α
  | .push a, l => (a :: l).take cap
  | .remove k, l => l.eraseP (key · = k)
  | .clear, _ => []

/-- Without a bound. -/
def log : Event α κ → List α → List α
  | .push a, l => a :: l
  | .remove k, l => l.eraseP (key · = k)
  | .clear, _ => []

/-- The items that the events push. -/
def pushed (es : List (Event α κ)) : List α :=
  es.filterMap fun
    | .push a => some a
    | _ => none

variable {key cap} {es : List (Event α κ)} {e : Event α κ} {a x : α}

omit [DecidableEq κ] in
lemma pushed_concat_push : pushed (es ++ [(.push a : Event α κ)]) = pushed es ++ [a] := by
  simp [pushed]

omit [DecidableEq κ] in
lemma pushed_concat_of_ne (h : ∀ a, e ≠ .push a) : pushed (es ++ [e]) = pushed es := by
  cases e with
  | push a => exact absurd rfl (h a)
  | remove k => simp [pushed]
  | clear => simp [pushed]

/-- Nothing is in the log that was not pushed. -/
lemma mem_pushed_of_mem_log (h : x ∈ Run.final (log key) es []) : x ∈ pushed es := by
  induction es using List.reverseRecOn with
  | nil => exact absurd h List.not_mem_nil
  | append_singleton es e ih =>
    rw [Run.final_concat] at h
    cases e with
    | push a =>
      rw [pushed_concat_push]
      rcases List.mem_cons.1 h with rfl | h
      · exact List.mem_append_right _ List.mem_cons_self
      · exact List.mem_append_left _ (ih h)
    | remove k =>
      rw [pushed_concat_of_ne (by simp)]
      exact ih (List.mem_of_mem_eraseP h)
    | clear => exact absurd h List.not_mem_nil

/-- With distinct keys no key is in the log twice. -/
lemma nodup_log (h : ((pushed es).map key).Nodup) : ((Run.final (log key) es []).map key).Nodup := by
  induction es using List.reverseRecOn with
  | nil => exact List.nodup_nil
  | append_singleton es e ih =>
    rw [Run.final_concat]
    cases e with
    | push a =>
      rw [pushed_concat_push, List.map_append, List.nodup_append] at h
      refine List.nodup_cons.2 ⟨fun hm => ?_, ih h.1⟩
      obtain ⟨x, hx, hk⟩ := List.mem_map.1 hm
      exact h.2.2 _ (List.mem_map_of_mem (mem_pushed_of_mem_log hx)) _ List.mem_cons_self hk
    | remove k =>
      rw [pushed_concat_of_ne (by simp)] at h
      exact (ih h).sublist (List.eraseP_sublist.map key)
    | clear => exact List.nodup_nil

/-- An item that is left has another key. -/
lemma key_ne_of_mem_eraseP {k : κ} {l : List α} (hl : (l.map key).Nodup)
    (hx : x ∈ l.eraseP (key · = k)) : key x ≠ k := by
  induction l with
  | nil => exact absurd hx List.not_mem_nil
  | cons b l ih =>
    rw [List.map_cons, List.nodup_cons] at hl
    by_cases hb : key b = k
    · rw [List.eraseP_cons_of_pos (by simpa using hb)] at hx
      intro he
      exact hl.1 (List.mem_map.2 ⟨x, hx, he.trans hb.symm⟩)
    · rw [List.eraseP_cons_of_neg (by simpa using hb)] at hx
      rcases List.mem_cons.1 hx with rfl | hx
      · exact hb
      · exact ih hl.2 hx

omit [DecidableEq κ] in
lemma prefix_eraseP {p : α → Bool} {d u : List α} (h : d <+: u) : d.eraseP p <+: u.eraseP p := by
  obtain ⟨t, rfl⟩ := h
  rw [List.eraseP_append]
  split
  · exact List.prefix_append _ _
  next hno =>
    rw [List.eraseP_of_forall_not fun x hx hp => hno (List.any_eq_true.2 ⟨x, hx, hp⟩)]
    exact List.prefix_append _ _

/-- **The queue is a beginning of the log.** -/
theorem prefix_log (key : α → κ) (cap : ℕ) (es : List (Event α κ)) :
    Run.final (next key cap) es [] <+: Run.final (log key) es [] := by
  induction es using List.reverseRecOn with
  | nil => exact List.prefix_refl _
  | append_singleton es e ih =>
    rw [Run.final_concat, Run.final_concat]
    cases e with
    | push a => exact (List.take_prefix _ _).trans ((List.prefix_cons_inj a).2 ih)
    | remove k => exact prefix_eraseP ih
    | clear => exact List.prefix_refl _

lemma length_final_le (key : α → κ) (cap : ℕ) (es : List (Event α κ)) :
    (Run.final (next key cap) es []).length ≤ cap := by
  induction es using List.reverseRecOn with
  | nil => exact Nat.zero_le cap
  | append_singleton es e ih =>
    rw [Run.final_concat]
    cases e with
    | push a => exact List.length_take_le _ _
    | remove k => exact (List.length_eraseP_le).trans ih
    | clear => exact Nat.zero_le cap

variable [DecidableEq α]

omit [DecidableEq κ] in
/-- The items of a beginning are those that come early. -/
lemma mem_prefix_iff {d u : List α} (h : d <+: u) (hx : x ∈ u) (hn : u.Nodup) :
    x ∈ d ↔ u.idxOf x < d.length := by
  obtain ⟨t, rfl⟩ := h
  rw [List.idxOf_append]
  constructor
  · intro hd
    rw [if_pos hd]
    exact List.idxOf_lt_length_of_mem hd
  · intro hlt
    by_contra hd
    rw [if_neg hd] at hlt
    omega

omit [DecidableEq κ] in
/-- Taking an item out brings the others forward. -/
lemma idxOf_eraseP_le {p : α → Bool} {l : List α} (hx : x ∈ l.eraseP p) (hp : p x = false) :
    (l.eraseP p).idxOf x ≤ l.idxOf x := by
  induction l with
  | nil => exact le_refl _
  | cons b l ih =>
    by_cases hb : p b
    · rw [List.eraseP_cons_of_pos hb] at hx ⊢
      have hne : (b == x) = false := by
        rw [beq_eq_false_iff_ne]
        rintro rfl
        exact absurd hb (by simp [hp])
      rw [List.idxOf_cons, hne]
      exact Nat.le_succ _
    · rw [List.eraseP_cons_of_neg (by simpa using hb)] at hx ⊢
      rw [List.idxOf_cons, List.idxOf_cons]
      cases hbx : b == x with
      | true => exact le_refl _
      | false =>
        have hxl : x ∈ l.eraseP p := by
          rcases List.mem_cons.1 hx with rfl | hx
          · simp at hbx
          · exact hx
        exact Nat.succ_le_succ (ih hxl)

/-- **Which items the queue has**: of those in the log the ones that have had less than `cap` newer
ones before them at all times. -/
theorem mem_final_iff (hkeys : ((pushed es).map key).Nodup) (hx : x ∈ Run.final (log key) es []) :
    x ∈ Run.final (next key cap) es [] ↔
      ∀ es', es' <+: es → x ∈ Run.final (log key) es' [] →
        (Run.final (log key) es' []).idxOf x < cap := by
  induction es using List.reverseRecOn with
  | nil => exact absurd hx List.not_mem_nil
  | append_singleton es e ih =>
    -- the last moment counts by itself
    have hsplit : (∀ es', es' <+: es ++ [e] → x ∈ Run.final (log key) es' [] →
        (Run.final (log key) es' []).idxOf x < cap) ↔
          (∀ es', es' <+: es → x ∈ Run.final (log key) es' [] →
            (Run.final (log key) es' []).idxOf x < cap) ∧
          (Run.final (log key) (es ++ [e]) []).idxOf x < cap := by
      constructor
      · exact fun h => ⟨fun es' he => h es' (he.trans (List.prefix_append _ _)),
          h _ (List.prefix_refl _) hx⟩
      · rintro ⟨hold, hlast⟩ es' he hxe
        rcases List.prefix_concat_iff.1 he with rfl | he
        · exact hlast
        · exact hold es' he hxe
    rw [hsplit]
    have hnodup := (nodup_log hkeys).of_map
    have hpre := prefix_log key cap (es ++ [e])
    rw [mem_prefix_iff hpre hx hnodup]
    rw [Run.final_concat] at hx hnodup
    rw [Run.final_concat, Run.final_concat]
    have hlen := length_final_le key cap es
    cases e with
    | push a =>
      rw [pushed_concat_push, List.map_append, List.nodup_append] at hkeys
      have hpre := prefix_log key cap es
      show (a :: Run.final (log key) es []).idxOf x <
        ((a :: Run.final (next key cap) es []).take cap).length ↔ _
      rw [List.length_take, List.length_cons]
      by_cases hax : a = x
      · subst hax
        show (a :: _).idxOf a < _ ↔ _ ∧ (a :: _).idxOf a < _
        rw [List.idxOf_cons_self]
        have hno : ∀ es', es' <+: es → a ∉ Run.final (log key) es' [] := by
          intro es' he hm
          have hp : a ∈ pushed es := by
            obtain ⟨t, rfl⟩ := he
            unfold pushed
            rw [List.filterMap_append]
            exact List.mem_append_left _ (mem_pushed_of_mem_log hm)
          exact hkeys.2.2 _ (List.mem_map_of_mem hp) _ List.mem_cons_self rfl
        constructor
        · exact fun h => ⟨fun es' he hm => absurd hm (hno es' he), by omega⟩
        · rintro ⟨-, h⟩
          omega
      · have hxl : x ∈ Run.final (log key) es [] :=
          (List.mem_cons.1 hx).resolve_left fun h => hax h.symm
        have hidx : (a :: Run.final (log key) es []).idxOf x =
            (Run.final (log key) es []).idxOf x + 1 := by
          rw [List.idxOf_cons, beq_eq_false_iff_ne.2 hax]
          rfl
        rw [← ih hkeys.1 hxl, mem_prefix_iff hpre hxl (List.nodup_cons.1 hnodup).2]
        show (a :: _).idxOf x < _ ↔ _ ∧ (a :: _).idxOf x < _
        rw [hidx]
        omega
    | remove k =>
      rw [pushed_concat_of_ne (by simp)] at hkeys
      have hxl : x ∈ Run.final (log key) es [] := List.mem_of_mem_eraseP hx
      have hne : key x ≠ k := key_ne_of_mem_eraseP (nodup_log hkeys) hx
      have hpx : decide (key x = k) = false := decide_eq_false hne
      have hpre := prefix_eraseP (p := fun a => decide (key a = k))
        (prefix_log key cap es)
      show (List.eraseP _ _).idxOf x < (List.eraseP _ _).length ↔ _ ∧ (List.eraseP _ _).idxOf x < cap
      rw [← mem_prefix_iff hpre hx hnodup, List.mem_eraseP_of_neg (by simpa using hne),
        ih hkeys hxl]
      constructor
      · exact fun h => ⟨h, (idxOf_eraseP_le hx hpx).trans_lt (h es (List.prefix_refl _) hxl)⟩
      · exact And.left
    | clear => exact absurd hx List.not_mem_nil

end Queue

end BoundedQueue
