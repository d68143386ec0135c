import Mathlib.Order.Notation
import Mathlib.Tactic.Basic

/-!
# Runs

A run is a list of events, each of which takes one state to the next.  `always_iff` reduces a
property of all states of a run to a condition on its single steps.
-/

namespace Run

variable {σ ε : Type} (next : ε → σ → σ)

/-- `P` holds in every state of the run, the first and the last one included. -/
def Always (P : σ → Prop) : List ε → σ → Prop
  | [], s => P s
  | e :: es, s => P s ∧ Always P es (next e s)

/-- The last state of the run. -/
def final : List ε → σ → σ
  | [], s => s
  | e :: es, s => final es (next e s)

/-- Every event of the run meets `C` in the state it happens in. -/
def Throughout (C : ε → σ → Prop) : List ε → σ → Prop
  | [], _ => True
  | e :: es, s => C e s ∧ Throughout C es (next e s)

instance Always.decidable (P : σ → Prop) [DecidablePred P] :
    ∀ (es : List ε) (s : σ), Decidable (Always next P es s)
  | [], s => inferInstanceAs (Decidable (P s))
  | e :: es, s =>
    have := Always.decidable P es (next e s)
    inferInstanceAs (Decidable (P s ∧ Always next P es (next e s)))

instance Throughout.decidable (C : ε → σ → Prop) [∀ e s, Decidable (C e s)] :
    ∀ (es : List ε) (s : σ), Decidable (Throughout next C es s)
  | [], _ => inferInstanceAs (Decidable True)
  | e :: es, s =>
    have := Throughout.decidable C es (next e s)
    inferInstanceAs (Decidable (C e s ∧ Throughout next C es (next e s)))

/-- The events of the run, each with the state it happens in. -/
def steps : List ε → σ → List (ε × σ)
  | [], _ => []
  | e :: es, s => (e, s) :: steps es (next e s)

variable {next} {P I : σ → Prop} {A C : ε → σ → Prop}

lemma Always.head {es : List ε} {s : σ} (h : Always next P es s) : P s := by
  cases es with
  | nil => exact h
  | cons e es => exact h.1

lemma Always.final {es : List ε} {s : σ} (h : Always next P es s) : P (final next es s) := by
  induction es generalizing s with
  | nil => exact h
  | cons e es ih => exact ih h.2

/-- What holds in every state holds before every event. -/
lemma Always.throughout {es : List ε} {s : σ} (h : Always next P es s) :
    Throughout next (fun _ => P) es s := by
  induction es generalizing s with
  | nil => trivial
  | cons e es ih => exact ⟨h.1, ih h.2⟩

lemma Always.imp {Q : σ → Prop} (hPQ : ∀ s, P s → Q s) {es : List ε} {s : σ}
    (h : Always next P es s) : Always next Q es s := by
  induction es generalizing s with
  | nil => exact hPQ s h
  | cons e es ih => exact ⟨hPQ s h.1, ih h.2⟩

lemma Always.and {Q : σ → Prop} {es : List ε} {s : σ} (hP : Always next P es s)
    (hQ : Always next Q es s) : Always next (fun s => P s ∧ Q s) es s := by
  induction es generalizing s with
  | nil => exact ⟨hP, hQ⟩
  | cons e es ih => exact ⟨⟨hP.1, hQ.1⟩, ih hP.2 hQ.2⟩

/-- **An invariant** that every event allowed by `A` keeps holds in all states. -/
theorem always_of_step (hstep : ∀ e s, P s → A e s → P (next e s)) {es : List ε} {s : σ} (hp : P s)
    (ha : Throughout next A es s) : Always next P es s := by
  induction es generalizing s with
  | nil => exact hp
  | cons e es ih => exact ⟨hp, ih (hstep e s hp ha.1) ha.2⟩

/-- What holds in every state holds after every event. -/
lemma Always.throughout_next {es : List ε} {s : σ} (h : Always next P es s) :
    Throughout next (fun e s => P (next e s)) es s := by
  induction es generalizing s with
  | nil => trivial
  | cons e es ih => exact ⟨h.2.head, ih h.2⟩

lemma throughout_of_mem {es : List ε} (h : ∀ e ∈ es, ∀ s, C e s) {s : σ} :
    Throughout next C es s := by
  induction es generalizing s with
  | nil => trivial
  | cons e es ih =>
    exact ⟨h e List.mem_cons_self s, ih fun e he => h e (List.mem_cons_of_mem _ he)⟩

lemma throughout_of_forall (h : ∀ e s, C e s) {es : List ε} {s : σ} : Throughout next C es s :=
  throughout_of_mem fun e _ => h e

lemma Throughout.imp (hAC : ∀ e s, A e s → C e s) {es : List ε} {s : σ}
    (h : Throughout next A es s) : Throughout next C es s := by
  induction es generalizing s with
  | nil => trivial
  | cons e es ih => exact ⟨hAC e s h.1, ih h.2⟩

lemma Throughout.and {es : List ε} {s : σ} (hA : Throughout next A es s)
    (hC : Throughout next C es s) : Throughout next (fun e s => A e s ∧ C e s) es s := by
  induction es generalizing s with
  | nil => trivial
  | cons e es ih => exact ⟨⟨hA.1, hC.1⟩, ih hA.2 hC.2⟩

/-- A property that no event takes away is there at the end. -/
lemma final_of_stable (hs : ∀ e s, P s → P (next e s)) {es : List ε} {s : σ} (h : P s) :
    P (final next es s) := by
  induction es generalizing s with
  | nil => exact h
  | cons e es ih => exact ih (hs e s h)

lemma throughout_append {es es' : List ε} {s : σ} :
    Throughout next C (es ++ es') s ↔
      Throughout next C es s ∧ Throughout next C es' (final next es s) := by
  induction es generalizing s with
  | nil => exact (true_and _).symm.to_iff
  | cons e es ih =>
    rw [List.cons_append, Throughout, Throughout, final, ih, and_assoc]

/-- **An invariant with the past**: what holds with the steps so far, whatever step is added to them,
holds at the end with all of them. -/
theorem final_of_past {J : List (ε × σ) → σ → Prop}
    (hstep : ∀ past e s, J past s → A e s → J (past ++ [(e, s)]) (next e s)) {es : List ε} {s : σ}
    {past : List (ε × σ)} (h : J past s) (ha : Throughout next A es s) :
    J (past ++ steps next es s) (final next es s) := by
  induction es generalizing s past with
  | nil =>
    rw [steps, List.append_nil]
    exact h
  | cons e es ih =>
    have hrest := ih (hstep past e s h ha.1) ha.2
    rwa [List.append_assoc] at hrest

/-- **Simulation**: where every step that `A` allows keeps the invariant and is a step of the
abstract machine, the abstract run ends where the run does. -/
theorem final_of_simulation {τ : Type} {next' : ε → τ → τ} {abs : σ → τ}
    (hI : ∀ e s, I s → A e s → I (next e s))
    (hstep : ∀ e s, I s → A e s → abs (next e s) = next' e (abs s)) {es : List ε} {s : σ}
    (hi : I s) (ha : Throughout next A es s) :
    I (final next es s) ∧ abs (final next es s) = final next' es (abs s) := by
  induction es generalizing s with
  | nil => exact ⟨hi, rfl⟩
  | cons e es ih =>
    have hrest := ih (hI e s hi ha.1) ha.2
    rw [hstep e s hi ha.1] at hrest
    exact hrest

/-- **What is left out of a run**: where the relation is kept by the events that stay, on both sides,
and on one side by those that are left out, it relates the ends of both runs. -/
theorem final_filter {τ : Type} {next' : ε → τ → τ} {R : σ → τ → Prop} {p : ε → Bool}
    (hkept : ∀ e s t, p e = true → R s t → R (next e s) (next' e t))
    (hleft : ∀ e s t, p e = false → R s t → R (next e s) t) {es : List ε} {s : σ} {t : τ}
    (h : R s t) : R (final next es s) (final next' (es.filter p) t) := by
  induction es generalizing s t with
  | nil => exact h
  | cons e es ih =>
    cases hk : p e with
    | true =>
      rw [List.filter_cons_of_pos hk]
      exact ih (hkept e s t hk h)
    | false =>
      rw [List.filter_cons_of_neg (by simp [hk])]
      exact ih (hleft e s t hk h)

/-- **A property of all states, step by step.**  Where `C` says exactly when a step keeps `P`, given
the invariant `I` and the assumption `A` on the steps, `P` holds throughout if and only
if `C` does. -/
theorem always_iff (hI : ∀ e s, I s → I (next e s))
    (hstep : ∀ e s, I s → A e s → P s → (P (next e s) ↔ C e s)) {es : List ε} {s : σ} (hi : I s)
    (hp : P s) (ha : Throughout next A es s) : Always next P es s ↔ Throughout next C es s := by
  induction es generalizing s with
  | nil => exact iff_of_true hp trivial
  | cons e es ih =>
    have hiff := hstep e s hi ha.1 hp
    constructor
    · rintro ⟨-, h⟩
      exact ⟨hiff.1 h.head, (ih (hI e s hi) h.head ha.2).1 h⟩
    · rintro ⟨hc, h⟩
      exact ⟨hp, (ih (hI e s hi) (hiff.2 hc) ha.2).2 h⟩

end Run
