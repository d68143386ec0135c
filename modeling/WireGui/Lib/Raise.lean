import Mathlib.Tactic.Basic

/-!
# Programs that raise

A program changes a state, and it returns a value or raises.  What it has changed before it raises
stays changed.  `Ends` says how a program ends, with one condition for either way; there is one rule
for each way to build a program.

The state `σ`, the exceptions `ε`, the steps `κ` and the values `α`, `β` are arbitrary types.
-/

namespace Raise

variable {ε ε' σ τ α β κ : Type}

/-- The state that a program leaves, however it ends. -/
def left (x : EStateM ε σ α) (s : σ) : σ :=
  match x.run s with
  | .ok _ s' | .error _ s' => s'

/-- A place where a program may be interrupted. -/
def point (fault : Option ε) : EStateM ε σ Unit :=
  match fault with
  | none => pure ()
  | some e => throw e

/-- Several of them, one after the other. -/
def points (raises : κ → Option ε) : List κ → EStateM ε σ Unit
  | [] => pure ()
  | k :: ks => do
    point (raises k)
    points raises ks

/-- A program on a part of the state; `embed` says what an exception of it is outside. -/
def zoom (part : τ → σ) (put : σ → τ → τ) (embed : ε → ε') (x : EStateM ε σ α) :
    EStateM ε' τ α := do
  let t ← get
  match x.run (part t) with
  | .ok a s =>
    set (put s t)
    return a
  | .error e s =>
    set (put s t)
    throw (embed e)

lemma not_forall_none {raises : κ → Option ε} {ks : List κ} {k : κ} {e : ε} (hk : k ∈ ks)
    (he : raises k = some e) : ¬ ∀ k ∈ ks, raises k = none := by
  intro h
  rw [h k hk] at he
  cases he

/-- How a program ends: with `Q` if it returns, with `R` if it raises. -/
def Ends (x : EStateM ε σ α) (s : σ) (Q : α → σ → Prop) (R : ε → σ → Prop) : Prop :=
  match x.run s with
  | .ok a s' => Q a s'
  | .error e s' => R e s'

section Rules

variable {x : EStateM ε σ α} {f : α → EStateM ε σ β} {handle : ε → EStateM ε σ α} {s : σ}
  {Q Q' : α → σ → Prop} {P : β → σ → Prop} {R R' : ε → σ → Prop}

lemma ends_of_ok {a : α} {s' : σ} (hx : x.run s = .ok a s') : Ends x s Q R ↔ Q a s' := by
  unfold Ends
  rw [hx]

lemma ends_of_error {e : ε} {s' : σ} (hx : x.run s = .error e s') : Ends x s Q R ↔ R e s' := by
  unfold Ends
  rw [hx]

lemma ends_congr {y : EStateM ε σ α} {s' : σ} (h : x.run s = y.run s') :
    Ends x s Q R ↔ Ends y s' Q R := by
  unfold Ends
  rw [h]

lemma Ends.pure {a : α} (h : Q a s) : Ends (pure a) s Q R := h

lemma Ends.throw {e : ε} (h : R e s) : Ends (throw e : EStateM ε σ α) s Q R := h

lemma Ends.modify {g : σ → σ} {Q : PUnit → σ → Prop} (h : Q ⟨⟩ (g s)) :
    Ends (modify g) s Q R := h

lemma Ends.set {s' : σ} {Q : PUnit → σ → Prop} (h : Q ⟨⟩ s') : Ends (set s') s Q R := h

lemma Ends.get {Q : σ → σ → Prop} (h : Q s s) : Ends get s Q R := h

/-- What follows starts where the program has ended. -/
lemma Ends.bind (h : Ends x s (fun a s' => Ends (f a) s' P R) R) : Ends (x >>= f) s P R := by
  cases hx : x.run s with
  | ok a s' =>
    have hrun : (x >>= f).run s = (f a).run s' := by rw [EStateM.run_bind, hx]
    exact (ends_congr hrun).2 ((ends_of_ok hx).1 h)
  | error e s' =>
    have hrun : (x >>= f).run s = .error e s' := by rw [EStateM.run_bind, hx]
    exact (ends_of_error hrun).2 ((ends_of_error hx).1 h)

lemma Ends.point {fault : Option ε} {Q : Unit → σ → Prop} (hraise : ∀ e, fault = some e → R e s)
    (h : fault = none → Q () s) : Ends (point fault) s Q R := by
  cases fault with
  | none => exact h rfl
  | some e => exact hraise e rfl

lemma Ends.zoom {part : τ → σ} {put : σ → τ → τ} {embed : ε → ε'} {t : τ} {Q : α → τ → Prop}
    {R : ε' → τ → Prop}
    (h : Ends x (part t) (fun a s => Q a (put s t)) fun e s => R (embed e) (put s t)) :
    Ends (zoom part put embed x) t Q R := by
  refine .bind (.get ?_)
  unfold Ends at h
  split
  next a s hx =>
    rw [hx] at h
    exact .bind (.set (.pure h))
  next e s hx =>
    rw [hx] at h
    exact .bind (.set (.throw h))

/-- The state is as before up to the step that raises. -/
lemma Ends.points {raises : κ → Option ε} {ks : List κ} {Q : Unit → σ → Prop}
    (hraise : ∀ k ∈ ks, ∀ e, raises k = some e → R e s)
    (h : (∀ k ∈ ks, raises k = none) → Q () s) : Ends (points raises ks) s Q R := by
  induction ks with
  | nil => exact h fun _ hk => by cases hk
  | cons k ks ih =>
    refine .bind (.point (hraise k List.mem_cons_self) fun hk => ?_)
    refine ih (fun k hk => hraise k (List.mem_cons_of_mem _ hk)) fun hks => ?_
    exact h (List.forall_mem_cons.2 ⟨hk, hks⟩)

lemma run_tryCatch : (MonadExcept.tryCatch x handle).run s =
    match x.run s with
    | .ok a s' => .ok a s'
    | .error e s' => (handle e).run s' := by
  show EStateM.tryCatch x handle s = match x s with | .ok a s' => _ | .error e s' => _
  unfold EStateM.tryCatch
  dsimp only
  cases x s with
  | ok a s' => rfl
  | error e s' => rfl

/-- What is caught goes on from the state that was left. -/
lemma Ends.tryCatch (h : Ends x s Q fun e s' => Ends (handle e) s' Q R) :
    Ends (tryCatch x handle) s Q R := by
  cases hx : x.run s with
  | ok a s' =>
    have hrun : (MonadExcept.tryCatch x handle).run s = .ok a s' := by rw [run_tryCatch, hx]
    exact (ends_of_ok hrun).2 ((ends_of_ok hx).1 h)
  | error e s' =>
    have hrun : (MonadExcept.tryCatch x handle).run s = (handle e).run s' := by
      rw [run_tryCatch, hx]
    exact (ends_congr hrun).2 ((ends_of_error hx).1 h)

lemma Ends.imp (h : Ends x s Q R) (hQ : ∀ a s', Q a s' → Q' a s') (hR : ∀ e s', R e s' → R' e s') :
    Ends x s Q' R' := by
  cases hx : x.run s with
  | ok a s' => exact (ends_of_ok hx).2 (hQ a s' ((ends_of_ok hx).1 h))
  | error e s' => exact (ends_of_error hx).2 (hR e s' ((ends_of_error hx).1 h))

/-- A program that cannot raise returns. -/
lemma Ends.returns (h : Ends x s Q R) (hno : ∀ e s', ¬ R e s') :
    ∃ a s', x.run s = .ok a s' ∧ Q a s' := by
  cases hx : x.run s with
  | ok a s' => exact ⟨a, s', rfl, (ends_of_ok hx).1 h⟩
  | error e s' => exact (hno e s' ((ends_of_error hx).1 h)).elim

/-- What holds both ways holds of the state that is left. -/
lemma Ends.left {P : σ → Prop} (h : Ends x s (fun _ => P) fun _ => P) : P (left x s) := by
  unfold Raise.left
  cases hx : x.run s with
  | ok a s' => exact (ends_of_ok hx).1 h
  | error e s' => exact (ends_of_error hx).1 h

end Rules

end Raise
