import WireGui.Nft.Table
import WireGui.Ip.Address

/-!
# What a table does with a packet

`evalRules` goes through the rules of a chain, `evalChain` through the chains they jump to, no
deeper than the kernel's stack, and `hookDecision` through the base chains of a hook.  `none` means
that the end of a chain was reached: no rule decided.

The rules are given as a function from chain names, so that the same evaluation serves a table and
any abstract description of one.
-/

namespace Nft

inductive Decision where
  | accept | drop
  deriving DecidableEq, Repr

def Policy.decision : Policy → Decision
  | .accept => .accept
  | .drop => .drop

/-- The decision a verdict is, if it is one. -/
def Verdict.decision {κ : Type} : Verdict κ → Option Decision
  | .accept => some .accept
  | .drop => some .drop
  | _ => none

section Eval

variable {κ μ π : Type} (sat : μ → π → Bool)

/-- All matches of the rule accept the packet. -/
def Rule.Hits (r : Rule κ μ) (p : π) : Prop := ∀ m ∈ r.guard, sat m p = true

instance (r : Rule κ μ) (p : π) : Decidable (r.Hits sat p) := by
  unfold Rule.Hits; infer_instance

/-- The rules of a chain in turn; `call` is what a chain decides that is jumped to. -/
def evalRules (call : κ → Option Decision) (p : π) : List (Rule κ μ) → Option Decision
  | [] => none
  | r :: rs =>
    if r.Hits sat p then
      match r.verdict with
      | .accept | .masquerade => some .accept
      | .drop => some .drop
      | .ret => none
      | .next => evalRules call p rs
      | .goto c => call c
      | .jump c => (call c).or (evalRules call p rs)
    else evalRules call p rs

/-- A chain, with `n` levels of the jump stack left. -/
def evalChain (rules : κ → List (Rule κ μ)) (p : π) : ℕ → κ → Option Decision
  | 0, _ => none
  | n + 1, c => evalRules sat (evalChain rules p n) p (rules c)

variable {sat} {call : κ → Option Decision} {p : π}

lemma evalRules_eq_none {rs : List (Rule κ μ)} (h : ∀ r ∈ rs, ¬ r.Hits sat p) :
    evalRules sat call p rs = none := by
  induction rs with
  | nil => rfl
  | cons r rs ih =>
    rw [evalRules, if_neg (h r List.mem_cons_self)]
    exact ih fun s hs => h s (List.mem_cons_of_mem _ hs)

/-- Rules that do not fire can be taken out. -/
lemma evalRules_cons_of_not_hits {r : Rule κ μ} (h : ¬ r.Hits sat p) (rs : List (Rule κ μ)) :
    evalRules sat call p (r :: rs) = evalRules sat call p rs := by
  rw [evalRules, if_neg h]

/-- A chain whose rules that fire lead nowhere decides nothing. -/
lemma evalRules_eq_none_of_jumps {rs : List (Rule κ μ)}
    (h : ∀ r ∈ rs, r.Hits sat p → ∃ c, r.verdict = .jump c ∧ call c = none) :
    evalRules sat call p rs = none := by
  induction rs with
  | nil => rfl
  | cons r rs ih =>
    have ih := ih fun s hs => h s (List.mem_cons_of_mem _ hs)
    rw [evalRules]
    by_cases hr : r.Hits sat p
    · obtain ⟨c, hv, hc⟩ := h r List.mem_cons_self hr
      rw [if_pos hr, hv]
      show (call c).or _ = none
      rw [hc, ih]
      rfl
    · rw [if_neg hr, ih]

/-- Only the chains that are jumped to matter. -/
lemma evalRules_congr {call' : κ → Option Decision} {rs : List (Rule κ μ)}
    (h : ∀ r ∈ rs, r.Hits sat p → ∀ c ∈ r.verdict.target, call c = call' c) :
    evalRules sat call p rs = evalRules sat call' p rs := by
  induction rs with
  | nil => rfl
  | cons r rs ih =>
    have ih := ih fun s hs => h s (List.mem_cons_of_mem _ hs)
    rw [evalRules, evalRules, ih]
    by_cases hr : r.Hits sat p
    · rw [if_pos hr, if_pos hr]
      have hc := h r List.mem_cons_self hr
      cases hv : r.verdict <;> simp_all [Verdict.target]
    · rw [if_neg hr, if_neg hr]

/-- Where the rules that fire all jump to one chain, that chain decides. -/
lemma evalRules_of_jumps {rs : List (Rule κ μ)} {c : κ}
    (h : ∀ r ∈ rs, r.Hits sat p → r.verdict = .jump c) :
    evalRules sat call p rs = if ∃ r ∈ rs, r.Hits sat p then call c else none := by
  induction rs with
  | nil => simp [evalRules]
  | cons r rs ih =>
    have ih := ih fun s hs => h s (List.mem_cons_of_mem _ hs)
    by_cases hr : r.Hits sat p
    · have hv := h r List.mem_cons_self hr
      rw [if_pos ⟨r, List.mem_cons_self, hr⟩, evalRules, if_pos hr, hv, ih]
      -- a second jump to the chain comes to the same
      show (call c).or _ = call c
      cases call c with
      | none => split <;> rfl
      | some d => rfl
    · rw [evalRules_cons_of_not_hits hr, ih]
      simp [hr]

/-- **Jumps to one chain**: neither their order matters nor how often they are there. -/
theorem evalRules_congr_of_mem_iff {rs rs' : List (Rule κ μ)} (hmem : ∀ r, r ∈ rs ↔ r ∈ rs') {c : κ}
    (h : ∀ r ∈ rs, r.Hits sat p → r.verdict = .jump c) :
    evalRules sat call p rs = evalRules sat call p rs' := by
  have hfires : (∃ r ∈ rs, r.Hits sat p) ↔ ∃ r ∈ rs', r.Hits sat p := by
    simp only [hmem]
  rw [evalRules_of_jumps h, evalRules_of_jumps fun r hr => h r ((hmem r).2 hr),
    if_congr hfires rfl rfl]

/-- Chains whose rules decide alike, whatever the chains they jump to decide. -/
lemma evalChain_congr_rules {rules rules' : κ → List (Rule κ μ)}
    (h : ∀ c call, evalRules sat call p (rules c) = evalRules sat call p (rules' c)) (n : ℕ)
    (c : κ) : evalChain sat rules p n c = evalChain sat rules' p n c := by
  induction n generalizing c with
  | zero => rfl
  | succ n ih => rw [evalChain, evalChain, funext ih, h]

end Eval

section Hooks

variable {κ μ π : Type} [DecidableEq κ] (sat : μ → π → Bool)

/-- Some base chain of the hook drops the packet.  An accepting base chain does not keep the next
one from dropping, so their order does not matter. -/
def Chains.DropsAt (t : Chains κ μ) (h : Hook) (p : π) : Prop :=
  ∃ c ∈ t.keys, ∃ ch ∈ t.lookup c, ∃ b ∈ ch.base, b.hook = h ∧
    (evalChain sat t.rules p stackSize c).getD b.policy.decision = .drop

instance (t : Chains κ μ) (h : Hook) (p : π) : Decidable (t.DropsAt sat h p) := by
  unfold Chains.DropsAt; infer_instance

def Chains.hookDecision (t : Chains κ μ) (h : Hook) (p : π) : Decision :=
  if t.DropsAt sat h p then .drop else .accept

/-- With a single base chain on the hook, that chain and its policy decide. -/
theorem hookDecision_eq {t : Chains κ μ} {h : Hook} {c : κ} {ch : Chain κ μ} {b : Base}
    (hc : t.lookup c = some ch) (hb : ch.base = some b) (hh : b.hook = h)
    (huniq : ∀ d dh e, t.lookup d = some dh → dh.base = some e → e.hook = h → d = c) (p : π) :
    t.hookDecision sat h p = (evalChain sat t.rules p stackSize c).getD b.policy.decision := by
  have key : t.DropsAt sat h p ↔
      (evalChain sat t.rules p stackSize c).getD b.policy.decision = .drop := by
    constructor
    · rintro ⟨d, -, dh, hd, e, he, heh, hdrop⟩
      obtain rfl := huniq d dh e hd he heh
      obtain rfl : ch = dh := Option.some.inj (hc.symm.trans hd)
      obtain rfl : b = e := Option.some.inj (hb.symm.trans he)
      exact hdrop
    · intro hdrop
      exact ⟨c, Finmap.mem_keys.2 (Finmap.mem_iff.2 ⟨ch, hc⟩), ch, hc, b, hb, hh, hdrop⟩
  unfold Chains.hookDecision
  by_cases hd : t.DropsAt sat h p
  · rw [if_pos hd, key.1 hd]
  · rw [if_neg hd]
    have := mt key.2 hd
    cases hx : (evalChain sat t.rules p stackSize c).getD b.policy.decision <;> simp_all

lemma dropsAt_iff {t : Chains κ μ} {h : Hook} {p : π} :
    t.DropsAt sat h p ↔ ∃ c, ∃ b ∈ (t.lookup c).bind Chain.base, b.hook = h ∧
      (evalChain sat t.rules p stackSize c).getD b.policy.decision = .drop := by
  constructor
  · rintro ⟨c, -, ch, hch, b, hb, hdrop⟩
    exact ⟨c, b, Option.bind_eq_some_iff.2 ⟨ch, hch, hb⟩, hdrop⟩
  · rintro ⟨c, b, hb, hdrop⟩
    obtain ⟨ch, hch, hb⟩ := Option.bind_eq_some_iff.1 hb
    exact ⟨c, Finmap.mem_keys.2 (Finmap.mem_iff.2 ⟨ch, hch⟩), ch, hch, b, hb, hdrop⟩

/-- **Tables with the same hooks**, whose chains decide alike chain by chain, decide alike. -/
theorem hookDecision_congr {t t' : Chains κ μ} {p : π}
    (hbase : ∀ c, (t.lookup c).bind Chain.base = (t'.lookup c).bind Chain.base)
    (hrules : ∀ c call, evalRules sat call p (t.rules c) = evalRules sat call p (t'.rules c))
    (h : Hook) : t.hookDecision sat h p = t'.hookDecision sat h p := by
  have hdrops : t.DropsAt sat h p ↔ t'.DropsAt sat h p := by
    rw [dropsAt_iff, dropsAt_iff]
    simp only [hbase, evalChain_congr_rules hrules]
  unfold Chains.hookDecision
  rw [if_congr hdrops rfl rfl]

end Hooks

end Nft
