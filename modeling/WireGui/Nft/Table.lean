import WireGui.Lib.List
import Mathlib.Data.Finmap
import Mathlib.Data.List.Basic
import Mathlib.Tactic.Basic

/-!
# One nftables table and its batches

A table is a finite map from chain names to chains; a chain may hang on a hook of the kernel and
holds rules in order.  A batch is a list of commands, and the kernel applies all of it or none:

* `exec` is one command with its checks, `run` a list of them, `load` a batch together with the
  check the kernel makes at commit time;
* `effectOn` is what a batch does to one chain, the checks left out (`run_lookup`): a command only
  ever touches the chain it names, so a batch falls apart into one little program for each chain;
* a `Table` cannot be built with a jump into nothing (`Grounded`) or with jumps nested deeper than
  the kernel's stack (`Fits`).

Chain names `κ` and matches `μ` are arbitrary types.
-/

namespace Nft

/-! ### Tables -/

/-- What a rule does with a packet that all its matches accept.  `next` stands for a rule without
a verdict (`continue`, a counter, a log). -/
inductive Verdict (κ : Type) where
  | accept | drop | masquerade | ret | next
  | jump (c : κ) | goto (c : κ)
  deriving DecidableEq, Repr

/-- The chain a verdict leads to. -/
def Verdict.target {κ : Type} : Verdict κ → Option κ
  | .jump c | .goto c => some c
  | _ => none

structure Rule (κ μ : Type) where
  guard : List μ
  verdict : Verdict κ
  deriving DecidableEq, Repr

inductive ChainType where
  | filter | nat | route
  deriving DecidableEq, Repr

inductive Hook where
  | prerouting | input | forward | output | postrouting
  deriving DecidableEq, Repr

inductive Policy where
  | accept | drop
  deriving DecidableEq, Repr

/-- Where a base chain hangs, and what happens to a packet that reaches its end. -/
structure Base where
  type : ChainType
  hook : Hook
  priority : ℤ
  policy : Policy
  deriving DecidableEq, Repr

structure Chain (κ μ : Type) where
  base : Option Base
  rules : List (Rule κ μ)
  deriving DecidableEq, Repr

/-- The chains of a table, by name. -/
abbrev Chains (κ μ : Type) := Finmap fun _ : κ => Chain κ μ

variable {κ μ : Type} [DecidableEq κ]

/-- The rules of a chain, none if there is no such chain. -/
def Chains.rules (t : Chains κ μ) (c : κ) : List (Rule κ μ) :=
  ((t.lookup c).map Chain.rules).getD []

/-- Some rule of the table leads to the chain `c`. -/
def Chains.Refs (t : Chains κ μ) (c : κ) : Prop :=
  ∃ d ∈ t.keys, ∃ r ∈ t.rules d, r.verdict.target = some c

instance (t : Chains κ μ) (c : κ) : Decidable (t.Refs c) := by
  unfold Chains.Refs; infer_instance

/-- The chain `c` can be jumped to: it exists and hangs on no hook. -/
def Chains.Plain (t : Chains κ μ) (c : κ) : Prop := ∃ ch ∈ t.lookup c, ch.base = none

instance (t : Chains κ μ) (c : κ) : Decidable (t.Plain c) := by
  unfold Chains.Plain; infer_instance

/-- Replaces or removes one chain. -/
def Chains.set (t : Chains κ μ) (c : κ) : Option (Chain κ μ) → Chains κ μ
  | none => t.erase c
  | some ch => t.insert c ch

lemma lookup_set (t : Chains κ μ) (c d : κ) (s : Option (Chain κ μ)) :
    (t.set c s).lookup d = if d = c then s else t.lookup d := by
  by_cases h : d = c
  · subst h
    cases s <;> simp [Chains.set]
  · cases s with
    | none => rw [Chains.set, Finmap.lookup_erase_ne h, if_neg h]
    | some ch => rw [Chains.set, Finmap.lookup_insert_of_ne _ h, if_neg h]

lemma rules_of_lookup {t : Chains κ μ} {c : κ} {ch : Chain κ μ} (h : t.lookup c = some ch) :
    t.rules c = ch.rules := by
  simp [Chains.rules, h]

lemma rules_of_notMem {t : Chains κ μ} {c : κ} (h : c ∉ t) : t.rules c = [] := by
  simp [Chains.rules, Finmap.lookup_eq_none.2 h]

lemma rules_congr {t t' : Chains κ μ} {c : κ} (h : t.lookup c = t'.lookup c) :
    t.rules c = t'.rules c := by
  simp [Chains.rules, h]

lemma mem_of_mem_rules {t : Chains κ μ} {c : κ} {r : Rule κ μ} (h : r ∈ t.rules c) : c ∈ t := by
  by_contra hc
  rw [rules_of_notMem hc] at h
  exact List.not_mem_nil h

lemma refs_iff {t : Chains κ μ} {c : κ} :
    t.Refs c ↔ ∃ d, ∃ r ∈ t.rules d, r.verdict.target = some c := by
  constructor
  · rintro ⟨d, -, h⟩
    exact ⟨d, h⟩
  · rintro ⟨d, r, hr, h⟩
    exact ⟨d, Finmap.mem_keys.2 (mem_of_mem_rules hr), r, hr, h⟩

/-! ### Commands -/

/-- The commands of a batch.  The table itself is always there: a table that does not exist yet is
the empty one. -/
inductive Cmd (κ μ : Type) where
  | addTable
  | addChain (c : κ) (base : Option Base)
  | flushChain (c : κ)
  | deleteChain (c : κ)
  | addRule (c : κ) (r : Rule κ μ)
  deriving DecidableEq, Repr

/-- The chain a command works on. -/
def Cmd.chain : Cmd κ μ → Option κ
  | .addTable => none
  | .addChain c _ | .flushChain c | .deleteChain c | .addRule c _ => some c

/-- What a command makes of the chain it works on.  Adding a chain that is there leaves its rules
alone and only takes over the policy. -/
def Cmd.effect : Cmd κ μ → Option (Chain κ μ) → Option (Chain κ μ)
  | .addTable, s => s
  | .addChain _ b, none => some ⟨b, []⟩
  | .addChain _ b, some ch => some { ch with base := b <|> ch.base }
  | .flushChain _, s => s.map fun ch => { ch with rules := [] }
  | .deleteChain _, _ => none
  | .addRule _ r, s => s.map fun ch => { ch with rules := ch.rules ++ [r] }

/-- A chain may be declared again with the hook it has, or without one. -/
def Base.Agrees (b : Base) (old : Option Base) : Prop :=
  ∃ o ∈ old, o.type = b.type ∧ o.hook = b.hook ∧ o.priority = b.priority

instance (b : Base) (old : Option Base) : Decidable (b.Agrees old) := by
  unfold Base.Agrees; infer_instance

/-- The checks made before a command: the chains named exist, a chain that is deleted is empty and
nothing leads to it, and a jump leads to a chain without a hook. -/
def Cmd.Legal (t : Chains κ μ) : Cmd κ μ → Prop
  | .addTable => True
  | .addChain c b => ∀ ch ∈ t.lookup c, ∀ s ∈ b, s.Agrees ch.base
  | .flushChain c => c ∈ t
  | .deleteChain c => c ∈ t ∧ t.rules c = [] ∧ ¬ t.Refs c
  | .addRule c r => c ∈ t ∧ ∀ d ∈ r.verdict.target, t.Plain d

instance (t : Chains κ μ) : DecidablePred (Cmd.Legal t) := fun cmd => by
  cases cmd <;> unfold Cmd.Legal <;> infer_instance

/-- The command without its checks. -/
def Cmd.apply (cmd : Cmd κ μ) (t : Chains κ μ) : Chains κ μ :=
  match cmd.chain with
  | none => t
  | some c => t.set c (cmd.effect (t.lookup c))

/-- One command; `none` is a command nft refuses. -/
def exec (cmd : Cmd κ μ) (t : Chains κ μ) : Option (Chains κ μ) :=
  if cmd.Legal t then some (cmd.apply t) else none

def run : List (Cmd κ μ) → Chains κ μ → Option (Chains κ μ)
  | [], t => some t
  | cmd :: cmds, t => (exec cmd t).bind (run cmds)

@[simp] lemma run_nil (t : Chains κ μ) : run [] t = some t := rfl

lemma run_cons (cmd : Cmd κ μ) (cmds : List (Cmd κ μ)) (t : Chains κ μ) :
    run (cmd :: cmds) t = (exec cmd t).bind (run cmds) := rfl

lemma exec_eq_some_iff {cmd : Cmd κ μ} {t t' : Chains κ μ} :
    exec cmd t = some t' ↔ cmd.Legal t ∧ cmd.apply t = t' := by
  unfold exec
  split <;> simp_all

lemma run_cons_of_legal {cmd : Cmd κ μ} {t : Chains κ μ} (h : cmd.Legal t) (cmds : List (Cmd κ μ)) :
    run (cmd :: cmds) t = run cmds (cmd.apply t) := by
  rw [run_cons, exec_eq_some_iff.2 ⟨h, rfl⟩, Option.bind_some]

lemma run_append (cs ds : List (Cmd κ μ)) (t : Chains κ μ) :
    run (cs ++ ds) t = (run cs t).bind (run ds) := by
  induction cs generalizing t with
  | nil => rfl
  | cons cmd cs ih =>
    rw [List.cons_append, run_cons, run_cons, Option.bind_assoc]
    exact congrArg _ (funext ih)

/-! ### The effect on one chain -/

lemma lookup_apply (cmd : Cmd κ μ) (t : Chains κ μ) (c : κ) :
    (cmd.apply t).lookup c =
      if cmd.chain = some c then cmd.effect (t.lookup c) else t.lookup c := by
  unfold Cmd.apply
  cases h : cmd.chain with
  | none => simp
  | some d =>
    rw [lookup_set]
    by_cases hcd : c = d
    · subst hcd; simp
    · rw [if_neg hcd, if_neg (by simpa using fun h => hcd h.symm)]

/-- What a batch does to the chain `c`: only the commands that name it count. -/
def effectOn (c : κ) (cmds : List (Cmd κ μ)) (s : Option (Chain κ μ)) : Option (Chain κ μ) :=
  (cmds.filter fun cmd => cmd.chain = some c).foldl (fun s cmd => cmd.effect s) s

lemma effectOn_append (c : κ) (cs ds : List (Cmd κ μ)) (s : Option (Chain κ μ)) :
    effectOn c (cs ++ ds) s = effectOn c ds (effectOn c cs s) := by
  simp [effectOn]

@[simp] lemma effectOn_nil (c : κ) (s : Option (Chain κ μ)) : effectOn c [] s = s := rfl

lemma effectOn_cons (c : κ) (cmd : Cmd κ μ) (cmds : List (Cmd κ μ)) (s : Option (Chain κ μ)) :
    effectOn c (cmd :: cmds) s =
      effectOn c cmds (if cmd.chain = some c then cmd.effect s else s) := by
  by_cases h : cmd.chain = some c <;> simp [effectOn, h]

lemma effectOn_of_forall_ne {c : κ} {cmds : List (Cmd κ μ)} (h : ∀ cmd ∈ cmds, cmd.chain ≠ some c)
    (s : Option (Chain κ μ)) : effectOn c cmds s = s := by
  rw [effectOn, List.filter_eq_nil_iff.2 (by simpa using h), List.foldl_nil]

/-- Rules added to a chain land at its end, in order. -/
lemma effectOn_addRules (c : κ) (rs : List (Rule κ μ)) (s : Option (Chain κ μ)) :
    effectOn c (rs.map (Cmd.addRule c)) s =
      s.map fun ch => { ch with rules := ch.rules ++ rs } := by
  induction rs generalizing s with
  | nil => cases s <;> simp
  | cons r rs ih =>
    rw [List.map_cons, effectOn_cons, if_pos (by rfl), ih]
    cases s <;> simp [Cmd.effect]

/-- The rules that a batch leaves in a chain do not depend on the hook the chain is on. -/
lemma effectOn_rules_congr (c : κ) (cmds : List (Cmd κ μ)) {s s' : Option (Chain κ μ)}
    (h : s.map Chain.rules = s'.map Chain.rules) :
    (effectOn c cmds s).map Chain.rules = (effectOn c cmds s').map Chain.rules := by
  induction cmds generalizing s s' with
  | nil => exact h
  | cons cmd cmds ih =>
    rw [effectOn_cons, effectOn_cons]
    apply ih
    split
    · cases s with
      | none =>
        cases s' with
        | none => rfl
        | some ch' => cases h
      | some ch =>
        cases s' with
        | none => cases h
        | some ch' =>
          have hr : ch.rules = ch'.rules := Option.some.inj h
          cases cmd <;> simp [Cmd.effect, hr]
    · exact h

/-- **A batch acts on each chain by itself.** -/
theorem run_lookup {cmds : List (Cmd κ μ)} {t t' : Chains κ μ} (h : run cmds t = some t') (c : κ) :
    t'.lookup c = effectOn c cmds (t.lookup c) := by
  induction cmds generalizing t with
  | nil =>
    cases h
    rfl
  | cons cmd cmds ih =>
    rw [run_cons, Option.bind_eq_some_iff] at h
    obtain ⟨u, hu, h⟩ := h
    rw [ih h, ← (exec_eq_some_iff.1 hu).2, lookup_apply, effectOn_cons]

/-- A chain that a batch empties and does not make has to be there. -/
lemma mem_of_run_flush {cmds : List (Cmd κ μ)} {t t' : Chains κ μ} (h : run cmds t = some t')
    {c : κ} (hf : .flushChain c ∈ cmds) (hadd : ∀ b, .addChain c b ∉ cmds) : c ∈ t := by
  induction cmds generalizing t with
  | nil => exact absurd hf List.not_mem_nil
  | cons cmd cmds ih =>
    rw [run_cons, Option.bind_eq_some_iff] at h
    obtain ⟨u, hu, h⟩ := h
    obtain ⟨hl, rfl⟩ := exec_eq_some_iff.1 hu
    rcases List.mem_cons.1 hf with rfl | hf
    · exact hl
    · have hc := ih h hf fun b hb => hadd b (List.mem_cons_of_mem _ hb)
      rw [← Finmap.lookup_isSome, lookup_apply] at hc
      rw [← Finmap.lookup_isSome]
      split at hc
      next hcmd =>
        cases ht : t.lookup c with
        | some ch => rfl
        | none =>
          rw [ht] at hc
          cases cmd with
          | addChain d b =>
            obtain rfl : d = c := by simpa [Cmd.chain] using hcmd
            exact absurd List.mem_cons_self (hadd b)
          | addTable => simp [Cmd.effect] at hc
          | flushChain d => simp [Cmd.effect] at hc
          | deleteChain d => simp [Cmd.effect] at hc
          | addRule d r => simp [Cmd.effect] at hc
      next => exact hc

/-! ### What the kernel keeps -/

/-- Every jump leads to a chain that exists and hangs on no hook. -/
def Chains.Grounded (t : Chains κ μ) : Prop := ∀ d, t.Refs d → t.Plain d

lemma grounded_iff {t : Chains κ μ} :
    t.Grounded ↔ ∀ c ∈ t.keys, ∀ r ∈ t.rules c, ∀ d ∈ r.verdict.target, t.Plain d := by
  constructor
  · intro h c hc r hr d hd
    exact h d ⟨c, hc, r, hr, hd⟩
  · rintro h d ⟨c, hc, r, hr, hd⟩
    exact h c hc r hr d hd

instance (t : Chains κ μ) : Decidable t.Grounded := decidable_of_iff' _ grounded_iff

/-- From the chain `c`, jumps nest less than `n` deep. -/
def Chains.shallow (t : Chains κ μ) : ℕ → κ → Bool
  | 0, _ => false
  | n + 1, c => (t.rules c).all fun r => (r.verdict.target.map (t.shallow n)).getD true

/-- The depth of the kernel's jump stack. -/
def stackSize : ℕ := 16

/-- The check at commit time: from no hook do jumps nest deeper than the kernel's stack. -/
def Chains.Fits (t : Chains κ μ) : Prop :=
  ∀ c ∈ t.keys, (∃ ch ∈ t.lookup c, ch.base ≠ none) → t.shallow stackSize c = true

instance (t : Chains κ μ) : Decidable t.Fits := by
  unfold Chains.Fits; infer_instance

lemma refs_apply {cmd : Cmd κ μ} {t : Chains κ μ} {d : κ} (h : (cmd.apply t).Refs d) :
    t.Refs d ∨ ∃ c r, cmd = .addRule c r ∧ r.verdict.target = some d := by
  obtain ⟨c, r, hr, hd⟩ := refs_iff.1 h
  rw [Chains.rules, lookup_apply] at hr
  have old : r ∈ t.rules c → t.Refs d := fun h => refs_iff.2 ⟨c, r, h, hd⟩
  split at hr
  · cases cmd with
    | addTable => exact .inl (old hr)
    | addChain c' b =>
      cases ht : t.lookup c with
      | none => simp [ht, Cmd.effect] at hr
      | some ch => exact .inl (old (by simpa [ht, Cmd.effect, Chains.rules] using hr))
    | flushChain c' =>
      cases ht : t.lookup c <;> simp [ht, Cmd.effect] at hr
    | deleteChain c' => simp [Cmd.effect] at hr
    | addRule c' r' =>
      cases ht : t.lookup c with
      | none => simp [ht, Cmd.effect] at hr
      | some ch =>
        simp only [ht, Cmd.effect, Option.map_some, Option.getD_some, List.mem_append,
          List.mem_singleton] at hr
        rcases hr with hr | rfl
        · exact .inl (old (by simpa [ht, Chains.rules] using hr))
        · exact .inr ⟨c', r, rfl, hd⟩
  · exact .inl (old hr)

/-- A command leaves alone every chain that a jump could need. -/
lemma plain_apply {cmd : Cmd κ μ} {t : Chains κ μ} (hl : cmd.Legal t) {d : κ} (h : t.Plain d)
    (hr : t.Refs d ∨ ∀ c, cmd ≠ .deleteChain c) : (cmd.apply t).Plain d := by
  obtain ⟨ch, hch, hb⟩ := h
  rw [Option.mem_def] at hch
  unfold Chains.Plain
  rw [lookup_apply]
  split
  next hc =>
    rw [hch]
    cases cmd with
    | addTable => simp [Cmd.chain] at hc
    | addChain c b =>
      obtain rfl : c = d := by simpa [Cmd.chain] using hc
      cases b with
      | none => exact ⟨_, rfl, hb⟩
      | some s =>
        obtain ⟨o, ho, -⟩ := hl ch hch s rfl
        simp [hb] at ho
    | flushChain c => exact ⟨_, rfl, hb⟩
    | deleteChain c =>
      obtain rfl : c = d := by simpa [Cmd.chain] using hc
      rcases hr with hr | hr
      · exact absurd hr hl.2.2
      · exact absurd rfl (hr c)
    | addRule c r => exact ⟨_, rfl, hb⟩
  next => exact ⟨ch, hch, hb⟩

lemma exec_grounded {cmd : Cmd κ μ} {t t' : Chains κ μ} (ht : t.Grounded)
    (h : exec cmd t = some t') : t'.Grounded := by
  obtain ⟨hl, rfl⟩ := exec_eq_some_iff.1 h
  intro d hd
  rcases refs_apply hd with hd | ⟨c, r, rfl, hr⟩
  · exact plain_apply hl (ht d hd) (.inl hd)
  · exact plain_apply hl (hl.2 d hr) (.inr (by simp))

lemma run_grounded {cmds : List (Cmd κ μ)} {t t' : Chains κ μ} (ht : t.Grounded)
    (h : run cmds t = some t') : t'.Grounded := by
  induction cmds generalizing t with
  | nil => cases h; exact ht
  | cons cmd cmds ih =>
    rw [run_cons, Option.bind_eq_some_iff] at h
    obtain ⟨u, hu, h⟩ := h
    exact ih (exec_grounded ht hu) h

/-- **A table as the kernel holds it.** -/
structure Table (κ μ : Type) [DecidableEq κ] where
  chains : Chains κ μ
  grounded : chains.Grounded
  fits : chains.Fits

@[ext] lemma Table.ext {t u : Table κ μ} (h : ∀ c, t.chains.lookup c = u.chains.lookup c) :
    t = u := by
  cases t; cases u
  congr
  exact Finmap.ext_lookup h

/-- The table without chains. -/
def Table.empty : Table κ μ where
  chains := ∅
  grounded := by rintro d ⟨c, hc, -⟩; simp at hc
  fits := by rintro c hc; simp at hc

/-- **A batch**: every command in turn, then the check at commit time; `none` if nft refuses it,
and then the table stays as it is. -/
def load (cmds : List (Cmd κ μ)) (t : Table κ μ) : Option (Table κ μ) :=
  match h : run cmds t.chains with
  | none => none
  | some u => if hf : u.Fits then some ⟨u, run_grounded t.grounded h, hf⟩ else none

theorem load_eq_some_iff {cmds : List (Cmd κ μ)} {t t' : Table κ μ} :
    load cmds t = some t' ↔ run cmds t.chains = some t'.chains := by
  unfold load
  split
  next h => simp [h]
  next u h =>
    constructor
    · intro ht
      split at ht
      · cases ht; exact h
      · cases ht
    · intro ht
      obtain rfl : u = t'.chains := Option.some.inj (h.symm.trans ht)
      rw [dif_pos t'.fits]

/-- A batch that runs through and fits the kernel's stack is accepted. -/
lemma exists_load {cmds : List (Cmd κ μ)} {t : Table κ μ} {u : Chains κ μ}
    (h : run cmds t.chains = some u) (hf : u.Fits) : ∃ t', load cmds t = some t' ∧ t'.chains = u :=
  ⟨⟨u, run_grounded t.grounded h, hf⟩, load_eq_some_iff.2 h, rfl⟩

theorem load_lookup {cmds : List (Cmd κ μ)} {t t' : Table κ μ} (h : load cmds t = some t') (c : κ) :
    t'.chains.lookup c = effectOn c cmds (t.chains.lookup c) :=
  run_lookup (load_eq_some_iff.1 h) c

end Nft
