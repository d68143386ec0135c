import WireGui.Nft.Eval

/-!
# What a NAT hook does with a packet

`natRules` and `natChain` go through chains as `evalRules` and `evalChain` do, but tell a packet
that is masqueraded from one that is only let through.

`Holds c ch h t` is about the chain `c` alone on the hook `h`; a batch whose commands spare the two
leaves them as they are (`Holds.load`).
-/

namespace Nft

/-- What becomes of a packet: it may be let through under the address of the host. -/
inductive Outcome where
  | accept | drop | masquerade
  deriving DecidableEq, Repr

section Eval

variable {κ μ π : Type} (sat : μ → π → Bool)

/-- The rules of a chain in turn; `call` is what comes of a chain that is jumped to. -/
def natRules (call : κ → Option Outcome) (p : π) : List (Rule κ μ) → Option Outcome
  | [] => none
  | r :: rs =>
    if r.Hits sat p then
      match r.verdict with
      | .accept => some .accept
      | .masquerade => some .masquerade
      | .drop => some .drop
      | .ret => none
      | .next => natRules call p rs
      | .goto c => call c
      | .jump c => (call c).or (natRules call p rs)
    else natRules call p rs

/-- A chain, with `n` levels of the jump stack left. -/
def natChain (rules : κ → List (Rule κ μ)) (p : π) : ℕ → κ → Option Outcome
  | 0, _ => none
  | n + 1, c => natRules sat (natChain rules p n) p (rules c)

variable {sat} {p : π}

/-- Of rules that all masquerade, one that fires is enough. -/
lemma natRules_of_masquerade {call : κ → Option Outcome} {rs : List (Rule κ μ)}
    (h : ∀ r ∈ rs, r.verdict = .masquerade) :
    natRules sat call p rs = if ∃ r ∈ rs, r.Hits sat p then some .masquerade else none := by
  induction rs with
  | nil => simp [natRules]
  | cons r rs ih =>
    have hrest := ih fun s hs => h s (List.mem_cons_of_mem _ hs)
    rw [natRules]
    by_cases hr : r.Hits sat p
    · rw [if_pos hr, h r List.mem_cons_self, if_pos ⟨r, List.mem_cons_self, hr⟩]
    · rw [if_neg hr, hrest]
      simp [hr]

end Eval

section Hooks

variable {κ μ π : Type} [DecidableEq κ]

/-- **The packet leaves under the address of the host**: a NAT chain behind the routing says so. -/
def Chains.Masquerades (sat : μ → π → Bool) (t : Chains κ μ) (p : π) : Prop :=
  ∃ c ∈ t.keys, ∃ ch ∈ t.lookup c, ∃ b ∈ ch.base, b.type = .nat ∧ b.hook = .postrouting ∧
    natChain sat t.rules p stackSize c = some .masquerade

instance (sat : μ → π → Bool) (t : Chains κ μ) (p : π) : Decidable (t.Masquerades sat p) := by
  unfold Chains.Masquerades; infer_instance

/-- The chain hangs on the hook only if it is `c`. -/
def OnlyOn (c : κ) (h : Hook) (d : κ) (ch : Chain κ μ) : Prop := ∀ b ∈ ch.base, b.hook = h → d = c

/-- The chain `c` of the table is `ch`, and no other chain hangs on the hook. -/
structure Holds (c : κ) (ch : Chain κ μ) (h : Hook) (t : Chains κ μ) : Prop where
  lookup : t.lookup c = some ch
  only : ∀ d, ∀ dh ∈ t.lookup d, OnlyOn c h d dh

/-- The command leaves the chain `c` alone, and hangs no chain on the hook. -/
def Cmd.Spares (c : κ) (h : Hook) : Cmd κ μ → Prop
  | .addChain d b => d ≠ c ∧ ∀ s ∈ b, s.hook ≠ h
  | .flushChain d | .deleteChain d | .addRule d _ => d ≠ c
  | .addTable => True

variable {c d : κ} {h : Hook} {ch : Chain κ μ} {t t' : Table κ μ} {cmds : List (Cmd κ μ)}

omit [DecidableEq κ] in
lemma Cmd.Spares.chain_ne {cmd : Cmd κ μ} (hs : cmd.Spares c h) : cmd.chain ≠ some c := by
  cases cmd with
  | addTable => exact nofun
  | addChain d b => exact fun he => hs.1 (Option.some.inj he)
  | flushChain d => exact fun he => hs (Option.some.inj he)
  | deleteChain d => exact fun he => hs (Option.some.inj he)
  | addRule d r => exact fun he => hs (Option.some.inj he)

omit [DecidableEq κ] in
/-- One command, on the chain it names. -/
lemma onlyOn_effect {cmd : Cmd κ μ} (hc : ∀ b s, cmd = .addChain d b → s ∈ b → s.hook = h → d = c)
    (hd : cmd.chain = some d) {s : Option (Chain κ μ)} (hs : ∀ dh ∈ s, OnlyOn c h d dh) :
    ∀ dh ∈ cmd.effect s, OnlyOn c h d dh := by
  intro dh hdh
  rw [Option.mem_def] at hdh
  cases cmd with
  | addTable => exact hs dh hdh
  | addChain e b =>
    obtain rfl : e = d := Option.some.inj hd
    intro s' hs' hh
    cases s with
    | none =>
      obtain rfl := Option.some.inj hdh
      exact hc b s' rfl hs' hh
    | some ch₀ =>
      obtain rfl := Option.some.inj hdh
      cases b with
      | none => exact hs ch₀ rfl s' hs' hh
      | some b₁ => exact hc (some b₁) s' rfl hs' hh
  | flushChain e =>
    obtain ⟨ch₀, h₀, rfl⟩ := Option.map_eq_some_iff.1 hdh
    exact hs ch₀ h₀
  | deleteChain e => cases hdh
  | addRule e r =>
    obtain ⟨ch₀, h₀, rfl⟩ := Option.map_eq_some_iff.1 hdh
    exact hs ch₀ h₀

/-- A batch, chain by chain. -/
lemma onlyOn_effectOn
    (hc : ∀ cmd ∈ cmds, ∀ b s, cmd = .addChain d b → s ∈ b → s.hook = h → d = c)
    {s : Option (Chain κ μ)} (hs : ∀ dh ∈ s, OnlyOn c h d dh) :
    ∀ dh ∈ effectOn d cmds s, OnlyOn c h d dh := by
  induction cmds generalizing s with
  | nil => exact hs
  | cons cmd cmds ih =>
    rw [effectOn_cons]
    refine ih (fun e he => hc e (List.mem_cons_of_mem _ he)) ?_
    split
    next hd => exact onlyOn_effect (hc cmd List.mem_cons_self) hd hs
    next => exact hs

/-- **A batch that spares the chain and its hook** leaves them as they are. -/
theorem Holds.load (hk : Holds c ch h t.chains) (hc : ∀ cmd ∈ cmds, cmd.Spares c h)
    (hl : load cmds t = some t') : Holds c ch h t'.chains where
  lookup := by
    rw [load_lookup hl, effectOn_of_forall_ne fun cmd hcmd => (hc cmd hcmd).chain_ne]
    exact hk.lookup
  only := by
    intro d
    rw [load_lookup hl]
    refine onlyOn_effectOn (fun cmd hcmd b s he hs hh => ?_) (hk.only d)
    subst he
    exact absurd hh ((hc _ hcmd).2 s hs)

/-- **With one chain on the hook**, that chain says which packets are masqueraded. -/
theorem Holds.masquerades_iff {sat : μ → π → Bool} {p : π}
    (hk : Holds c ch .postrouting t.chains) {b : Base} (hb : ch.base = some b)
    (hnat : b.type = .nat) (hpost : b.hook = .postrouting) :
    t.chains.Masquerades sat p ↔
      natChain sat t.chains.rules p stackSize c = some .masquerade := by
  constructor
  · rintro ⟨d, -, dh, hd, e, he, -, heh, hm⟩
    obtain rfl := hk.only d dh hd e he heh
    exact hm
  · intro hm
    refine ⟨c, Finmap.mem_keys.2 (Finmap.mem_iff.2 ⟨ch, hk.lookup⟩), ch, hk.lookup, b, hb, hnat,
      hpost, hm⟩

end Hooks

/-! ### Writing a chain anew -/

section Rewrite

variable {κ μ : Type} [DecidableEq κ] {t t' : Table κ μ} {c : κ} {rs : List (Rule κ μ)}

/-- Chains that lead nowhere do not make the jumps deeper. -/
lemma shallow_of_leaves {u v : Chains κ μ}
    (h : ∀ d, v.rules d = u.rules d ∨ ∀ r ∈ v.rules d, r.verdict.target = none) (n : ℕ) (d : κ)
    (hd : u.shallow n d = true) : v.shallow n d = true := by
  induction n generalizing d with
  | zero => cases hd
  | succ n ih =>
    rw [Chains.shallow, List.all_eq_true] at hd ⊢
    intro r hr
    rcases h d with he | hleaf
    · have hrd := hd r (he ▸ hr)
      cases ht : r.verdict.target with
      | none => rfl
      | some e =>
        rw [ht] at hrd
        exact ih e hrd
    · rw [hleaf r hr]
      rfl

lemma lookup_run_flush {u v : Chains κ μ}
    (h : run (.flushChain c :: rs.map (.addRule c)) u = some v) (d : κ) :
    v.lookup d = if d = c then (u.lookup d).map fun ch => ⟨ch.base, rs⟩ else u.lookup d := by
  rw [run_lookup h, effectOn_cons]
  by_cases hd : d = c
  · subst hd
    rw [if_pos (by rfl), if_pos rfl, effectOn_addRules]
    cases u.lookup d <;> rfl
  · have hne : (Cmd.flushChain c : Cmd κ μ).chain ≠ some d := fun he => hd (Option.some.inj he).symm
    rw [if_neg hne, if_neg hd]
    refine effectOn_of_forall_ne (fun cmd hcmd => ?_) _
    obtain ⟨r, -, rfl⟩ := List.mem_map.1 hcmd
    exact hne

/-- **A chain that is there can be written anew** with rules that lead nowhere. -/
theorem exists_load_flush (hc : c ∈ t.chains) (hrs : ∀ r ∈ rs, r.verdict.target = none) :
    ∃ t', load (.flushChain c :: rs.map (.addRule c)) t = some t' := by
  have hflush : (Cmd.flushChain c : Cmd κ μ).Legal t.chains := hc
  have hmem : c ∈ (Cmd.flushChain c : Cmd κ μ).apply t.chains := by
    obtain ⟨ch, hch⟩ := Finmap.mem_iff.1 hc
    rw [Finmap.mem_iff, lookup_apply, if_pos (by rfl), hch]
    exact ⟨_, rfl⟩
  have hrules : ∀ r ∈ rs, ∀ d ∈ r.verdict.target,
      Chains.Plain ((Cmd.flushChain c : Cmd κ μ).apply t.chains) d := by
    intro r hr d hd
    rw [hrs r hr] at hd
    cases hd
  obtain ⟨u, hu⟩ : ∃ u, run (.flushChain c :: rs.map (.addRule c)) t.chains = some u := by
    rw [run_cons_of_legal hflush]
    generalize (Cmd.flushChain c : Cmd κ μ).apply t.chains = v at hmem hrules ⊢
    clear hrs
    induction rs generalizing v with
    | nil => exact ⟨v, rfl⟩
    | cons r rs ih =>
      have hl : (Cmd.addRule c r).Legal v := ⟨hmem, hrules r List.mem_cons_self⟩
      rw [List.map_cons, run_cons_of_legal hl]
      apply ih
      · obtain ⟨ch, hch⟩ := Finmap.mem_iff.1 hmem
        rw [Finmap.mem_iff, lookup_apply, if_pos (by rfl), hch]
        exact ⟨_, rfl⟩
      · intro r' hr' d hd
        exact plain_apply hl (hrules r' (List.mem_cons_of_mem _ hr') d hd) (.inr (by simp))
  have hlook := lookup_run_flush hu
  have hfits : u.Fits := by
    rintro d hd ⟨dh, hdh, hb⟩
    refine shallow_of_leaves (u := t.chains) (fun e => ?_) _ d (t.fits d ?_ ?_)
    · by_cases he : e = c
      · subst he
        refine .inr fun r hr => hrs r ?_
        have hl := hlook e
        rw [if_pos rfl] at hl
        cases ht : t.chains.lookup e with
        | none =>
          rw [ht] at hl
          rw [rules_of_notMem (Finmap.lookup_eq_none.1 hl)] at hr
          exact absurd hr List.not_mem_nil
        | some ch =>
          rw [ht] at hl
          rwa [rules_of_lookup hl] at hr
      · have hl := hlook e
        rw [if_neg he] at hl
        exact .inl (rules_congr hl)
    · rw [Finmap.mem_keys] at hd ⊢
      rw [← Finmap.lookup_isSome] at hd ⊢
      rw [hlook] at hd
      split at hd
      · rwa [Option.isSome_map] at hd
      · exact hd
    · rw [Option.mem_def, hlook] at hdh
      split at hdh
      · obtain ⟨ch, hch, rfl⟩ := Option.map_eq_some_iff.1 hdh
        exact ⟨ch, hch, hb⟩
      · exact ⟨dh, hdh, hb⟩
  obtain ⟨t', ht', -⟩ := exists_load hu hfits
  exact ⟨t', ht'⟩

/-- The table after that. -/
lemma lookup_load_flush (hl : load (.flushChain c :: rs.map (.addRule c)) t = some t') (d : κ) :
    t'.chains.lookup d = if d = c then (t.chains.lookup d).map fun ch => ⟨ch.base, rs⟩
      else t.chains.lookup d :=
  lookup_run_flush (load_eq_some_iff.1 hl) d

end Rewrite

end Nft
