import WireGui.Nft.Eval
import WireGui.Nft.Rebuild

/-!
# Batches that keep a table managed

The hub of a managed table hangs on a hook, the managed chains hang on none and are reached from the
hub only.  `Cmd.Keeps` says which commands keep that (`Managed.load`), whatever order they come in.
A batch that adds a managed chain, or jumps from the hub to managed chains that lead nowhere, is
accepted.
-/

namespace Nft

variable {κ μ : Type} [DecidableEq κ]

/-- What a chain of a managed table is. -/
structure ManagedChain (hub : κ) (base : Base) (managed : κ → Prop) (c : κ) (ch : Chain κ μ) :
    Prop where
  hub_base : c = hub → ch.base = some base
  plain : managed c → ch.base = none
  only_hub : ∀ r ∈ ch.rules, ∀ d ∈ r.verdict.target, managed d → c = hub

/-- The command hangs no managed chain on a hook, leaves the hub on its own, and leads to managed
chains from the hub only. -/
def Cmd.Keeps (hub : κ) (base : Base) (managed : κ → Prop) : Cmd κ μ → Prop
  | .addTable | .flushChain _ => True
  | .addChain c b => (managed c → b = none) ∧ ∀ s ∈ b, c = hub → s = base
  | .deleteChain c => c ≠ hub
  | .addRule c r => ∀ d ∈ r.verdict.target, managed d → c = hub

section Keeps

variable {hub : κ} {base : Base} {managed : κ → Prop} {c : κ} {cmds : List (Cmd κ μ)}

omit [DecidableEq κ] in
/-- One command, on the chain it names. -/
lemma managedChain_effect {cmd : Cmd κ μ} (hk : cmd.Keeps hub base managed)
    (hc : cmd.chain = some c) {s : Option (Chain κ μ)} (hhub : c = hub → s ≠ none)
    (hs : ∀ ch ∈ s, ManagedChain hub base managed c ch) :
    ∀ ch ∈ cmd.effect s, ManagedChain hub base managed c ch := by
  intro ch hch
  rw [Option.mem_def] at hch
  cases cmd with
  | addTable => exact hs ch hch
  | addChain d b =>
    obtain rfl : d = c := Option.some.inj hc
    cases s with
    | none =>
      obtain rfl := Option.some.inj hch
      exact ⟨fun he => absurd rfl (hhub he), hk.1, fun r hr => absurd hr List.not_mem_nil⟩
    | some ch₀ =>
      obtain rfl := Option.some.inj hch
      have h₀ := hs ch₀ rfl
      cases b with
      | none => exact ⟨h₀.hub_base, h₀.plain, h₀.only_hub⟩
      | some b =>
        exact ⟨fun he => congrArg some (hk.2 b rfl he), fun hm => (hk.1 hm), h₀.only_hub⟩
  | flushChain d =>
    obtain ⟨ch₀, h₀, rfl⟩ := Option.map_eq_some_iff.1 hch
    have h₀ := hs ch₀ h₀
    exact ⟨h₀.hub_base, h₀.plain, fun r hr => absurd hr List.not_mem_nil⟩
  | deleteChain d => cases hch
  | addRule d r =>
    obtain rfl : d = c := Option.some.inj hc
    obtain ⟨ch₀, h₀, rfl⟩ := Option.map_eq_some_iff.1 hch
    have h₀ := hs ch₀ h₀
    refine ⟨h₀.hub_base, h₀.plain, fun q hq d hd hm => ?_⟩
    rcases List.mem_append.1 hq with hq | hq
    · exact h₀.only_hub q hq d hd hm
    · obtain rfl := List.mem_singleton.1 hq
      exact hk d hd hm

/-- A table that is managed, with the hub on the hook `base`. -/
def Anchored (hub : κ) (base : Base) (managed : κ → Prop) (t : Chains κ μ) : Prop :=
  hub ∈ t ∧ ∀ c, ∀ ch ∈ t.lookup c, ManagedChain hub base managed c ch

lemma Anchored.hub_base {t : Chains κ μ} (h : Anchored hub base managed t) :
    ∃ ch ∈ t.lookup hub, ch.base = some base := by
  obtain ⟨ch, hch⟩ := Finmap.mem_iff.1 h.1
  exact ⟨ch, hch, (h.2 hub ch hch).hub_base rfl⟩

lemma Anchored.toManaged {t : Chains κ μ} (h : Anchored hub base managed t) :
    Managed hub managed t where
  hub_base := by
    obtain ⟨ch, hch, hb⟩ := h.hub_base
    exact ⟨ch, hch, by simp [hb]⟩
  plain := fun c hc ch hch => (h.2 c ch hch).plain hc
  only_hub := by
    intro d r hr c hc hm
    obtain ⟨ch, hch⟩ := Finmap.mem_iff.1 (mem_of_mem_rules hr)
    rw [rules_of_lookup hch] at hr
    exact (h.2 d ch hch).only_hub r hr c hc hm

lemma Managed.anchored {t : Chains κ μ} (h : Managed hub managed t)
    (hb : ∃ ch ∈ t.lookup hub, ch.base = some base) : Anchored hub base managed t := by
  obtain ⟨ch, hch, hb⟩ := hb
  refine ⟨Finmap.mem_iff.2 ⟨ch, hch⟩, fun c dh hdh => ⟨?_, fun hm => h.plain c hm dh hdh, ?_⟩⟩
  · rintro rfl
    rwa [← Option.some.inj ((Option.mem_def.1 hch).symm.trans hdh)]
  · intro r hr d hd hm
    rw [← rules_of_lookup hdh] at hr
    exact h.only_hub c r hr d hd hm

/-- **A batch of such commands** keeps the table managed, and the hub on its hook. -/
theorem Anchored.load {t t' : Table κ μ} (h : Anchored hub base managed t.chains)
    (hk : ∀ cmd ∈ cmds, cmd.Keeps hub base managed) (hl : load cmds t = some t') :
    Anchored hub base managed t'.chains := by
  -- what the batch does to one chain, one command after the other
  have hchain : ∀ (cmds : List (Cmd κ μ)), (∀ cmd ∈ cmds, cmd.Keeps hub base managed) →
      ∀ c (s : Option (Chain κ μ)), (c = hub → s ≠ none) →
        (∀ ch ∈ s, ManagedChain hub base managed c ch) →
        (c = hub → effectOn c cmds s ≠ none) ∧
          ∀ ch ∈ effectOn c cmds s, ManagedChain hub base managed c ch := by
    intro cmds hk c
    induction cmds with
    | nil => exact fun s hhub hs => ⟨hhub, hs⟩
    | cons cmd cmds ih =>
      intro s hhub hs
      have hkc := hk cmd List.mem_cons_self
      rw [effectOn_cons]
      apply ih fun e he => hk e (List.mem_cons_of_mem _ he)
      · intro he
        split
        next hc =>
          have hs := hhub he
          cases cmd with
          | addTable => exact hs
          | addChain d b => cases s <;> exact nofun
          | flushChain d => simpa [Cmd.effect] using hs
          | deleteChain d =>
            obtain rfl : d = c := Option.some.inj hc
            exact absurd he hkc
          | addRule d r => simpa [Cmd.effect] using hs
        next => exact hhub he
      · split
        next hc => exact managedChain_effect hkc hc hhub hs
        next => exact hs
  have hbefore : ∀ c, c = hub → t.chains.lookup c ≠ none := by
    rintro c rfl hn
    exact Finmap.lookup_eq_none.1 hn h.1
  have hafter := fun c => hchain cmds hk c (t.chains.lookup c) (hbefore c) (h.2 c)
  constructor
  · by_contra hno
    refine (hafter hub).1 rfl ?_
    rw [← load_lookup hl]
    exact Finmap.lookup_eq_none.2 hno
  · intro c
    rw [load_lookup hl]
    exact (hafter c).2

end Keeps

/-! ### Batches that are accepted -/

section Accept

variable {hub c : κ} {t : Table κ μ} {rs : List (Rule κ μ)}

lemma fits_of_rules_eq {u : Chains κ μ} (hrules : ∀ d, u.rules d = t.chains.rules d)
    (hbase : ∀ d, (∃ ch ∈ u.lookup d, ch.base ≠ none) →
      ∃ ch ∈ t.chains.lookup d, ch.base ≠ none) : u.Fits := by
  rintro d - hb
  rw [shallow_congr (t := t.chains) (S := fun _ => True) (fun d _ => hrules d)
    (fun _ _ _ _ _ _ => trivial) stackSize trivial]
  obtain ⟨ch, hch, hb⟩ := hbase d hb
  exact t.fits d (Finmap.mem_keys.2 (Finmap.mem_iff.2 ⟨ch, hch⟩)) ⟨ch, hch, hb⟩

/-- **A chain without a hook** can always be declared. -/
theorem exists_load_addChain (t : Table κ μ) (c : κ) :
    ∃ t', load [.addChain c none] t = some t' := by
  have hl : (Cmd.addChain c none : Cmd κ μ).Legal t.chains := fun ch _ s hs => by cases hs
  have hrun := run_cons_of_legal hl []
  have hlook := fun d => lookup_apply (Cmd.addChain c none : Cmd κ μ) t.chains d
  generalize (Cmd.addChain c none : Cmd κ μ).apply t.chains = u at hrun hlook
  have hfits : u.Fits := by
    refine fits_of_rules_eq (t := t) (fun d => ?_) fun d hb => ?_
    · rw [Chains.rules, Chains.rules, hlook]
      split
      · cases t.chains.lookup d <;> rfl
      · rfl
    · rw [hlook] at hb
      obtain ⟨ch, hch, hb⟩ := hb
      rw [Option.mem_def] at hch
      split at hch
      · cases ht : t.chains.lookup d with
        | none =>
          rw [ht] at hch
          obtain rfl := Option.some.inj hch
          exact absurd rfl hb
        | some ch₀ =>
          rw [ht] at hch
          obtain rfl := Option.some.inj hch
          exact ⟨ch₀, rfl, hb⟩
      · exact ⟨ch, hch, hb⟩
  obtain ⟨t', ht', -⟩ := exists_load hrun hfits
  exact ⟨t', ht'⟩

/-- **Jumps from a hub** to chains that lead nowhere are accepted. -/
theorem exists_load_addRules (hbase : ∃ ch ∈ t.chains.lookup hub, ch.base ≠ none)
    (hrs : ∀ r ∈ rs, ∀ d ∈ r.verdict.target, t.chains.Plain d ∧
      ∀ q ∈ t.chains.rules d, q.verdict.target = none) :
    ∃ t', load (rs.map (.addRule hub)) t = some t' := by
  obtain ⟨hch, hhub, hb⟩ := hbase
  have hmem : hub ∈ t.chains := Finmap.mem_iff.2 ⟨hch, hhub⟩
  obtain ⟨u, hu⟩ := run_addRules hmem fun r hr d hd => (hrs r hr d hd).1
  have hlook := fun d => run_lookup hu d
  -- nothing leads to the hub
  have hnohub : ∀ e, ∀ r ∈ t.chains.rules e, ∀ d ∈ r.verdict.target, d ≠ hub := by
    rintro e r hr d hd rfl
    obtain ⟨ch, hch', hb'⟩ := t.grounded d (refs_iff.2 ⟨e, r, hr, hd⟩)
    exact hb (Option.some.inj ((Option.mem_def.1 hhub).symm.trans hch') ▸ hb')
  have hother : ∀ d, d ≠ hub → u.lookup d = t.chains.lookup d := by
    intro d hd
    rw [hlook]
    refine effectOn_of_forall_ne (fun cmd hcmd => ?_) _
    obtain ⟨r, -, rfl⟩ := List.mem_map.1 hcmd
    exact fun he => hd (Option.some.inj he).symm
  have hsame : ∀ n d, d ≠ hub → u.shallow n d = t.chains.shallow n d := by
    intro n d hd
    exact shallow_congr (S := fun d => d ≠ hub) (fun d hd => rules_congr (hother d hd))
      (fun e _ r hr d hd => hnohub e r hr d hd) n hd
  have hfits : u.Fits := by
    rintro d hd ⟨dh, hdh, hb'⟩
    by_cases hdhub : d = hub
    · subst hdhub
      have hrules : u.rules d = t.chains.rules d ++ rs := by
        have hl := hlook d
        rw [effectOn_addRules, Option.mem_def.1 hhub] at hl
        rw [rules_of_lookup hl, rules_of_lookup hhub]
      show u.shallow (14 + 1 + 1) d = true
      rw [Chains.shallow, List.all_eq_true, hrules]
      intro r hr
      rcases List.mem_append.1 hr with hr | hr
      · have hold := t.fits d (Finmap.mem_keys.2 hmem) ⟨hch, hhub, hb⟩
        have hold : t.chains.shallow (14 + 1 + 1) d = true := hold
        rw [Chains.shallow, List.all_eq_true] at hold
        have hr' := hold r hr
        cases hv : r.verdict.target with
        | none => rfl
        | some e =>
          rw [hv] at hr'
          show u.shallow (14 + 1) e = true
          rw [hsame _ e (hnohub d r hr e hv)]
          exact hr'
      · cases hv : r.verdict.target with
        | none => rfl
        | some e =>
          obtain ⟨⟨eh, heh, hbe⟩, hleaf⟩ := hrs r hr e hv
          have hne : e ≠ d := by
            rintro rfl
            exact hb (Option.some.inj ((Option.mem_def.1 heh).symm.trans hhub) ▸ hbe)
          show u.shallow (14 + 1) e = true
          rw [hsame _ e hne]
          exact shallow_of_leaf hleaf 14
    · rw [hsame _ d hdhub]
      rw [hother d hdhub] at hdh
      exact t.fits d (Finmap.mem_keys.2 (Finmap.mem_iff.2 ⟨dh, hdh⟩)) ⟨dh, hdh, hb'⟩
  obtain ⟨t', ht', -⟩ := exists_load hu hfits
  exact ⟨t', ht'⟩

end Accept

end Nft
