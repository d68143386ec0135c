import WireGui.Services.FirewallSpec
import WireGui.Nft.Eval

/-!
# What a rebuilt firewall does with a packet

After a full rebuild a packet that is forwarded meets the rules of those who send from its source,
one entry after the other, until one of them decides.
-/

namespace WireGui

open Nft (IsName evalRules evalChain stackSize)

/-- A device of the entry sends from `a`: it has the address or relays a subnet around it. -/
def Entry.SendsFrom (e : Entry) (a : Ip.Addr) : Prop :=
  ∃ d ∈ e.devices, ∃ nets ∈ d.nets, ∃ n ∈ nets, a ∈ n

instance (e : Entry) (a : Ip.Addr) : Decidable (e.SendsFrom a) := by
  unfold Entry.SendsFrom; infer_instance

/-- What the rules of the entry make of a packet, the first that matches by ascending priority. -/
def Entry.ruling (other : String → Nft.Packet → Bool) (p : Nft.Packet) (e : Entry) :
    Option Nft.Decision :=
  evalRules (Nft.sat other) (fun _ => none) p (e.rulesMeant.getD [])

/-- **What the entries make of a packet**: the first of those who send from its source and have a
rule for it. -/
def decision (other : String → Nft.Packet → Bool) (es : List Entry) (p : Nft.Packet) :
    Option Nft.Decision :=
  es.findSome? fun e => if e.SendsFrom p.src then e.ruling other p else none

section Realises

variable {other : String → Nft.Packet → Bool} {p : Nft.Packet} {call : String → Option Nft.Decision}

lemma evalRules_jumpRules (c : String) (nets : List Ip.Net) (rest : List NftRule) :
    evalRules (Nft.sat other) call p (nets.map (jumpRule c) ++ rest) =
      (if ∃ n ∈ nets, p.src ∈ n then call c else none).or
        (evalRules (Nft.sat other) call p rest) := by
  induction nets with
  | nil => simp
  | cons n nets ih =>
    have hhits : (jumpRule c n).Hits (Nft.sat other) p ↔ p.src ∈ n := by
      unfold Nft.Rule.Hits jumpRule
      simp
    rw [List.map_cons, List.cons_append, evalRules, ih]
    by_cases hn : p.src ∈ n
    · have hex : ∃ m ∈ n :: nets, p.src ∈ m := ⟨n, List.mem_cons_self, hn⟩
      rw [if_pos (hhits.2 hn), if_pos hex]
      show (call c).or _ = _
      cases call c <;> simp
    · rw [if_neg (fun h => hn (hhits.1 h))]
      have hex : (∃ m ∈ n :: nets, p.src ∈ m) ↔ ∃ m ∈ nets, p.src ∈ m := by
        simp [hn]
      rw [if_congr hex rfl rfl]

/-- Through the jumps of all entries. -/
lemma evalRules_jumps_entries {es : List Entry} {jumps : List (List NftRule)}
    (hj : es.mapM Entry.jumps = some jumps) :
    evalRules (Nft.sat other) call p jumps.flatten =
      es.findSome? fun e => if e.SendsFrom p.src then call e.chain else none := by
  rw [List.mapM_eq_some_iff] at hj
  induction hj with
  | nil => rfl
  | @cons e js es jumps he _ ih =>
    obtain ⟨nets, hnets, rfl⟩ := Option.map_eq_some_iff.1 he
    have hsends : (∃ n ∈ nets.flatten, p.src ∈ n) ↔ e.SendsFrom p.src := by
      constructor
      · rintro ⟨n, hn, hp⟩
        obtain ⟨ns, hns, hn⟩ := List.mem_flatten.1 hn
        obtain ⟨d, hd, hdn⟩ := List.exists_of_mem_mapM hnets hns
        exact ⟨d, hd, ns, hdn, n, hn, hp⟩
      · rintro ⟨d, hd, ns, hdn, n, hn, hp⟩
        obtain ⟨ns', hns', hd'⟩ := List.exists_of_mapM hnets hd
        obtain rfl := Option.some.inj ((Option.mem_def.1 hdn).symm.trans hd')
        exact ⟨n, List.mem_flatten.2 ⟨ns, hns', hn⟩, hp⟩
    rw [List.flatten_cons, evalRules_jumpRules, ih, if_congr hsends rfl rfl, List.findSome?_cons]
    by_cases hs : e.SendsFrom p.src
    · rw [if_pos hs]
      cases call e.chain <;> rfl
    · rw [if_neg hs]
      rfl

/-- Rules that are accepted or drop do not ask other chains. -/
lemma evalRules_rulesMeant {e : Entry} {rules : List NftRule} (h : e.rulesMeant = some rules) :
    evalRules (Nft.sat other) call p rules = e.ruling other p := by
  rw [Entry.ruling, h, Option.getD_some]
  refine Nft.evalRules_congr fun r hr _ c hc => ?_
  obtain ⟨re, -, hre⟩ := List.exists_of_mem_mapM h hr
  obtain ⟨n, ports, v, -, -, hv, rfl⟩ := meaning_eq_some_iff.1 hre
  rcases readAction_cases hv with ⟨-, rfl⟩ | ⟨-, rfl⟩ <;> cases hc

/-- **After a full rebuild** the chain `forward` decides as the entries do. -/
theorem evalChain_of_realises {es : List Entry} {t t' : Table} (h : Realises es t t') :
    evalChain (Nft.sat other) t'.chains.rules p stackSize "forward" = decision other es p := by
  obtain ⟨jumps, ch, hj, -, hf⟩ := h.forward
  have hchain : ∀ e ∈ es,
      evalChain (Nft.sat other) t'.chains.rules p 15 e.chain = e.ruling other p := by
    intro e he
    obtain ⟨ordered, rules, hst, hrules, hl⟩ := h.rules e he
    rw [hst.eq (List.stableSort_insertionSort _ _)] at hrules
    show evalRules _ (evalChain _ _ p 14) p (t'.chains.rules e.chain) = _
    rw [Nft.rules_of_lookup hl]
    exact evalRules_rulesMeant hrules
  show evalRules _ (evalChain _ _ p 15) p (t'.chains.rules "forward") = _
  rw [Nft.rules_of_lookup hf]
  refine (evalRules_jumps_entries hj).trans ?_
  unfold decision
  refine List.findSome?_congr fun e he => ?_
  rw [hchain e he]

end Realises

end WireGui
