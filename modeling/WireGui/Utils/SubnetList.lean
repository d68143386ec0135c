import WireGui.Lib.Lines
import WireGui.Utils.Network
import Mathlib.Data.Set.List

/-!
# What `parse_subnet_list` lets through

The entries of the result are written into commands for nft and `ip`.  They are clean unless an
entry of the input has an IPv6 zone that stays: the zone is any text without `%`, `/` and `,`.
`parseSubnetList_clean_iff` says when all is well.
-/

namespace WireGui

/-- **The subnets are clean**, and joined as the edit dialog joins them they are read back. -/
structure CleanSubnets (subnets : List String) : Prop where
  clean : ∀ s ∈ subnets, Ip.CleanCidr s
  readBack : parseSubnetList (", ".intercalate subnets) = some subnets

section Join

variable {n : Ip.Net}

/-- The text of a network has no blank and no comma. -/
lemma not_isSpace_of_mem_str {c : Char} (h : c ∈ n.str.toList) : isSpace c = false ∧ c ≠ ',' := by
  have hrange : 0x2e ≤ c.toNat ∧ c.toNat ≤ 0x66 := by
    rcases Ip.isAddrChar_of_mem_str h with hc | rfl
    · exact Ip.toNat_of_isAddrChar hc
    · decide
  refine ⟨isSpace_eq_false (by omega) (by omega), ?_⟩
  rintro rfl
  exact absurd hrange.1 (by decide)

lemma str_ne_empty (n : Ip.Net) : n.str ≠ "" := by
  intro he
  have hread := Ip.ipNetwork_str n
  rw [he] at hread
  cases hread

lemma strip_str (n : Ip.Net) : strip n.str = n.str :=
  strip_eq_self (fun _ hc => (not_isSpace_of_mem_str (List.mem_of_mem_head? hc)).1)
    fun _ hc => (not_isSpace_of_mem_str (List.mem_of_mem_getLast? hc)).1

/-- Networks, joined and cut apart again. -/
lemma subnetCandidates_join (nets : List Ip.Net) :
    subnetCandidates (", ".intercalate (nets.map Ip.Net.str)) = nets.map Ip.Net.str := by
  cases nets with
  | nil => decide
  | cons n nets =>
    have hsplit : splitCommas (", ".intercalate ((n :: nets).map Ip.Net.str)) =
        (n :: nets).map Ip.Net.str := by
      refine splitCommas_join (List.cons_ne_nil _ _) (fun s hs hc => ?_) fun s hs => ?_
      · obtain ⟨m, -, rfl⟩ := List.mem_map.1 hs
        exact (not_isSpace_of_mem_str hc).2 rfl
      · obtain ⟨m, -, rfl⟩ := List.mem_map.1 hs
        exact strip_str m
    rw [subnetCandidates, ← splitCommas, hsplit]
    refine List.filter_eq_self.2 fun s hs => ?_
    obtain ⟨m, -, rfl⟩ := List.mem_map.1 hs
    simpa using str_ne_empty m

/-- **Networks without zones** are read back as they are. -/
theorem cleanSubnets_map_str (nets : List Ip.Net) : CleanSubnets (nets.map Ip.Net.str) where
  clean s hs := by
    obtain ⟨n, -, rfl⟩ := List.mem_map.1 hs
    exact Ip.cleanCidr_str n
  readBack := by
    rw [parseSubnetList, subnetCandidates_join, List.mapM_eq_some_iff, List.forall₂_same]
    intro s hs
    obtain ⟨n, -, rfl⟩ := List.mem_map.1 hs
    rw [Ip.ipNetwork_str, Option.map_some, Ip.str_zone_none]

end Join

/-- An entry has a zone that stays: there are no host bits to clear. -/
def KeepsZone (candidate : String) : Prop :=
  ∃ t ∈ Ip.ipNetworkText candidate, t.zone ≠ none ∧ ¬ t.HasHostBits

instance : DecidablePred KeepsZone := fun c => by unfold KeepsZone; infer_instance

/-- **What is let through is clean** exactly if no entry has a zone that stays. -/
theorem parseSubnetList_clean_iff {raw : String} {subnets : List String}
    (h : parseSubnetList raw = some subnets) :
    CleanSubnets subnets ↔ ∀ candidate ∈ subnetCandidates raw, ¬ KeepsZone candidate := by
  constructor
  · rintro ⟨hclean, -⟩ candidate hc ⟨t, ht, hzone, hbits⟩
    obtain ⟨s, hs, hsome⟩ := List.exists_of_mapM h hc
    obtain ⟨n, hn, rfl⟩ := Option.map_eq_some_iff.1 hsome
    obtain ⟨t', ht', rfl⟩ := Option.map_eq_some_iff.1 hn
    obtain rfl := Option.some.inj (ht.symm.trans ht')
    exact hbits (Ip.zone_network.1 (Ip.cleanCidr_str_iff.1 (hclean _ hs)) hzone)
  · intro hall
    have hplain : ∀ s ∈ subnets, s ∈ Set.range Ip.Net.str := by
      intro s hs
      obtain ⟨candidate, hc, hsome⟩ := List.exists_of_mem_mapM h hs
      obtain ⟨n, hn, rfl⟩ := Option.map_eq_some_iff.1 hsome
      obtain ⟨t, ht, rfl⟩ := Option.map_eq_some_iff.1 hn
      have hzone : t.network.zone = none := by
        refine Ip.zone_network.2 fun hz => ?_
        by_contra hbits
        exact hall candidate hc ⟨t, ht, hz, hbits⟩
      exact ⟨t.network.net, (Ip.network_str_eq_iff.2 (by rw [← hzone])).symm⟩
    obtain ⟨nets, rfl⟩ := (Set.range_list_map Ip.Net.str).ge hplain
    exact cleanSubnets_map_str nets

/-! A zone with a semicolon and blanks. -/

/-- **A zone is passed on** into the commands. -/
theorem parseSubnetList_zone :
    parseSubnetList "fe80::1%x; flush ruleset" = some ["fe80::1%x; flush ruleset/128"] ∧
      ¬ CleanSubnets ["fe80::1%x; flush ruleset/128"] := by
  refine ⟨by decide, fun h => ?_⟩
  have hclean := h.clean _ List.mem_cons_self
  have hzone : "fe80::1%x; flush ruleset/128" = Ip.Network.str ⟨Ip.Addr.host ⟨.v6,
      0xfe800000000000000000000000000001, by decide⟩, some "x; flush ruleset".toList⟩ := by decide
  rw [hzone] at hclean
  cases Ip.cleanCidr_str_iff.1 hclean

theorem parseSubnetList_clean_iff_masked :
    CleanSubnets ["192.168.1.0/24", "fe80::/64"] := by
  have hparse : parseSubnetList "192.168.1.5/24,, fe80::1%eth0/64" =
      some ["192.168.1.0/24", "fe80::/64"] := by decide
  exact (parseSubnetList_clean_iff hparse).2 (by decide)

end WireGui
