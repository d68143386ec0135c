import WireGui.Ip.Network
import WireGui.Lib.Text
import WireGui.Models
import Mathlib.Data.Finset.Card
import Mathlib.Data.Finset.Dedup

/-!
# `utils/network.py`

The allocation of tunnel addresses and the subnets that a device may relay.

`findAvailable_spec`: an allocated address lies in the network and no device has it;
`exists_findAvailable`: while there are fewer devices than addresses, one is found.
-/

namespace WireGui

/-- The entries of a list: what stands between its commas, unless it is blank. -/
def subnetCandidates (raw : String) : List String :=
  ((raw.toList.splitOn ',').map fun part => strip (String.ofList part)).filter (· ≠ "")

/-- `parse_subnet_list`; `none` is a `ValueError`. -/
def parseSubnetList (raw : String) : Option (List String) :=
  (subnetCandidates raw).mapM fun candidate => (Ip.ipNetwork candidate).map Ip.Network.str

/-- `str(IPv4Address(n))` or `str(IPv6Address(n))`. -/
def addressText (f : Ip.Family) (n : ℕ) : String :=
  String.ofList (match f with | .v4 => Ip.str4 n | .v6 => Ip.str6 n)

/-- The first address that is handed out: not the network's own, nor the gateway's. -/
def firstHost (network : Ip.Net) : ℕ := network.base + 2

/-- The number of addresses up to the one before the last; it may be negative. -/
def poolSize (network : Ip.Net) : ℤ := (network.last - 1 : ℤ) - firstHost network + 1

/-- `_find_available_v4` and `_find_available_v6`.  The `i`-th call of `random.randint` on the pool
gives the address number `draw i`. -/
def findAvailable (network : Ip.Network) (used : Finset String) (draw : ℕ → ℕ) :
    Except String String :=
  if poolSize network.net ≤ 0 then .error s!"No usable hosts in {network.str}"
  else if poolSize network.net ≤ used.card then .error s!"No available addresses in {network.str}"
  else
    let pool := (poolSize network.net).toNat
    let sampled := (List.range (min pool 1000)).map fun i => draw i % pool
    let candidates := (sampled ++ List.range pool).map fun offset =>
      addressText network.net.fam (firstHost network.net + offset)
    match candidates.find? (· ∉ used) with
    | some candidate => .ok candidate
    | none => .error s!"No available addresses in {network.str}"

/-- `_get_used_ips` and the allocation of an IPv4 address. -/
def allocateIpv4 (db : Database) (network : Ip.Network) (draw : ℕ → ℕ) : Except String String :=
  findAvailable network (db.devices.filterMap Device.ipv4).toFinset draw

def allocateIpv6 (db : Database) (network : Ip.Network) (draw : ℕ → ℕ) : Except String String :=
  findAvailable network (db.devices.filterMap Device.ipv6).toFinset draw

section FindAvailable

variable {network : Ip.Network} {used : Finset String} {draw : ℕ → ℕ}

/-- The addresses of the pool are addresses of the network. -/
lemma exists_addr_of_offset {network : Ip.Net} {offset : ℕ} (h : (offset : ℤ) < poolSize network) :
    ∃ a ∈ network, addressText network.fam (firstHost network + offset) = a.str ∧
      a.fam = network.fam ∧ a.val = firstHost network + offset := by
  have hlast := network.last_lt
  unfold poolSize at h
  have hle : firstHost network + offset ≤ network.last := by omega
  refine ⟨⟨network.fam, firstHost network + offset, by omega⟩, ?_, rfl, rfl, rfl⟩
  rw [Ip.mem_iff_le]
  refine ⟨rfl, ?_, hle⟩
  simp only [firstHost]
  omega

/-- What is allocated is an address of the pool that is not used. -/
lemma exists_offset_of_findAvailable {c : String} (h : findAvailable network used draw = .ok c) :
    c ∉ used ∧ ∃ offset : ℕ, (offset : ℤ) < poolSize network.net ∧
      c = addressText network.net.fam (firstHost network.net + offset) := by
  unfold findAvailable at h
  split at h
  · cases h
  next hpos =>
    split at h
    · cases h
    · simp only at h
      split at h
      next candidate hfind =>
        obtain rfl := Except.ok.inj h
        refine ⟨by simpa using List.find?_some hfind, ?_⟩
        obtain ⟨offset, hoff, rfl⟩ := List.mem_map.1 (List.mem_of_find?_eq_some hfind)
        refine ⟨offset, ?_, rfl⟩
        rcases List.mem_append.1 hoff with hoff | hoff
        · obtain ⟨i, -, rfl⟩ := List.mem_map.1 hoff
          have := Nat.mod_lt (draw i) (show 0 < (poolSize network.net).toNat by omega)
          omega
        · have := List.mem_range.1 hoff
          omega
      · cases h

/-- **An allocated address** lies in the network, and no device has it. -/
theorem findAvailable_spec {c : String} (h : findAvailable network used draw = .ok c) :
    c ∉ used ∧ ∃ a ∈ network.net, a.fam = network.net.fam ∧ c = a.str := by
  obtain ⟨hfree, offset, hlt, rfl⟩ := exists_offset_of_findAvailable h
  obtain ⟨a, ha, htext, hfam, -⟩ := exists_addr_of_offset hlt
  exact ⟨hfree, a, ha, hfam, htext⟩

/-- **While there is a free address**, one is found. -/
theorem exists_findAvailable (h : (used.card : ℤ) < poolSize network.net) :
    ∃ c, findAvailable network used draw = .ok c := by
  have hpos : ¬ poolSize network.net ≤ 0 := by omega
  unfold findAvailable
  rw [if_neg hpos, if_neg (by omega)]
  simp only
  -- the scan alone meets more addresses than are used
  have hfree : ∃ offset < (poolSize network.net).toNat,
      addressText network.net.fam (firstHost network.net + offset) ∉ used := by
    by_contra hall
    push Not at hall
    have hinj : Set.InjOn (fun offset => addressText network.net.fam (firstHost network.net + offset))
        (Finset.range (poolSize network.net).toNat) := by
      intro i hi j hj hij
      have hi := Finset.mem_range.1 (Finset.mem_coe.1 hi)
      have hj := Finset.mem_range.1 (Finset.mem_coe.1 hj)
      have hi' : (i : ℤ) < poolSize network.net := by omega
      have hj' : (j : ℤ) < poolSize network.net := by omega
      obtain ⟨a, -, ha, hfa, hva⟩ := exists_addr_of_offset hi'
      obtain ⟨b, -, hb, hfb, hvb⟩ := exists_addr_of_offset hj'
      have hab : a = b := Ip.str_injective (hfa.trans hfb.symm) (ha ▸ hb ▸ hij)
      rw [hab] at hva
      omega
    have hcard := Finset.card_le_card_of_injOn _
      (fun offset ho => hall offset (Finset.mem_range.1 ho)) hinj
    rw [Finset.card_range] at hcard
    omega
  obtain ⟨offset, hlt, hno⟩ := hfree
  split
  next c hc => exact ⟨c, rfl⟩
  next hnone =>
    refine absurd (List.find?_eq_none.1 hnone _ (List.mem_map.2 ⟨offset, ?_, rfl⟩))
      (by simpa using hno)
    exact List.mem_append_right _ (List.mem_range.2 hlt)

end FindAvailable

end WireGui
