import WireGui.Ip.Address
import WireGui.Lib.List
import Mathlib.Data.List.Basic
import Mathlib.Tactic.Ring
import Mathlib.Tactic.IntervalCases

/-!
# Addresses as text

How Python's `ipaddress` writes addresses (`Addr.str`) and reads them (`parseAddr`), and the two
readings of a network that the tools behind it share: an address, or an address, a slash and a
prefix length (`parseNet`).  `parseAddr_str`: what is written is read back as the same address.

Big-endian digit groups are common to all of it: octets, hextets and the digits themselves.
-/

namespace Ip

/-! ### Digit groups -/

/-- The last `k` digits of `n` in base `b`, the highest first. -/
def groups (b : ℕ) : ℕ → ℕ → List ℕ
  | 0, _ => []
  | k + 1, n => groups b k (n / b) ++ [n % b]

/-- The number of a list of digits, the highest first. -/
def value (b : ℕ) (ds : List ℕ) : ℕ := ds.foldl (fun acc d => acc * b + d) 0

@[simp] lemma length_groups (b k n : ℕ) : (groups b k n).length = k := by
  induction k generalizing n with
  | zero => rfl
  | succ k ih => simp [groups, ih]

lemma lt_of_mem_groups {b : ℕ} (hb : 0 < b) {k n d : ℕ} (h : d ∈ groups b k n) : d < b := by
  induction k generalizing n with
  | zero => simp [groups] at h
  | succ k ih =>
    rcases List.mem_append.1 h with h | h
    · exact ih h
    · rw [List.mem_singleton.1 h]
      exact Nat.mod_lt _ hb

lemma value_append_singleton (b : ℕ) (ds : List ℕ) (d : ℕ) :
    value b (ds ++ [d]) = value b ds * b + d := by
  simp [value]

theorem value_groups (b k n : ℕ) : value b (groups b k n) = n % b ^ k := by
  induction k generalizing n with
  | zero => simp [groups, value, Nat.mod_one]
  | succ k ih =>
    rw [groups, value_append_singleton, ih, Nat.pow_succ', Nat.mod_mul]
    ring

/-! ### Digits -/

/-- The value of a digit, in bases up to sixteen. -/
def digitVal (c : Char) : Option ℕ :=
  if '0' ≤ c ∧ c ≤ '9' then some (c.toNat - '0'.toNat)
  else if 'a' ≤ c ∧ c ≤ 'f' then some (c.toNat - 'a'.toNat + 10)
  else if 'A' ≤ c ∧ c ≤ 'F' then some (c.toNat - 'A'.toNat + 10)
  else none

/-- Reads a non-empty string of digits in base `b`. -/
def readDigits (b : ℕ) (cs : List Char) : Option ℕ :=
  if cs = [] then none
  else ((cs.mapM digitVal).filter fun ds => ds.all (· < b)).map (value b)

lemma digitVal_digitChar {d : ℕ} (h : d < 16) : digitVal d.digitChar = some d := by
  interval_cases d <;> rfl

/-- A written number is the digits of the number. -/
lemma mapM_digitVal_toDigits {b : ℕ} (hb : 1 < b) (h16 : b ≤ 16) (n : ℕ) :
    ∃ ds, (Nat.toDigits b n).mapM digitVal = some ds ∧ value b ds = n ∧ ∀ d ∈ ds, d < b := by
  induction n using Nat.strongRecOn with
  | ind n ih =>
    rw [Nat.toDigits_eq_if hb]
    split
    next h =>
      refine ⟨[n], ?_, by simp [value], by simpa using h⟩
      simp [digitVal_digitChar (show n < 16 by omega)]
    next h =>
      obtain ⟨ds, h1, h2, h3⟩ := ih (n / b) (Nat.div_lt_self (by omega) hb)
      have hlt : n % b < b := Nat.mod_lt _ (by omega)
      refine ⟨ds ++ [n % b], ?_, ?_, ?_⟩
      · simp [h1, digitVal_digitChar (show n % b < 16 by omega)]
      · rw [value_append_singleton, h2, Nat.div_add_mod']
      · simpa [or_imp, forall_and] using ⟨h3, hlt⟩

theorem readDigits_toDigits {b : ℕ} (hb : 1 < b) (h16 : b ≤ 16) (n : ℕ) :
    readDigits b (Nat.toDigits b n) = some n := by
  obtain ⟨ds, h1, h2, h3⟩ := mapM_digitVal_toDigits hb h16 n
  rw [readDigits, if_neg Nat.toDigits_ne_nil, h1, Option.filter_some,
    if_pos (by simpa using h3), Option.map_some, h2]

lemma length_toDigits_le {b k n : ℕ} (hb : 1 < b) (hk : 0 < k) (h : n < b ^ k) :
    (Nat.toDigits b n).length ≤ k := (Nat.length_toDigits_le_iff hb hk).2 h

/-- Only zero is written with a leading zero. -/
lemma head_toDigits {b : ℕ} (hb : 1 < b) (h16 : b ≤ 16) {n : ℕ} (hn : 0 < n) :
    (Nat.toDigits b n).head? ≠ some '0' := by
  induction n using Nat.strongRecOn with
  | ind n ih =>
    rw [Nat.toDigits_eq_if hb]
    split
    next h =>
      intro h0
      have : (n.digitChar) = '0' := by simpa using h0
      have := digitVal_digitChar (show n < 16 by omega)
      simp_all [digitVal]
    next h =>
      have hd : 0 < n / b := Nat.div_pos (by omega) (by omega)
      rw [List.head?_append_of_ne_nil _ Nat.toDigits_ne_nil]
      exact ih _ (Nat.div_lt_self hn hb) hd

lemma mem_toDigits {b : ℕ} (hb : 1 < b) (h16 : b ≤ 16) {n : ℕ} {c : Char}
    (h : c ∈ Nat.toDigits b n) : ∃ d < b, c = d.digitChar := by
  induction n using Nat.strongRecOn with
  | ind n ih =>
    rw [Nat.toDigits_eq_if hb] at h
    split at h
    next hn => exact ⟨n, hn, by simpa using h⟩
    next hn =>
      rcases List.mem_append.1 h with h | h
      · exact ih _ (Nat.div_lt_self (by omega) hb) h
      · exact ⟨n % b, Nat.mod_lt _ (by omega), by simpa using h⟩

lemma notMem_toDigits {b : ℕ} (hb : 1 < b) (h16 : b ≤ 16) {n : ℕ} {c : Char}
    (hc : digitVal c = none) : c ∉ Nat.toDigits b n := by
  intro h
  obtain ⟨d, hd, rfl⟩ := mem_toDigits hb h16 h
  rw [digitVal_digitChar (by omega)] at hc
  cases hc

/-! ### IPv4 -/

/-- `_parse_octet`: up to three decimal digits, no leading zero, at most 255. -/
def parseOctet (cs : List Char) : Option ℕ :=
  if 3 < cs.length ∨ (cs.head? = some '0' ∧ cs ≠ ['0']) then none
  else (readDigits 10 cs).filter (· ≤ 255)

def parse4 (cs : List Char) : Option ℕ :=
  let parts := cs.splitOn '.'
  if parts.length ≠ 4 then none else (parts.mapM parseOctet).map (value 256)

def str4 (n : ℕ) : List Char :=
  ['.'].intercalate ((groups 256 4 n).map (Nat.toDigits 10))

lemma parseOctet_toDigits {n : ℕ} (h : n < 256) : parseOctet (Nat.toDigits 10 n) = some n := by
  have h3 : (Nat.toDigits 10 n).length ≤ 3 := length_toDigits_le (by omega) (by omega) (by omega)
  have h0 : ¬ ((Nat.toDigits 10 n).head? = some '0' ∧ Nat.toDigits 10 n ≠ ['0']) := by
    rintro ⟨h0, hne⟩
    rcases Nat.eq_zero_or_pos n with rfl | hn
    · exact hne (Nat.toDigits_zero 10)
    · exact head_toDigits (by omega) (by omega) hn h0
  rw [parseOctet, if_neg (by simpa [not_or] using ⟨h3, by simpa using h0⟩),
    readDigits_toDigits (by omega) (by omega), Option.filter_some, if_pos (by simpa using by omega)]

lemma mapM_map_toDigits {f : List Char → Option ℕ} {b : ℕ} {ds : List ℕ}
    (h : ∀ d ∈ ds, f (Nat.toDigits b d) = some d) : (ds.map (Nat.toDigits b)).mapM f = some ds := by
  induction ds with
  | nil => rfl
  | cons d ds ih =>
    simp [h d (by simp), ih fun e he => h e (List.mem_cons_of_mem _ he)]

theorem parse4_str4 {n : ℕ} (h : n < 2 ^ 32) : parse4 (str4 n) = some n := by
  have hparts : (str4 n).splitOn '.' = (groups 256 4 n).map (Nat.toDigits 10) := by
    refine List.splitOn_intercalate _ ?_ (by simp [groups])
    intro l hl
    obtain ⟨d, -, rfl⟩ := List.mem_map.1 hl
    exact notMem_toDigits (by omega) (by omega) (by decide)
  have hm : ((groups 256 4 n).map (Nat.toDigits 10)).mapM parseOctet = some (groups 256 4 n) :=
    mapM_map_toDigits fun d hd => parseOctet_toDigits (lt_of_mem_groups (by omega) hd)
  simp only [parse4, hparts]
  rw [if_neg (by simp), hm, Option.map_some, value_groups, Nat.mod_eq_of_lt (by omega)]

/-! ### IPv6 -/

/-- `_parse_hextet`: one to four hexadecimal digits. -/
def parseHextet (cs : List Char) : Option ℕ :=
  if 4 < cs.length then none else readDigits 16 cs

/-- The part after the last colon may be an IPv4 address, which stands for two hextets. -/
def expandV4 (parts : List (List Char)) : Option (List (List Char)) :=
  match parts.getLast? with
  | none => none
  | some l =>
    if '.' ∈ l then
      (parse4 l).map fun n =>
        parts.dropLast ++ [Nat.toDigits 16 (n / 2 ^ 16 % 2 ^ 16), Nat.toDigits 16 (n % 2 ^ 16)]
    else some parts

/-- The parts before and after the `::`; an empty part at either end has to belong to it. -/
def trimEnds (hi lo : List (List Char)) : Option (List (List Char) × List (List Char)) :=
  if (hi.head? = some [] ∧ hi.length ≠ 1) ∨ (lo.getLast? = some [] ∧ lo.length ≠ 1) then none
  else some (if hi.head? = some [] then [] else hi, if lo.getLast? = some [] then [] else lo)

/-- The hextets of an address, from its parts between colons: at most one inner part is empty, and
that is where the left out zeros go. -/
def parseParts (parts : List (List Char)) : Option (List ℕ) :=
  let inner := parts.tail.dropLast
  if 1 < inner.count [] then none
  else
    match inner.findIdx? List.isEmpty with
    | some i => do
      let (hi, lo) ← trimEnds (parts.take (i + 1)) (parts.drop (i + 2))
      if 8 ≤ hi.length + lo.length then none
      else do
        let h ← hi.mapM parseHextet
        let l ← lo.mapM parseHextet
        return h ++ List.replicate (8 - (hi.length + lo.length)) 0 ++ l
    | none => if parts.length ≠ 8 then none else parts.mapM parseHextet

/-- `IPv6Address._ip_int_from_string`. -/
def parse6 (cs : List Char) : Option ℕ :=
  let parts := cs.splitOn ':'
  if parts.length < 3 then none
  else do
    let parts ← expandV4 parts
    if 9 < parts.length then none else (parseParts parts).map (value (2 ^ 16))

/-- The scan of `_compress_hextets` for the longest run of zeros: `best` and `cur` are a start and a
length, `i` the index of the next hextet. -/
def scanZeros : ℕ → ℕ × ℕ → ℕ × ℕ → List ℕ → ℕ × ℕ
  | _, best, _, [] => best
  | i, best, cur, h :: hs =>
    if h = 0 then
      let cur := (if cur.2 = 0 then i else cur.1, cur.2 + 1)
      scanZeros (i + 1) (if best.2 < cur.2 then cur else best) cur hs
    else scanZeros (i + 1) best (0, 0) hs

/-- `_compress_hextets`: the parts that are joined by colons. -/
def compress (hs : List ℕ) : List (List Char) :=
  let best := scanZeros 0 (0, 0) (0, 0) hs
  if 1 < best.2 then
    (if best.1 = 0 then [[]] else []) ++ (hs.take best.1).map (Nat.toDigits 16) ++ [[]] ++
      (hs.drop (best.1 + best.2)).map (Nat.toDigits 16) ++
      (if best.1 + best.2 = hs.length then [[]] else [])
  else hs.map (Nat.toDigits 16)

/-- `IPv6Address.__str__`: an IPv4-mapped address ends in the dotted form. -/
def str6 (n : ℕ) : List Char :=
  if n / 2 ^ 32 = 0xffff then
    [':'].intercalate (compress (groups (2 ^ 16) 8 0xffff) ++ [str4 (n % 2 ^ 32)])
  else [':'].intercalate (compress (groups (2 ^ 16) 8 n))

/-- The hextets from `s` on, `k` of them, are zero. -/
def ZeroRun (l : List ℕ) (b : ℕ × ℕ) : Prop :=
  b.1 + b.2 ≤ l.length ∧ ∀ i, b.1 ≤ i → i < b.1 + b.2 → l[i]? = some 0

/-- The scan returns a run of zeros: the best run so far is one, and so is the current run, which
ends where the scan stands. -/
lemma scanZeros_zeroRun {l : List ℕ} (rest : List ℕ) :
    ∀ (i : ℕ) (best cur : ℕ × ℕ), l.drop i = rest → i + rest.length = l.length → ZeroRun l best →
      (cur.2 ≠ 0 → ZeroRun l cur ∧ cur.1 + cur.2 = i) →
      ZeroRun l (scanZeros i best cur rest) := by
  induction rest with
  | nil => intro i best cur _ _ hb _; exact hb
  | cons h hs ih =>
    intro i best cur hd hlen hb hc
    have hi : l[i]? = some h := by rw [← List.head?_drop, hd, List.head?_cons]
    have hd' : l.drop (i + 1) = hs := by rw [← List.tail_drop, hd, List.tail_cons]
    simp only [List.length_cons] at hlen
    rw [scanZeros]
    split
    next h0 =>
      have hcur : ZeroRun l (if cur.2 = 0 then i else cur.1, cur.2 + 1) ∧
          (if cur.2 = 0 then i else cur.1) + (cur.2 + 1) = i + 1 := by
        by_cases hz : cur.2 = 0
        · refine ⟨⟨by simp [hz]; omega, fun j h1 h2 => ?_⟩, by simp [hz]⟩
          simp only [hz, if_true] at h1 h2
          obtain rfl : j = i := by omega
          rw [hi, h0]
        · obtain ⟨⟨-, h2⟩, h3⟩ := hc hz
          refine ⟨⟨by simp [hz]; omega, fun j hj1 hj2 => ?_⟩, by simp [hz]; omega⟩
          simp only [hz, if_false] at hj1 hj2
          by_cases hji : j = i
          · rw [hji, hi, h0]
          · exact h2 j hj1 (by omega)
      refine ih _ _ _ hd' (by omega) ?_ (fun _ => hcur)
      by_cases hlt : best.2 < cur.2 + 1
      · rw [if_pos hlt]; exact hcur.1
      · rw [if_neg hlt]; exact hb
    next => exact ih _ _ _ hd' (by omega) hb (by simp)

/-- Filling the gap of a run of zeros gives the hextets back. -/
lemma zeroRun_split {l : List ℕ} {b : ℕ × ℕ} (h : ZeroRun l b) :
    l.take b.1 ++ List.replicate b.2 0 ++ l.drop (b.1 + b.2) = l := by
  have hmid : (l.drop b.1).take b.2 = List.replicate b.2 0 := by
    refine List.ext_getElem? fun i => ?_
    by_cases hi : i < b.2
    · rw [List.getElem?_take_of_lt hi, List.getElem?_drop, h.2 _ (by omega) (by omega),
        List.getElem?_replicate_of_lt hi]
    · rw [List.getElem?_take_eq_none (by omega), List.getElem?_eq_none (by simpa using by omega)]
  rw [← hmid, ← List.drop_drop, List.append_assoc, List.take_append_drop, List.take_append_drop]

/-- The empty part at an end that the gap touches is left out. -/
lemma trimEnds_gap {hi lo : List (List Char)} (hhi : [] ∉ hi) (hlo : [] ∉ lo) :
    trimEnds (if hi = [] then [[]] else hi) (if lo = [] then [[]] else lo) = some (hi, lo) := by
  have hfirst : (if hi = [] then [[]] else hi).head? = some [] ↔ hi = [] := by
    split
    next h => exact iff_of_true rfl h
    next h => exact iff_of_false (fun hx => hhi (List.mem_of_head? hx)) h
  have hlast : (if lo = [] then [[]] else lo).getLast? = some [] ↔ lo = [] := by
    split
    next h => exact iff_of_true rfl h
    next h => exact iff_of_false (fun hx => hlo (List.mem_of_getLast? hx)) h
  rw [trimEnds, if_neg]
  · simp only [hfirst, hlast]
    by_cases hi0 : hi = [] <;> by_cases lo0 : lo = [] <;> simp [hi0, lo0]
  · rw [hfirst, hlast]
    rintro (⟨rfl, h⟩ | ⟨rfl, h⟩)
    · exact h rfl
    · exact h rfl

/-- Parts with a gap: the empty part between `hi` and `lo`, and one more at an end that the gap
touches. -/
lemma parseParts_gap {hi lo : List (List Char)} {h l : List ℕ} (hhi : [] ∉ hi) (hlo : [] ∉ lo)
    (hh : hi.mapM parseHextet = some h) (hl : lo.mapM parseHextet = some l)
    (hlen : hi.length + lo.length < 8) :
    parseParts ((if hi = [] then [[]] else hi) ++ [] :: if lo = [] then [[]] else lo) =
      some (h ++ List.replicate (8 - (hi.length + lo.length)) 0 ++ l) := by
  obtain ⟨H, hH⟩ : ∃ H, (if hi = [] then [[]] else hi) = H := ⟨_, rfl⟩
  obtain ⟨L, hL⟩ : ∃ L, (if lo = [] then [[]] else lo) = L := ⟨_, rfl⟩
  have hH0 : H ≠ [] := by
    rw [← hH]
    split
    · simp
    · assumption
  have hL0 : L ≠ [] := by
    rw [← hL]
    split
    · simp
    · assumption
  have hHt : [] ∉ H.tail := by
    rw [← hH]
    split
    · simp
    · exact fun h => hhi (List.mem_of_mem_tail h)
  have hLd : [] ∉ L.dropLast := by
    rw [← hL]
    split
    · simp
    · exact fun h => hlo (List.dropLast_subset _ h)
  have hinner : (H ++ [] :: L).tail.dropLast = H.tail ++ [] :: L.dropLast := by
    rw [List.tail_append_of_ne_nil hH0, List.dropLast_append_of_ne_nil (by simp),
      List.dropLast_cons_of_ne_nil hL0]
  have hidx : (H.tail ++ [] :: L.dropLast).findIdx? List.isEmpty = some H.tail.length := by
    rw [List.findIdx?_append, List.findIdx?_eq_none_iff.2 (by
      intro x hx; cases x with
      | nil => exact absurd hx hHt
      | cons _ _ => rfl)]
    simp [List.findIdx?_cons]
  have hlenH : H.tail.length + 1 = H.length := by
    rw [List.length_tail]
    have := List.length_pos_iff.2 hH0
    omega
  have htrim : trimEnds H L = some (hi, lo) := by
    rw [← hH, ← hL]
    exact trimEnds_gap hhi hlo
  rw [hH, hL]
  simp only [parseParts, hinner]
  rw [if_neg (by
    rw [List.count_append, List.count_cons_self, List.count_eq_zero.2 hHt,
      List.count_eq_zero.2 hLd]
    omega), hidx]
  simp only [hlenH]
  rw [List.take_left' rfl, show H.tail.length + 2 = H.length + 1 by omega,
    ← List.drop_drop, List.drop_left' rfl, List.drop_one, List.tail_cons, htrim]
  simp [hh, hl, show ¬ 8 ≤ hi.length + lo.length by omega]

lemma parseParts_full {parts : List (List Char)} (h0 : [] ∉ parts) (h8 : parts.length = 8) :
    parseParts parts = parts.mapM parseHextet := by
  have hin : [] ∉ parts.tail.dropLast := fun h =>
    h0 (List.mem_of_mem_tail (List.dropLast_subset _ h))
  simp only [parseParts]
  rw [if_neg (by rw [List.count_eq_zero.2 hin]; omega), List.findIdx?_eq_none_iff.2 (by
      intro x hx; cases x with
      | nil => exact absurd hx hin
      | cons _ _ => rfl)]
  simp [h8]

lemma parseHextet_toDigits {n : ℕ} (h : n < 2 ^ 16) : parseHextet (Nat.toDigits 16 n) = some n := by
  rw [parseHextet, if_neg (by
    have := length_toDigits_le (b := 16) (k := 4) (n := n) (by omega) (by omega) (by omega)
    omega), readDigits_toDigits (by omega) (by omega)]

lemma nil_notMem_map_toDigits (b : ℕ) (l : List ℕ) : [] ∉ l.map (Nat.toDigits b) := by
  intro h
  obtain ⟨d, -, hd⟩ := List.mem_map.1 h
  exact Nat.toDigits_ne_nil hd

lemma gap_ends (hi lo : List (List Char)) :
    (if hi = [] then [[]] else []) ++ hi ++ [[]] ++ lo ++ (if lo = [] then [[]] else []) =
      (if hi = [] then [[]] else hi) ++ [] :: if lo = [] then [[]] else lo := by
  by_cases h : hi = [] <;> by_cases l : lo = [] <;> simp [h, l]

theorem parseParts_compress {l : List ℕ} (h8 : l.length = 8) (hl : ∀ d ∈ l, d < 2 ^ 16) :
    parseParts (compress l) = some l := by
  have hrun : ZeroRun l (scanZeros 0 (0, 0) (0, 0) l) :=
    scanZeros_zeroRun l 0 _ _ rfl (by simp) ⟨by simp, by simp⟩ (by simp)
  have hm : ∀ l' : List ℕ, (∀ d ∈ l', d ∈ l) →
      (l'.map (Nat.toDigits 16)).mapM parseHextet = some l' := fun l' h =>
    mapM_map_toDigits fun d hd => parseHextet_toDigits (hl d (h d hd))
  unfold compress
  generalize scanZeros 0 (0, 0) (0, 0) l = b at hrun
  dsimp only
  split
  next h1 =>
    have hb := hrun.1
    have hgap := parseParts_gap (nil_notMem_map_toDigits 16 (l.take b.1))
      (nil_notMem_map_toDigits 16 (l.drop (b.1 + b.2))) (hm _ fun d => List.mem_of_mem_take)
      (hm _ fun d => List.mem_of_mem_drop) (by simp; omega)
    have e1 : (l.take b.1).map (Nat.toDigits 16) = [] ↔ b.1 = 0 := by
      simp [← List.length_eq_zero_iff]; omega
    have e2 : (l.drop (b.1 + b.2)).map (Nat.toDigits 16) = [] ↔ b.1 + b.2 = l.length := by
      simp [← List.length_eq_zero_iff]; omega
    have hk : 8 - (((l.take b.1).map (Nat.toDigits 16)).length +
        ((l.drop (b.1 + b.2)).map (Nat.toDigits 16)).length) = b.2 := by
      simp; omega
    rw [hk, zeroRun_split hrun] at hgap
    rw [← hgap]
    simp only [← e1, ← e2]
    exact congrArg parseParts (gap_ends _ _)
  next => rw [parseParts_full (nil_notMem_map_toDigits 16 l) (by simp [h8]), hm l fun _ h => h]

lemma mem_compress {l : List ℕ} {p : List Char} (h : p ∈ compress l) :
    p = [] ∨ ∃ d, p = Nat.toDigits 16 d := by
  have hm : ∀ l' : List ℕ, p ∈ l'.map (Nat.toDigits 16) → p = [] ∨ ∃ d, p = Nat.toDigits 16 d := by
    intro l' h
    obtain ⟨d, -, hd⟩ := List.mem_map.1 h
    exact .inr ⟨d, hd.symm⟩
  unfold compress at h
  dsimp only at h
  split at h
  · simp only [List.mem_append] at h
    rcases h with (((h | h) | h) | h) | h
    · split at h <;> simp_all
    · exact hm _ h
    · exact .inl (by simpa using h)
    · exact hm _ h
    · split at h <;> simp_all
  · exact hm _ h

lemma length_compress {l : List ℕ} (h8 : l.length = 8) :
    3 ≤ (compress l).length ∧ (compress l).length ≤ 9 := by
  have hrun : ZeroRun l (scanZeros 0 (0, 0) (0, 0) l) :=
    scanZeros_zeroRun l 0 _ _ rfl (by simp) ⟨by simp, by simp⟩ (by simp)
  unfold compress
  generalize scanZeros 0 (0, 0) (0, 0) l = b at hrun
  have hb := hrun.1
  dsimp only
  split
  · have e (c : Prop) [Decidable c] :
        (if c then [[]] else [] : List (List Char)).length = if c then 1 else 0 := by
      split <;> rfl
    simp only [List.length_append, e, List.length_map, List.length_take, List.length_drop,
      List.length_singleton]
    split_ifs <;> omega
  · simp [h8]

lemma parse6_parts {parts : List (List Char)} (hc : ∀ p ∈ parts, ':' ∉ p) (h3 : 3 ≤ parts.length) :
    parse6 ([':'].intercalate parts) =
      (expandV4 parts).bind fun ps =>
        if 9 < ps.length then none else (parseParts ps).map (value (2 ^ 16)) := by
  unfold parse6
  rw [List.splitOn_intercalate _ hc (by rintro rfl; simp at h3)]
  simp only [if_neg (show ¬ parts.length < 3 by omega)]
  rfl

lemma dot_mem_str4 (n : ℕ) : '.' ∈ str4 n := by
  simp [str4, groups]

lemma colon_notMem_str4 (n : ℕ) : ':' ∉ str4 n := by
  simp only [str4, groups, List.nil_append, List.cons_append, List.map_cons, List.map_nil,
    List.intercalate_cons_cons, List.intercalate_singleton, List.mem_append, not_or]
  have h (d : ℕ) : ':' ∉ Nat.toDigits 10 d := notMem_toDigits (by omega) (by omega) (by decide)
  refine ⟨⟨h _, by decide⟩, ⟨h _, by decide⟩, ⟨h _, by decide⟩, h _⟩

theorem parse6_str6 {n : ℕ} (h : n < 2 ^ 128) : parse6 (str6 n) = some n := by
  have hcolon : ∀ (l : List ℕ), ∀ p ∈ compress l, ':' ∉ p := by
    intro l p hp
    rcases mem_compress hp with rfl | ⟨d, rfl⟩
    · simp
    · exact notMem_toDigits (by omega) (by omega) (by decide)
  unfold str6
  split
  next hm =>
    -- the IPv4-mapped form
    obtain ⟨m, hmod⟩ : ∃ m, n % 2 ^ 32 = m := ⟨_, rfl⟩
    have hlt : m < 2 ^ 32 := by omega
    rw [hmod]
    have hc : compress (groups (2 ^ 16) 8 0xffff) = [[], [], Nat.toDigits 16 0xffff] := by decide
    have hparts : ∀ p ∈ compress (groups (2 ^ 16) 8 0xffff) ++ [str4 m], ':' ∉ p := by
      intro p hp
      rcases List.mem_append.1 hp with hp | hp
      · exact hcolon _ p hp
      · rw [List.mem_singleton.1 hp]
        exact colon_notMem_str4 _
    rw [hc] at hparts ⊢
    rw [parse6_parts hparts (by simp)]
    have hx : expandV4 ([[], [], Nat.toDigits 16 0xffff] ++ [str4 m]) =
        some ([[]] ++ [] :: [0xffff, m / 2 ^ 16 % 2 ^ 16, m % 2 ^ 16].map (Nat.toDigits 16)) := by
      simp [expandV4, dot_mem_str4, parse4_str4 hlt]
    have hlo : ([0xffff, m / 2 ^ 16 % 2 ^ 16, m % 2 ^ 16].map (Nat.toDigits 16)).mapM parseHextet =
        some [0xffff, m / 2 ^ 16 % 2 ^ 16, m % 2 ^ 16] := by
      refine mapM_map_toDigits fun d hd => parseHextet_toDigits ?_
      simp only [List.mem_cons, List.not_mem_nil, or_false] at hd
      omega
    have hgap := parseParts_gap (List.not_mem_nil (a := [])) (nil_notMem_map_toDigits 16 _) rfl hlo
      (by simp)
    simp only [List.map_cons, if_true, reduceCtorEq, if_false] at hgap
    rw [hx, Option.bind_some, if_neg (by simp)]
    simp only [List.map_cons]
    rw [hgap]
    simp [value, List.replicate]
    omega
  next =>
    have hlen := length_compress (length_groups (2 ^ 16) 8 n)
    rw [parse6_parts (hcolon _) hlen.1]
    have hx : expandV4 (compress (groups (2 ^ 16) 8 n)) =
        some (compress (groups (2 ^ 16) 8 n)) := by
      unfold expandV4
      split
      next h0 =>
        rw [List.getLast?_eq_none_iff] at h0
        rw [h0] at hlen
        simp at hlen
      next l hl =>
        rw [if_neg]
        rcases mem_compress (List.mem_of_getLast? hl) with rfl | ⟨d, rfl⟩
        · simp
        · exact notMem_toDigits (by omega) (by omega) (by decide)
    rw [hx, Option.bind_some, if_neg (by omega), parseParts_compress (length_groups _ _ _)
      (fun d hd => lt_of_mem_groups (by omega) hd), Option.map_some, value_groups,
      Nat.mod_eq_of_lt (by omega)]

/-! ### The characters of what is accepted -/

/-- The characters an address is written in. -/
def isAddrChar (c : Char) : Bool := (digitVal c).isSome ∨ c = '.' ∨ c = ':'

lemma toNat_of_isAddrChar {c : Char} (h : isAddrChar c = true) :
    0x2e ≤ c.toNat ∧ c.toNat ≤ 0x66 := by
  have hle : ∀ d e : Char, d ≤ e ↔ d.toNat ≤ e.toNat := fun _ _ => Iff.rfl
  unfold isAddrChar at h
  simp only [decide_eq_true_eq] at h
  rcases h with h | rfl | rfl
  · unfold digitVal at h
    split at h
    next hd =>
      have h1 := (hle _ _).1 hd.1
      have h2 := (hle _ _).1 hd.2
      exact ⟨le_trans (by decide) h1, le_trans h2 (by decide)⟩
    next =>
      split at h
      next hd => exact ⟨le_trans (by decide) ((hle _ _).1 hd.1), (hle _ _).1 hd.2⟩
      next =>
        split at h
        next hd =>
          exact ⟨le_trans (by decide) ((hle _ _).1 hd.1), le_trans ((hle _ _).1 hd.2) (by decide)⟩
        next => cases h
  · decide
  · decide

lemma mem_splitOn (sep : Char) {c : Char} {cs : List Char} (h : c ∈ cs) :
    c = sep ∨ ∃ p ∈ cs.splitOn sep, c ∈ p := by
  have hj : c ∈ [sep].intercalate (cs.splitOn sep) := by rwa [List.intercalate_splitOn]
  generalize cs.splitOn sep = ps at hj ⊢
  induction ps with
  | nil => simp at hj
  | cons p ps ih =>
    cases ps with
    | nil => exact .inr ⟨p, List.mem_cons_self, by simpa using hj⟩
    | cons q qs =>
      rw [List.intercalate_cons_cons, List.append_assoc, List.mem_append, List.mem_append] at hj
      rcases hj with hj | hj | hj
      · exact .inr ⟨p, List.mem_cons_self, hj⟩
      · exact .inl (List.mem_singleton.1 hj)
      · refine (ih hj).imp_right fun ⟨r, hr, hc⟩ => ⟨r, List.mem_cons_of_mem _ hr, hc⟩

lemma digitVal_of_readDigits {b n : ℕ} {cs : List Char} (h : readDigits b cs = some n) {c : Char}
    (hc : c ∈ cs) : (digitVal c).isSome = true := by
  unfold readDigits at h
  split at h
  · cases h
  · obtain ⟨ds, hds, -⟩ := Option.map_eq_some_iff.1 h
    obtain ⟨d, -, hd⟩ := List.exists_of_mapM (Option.filter_eq_some_iff.1 hds).1 hc
    rw [hd]
    rfl

lemma digit_or_dot_of_parse4 {cs : List Char} {n : ℕ} (h : parse4 cs = some n) {c : Char}
    (hc : c ∈ cs) : (digitVal c).isSome = true ∨ c = '.' := by
  simp only [parse4] at h
  split at h
  · cases h
  · obtain ⟨os, hos, -⟩ := Option.map_eq_some_iff.1 h
    rcases mem_splitOn '.' hc with rfl | ⟨p, hp, hcp⟩
    · exact .inr rfl
    · obtain ⟨o, -, ho⟩ := List.exists_of_mapM hos hp
      unfold parseOctet at ho
      split at ho
      · cases ho
      · exact .inl (digitVal_of_readDigits (Option.filter_eq_some_iff.1 ho).1 hcp)

lemma isAddrChar_of_parse4 {cs : List Char} {n : ℕ} (h : parse4 cs = some n) {c : Char}
    (hc : c ∈ cs) : isAddrChar c = true := by
  rcases digit_or_dot_of_parse4 h hc with hc | rfl
  · simp [isAddrChar, hc]
  · rfl

lemma isAddrChar_of_parseHextet {cs : List Char} {n : ℕ} (h : parseHextet cs = some n) {c : Char}
    (hc : c ∈ cs) : isAddrChar c = true := by
  unfold parseHextet at h
  split at h
  · cases h
  · simp [isAddrChar, digitVal_of_readDigits h hc]

/-- Where there is another part, an end is not trimmed. -/
lemma end_ne_nil {q : List (List Char)} {p : List Char} {last : Option (List Char)}
    (hlast : ∀ x, q = [x] → last = some x) (hends : ¬ (last = some [] ∧ q.length ≠ 1)) (hp : p ∈ q)
    (hne : p ≠ []) : last ≠ some [] := by
  intro hnil
  have hlen : q.length = 1 := by
    by_contra h
    exact hends ⟨hnil, h⟩
  obtain ⟨x, rfl⟩ := List.length_eq_one_iff.1 hlen
  obtain rfl := List.mem_singleton.1 hp
  exact hne (Option.some.inj ((hlast p rfl).symm.trans hnil))

/-- Every part between the colons is empty or a hextet. -/
lemma parseHextet_of_parseParts {parts : List (List Char)} {hs : List ℕ}
    (h : parseParts parts = some hs) {p : List Char} (hp : p ∈ parts) (hne : p ≠ []) :
    ∃ n, parseHextet p = some n := by
  simp only [parseParts] at h
  split at h
  · cases h
  · split at h
    next i hi =>
      obtain ⟨⟨hi', lo'⟩, ht, h⟩ := Option.bind_eq_some_iff.1 h
      split at h
      · cases h
      obtain ⟨a, ha, h⟩ := Option.bind_eq_some_iff.1 h
      obtain ⟨b, hb, -⟩ := Option.bind_eq_some_iff.1 h
      have hgap : parts[i + 1]? = some [] := by
        obtain ⟨hlt, he, -⟩ := List.findIdx?_eq_some_iff_getElem.1 hi
        rw [List.isEmpty_iff] at he
        have hlt' : i + 1 < parts.length := by
          simp only [List.length_dropLast, List.length_tail] at hlt
          omega
        rw [List.getElem?_eq_getElem hlt', ← he]
        simp
      simp only [trimEnds] at ht
      split at ht
      · cases ht
      next hends =>
      obtain ⟨rfl, rfl⟩ : _ = hi' ∧ _ = lo' := by simpa using ht
      have hsplit : p ∈ parts.take (i + 1) ∨ p ∈ parts.drop (i + 2) := by
        rw [← List.take_append_drop (i + 1) parts, List.mem_append] at hp
        refine hp.imp_right fun hp => ?_
        obtain ⟨hlt, hget⟩ := List.getElem?_eq_some_iff.1 hgap
        rw [List.drop_eq_getElem_cons hlt, hget, List.mem_cons] at hp
        exact hp.resolve_left hne
      rw [not_or] at hends
      rcases hsplit with hp | hp
      · have hh : (parts.take (i + 1)).head? ≠ some [] :=
          end_ne_nil (fun x hx => by rw [hx]; rfl) hends.1 hp hne
        rw [if_neg hh] at ha
        obtain ⟨n, -, hn⟩ := List.exists_of_mapM ha hp
        exact ⟨n, hn⟩
      · have hl : (parts.drop (i + 2)).getLast? ≠ some [] :=
          end_ne_nil (fun x hx => by rw [hx]; rfl) hends.2 hp hne
        rw [if_neg hl] at hb
        obtain ⟨n, -, hn⟩ := List.exists_of_mapM hb hp
        exact ⟨n, hn⟩
    next =>
      split at h
      · cases h
      · obtain ⟨n, -, hn⟩ := List.exists_of_mapM h hp
        exact ⟨n, hn⟩

lemma isAddrChar_of_parse6 {cs : List Char} {n : ℕ} (h : parse6 cs = some n) {c : Char}
    (hc : c ∈ cs) : isAddrChar c = true := by
  simp only [parse6] at h
  split at h
  · cases h
  obtain ⟨parts, hparts, h⟩ := Option.bind_eq_some_iff.1 h
  split at h
  · cases h
  obtain ⟨hs, hhs, -⟩ := Option.map_eq_some_iff.1 h
  have key : ∀ p ∈ parts, c ∈ p → isAddrChar c = true := by
    intro p hp hcp
    obtain ⟨m, hm⟩ := parseHextet_of_parseParts hhs hp (List.ne_nil_of_mem hcp)
    exact isAddrChar_of_parseHextet hm hcp
  rcases mem_splitOn ':' hc with rfl | ⟨p, hp, hcp⟩
  · rfl
  unfold expandV4 at hparts
  split at hparts
  · cases hparts
  next l hl =>
    split at hparts
    · obtain ⟨m, hm, rfl⟩ := Option.map_eq_some_iff.1 hparts
      rw [← List.dropLast_append_getLast? l hl, List.mem_append, List.mem_singleton] at hp
      rcases hp with hp | rfl
      · exact key p (List.mem_append_left _ hp) hcp
      · exact isAddrChar_of_parse4 hm hcp
    · cases hparts
      exact key p hp hcp

/-! ### Addresses and networks -/

/-- The text of an address. -/
def Addr.str (a : Addr) : String :=
  String.ofList (match a.fam with | .v4 => str4 a.val | .v6 => str6 a.val)

def parseAddr (f : Family) (s : String) : Option Addr :=
  match (match f with | .v4 => parse4 s.toList | .v6 => parse6 s.toList) with
  | none => none
  | some n => if h : n < 2 ^ f.bits then some ⟨f, n, h⟩ else none

/-- **What is written is read back.** -/
theorem parseAddr_str (a : Addr) : parseAddr a.fam a.str = some a := by
  obtain ⟨f, n, h⟩ := a
  cases f with
  | v4 => simp [parseAddr, Addr.str, parse4_str4 h, h]
  | v6 => simp [parseAddr, Addr.str, parse6_str6 h, h]

theorem str_injective {a b : Addr} (hf : a.fam = b.fam) (h : a.str = b.str) : a = b := by
  have ha := parseAddr_str a
  rw [h, hf, parseAddr_str b] at ha
  exact (Option.some.inj ha).symm

/-- A prefix length: decimal digits without a leading zero. -/
def parseLen (cs : List Char) : Option ℕ :=
  if cs.head? = some '0' ∧ cs ≠ ['0'] then none else readDigits 10 cs

/-- An address, or an address, a slash and a prefix length. -/
def parseNet (f : Family) (s : String) : Option Net :=
  match s.toList.splitOn '/' with
  | [a] => (parseAddr f (String.ofList a)).map Addr.host
  | [a, p] =>
    match parseAddr f (String.ofList a), parseLen p with
    | some a, some l => if h : l ≤ a.fam.bits then some (a.net l h) else none
    | _, _ => none
  | _ => none

lemma parseAddr_fam {f : Family} {s : String} {a : Addr} (h : parseAddr f s = some a) :
    a.fam = f := by
  unfold parseAddr at h
  split at h
  · cases h
  · split at h
    · cases h
      rfl
    · cases h

lemma parseNet_fam {f : Family} {s : String} {n : Net} (h : parseNet f s = some n) :
    n.fam = f := by
  unfold parseNet at h
  split at h
  · obtain ⟨a, ha, rfl⟩ := Option.map_eq_some_iff.1 h
    exact parseAddr_fam ha
  · split at h
    next a l ha hl =>
      split at h
      · cases h
        exact parseAddr_fam ha
      · cases h
    · cases h
  · cases h

lemma isAddrChar_of_parseAddr {f : Family} {s : String} {a : Addr} (h : parseAddr f s = some a)
    {c : Char} (hc : c ∈ s.toList) : isAddrChar c = true := by
  unfold parseAddr at h
  split at h
  · cases h
  next n hn =>
    cases f with
    | v4 => exact isAddrChar_of_parse4 hn hc
    | v6 => exact isAddrChar_of_parse6 hn hc

/-- **What is accepted as a network** consists of digits, dots, colons and a slash. -/
theorem isAddrChar_of_parseNet {f : Family} {s : String} {n : Net} (h : parseNet f s = some n)
    {c : Char} (hc : c ∈ s.toList) : isAddrChar c = true ∨ c = '/' := by
  rcases mem_splitOn '/' hc with rfl | ⟨p, hp, hcp⟩
  · exact .inr rfl
  left
  unfold parseNet at h
  split at h
  next a he =>
    obtain ⟨b, hb, -⟩ := Option.map_eq_some_iff.1 h
    rw [he, List.mem_singleton] at hp
    subst hp
    exact isAddrChar_of_parseAddr hb (by rwa [String.toList_ofList])
  next a l he =>
    split at h
    next b m hb hm =>
      rw [he, List.mem_cons, List.mem_singleton] at hp
      rcases hp with rfl | rfl
      · exact isAddrChar_of_parseAddr hb (by rwa [String.toList_ofList])
      · unfold parseLen at hm
        split at hm
        · cases hm
        · simp [isAddrChar, digitVal_of_readDigits hm hcp]
    · cases h
  · cases h

lemma parseNet_ne_empty {f : Family} {s : String} {n : Net} (h : parseNet f s = some n) :
    s.toList ≠ [] := by
  intro he
  have hs : s = "" := by simpa using congrArg String.ofList he
  subst hs
  have h4 : parseNet .v4 "" = none := by decide
  have h6 : parseNet .v6 "" = none := by decide
  cases f with
  | v4 => rw [h4] at h; cases h
  | v6 => rw [h6] at h; cases h

/-- The text of an address is read as the network of that one address. -/
theorem parseNet_str (a : Addr) : parseNet a.fam a.str = some a.host := by
  have hslash : '/' ∉ a.str.toList := by
    intro hc
    exact absurd (isAddrChar_of_parseAddr (parseAddr_str a) hc) (by decide)
  have hsplit : a.str.toList.splitOn '/' = [a.str.toList] := by
    exact List.splitOn_eq_singleton hslash
  unfold parseNet
  rw [hsplit]
  simp [parseAddr_str]

/-! ### The family of a text -/

lemma colon_notMem_of_parse4 {cs : List Char} {n : ℕ} (h : parse4 cs = some n) : ':' ∉ cs := by
  intro hc
  rcases digit_or_dot_of_parse4 h hc with hd | hd
  · exact absurd hd (by decide)
  · exact absurd hd (by decide)

lemma colon_mem_of_parse6 {cs : List Char} {n : ℕ} (h : parse6 cs = some n) : ':' ∈ cs := by
  by_contra hc
  have hs : cs.splitOn ':' = [cs] := by
    exact List.splitOn_eq_singleton hc
  simp [parse6, hs] at h

lemma mem_of_mem_splitOn (sep : Char) {c : Char} {cs p : List Char} (hp : p ∈ cs.splitOn sep)
    (hc : c ∈ p) : c ∈ cs := by
  have hj : [sep].intercalate (cs.splitOn sep) = cs := List.intercalate_splitOn sep
  rw [← hj]
  generalize cs.splitOn sep = ps at hp
  induction ps with
  | nil => exact absurd hp List.not_mem_nil
  | cons q qs ih =>
    cases qs with
    | nil =>
      rw [List.mem_singleton.1 hp] at hc
      simpa using hc
    | cons r rs =>
      rw [List.intercalate_cons_cons, List.append_assoc, List.mem_append, List.mem_append]
      rcases List.mem_cons.1 hp with rfl | hp
      · exact .inl hc
      · exact .inr (.inr (ih hp))

/-- **A colon tells the family** of a network. -/
theorem colon_mem_iff_of_parseNet {f : Family} {s : String} {n : Net} (h : parseNet f s = some n) :
    ':' ∈ s.toList ↔ f = .v6 := by
  have key : ∀ {a : List Char} {b : Addr}, parseAddr f (String.ofList a) = some b →
      (':' ∈ a ↔ f = .v6) := by
    intro a b hb
    unfold parseAddr at hb
    rw [String.toList_ofList] at hb
    cases f with
    | v4 =>
      refine iff_of_false ?_ (by simp)
      cases hp : parse4 a with
      | none => simp [hp] at hb
      | some m => exact colon_notMem_of_parse4 hp
    | v6 =>
      refine iff_of_true ?_ rfl
      cases hp : parse6 a with
      | none => simp [hp] at hb
      | some m => exact colon_mem_of_parse6 hp
  unfold parseNet at h
  split at h
  next a he =>
    obtain ⟨b, hb, -⟩ := Option.map_eq_some_iff.1 h
    rw [← key hb]
    constructor
    · intro hc
      rcases mem_splitOn '/' hc with hc | ⟨p, hp, hcp⟩
      · exact absurd hc (by decide)
      · rw [he, List.mem_singleton] at hp
        exact hp ▸ hcp
    · exact mem_of_mem_splitOn '/' (by rw [he]; exact List.mem_cons_self)
  next a l he =>
    split at h
    next b m hb hm =>
      rw [← key hb]
      constructor
      · intro hc
        rcases mem_splitOn '/' hc with hc | ⟨p, hp, hcp⟩
        · exact absurd hc (by decide)
        · rw [he, List.mem_cons, List.mem_singleton] at hp
          rcases hp with rfl | rfl
          · exact hcp
          · unfold parseLen at hm
            split at hm
            · cases hm
            · exact absurd (digitVal_of_readDigits hm hcp) (by decide)
      · exact mem_of_mem_splitOn '/' (by rw [he]; exact List.mem_cons_self)
    · cases h
  · cases h

/-- A network of either family. -/
def readNet (s : String) : Option Net := (parseNet .v4 s).or (parseNet .v6 s)

theorem readNet_eq_some_iff {s : String} {n : Net} :
    readNet s = some n ↔ parseNet (if ':' ∈ s.toList then .v6 else .v4) s = some n := by
  unfold readNet
  by_cases hc : ':' ∈ s.toList
  · have h4 : parseNet .v4 s = none := by
      by_contra hne
      obtain ⟨m, hm⟩ := Option.ne_none_iff_exists'.1 hne
      exact absurd ((colon_mem_iff_of_parseNet hm).1 hc) (by simp)
    rw [if_pos hc, h4, Option.none_or]
  · have h6 : parseNet .v6 s = none := by
      by_contra hne
      obtain ⟨m, hm⟩ := Option.ne_none_iff_exists'.1 hne
      exact hc ((colon_mem_iff_of_parseNet hm).2 rfl)
    rw [if_neg hc, h6, Option.or_none]

/-! ### Networks as text -/

/-- The base of a network, as an address. -/
def Net.addr (n : Net) : Addr := ⟨n.fam, n.base, n.lt⟩

/-- The text of a network: its base, a slash and its prefix length. -/
def Net.str (n : Net) : String :=
  String.ofList (n.addr.str.toList ++ '/' :: Nat.toDigits 10 n.len)

lemma parseLen_toDigits (l : ℕ) : parseLen (Nat.toDigits 10 l) = some l := by
  have h0 : ¬ ((Nat.toDigits 10 l).head? = some '0' ∧ Nat.toDigits 10 l ≠ ['0']) := by
    rintro ⟨h0, hne⟩
    rcases Nat.eq_zero_or_pos l with rfl | hl
    · exact hne (Nat.toDigits_zero 10)
    · exact head_toDigits (by omega) (by omega) hl h0
  rw [parseLen, if_neg h0, readDigits_toDigits (by omega) (by omega)]

/-- A network is the network around its base. -/
lemma net_addr (n : Net) : n.addr.net n.len n.len_le = n := by
  obtain ⟨f, b, l, hb, hl, hm⟩ := n
  simp only [Net.addr, Addr.net]
  congr
  exact Nat.div_mul_cancel hm

lemma host_addr {n : Net} (h : n.len = n.fam.bits) : n.addr.host = n := by
  obtain ⟨f, b, l, hb, hl, hm⟩ := n
  obtain rfl : l = f.bits := h
  exact net_addr _

lemma colon_mem_str (a : Addr) : ':' ∈ a.str.toList ↔ a.fam = .v6 :=
  colon_mem_iff_of_parseNet (parseNet_str a)

/-- The text of a network, cut at the slash. -/
lemma splitOn_str (n : Net) :
    n.str.toList.splitOn '/' = [n.addr.str.toList, Nat.toDigits 10 n.len] := by
  have hslash : '/' ∉ n.addr.str.toList := by
    intro hc
    exact absurd (isAddrChar_of_parseAddr (parseAddr_str n.addr) hc) (by decide)
  have hdigits : '/' ∉ Nat.toDigits 10 n.len :=
    notMem_toDigits (by omega) (by omega) (by decide)
  have hs : (['/'].intercalate [n.addr.str.toList, Nat.toDigits 10 n.len]).splitOn '/' =
      [n.addr.str.toList, Nat.toDigits 10 n.len] := by
    refine List.splitOn_intercalate '/' (fun l hl => ?_) (by simp)
    simp only [List.mem_cons, List.not_mem_nil, or_false] at hl
    rcases hl with rfl | rfl
    · exact hslash
    · exact hdigits
  rw [Net.str, String.toList_ofList]
  simpa using hs

/-- **The text of a network** is read back. -/
theorem readNet_str (n : Net) : readNet n.str = some n := by
  have hsplit := splitOn_str n
  have hcolon : ':' ∈ n.str.toList ↔ n.fam = .v6 := by
    have hd : ':' ∉ Nat.toDigits 10 n.len := notMem_toDigits (by omega) (by omega) (by decide)
    rw [Net.str, String.toList_ofList, List.mem_append, List.mem_cons, colon_mem_str]
    simp [hd, Net.addr]
  have hfam : (if ':' ∈ n.str.toList then Family.v6 else .v4) = n.fam := by
    rw [if_congr hcolon rfl rfl]
    cases n.fam <;> rfl
  have haddr : parseAddr n.fam n.addr.str = some n.addr := parseAddr_str n.addr
  rw [readNet_eq_some_iff, hfam]
  unfold parseNet
  simp only [hsplit, String.ofList_toList, haddr, parseLen_toDigits]
  have hlen : n.len ≤ n.addr.fam.bits := n.len_le
  rw [dif_pos hlen]
  exact congrArg some (net_addr n)

theorem net_str_injective : Function.Injective Net.str := fun n m h =>
  Option.some.inj ((readNet_str n).symm.trans (h ▸ readNet_str m))

/-- A network whose host bits are written as zeros. -/
def readStrict (s : String) : Option Net :=
  (readNet s).filter fun n =>
    parseAddr n.fam (String.ofList ((s.toList.splitOn '/').headD [])) = some n.addr

lemma readStrict_str (n : Net) : readStrict n.str = some n := by
  have haddr : parseAddr n.fam n.addr.str = some n.addr := parseAddr_str n.addr
  rw [readStrict, readNet_str, Option.filter_some, splitOn_str, List.headD_cons,
    String.ofList_toList, if_pos (by simpa using haddr)]

/-- The text of a single address is read as the network of that address. -/
lemma readNet_addr_str (a : Addr) : readNet a.str = some a.host := by
  have hfam : (if ':' ∈ a.str.toList then Family.v6 else .v4) = a.fam := by
    rw [if_congr (colon_mem_str a) rfl rfl]
    cases a.fam <;> rfl
  rw [readNet_eq_some_iff, hfam]
  exact parseNet_str a

end Ip
