import Mathlib.Data.List.Basic
import Mathlib.Data.List.GetD
import Mathlib.Tactic.Basic
import Mathlib.Tactic.IntervalCases
import WireGui.Lib.List

/-!
# Base 64

`b64encode` writes three bytes as four characters and fills up the last group with `=`.  `b64decode`
goes through the characters one by one as Python's does: it passes over those that it does not know,
stops at the padding and refuses a group that is not complete.  `b64decode_b64encode`: what is
written is read back.

A byte is a number below 256.
-/

namespace Base64

def alphabet : List Char :=
  "ABCDEFGHIJKLMNOPQRSTUVWXYZabcdefghijklmnopqrstuvwxyz0123456789+/".toList

/-- The character for six bits. -/
def digit (n : ℕ) : Char := alphabet.getD n '='

/-- The six bits of a character. -/
def digitVal (c : Char) : Option ℕ := alphabet.findIdx? (· = c)

def b64encode : List ℕ → List Char
  | [] => []
  | [a] => [digit (a / 4), digit (a % 4 * 16), '=', '=']
  | [a, b] => [digit (a / 4), digit (a % 4 * 16 + b / 16), digit (b % 16 * 4), '=']
  | a :: b :: c :: bs =>
    digit (a / 4) :: digit (a % 4 * 16 + b / 16) :: digit (b % 16 * 4 + c / 64) :: digit (c % 64) ::
      b64encode bs

/-- What is read after `pos` characters of a group; `left` are the bits that they leave over, and
`pads` the characters `=` since. -/
def decodeFrom (pos left pads : ℕ) : List Char → Option (List ℕ)
  | [] => if pos = 0 then some [] else none
  | c :: cs =>
    if c = '=' then
      if pos < 2 then decodeFrom pos left pads cs
      else if 4 ≤ pos + (pads + 1) then some []
      else decodeFrom pos left (pads + 1) cs
    else
      match digitVal c with
      | none => decodeFrom pos left pads cs
      | some v =>
        match pos with
        | 0 => decodeFrom 1 v 0 cs
        | 1 => (decodeFrom 2 (v % 16) 0 cs).map ((left * 4 + v / 16) :: ·)
        | 2 => (decodeFrom 3 (v % 4) 0 cs).map ((left * 16 + v / 4) :: ·)
        | _ => (decodeFrom 0 0 0 cs).map ((left * 64 + v) :: ·)

/-- `base64.b64decode`; `none` is an error in the padding. -/
def b64decode (cs : List Char) : Option (List ℕ) := decodeFrom 0 0 0 cs

example : b64decode "TWF u\nTQ==".toList = some [0x4d, 0x61, 0x6e, 0x4d] := by decide

section RoundTrip

variable {n pos left pads : ℕ} {cs : List Char} {bs : List ℕ}

lemma digitVal_digit (h : n < 64) : digitVal (digit n) = some n := by
  interval_cases n <;> decide

lemma digit_ne_pad (h : n < 64) : digit n ≠ '=' := by
  interval_cases n <;> decide

lemma digit_mem (n : ℕ) : digit n ∈ alphabet ∨ digit n = '=' := by
  unfold digit
  by_cases h : n < alphabet.length
  · rw [List.getD_eq_getElem _ _ h]
    exact .inl (List.getElem_mem h)
  · rw [List.getD_eq_default _ _ (not_lt.1 h)]
    exact .inr rfl

/-- What is written are characters of the alphabet and the padding. -/
lemma mem_alphabet_of_mem_b64encode {c : Char} (h : c ∈ b64encode bs) : c ∈ alphabet ∨ c = '=' := by
  induction bs using b64encode.induct with
  | case1 => cases h
  | case2 a =>
    simp only [b64encode, List.mem_cons, List.not_mem_nil, or_false] at h
    rcases h with rfl | rfl | rfl | rfl
    · exact digit_mem _
    · exact digit_mem _
    · exact .inr rfl
    · exact .inr rfl
  | case3 a b =>
    simp only [b64encode, List.mem_cons, List.not_mem_nil, or_false] at h
    rcases h with rfl | rfl | rfl | rfl
    · exact digit_mem _
    · exact digit_mem _
    · exact digit_mem _
    · exact .inr rfl
  | case4 a b c' bs ih =>
    simp only [b64encode, List.mem_cons] at h
    rcases h with rfl | rfl | rfl | rfl | h
    · exact digit_mem _
    · exact digit_mem _
    · exact digit_mem _
    · exact digit_mem _
    · exact ih h

/-! A character of the alphabet is read by its place in the group. -/

lemma decodeFrom_first (h : n < 64) :
    decodeFrom 0 left pads (digit n :: cs) = decodeFrom 1 n 0 cs := by
  simp only [decodeFrom, if_neg (digit_ne_pad h), digitVal_digit h]

lemma decodeFrom_second (h : n < 64) : decodeFrom 1 left pads (digit n :: cs) =
    (decodeFrom 2 (n % 16) 0 cs).map ((left * 4 + n / 16) :: ·) := by
  simp only [decodeFrom, if_neg (digit_ne_pad h), digitVal_digit h]

lemma decodeFrom_third (h : n < 64) : decodeFrom 2 left pads (digit n :: cs) =
    (decodeFrom 3 (n % 4) 0 cs).map ((left * 16 + n / 4) :: ·) := by
  simp only [decodeFrom, if_neg (digit_ne_pad h), digitVal_digit h]

lemma decodeFrom_fourth (h : n < 64) : decodeFrom 3 left pads (digit n :: cs) =
    (decodeFrom 0 0 0 cs).map ((left * 64 + n) :: ·) := by
  simp only [decodeFrom, if_neg (digit_ne_pad h), digitVal_digit h]

/-- **What is written is read back.** -/
theorem b64decode_b64encode (h : ∀ b ∈ bs, b < 256) : b64decode (b64encode bs) = some bs := by
  unfold b64decode
  induction bs using b64encode.induct with
  | case1 => rfl
  | case2 a =>
    have ha := h a List.mem_cons_self
    rw [b64encode, decodeFrom_first (by omega), decodeFrom_second (by omega)]
    have hpad : decodeFrom 2 (a % 4 * 16 % 16) 0 ['=', '='] = some [] := rfl
    have hfirst : a / 4 * 4 + a % 4 * 16 / 16 = a := by omega
    simp only [hpad, Option.map_some, hfirst]
  | case3 a b =>
    have ha := h a List.mem_cons_self
    have hb := h b (List.mem_cons_of_mem _ List.mem_cons_self)
    rw [b64encode, decodeFrom_first (by omega), decodeFrom_second (by omega),
      decodeFrom_third (by omega)]
    have hpad : decodeFrom 3 (b % 16 * 4 % 4) 0 ['='] = some [] := rfl
    have hfirst : a / 4 * 4 + (a % 4 * 16 + b / 16) / 16 = a := by omega
    have hsecond : (a % 4 * 16 + b / 16) % 16 * 16 + b % 16 * 4 / 4 = b := by omega
    simp only [hpad, Option.map_some, hfirst, hsecond]
  | case4 a b c bs ih =>
    have ha := h a List.mem_cons_self
    have hb := h b (List.mem_cons_of_mem _ List.mem_cons_self)
    have hc := h c (List.mem_cons_of_mem _ (List.mem_cons_of_mem _ List.mem_cons_self))
    have hbs : ∀ b ∈ bs, b < 256 := fun b hb =>
      h b (List.mem_cons_of_mem _ (List.mem_cons_of_mem _ (List.mem_cons_of_mem _ hb)))
    have hfirst : a / 4 * 4 + (a % 4 * 16 + b / 16) / 16 = a := by omega
    have hsecond : (a % 4 * 16 + b / 16) % 16 * 16 + (b % 16 * 4 + c / 64) / 4 = b := by omega
    have hthird : (b % 16 * 4 + c / 64) % 4 * 64 + c % 64 = c := by omega
    rw [b64encode, decodeFrom_first (by omega), decodeFrom_second (by omega),
      decodeFrom_third (by omega), decodeFrom_fourth (by omega), ih hbs]
    simp only [Option.map_some, hfirst, hsecond, hthird]

lemma length_b64encode (bs : List ℕ) : (b64encode bs).length = 4 * ((bs.length + 2) / 3) := by
  induction bs using b64encode.induct with
  | case1 => rfl
  | case2 a => simp [b64encode]
  | case3 a b => simp [b64encode]
  | case4 a b c bs ih =>
    simp only [b64encode, List.length_cons, ih]
    omega

end RoundTrip

end Base64
