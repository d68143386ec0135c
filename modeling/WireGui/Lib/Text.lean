import Mathlib.Data.Int.Notation
import Mathlib.Data.List.Basic

/-!
# Python's `str.strip`, `str.split` and `int`
-/

/-- `str.isspace` of one character. -/
def isSpace (c : Char) : Bool :=
  c.toNat ∈ [0x20, 0x85, 0xa0, 0x1680, 0x2028, 0x2029, 0x202f, 0x205f, 0x3000] ∨
    (9 ≤ c.toNat ∧ c.toNat ≤ 13) ∨ (0x1c ≤ c.toNat ∧ c.toNat ≤ 0x1f) ∨
    (0x2000 ≤ c.toNat ∧ c.toNat ≤ 0x200a)

/-- The visible characters of ASCII are no blanks. -/
lemma isSpace_eq_false {c : Char} (h : 0x21 ≤ c.toNat) (h' : c.toNat < 0x80) :
    isSpace c = false := by
  unfold isSpace
  simp only [List.mem_cons, List.not_mem_nil, or_false, decide_eq_false_iff_not]
  omega

/-- `str.strip()`. -/
def strip (s : String) : String :=
  String.ofList ((s.toList.dropWhile isSpace).reverse.dropWhile isSpace).reverse

example : strip "  10.0.0.0/8 \n" = "10.0.0.0/8" := by decide

/-- `str.split()[0]`, for a text that is not blank. -/
def firstWord (s : String) : String :=
  String.ofList ((s.toList.dropWhile isSpace).takeWhile fun c => ¬ isSpace c)

/-- Where the digits of a script begin. -/
def decimalZeros : List ℕ :=
  [0x30, 0x660, 0x6f0, 0x7c0, 0x966, 0x9e6, 0xa66, 0xae6, 0xb66, 0xbe6, 0xc66, 0xce6, 0xd66, 0xde6,
    0xe50, 0xed0, 0xf20, 0x1040, 0x1090, 0x17e0, 0x1810, 0x1946, 0x19d0, 0x1a80, 0x1a90, 0x1b50,
    0x1bb0, 0x1c40, 0x1c50, 0xa620, 0xa8d0, 0xa900, 0xa9d0, 0xa9f0, 0xaa50, 0xabf0, 0xff10, 0x104a0,
    0x10d30, 0x11066, 0x110f0, 0x11136, 0x111d0, 0x112f0, 0x11450, 0x114d0, 0x11650, 0x116c0,
    0x11730, 0x118e0, 0x11950, 0x11c50, 0x11d50, 0x11da0, 0x11f50, 0x16a60, 0x16ac0, 0x16b50,
    0x1d7ce, 0x1d7d8, 0x1d7e2, 0x1d7ec, 0x1d7f6, 0x1e140, 0x1e2f0, 0x1e4f0, 0x1e950, 0x1fbf0]

def decimalValue (c : Char) : Option ℕ :=
  (decimalZeros.find? fun d => d ≤ c.toNat ∧ c.toNat < d + 10).map (c.toNat - ·)

/-- `int()` of a text; `none` is a `ValueError`.  The digits may be grouped by single underscores. -/
def readInt (s : String) : Option ℤ := do
  let (sign, digits) := match (strip s).toList with
    | '-' :: digits => (-1, digits)
    | '+' :: digits => (1, digits)
    | digits => (1, digits)
  let groups ← (digits.splitOn '_').mapM fun group =>
    if group = [] then none else group.mapM decimalValue
  let digits := groups.flatten
  if 4300 < digits.length then none
  else return sign * (digits.foldl (fun n d => 10 * n + d) 0 : ℕ)

example : readInt " -1_280 " = some (-1280) ∧ readInt "1__0" = none ∧ readInt "" = none := by decide

/-- A text without blanks at its ends is its own `strip`. -/
lemma strip_eq_self {s : String} (h : ∀ c ∈ s.toList.head?, isSpace c = false)
    (h' : ∀ c ∈ s.toList.getLast?, isSpace c = false) : strip s = s := by
  have key : ∀ l : List Char, (∀ c ∈ l.head?, isSpace c = false) → l.dropWhile isSpace = l := by
    intro l hl
    cases l with
    | nil => rfl
    | cons c cs => simp [hl c rfl]
  have hrev : ∀ c ∈ s.toList.reverse.head?, isSpace c = false := by
    intro c hc
    rw [List.head?_reverse] at hc
    exact h' c hc
  rw [strip, key _ h, key _ hrev, List.reverse_reverse, String.ofList_toList]

/-- The first word, up to the first blank. -/
lemma firstWord_append {s t : String} (h : ∀ c ∈ s.toList, isSpace c = false) (hs : s ≠ "")
    (ht : ∀ c ∈ t.toList.head?, isSpace c = true) : firstWord (s ++ t) = s := by
  have hdrop : (s.toList ++ t.toList).dropWhile isSpace = s.toList ++ t.toList := by
    cases hl : s.toList with
    | nil => exact absurd (by simpa using congrArg String.ofList hl) hs
    | cons c cs =>
      have hc := h c (by rw [hl]; exact List.mem_cons_self)
      simp [hc]
  have htake : t.toList.takeWhile (fun c => decide ¬ isSpace c = true) = [] := by
    cases hl : t.toList with
    | nil => rfl
    | cons c cs =>
      have hc := ht c (by rw [hl]; rfl)
      simp [hc]
  rw [firstWord, String.toList_append, hdrop, List.takeWhile_append_of_pos, htake, List.append_nil,
    String.ofList_toList]
  intro c hc
  simp [h c hc]
