import WireGui.Ip.Text
import WireGui.Lib.Text
import Mathlib.Data.List.DropRight

/-!
# Lines, items and numbers

Python's `str.splitlines`, on what a command prints, items between commas, and numbers that were
printed.
-/

/-! ### Lines -/

/-- The characters at which `str.splitlines` divides. -/
def isLineBreak (c : Char) : Bool :=
  (0xa ≤ c.toNat ∧ c.toNat ≤ 0xd) ∨ (0x1c ≤ c.toNat ∧ c.toNat ≤ 0x1e) ∨
    c.toNat ∈ [0x85, 0x2028, 0x2029]

/-- The lines of a text; a carriage return and a newline are one break. -/
def lineChars : List Char → List (List Char)
  | [] => []
  | '\r' :: '\n' :: cs => [] :: lineChars cs
  | c :: cs =>
    if isLineBreak c then [] :: lineChars cs
    else
      match lineChars cs with
      | [] => [[c]]
      | l :: ls => (c :: l) :: ls

/-- `str.splitlines()`. -/
def splitLines (s : String) : List String := (lineChars s.toList).map String.ofList

example : splitLines "a\r\n\nb\n" = ["a", "", "b"] := by decide

section Lines

variable {c : Char} {l r first : List Char} {lines : List (List Char)}

lemma isLineBreak_of_isSpace (h : isSpace c = false) : isLineBreak c = false := by
  unfold isSpace at h
  unfold isLineBreak
  simp only [List.mem_cons, List.not_mem_nil, or_false, decide_eq_false_iff_not] at h ⊢
  omega

/-- A character that does not divide belongs to the first line. -/
lemma lineChars_cons (h : isLineBreak c = false) (cs : List Char) :
    lineChars (c :: cs) = match lineChars cs with
      | [] => [[c]]
      | l :: ls => (c :: l) :: ls := by
  rw [lineChars.eq_def]
  split
  next he => cases he
  next he =>
    cases he
    exact absurd h (by decide)
  next he =>
    cases he
    rw [if_neg (by simp [h])]

lemma lineChars_eq_singleton (h : ∀ c ∈ l, isLineBreak c = false) (hl : l ≠ []) :
    lineChars l = [l] := by
  induction l with
  | nil => exact absurd rfl hl
  | cons c l ih =>
    rw [lineChars_cons (h c List.mem_cons_self)]
    cases l with
    | nil => rfl
    | cons d l => rw [ih (fun e he => h e (List.mem_cons_of_mem _ he)) (List.cons_ne_nil _ _)]

/-- The first line, up to the first newline. -/
lemma lineChars_append (h : ∀ c ∈ l, isLineBreak c = false) (r : List Char) :
    lineChars (l ++ '\n' :: r) = l :: lineChars r := by
  induction l with
  | nil =>
    rw [List.nil_append, lineChars.eq_def]
    rfl
  | cons c l ih =>
    rw [List.cons_append, lineChars_cons (h c List.mem_cons_self),
      ih fun e he => h e (List.mem_cons_of_mem _ he)]

/-! ### Blanks at the ends -/

lemma strip_eq (s : String) :
    strip s = String.ofList ((s.toList.dropWhile isSpace).rdropWhile isSpace) := rfl

lemma dropWhile_append_of_exists {p : Char → Bool} (h : ∃ c ∈ l, p c = false) :
    (l ++ r).dropWhile p = l.dropWhile p ++ r := by
  have hne : l.dropWhile p ≠ [] := by
    obtain ⟨c, hc, hp⟩ := h
    intro hnil
    have := List.dropWhile_eq_nil_iff.1 hnil c hc
    rw [hp] at this
    cases this
  rw [List.dropWhile_append, if_neg (by simpa using hne)]

lemma rdropWhile_append_of_exists {p : Char → Bool} (h : ∃ c ∈ r, p c = false) :
    (l ++ r).rdropWhile p = l ++ r.rdropWhile p := by
  obtain ⟨c, hc, hp⟩ := h
  rw [List.rdropWhile, List.reverse_append,
    dropWhile_append_of_exists ⟨c, List.mem_reverse.2 hc, hp⟩, List.reverse_append,
    List.reverse_reverse, List.rdropWhile]

/-- A line as a command prints it: without blanks at its end, and without breaks. -/
structure IsLine (l : List Char) : Prop where
  last : ∃ c ∈ l.getLast?, isSpace c = false
  noBreak : ∀ c ∈ l, isLineBreak c = false

lemma IsLine.exists_mem (h : IsLine l) : ∃ c ∈ l, isSpace c = false := by
  obtain ⟨c, hc, hs⟩ := h.last
  exact ⟨c, List.mem_of_getLast? hc, hs⟩

lemma IsLine.ne_nil (h : IsLine l) : l ≠ [] := by
  rintro rfl
  obtain ⟨c, hc, -⟩ := h.last
  cases hc

/-- Blanks at the end are what follows the line. -/
lemma IsLine.rdropWhile_append (h : IsLine l) : (l ++ ['\n']).rdropWhile isSpace = l := by
  rw [List.rdropWhile_concat_pos _ _ _ (by decide), List.rdropWhile_eq_self_iff]
  intro hl
  obtain ⟨c, hc, hs⟩ := h.last
  rw [List.getLast?_eq_some_getLast hl] at hc
  rw [Option.some.inj hc, hs]
  exact Bool.false_ne_true

/-- Lines that were printed are read back after what follows the last one has been taken off. -/
lemma lineChars_rdropWhile (h : ∀ l ∈ lines, IsLine l) :
    lineChars ((lines.flatMap (· ++ ['\n'])).rdropWhile isSpace) = lines := by
  induction lines with
  | nil => rfl
  | cons l lines ih =>
    have hl := h l List.mem_cons_self
    have hlines : ∀ l ∈ lines, IsLine l := fun m hm => h m (List.mem_cons_of_mem _ hm)
    rw [List.flatMap_cons]
    cases lines with
    | nil =>
      rw [List.flatMap_nil, List.append_nil, hl.rdropWhile_append]
      exact lineChars_eq_singleton hl.noBreak hl.ne_nil
    | cons m lines =>
      obtain ⟨c, hc, hs⟩ := (hlines m List.mem_cons_self).exists_mem
      have hrest : ∃ c ∈ (m :: lines).flatMap (· ++ ['\n']), isSpace c = false :=
        ⟨c, by simp [hc], hs⟩
      rw [rdropWhile_append_of_exists hrest, List.append_assoc, List.singleton_append,
        lineChars_append hl.noBreak, ih hlines]

/-- **All lines but the first** are read back as they were printed, whatever blanks the first one
begins or ends with. -/
theorem splitLines_strip_tail (hfirst : ∀ c ∈ first, isLineBreak c = false)
    (hne : ∃ c ∈ first, isSpace c = false) (h : ∀ l ∈ lines, IsLine l) :
    (splitLines (strip (String.ofList ((first :: lines).flatMap (· ++ ['\n']))))).tail =
      lines.map String.ofList := by
  have hfirst' : ∀ c ∈ first.dropWhile isSpace, isLineBreak c = false := fun c hc =>
    hfirst c (List.dropWhile_sublist _ |>.subset hc)
  rw [splitLines, strip_eq, String.toList_ofList, String.toList_ofList, List.flatMap_cons,
    List.append_assoc, dropWhile_append_of_exists hne, List.singleton_append]
  cases lines with
  | nil =>
    have hbreak : ∀ c ∈ (first.dropWhile isSpace ++ ['\n']).rdropWhile isSpace,
        isLineBreak c = false := by
      intro c hc
      rw [List.rdropWhile_concat_pos _ _ _ (by decide)] at hc
      exact hfirst' c ((List.rdropWhile_prefix isSpace _).subset hc)
    rw [List.flatMap_nil]
    cases hl : (first.dropWhile isSpace ++ ['\n']).rdropWhile isSpace with
    | nil => rfl
    | cons c cs => rw [← hl, lineChars_eq_singleton hbreak (by simp [hl])]; rfl
  | cons m lines =>
    obtain ⟨c, hc, hs⟩ := (h m List.mem_cons_self).exists_mem
    have hrest : ∃ c ∈ (m :: lines).flatMap (· ++ ['\n']), isSpace c = false :=
      ⟨c, by simp [hc], hs⟩
    rw [← List.singleton_append, ← List.append_assoc, rdropWhile_append_of_exists hrest,
      List.append_assoc, List.singleton_append, lineChars_append hfirst', lineChars_rdropWhile h]
    rfl

end Lines

/-! ### Numbers -/

lemma decimalValue_digitChar {d : ℕ} (h : d < 10) : decimalValue d.digitChar = some d := by
  interval_cases d <;> decide

lemma visible_of_mem_repr {n : ℕ} {c : Char} (h : c ∈ n.repr.toList) :
    0x30 ≤ c.toNat ∧ c.toNat ≤ 0x39 := by
  rw [Nat.toList_repr] at h
  obtain ⟨d, hd, rfl⟩ := Ip.mem_toDigits (by omega) (by omega) h
  interval_cases d <;> decide

/-- The text of a number has no blanks. -/
lemma isSpace_of_mem_repr {n : ℕ} {c : Char} (h : c ∈ n.repr.toList) : isSpace c = false :=
  isSpace_eq_false (by have := visible_of_mem_repr h; omega) (by have := visible_of_mem_repr h; omega)

/-- **A number that was printed** is read, if it has no more digits than `int` takes. -/
theorem readInt_repr {n : ℕ} (h : n < 10 ^ 4300) : readInt n.repr = some (n : ℤ) := by
  obtain ⟨ds, hds, hvalue, -⟩ := Ip.mapM_digitVal_toDigits (b := 10) (by omega) (by omega) n
  have hstrip : strip n.repr = n.repr :=
    strip_eq_self (fun c hc => isSpace_of_mem_repr (List.mem_of_head? hc))
      fun c hc => isSpace_of_mem_repr (List.mem_of_getLast? hc)
  have hdecimal : (Nat.toDigits 10 n).mapM decimalValue = some ds := by
    have hsame := List.mapM_of_mapM (g := decimalValue) (h := id) hds fun c hc d hd => ?_
    · rwa [List.map_id] at hsame
    · obtain ⟨e, he, rfl⟩ := Ip.mem_toDigits (by omega) (by omega) hc
      rw [Ip.digitVal_digitChar (by omega)] at hd
      rw [decimalValue_digitChar he, hd, id]
  have hlen : ds.length ≤ 4300 := by
    rw [← (List.mapM_eq_some_iff.1 hdecimal).length_eq]
    exact Ip.length_toDigits_le (by omega) (by omega) h
  have hfold : ds.foldl (fun n d => 10 * n + d) 0 = n := by
    rw [← hvalue, Ip.value]
    simp only [mul_comm]
  -- no digit is a sign or groups the others
  have hsign : ∀ c, c.toNat < 0x30 ∨ 0x39 < c.toNat → c ∉ Nat.toDigits 10 n := by
    intro c hc hmem
    have := visible_of_mem_repr (n := n) (c := c) (by rwa [Nat.toList_repr])
    omega
  have hsplit : (Nat.toDigits 10 n).splitOn '_' = [Nat.toDigits 10 n] :=
    List.splitOn_eq_singleton (hsign '_' (by decide))
  unfold readInt
  rw [hstrip, Nat.toList_repr]
  split
  next sign digits heq =>
    have hdigits : sign = 1 ∧ digits = Nat.toDigits 10 n := by
      split at heq
      next he => exact absurd (he ▸ List.mem_cons_self) (hsign '-' (by decide))
      next he => exact absurd (he ▸ List.mem_cons_self) (hsign '+' (by decide))
      next =>
        cases heq
        exact ⟨rfl, rfl⟩
    obtain ⟨rfl, rfl⟩ := hdigits
    simp [hsplit, hdecimal, Nat.toDigits_ne_nil, hlen, hfold]

/-- A number with an optional sign, of any size. -/
def readInteger : List Char → Option ℤ
  | '-' :: cs => (Ip.readDigits 10 cs).map fun n : ℕ => -(n : ℤ)
  | '+' :: cs => (Ip.readDigits 10 cs).map Nat.cast
  | cs => (Ip.readDigits 10 cs).map Nat.cast

section Integers

variable {n : ℤ} {m : ℕ} {c : Char}

/-- The text of a number is its digits, after a sign if it is negative. -/
lemma toList_toString (n : ℤ) : (toString n).toList =
    if n < 0 then '-' :: Nat.toDigits 10 n.natAbs else Nat.toDigits 10 n.natAbs := by
  cases n with
  | ofNat m =>
    rw [if_neg (by simp)]
    exact Nat.toList_repr
  | negSucc m =>
    rw [if_pos (Int.negSucc_lt_zero m)]
    exact String.toList_append.trans (congrArg ('-' :: ·) Nat.toList_repr)

lemma isDigit_of_mem_toDigits (h : c ∈ Nat.toDigits 10 m) : c.isDigit = true := by
  obtain ⟨d, hd, rfl⟩ := Ip.mem_toDigits (by decide) (by decide) h
  interval_cases d <;> decide

/-- The first digit is no sign. -/
lemma exists_toDigits (m : ℕ) : ∃ c cs, Nat.toDigits 10 m = c :: cs ∧ c.isDigit = true := by
  obtain ⟨c, cs, h⟩ := List.exists_cons_of_ne_nil (Nat.toDigits_ne_nil (n := m) (b := 10))
  exact ⟨c, cs, h, isDigit_of_mem_toDigits (h ▸ List.mem_cons_self)⟩

lemma readInteger_toString (n : ℤ) : readInteger (toString n).toList = some n := by
  have hread : Ip.readDigits 10 (Nat.toDigits 10 n.natAbs) = some n.natAbs :=
    Ip.readDigits_toDigits (by decide) (by decide) _
  rw [toList_toString]
  split
  next hn =>
    rw [readInteger, hread, Option.map_some]
    exact congrArg some (by omega)
  next hn =>
    have habs : (n.natAbs : ℤ) = n := Int.natAbs_of_nonneg (not_lt.1 hn)
    obtain ⟨c, cs, hds, hc⟩ := exists_toDigits n.natAbs
    rw [hds] at hread ⊢
    rw [readInteger, hread, Option.map_some, habs]
    · rintro cs' he
      cases he
      exact absurd hc (by decide)
    · rintro cs' he
      cases he
      exact absurd hc (by decide)

lemma mem_toString {n : ℤ} {c : Char} (h : c ∈ (toString n).toList) :
    c = '-' ∨ c.isDigit = true := by
  rw [toList_toString] at h
  split at h
  · rcases List.mem_cons.1 h with rfl | h
    · exact .inl rfl
    · exact .inr (isDigit_of_mem_toDigits h)
  · exact .inr (isDigit_of_mem_toDigits h)

lemma notMem_toString {c : Char} (hdash : c ≠ '-') (hdigit : c.isDigit = false) (n : ℤ) :
    c ∉ (toString n).toList := by
  intro h
  rcases mem_toString h with h | h
  · exact hdash h
  · rw [hdigit] at h
    cases h

end Integers

/-! ### Newlines -/

/-- Lines that are joined, and the last one ended. -/
lemma toList_intercalate_newline {ls : List String} (h : ls ≠ []) :
    ("\n".intercalate ls ++ "\n").toList = ls.flatMap fun l => l.toList ++ ['\n'] := by
  induction ls with
  | nil => exact absurd rfl h
  | cons l ls ih =>
    cases ls with
    | nil => simp
    | cons m ls =>
      rw [String.intercalate_cons_cons, String.append_assoc, String.toList_append,
        ih (List.cons_ne_nil m ls), List.flatMap_cons, String.toList_append]
      rfl

/-- Lines that are each ended, and what stands after the last one. -/
lemma splitOn_flatMap_newline {α : Type} (f : α → List Char) (xs : List α) :
    (xs.flatMap fun x => f x ++ ['\n']).splitOn '\n' =
      (xs.flatMap fun x => (f x).splitOn '\n') ++ [[]] := by
  induction xs with
  | nil => rfl
  | cons x xs ih =>
    rw [List.flatMap_cons, List.append_assoc, List.singleton_append, List.splitOn_append_cons_self,
      ih, List.flatMap_cons, List.append_assoc]

/-- The lines of a text of several. -/
lemma splitOn_newline_lines {ls : List String} (hne : ls ≠ []) (h : ∀ l ∈ ls, '\n' ∉ l.toList) :
    ("\n".intercalate ls ++ "\n").toList.splitOn '\n' = ls.map String.toList ++ [[]] := by
  rw [toList_intercalate_newline hne, splitOn_flatMap_newline, List.map_eq_flatMap,
    List.flatMap_congr fun l hl => List.splitOn_eq_singleton (h l hl)]

/-! ### Items -/

/-- The items between commas, without the blanks around them. -/
def splitCommas (s : String) : List String :=
  (s.toList.splitOn ',').map fun part => strip (String.ofList part)

lemma strip_cons_blank (s : String) : strip (String.ofList (' ' :: s.toList)) = strip s := by
  have hdrop : (' ' :: s.toList).dropWhile isSpace = s.toList.dropWhile isSpace :=
    List.dropWhile_cons_of_pos (by decide)
  rw [strip, String.toList_ofList, hdrop, strip]

/-- **Items that are joined** are cut apart again. -/
theorem splitCommas_join {items : List String} (hne : items ≠ [])
    (hcomma : ∀ s ∈ items, ',' ∉ s.toList) (hstrip : ∀ s ∈ items, strip s = s) :
    splitCommas (", ".intercalate items) = items := by
  cases items with
  | nil => exact absurd rfl hne
  | cons s items =>
    have hjoin : (", ".intercalate (s :: items)).toList =
        [','].intercalate (s.toList :: items.map fun t => ' ' :: t.toList) := by
      rw [String.toList_intercalate, List.map_cons]
      refine (List.intercalate_pair ',' ' ' _ _).trans ?_
      rw [List.map_map]
      rfl
    have hsplit : (", ".intercalate (s :: items)).toList.splitOn ',' =
        s.toList :: items.map fun t => ' ' :: t.toList := by
      rw [hjoin]
      refine List.splitOn_intercalate ',' (fun l hl => ?_) (List.cons_ne_nil _ _)
      rcases List.mem_cons.1 hl with rfl | hl
      · exact hcomma s List.mem_cons_self
      · obtain ⟨t, ht, rfl⟩ := List.mem_map.1 hl
        exact fun hm => (List.mem_cons.1 hm).elim (by decide) (hcomma t (List.mem_cons_of_mem _ ht))
    have hrest : (items.map fun t => ' ' :: t.toList).map
        (fun part => strip (String.ofList part)) = items := by
      rw [List.map_map]
      refine (List.map_congr_left fun t ht => ?_).trans (List.map_id items)
      rw [Function.comp_apply, strip_cons_blank, hstrip t (List.mem_cons_of_mem _ ht), id]
    rw [splitCommas, hsplit, List.map_cons, String.ofList_toList, hstrip s List.mem_cons_self, hrest]
