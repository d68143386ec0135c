import WireGui.Lib.Lines
import Mathlib.Algebra.Field.Rat

/-!
# Metrics as text

The exposition format of Prometheus: a line for each sample, with a name, labels, a value and maybe a
time.  In the value of a label, backslashes, quotes and newlines are to be escaped.

* `parse_text_iff`: samples that are printed as they are can be read back if and only if no label
  needs an escape.
-/

namespace Prometheus

/-! ### The format -/

/-- A value, as it is written. -/
inductive Number
  | finite (q : ℚ)
  | inf (negative : Bool)
  | nan
  deriving DecidableEq

structure Sample where
  name : String
  labels : List (String × String)
  value : Number
  timestamp : Option ℤ
  deriving DecidableEq

def isBlank (c : Char) : Bool := c = ' ' || c = '\t'

def skipBlanks (cs : List Char) : List Char := cs.dropWhile isBlank

def isLabelChar (c : Char) : Bool := c.isAlphanum || c = '_'

def isMetricChar (c : Char) : Bool := isLabelChar c || c = ':'

/-- A name: not empty, and it does not start with a digit. -/
def IsName (p : Char → Bool) (cs : List Char) : Prop :=
  (∀ c ∈ cs, p c = true) ∧ ∃ c ∈ cs.head?, c.isDigit = false

instance (p : Char → Bool) (cs : List Char) : Decidable (IsName p cs) := by
  unfold IsName; infer_instance

def readName (p : Char → Bool) (cs : List Char) : Option (List Char × List Char) :=
  if IsName p (cs.takeWhile p) then some (cs.takeWhile p, cs.dropWhile p) else none

def readChar (c : Char) : List Char → Option (List Char)
  | [] => none
  | d :: cs => if d = c then some cs else none

/-- The rest of a quoted text. -/
def readQuoted : List Char → Option (List Char × List Char)
  | [] => none
  | '"' :: cs => some ([], cs)
  | '\n' :: _ => none
  | '\\' :: '\\' :: cs => (readQuoted cs).map fun r => ('\\' :: r.1, r.2)
  | '\\' :: '"' :: cs => (readQuoted cs).map fun r => ('"' :: r.1, r.2)
  | '\\' :: 'n' :: cs => (readQuoted cs).map fun r => ('\n' :: r.1, r.2)
  | '\\' :: _ => none
  | c :: cs => (readQuoted cs).map fun r => (c :: r.1, r.2)

def readLabel (cs : List Char) : Option ((String × String) × List Char) := do
  let (name, cs) ← readName isLabelChar (skipBlanks cs)
  let cs ← readChar '=' (skipBlanks cs)
  let cs ← readChar '"' (skipBlanks cs)
  let (value, cs) ← readQuoted cs
  return ((String.ofList name, String.ofList value), cs)

/-- The labels up to the closing brace; one comma may follow the last of them. -/
def readLabels : ℕ → List Char → Option (List (String × String) × List Char)
  | 0, _ => none
  | fuel + 1, cs =>
    match skipBlanks cs with
    | '}' :: cs => some ([], cs)
    | _ => do
      let (label, cs) ← readLabel cs
      match skipBlanks cs with
      | '}' :: cs => return ([label], cs)
      | ',' :: cs => (readLabels fuel cs).map fun r => (label :: r.1, r.2)
      | _ => none

/-- Digits, and maybe more of them after a point. -/
def readMantissa (cs : List Char) : Option ℚ :=
  match cs.splitOn '.' with
  | [whole] => (Ip.readDigits 10 whole).map Nat.cast
  | [whole, part] => (Ip.readDigits 10 (whole ++ part)).map fun n => n / 10 ^ part.length
  | _ => none

def readDecimal (cs : List Char) : Option ℚ :=
  match cs.splitOnP (fun c => c = 'e' || c = 'E') with
  | [mantissa] => readMantissa mantissa
  | [mantissa, exponent] => do
    let m ← readMantissa mantissa
    let e ← readInteger exponent
    return m * 10 ^ e
  | _ => none

def readMagnitude (negative : Bool) (cs : List Char) : Option Number :=
  let word := cs.map Char.toLower
  if word = "nan".toList then some .nan
  else if word = "inf".toList ∨ word = "infinity".toList then some (.inf negative)
  else (readDecimal cs).map fun q => .finite (if negative then -q else q)

def readNumber : List Char → Option Number
  | '-' :: cs => readMagnitude true cs
  | '+' :: cs => readMagnitude false cs
  | cs => readMagnitude false cs

/-- What stands between blanks. -/
def words (cs : List Char) : List (List Char) := (cs.splitOnP isBlank).filter (· ≠ [])

/-- The labels, if there are braces. -/
def readBraces (cs : List Char) : Option (List (String × String) × List Char) :=
  match skipBlanks cs with
  | '{' :: cs => readLabels (cs.length + 1) cs
  | _ => some ([], cs)

/-- A value, and maybe a time in milliseconds. -/
def readValue (cs : List Char) : Option (Number × Option ℤ) :=
  match words cs with
  | [value] => (readNumber value).map (·, none)
  | [value, timestamp] => do return (← readNumber value, some (← readInteger timestamp))
  | _ => none

def readSample (cs : List Char) : Option Sample := do
  let (name, cs) ← readName isMetricChar cs
  let (labels, cs) ← readBraces cs
  let (value, timestamp) ← readValue cs
  return ⟨String.ofList name, labels, value, timestamp⟩

/-- A line; nothing stands in a blank one or in a comment. -/
def parseLine (cs : List Char) : Option (Option Sample) :=
  match skipBlanks cs with
  | [] => some none
  | '#' :: _ => some none
  | cs => (readSample cs).map some

/-- A text, of which each line ends with a newline. -/
def parse (s : String) : Option (List Sample) :=
  let lines := s.toList.splitOn '\n'
  if lines.getLast? = some [] then (lines.dropLast.mapM parseLine).map List.reduceOption else none

/-! ### Quoted text -/

section Quoted

variable {v cs rest : List Char} {c : Char}

/-- A character of a label, with an escape if it needs one. -/
def escape (c : Char) : List Char :=
  if c = '\\' then ['\\', '\\'] else if c = '"' then ['\\', '"']
  else if c = '\n' then ['\\', 'n'] else [c]

/-- The text needs no escapes. -/
def Plain (cs : List Char) : Prop := ∀ c ∈ cs, c ≠ '\\' ∧ c ≠ '"' ∧ c ≠ '\n'

instance (cs : List Char) : Decidable (Plain cs) := by
  unfold Plain; infer_instance

lemma readQuoted_escape_append (c : Char) (cs : List Char) :
    readQuoted (escape c ++ cs) = (readQuoted cs).map fun r => (c :: r.1, r.2) := by
  unfold escape
  split
  next h => rw [h]; rfl
  next h₁ =>
    split
    next h => rw [h]; rfl
    next h₂ =>
      split
      next h => rw [h]; rfl
      next h₃ =>
        rw [List.singleton_append]
        simp [readQuoted, h₁]

/-- **What is quoted** is read exactly as it is written with escapes. -/
theorem readQuoted_eq_some_iff :
    readQuoted cs = some (v, rest) ↔ cs = v.flatMap escape ++ '"' :: rest := by
  constructor
  · intro h
    fun_induction readQuoted cs generalizing v with
    | case1 => cases h
    | case2 cs =>
      cases h
      rfl
    | case3 => cases h
    | case4 cs ih | case5 cs ih | case6 cs ih =>
      obtain ⟨⟨v', rest'⟩, hv, he⟩ := Option.map_eq_some_iff.1 h
      cases he
      rw [ih hv]
      rfl
    | case7 => cases h
    | case8 c cs h₁ h₂ _ _ _ h₃ ih =>
      obtain ⟨⟨v', rest'⟩, hv, he⟩ := Option.map_eq_some_iff.1 h
      cases he
      rw [ih hv, List.flatMap_cons, escape, if_neg h₃, if_neg h₁, if_neg h₂]
      rfl
  · rintro rfl
    induction v with
    | nil => rfl
    | cons c v ih =>
      rw [List.flatMap_cons, List.append_assoc, readQuoted_escape_append, ih]
      rfl

lemma Plain.flatMap_escape (h : Plain v) : v.flatMap escape = v := by
  induction v with
  | nil => rfl
  | cons c v ih =>
    obtain ⟨h₁, h₂, h₃⟩ := h c List.mem_cons_self
    have hv : Plain v := fun d hd => h d (List.mem_cons_of_mem c hd)
    rw [List.flatMap_cons, ih hv, escape, if_neg h₁, if_neg h₂, if_neg h₃]
    rfl

/-- Backslashes in front shift the text for good. -/
lemma replicate_append_escape_ne (k : ℕ) (v rest rest' : List Char) :
    List.replicate (k + 1) '\\' ++ (v.flatMap escape ++ '"' :: rest) ≠ v ++ '"' :: rest' := by
  induction v generalizing k with
  | nil =>
    intro h
    rw [List.replicate_succ, List.cons_append, List.nil_append] at h
    injection h with h
    cases h
  | cons c v ih =>
    intro h
    rw [List.replicate_succ, List.cons_append, List.cons_append] at h
    injection h with hc h
    subst hc
    refine ih (k + 1) ?_
    rw [← h, List.flatMap_cons, List.replicate_add, List.replicate_add]
    simp [escape]

/-- **A text that is read as itself** needs no escapes. -/
lemma plain_of_escape_append {rest' : List Char}
    (h : v.flatMap escape ++ '"' :: rest = v ++ '"' :: rest') : Plain v := by
  induction v with
  | nil => exact fun c hc => absurd hc List.not_mem_nil
  | cons c v ih =>
    rw [List.flatMap_cons, List.append_assoc, List.cons_append] at h
    unfold escape at h
    split at h
    next hc =>
      injection h with _ h
      exact absurd h (replicate_append_escape_ne 0 v rest rest')
    next h₁ =>
      split at h
      next hc =>
        injection h with h _
        exact absurd h.symm h₁
      next h₂ =>
        split at h
        next hc =>
          injection h with h _
          exact absurd h.symm h₁
        next h₃ =>
          injection h with _ h
          exact List.forall_mem_cons.2 ⟨⟨h₁, h₂, h₃⟩, ih h⟩

end Quoted

/-! ### Samples that are printed -/

/-- A sample with an integer for its value. -/
structure Reading where
  name : String
  labels : List (String × String)
  value : ℤ
  timestamp : ℤ
  isName : IsName isMetricChar name.toList
  isLabelName : ∀ l ∈ labels, IsName isLabelChar l.1.toList

def Reading.sample (r : Reading) : Sample :=
  ⟨r.name, r.labels, .finite r.value, some r.timestamp⟩

/-- A label as it is, without escapes. -/
def labelText (l : String × String) : List Char := l.1.toList ++ '=' :: '"' :: (l.2.toList ++ ['"'])

def labelsText (labels : List (String × String)) : List Char :=
  [','].intercalate (labels.map labelText)

/-- What stands after the labels. -/
def Reading.tail (r : Reading) : List Char :=
  ' ' :: ((toString r.value).toList ++ ' ' :: (toString r.timestamp).toList)

/-- What stands after the name. -/
def Reading.afterName (r : Reading) : List Char :=
  if r.labels = [] then r.tail else '{' :: (labelsText r.labels ++ '}' :: r.tail)

def Reading.line (r : Reading) : List Char := r.name.toList ++ r.afterName

def text (rs : List Reading) : String := String.ofList (rs.flatMap fun r => r.line ++ ['\n'])

/-- No label needs an escape. -/
def Reading.PlainLabels (r : Reading) : Prop := ∀ l ∈ r.labels, Plain l.2.toList

section Names

variable {p : Char → Bool} {cs name rest rest' : List Char} {c : Char}

lemma readName_append (h : IsName p name) (hrest : ∀ c ∈ rest.head?, p c = false) :
    readName p (name ++ rest) = some (name, rest) := by
  have hdrop : rest.dropWhile p = rest := by
    cases rest with
    | nil => rfl
    | cons c rest => rw [List.dropWhile_cons_of_neg (by simp [hrest c rfl])]
  have htake : rest.takeWhile p = [] := by
    cases rest with
    | nil => rfl
    | cons c rest => rw [List.takeWhile_cons_of_neg (by simp [hrest c rfl])]
  rw [readName, List.takeWhile_append_of_pos h.1, List.dropWhile_append_of_pos h.1, htake, hdrop,
    List.append_nil, if_pos h]

lemma eq_append_of_readName (h : readName p cs = some (name, rest)) : cs = name ++ rest := by
  unfold readName at h
  split at h
  · cases h
    exact List.takeWhile_append_dropWhile.symm
  · cases h

/-- What begins as something that is not blank. -/
lemma skipBlanks_eq_self (h : cs <+: c :: rest) (hc : isBlank c = false) : skipBlanks cs = cs := by
  cases cs with
  | nil => rfl
  | cons d cs =>
    obtain ⟨rfl, -⟩ := List.cons_prefix_cons.1 h
    exact List.dropWhile_cons_of_neg (by simp [hc])

lemma skipBlanks_cons (hc : isBlank c = false) (cs : List Char) : skipBlanks (c :: cs) = c :: cs :=
  skipBlanks_eq_self (List.prefix_refl _) hc

lemma eq_cons_of_readChar (h : readChar c cs = some rest) : cs = c :: rest := by
  cases cs with
  | nil => cases h
  | cons d cs =>
    rw [readChar] at h
    split at h
    next hd =>
      cases h
      rw [hd]
    next => cases h

lemma isBlank_of_isMetricChar (h : isMetricChar c = true) : isBlank c = false := by
  by_contra hb
  rw [Bool.not_eq_false, isBlank, Bool.or_eq_true, decide_eq_true_eq, decide_eq_true_eq] at hb
  rcases hb with rfl | rfl
  · exact absurd h (by decide)
  · exact absurd h (by decide)

lemma isMetricChar_of_isLabelChar (h : isLabelChar c = true) : isMetricChar c = true := by
  rw [isMetricChar, h, Bool.true_or]

/-- A name starts with one of its characters. -/
lemma IsName.exists_cons (h : IsName p name) : ∃ c cs, name = c :: cs ∧ p c = true := by
  obtain ⟨hall, c, hc, -⟩ := h
  obtain ⟨cs, rfl⟩ := List.head?_eq_some_iff.1 hc
  exact ⟨c, cs, rfl, hall c List.mem_cons_self⟩

end Names

/-! ### Labels -/

section Labels

variable {l l' : String × String} {labels : List (String × String)} {cs rest rest' : List Char}
  {fuel : ℕ}

lemma labelText_append (l : String × String) (rest : List Char) :
    labelText l ++ rest = l.1.toList ++ '=' :: '"' :: (l.2.toList ++ '"' :: rest) := by
  simp [labelText]

lemma skipBlanks_labelText (hl : IsName isLabelChar l.1.toList) (h : cs <+: labelText l ++ rest) :
    skipBlanks cs = cs := by
  obtain ⟨c, name, hname, hc⟩ := hl.exists_cons
  rw [labelText_append, hname] at h
  exact skipBlanks_eq_self h (isBlank_of_isMetricChar (isMetricChar_of_isLabelChar hc))

/-- **A label without need of escapes** is read back. -/
lemma readLabel_labelText (hl : IsName isLabelChar l.1.toList) (hplain : Plain l.2.toList)
    (rest : List Char) : readLabel (labelText l ++ rest) = some (l, rest) := by
  have hquoted : readQuoted (l.2.toList ++ '"' :: rest) = some (l.2.toList, rest) := by
    rw [readQuoted_eq_some_iff, hplain.flatMap_escape]
  have hname : readName isLabelChar (l.1.toList ++ '=' :: '"' :: (l.2.toList ++ '"' :: rest)) =
      some (l.1.toList, '=' :: '"' :: (l.2.toList ++ '"' :: rest)) := by
    refine readName_append hl fun c hc => ?_
    cases hc
    decide
  rw [readLabel, skipBlanks_labelText hl (List.prefix_refl _), labelText_append, hname]
  simp only [Option.bind_eq_bind, Option.bind_some, skipBlanks_cons (c := '=') rfl,
    skipBlanks_cons (c := '"') rfl, readChar, if_true, hquoted, String.ofList_toList]
  rfl

/-- **A label that is read as it was meant** has no need of escapes. -/
lemma plain_of_readLabel (hl : IsName isLabelChar l.1.toList) (hcs : cs <+: labelText l ++ rest)
    (h : readLabel cs = some (l, rest')) : Plain l.2.toList ∧ rest' <+: rest := by
  rw [readLabel, skipBlanks_labelText hl hcs] at h
  simp only [Option.bind_eq_bind, Option.bind_eq_some_iff, Prod.exists] at h
  obtain ⟨name, cs₁, hname, cs₂, heq, cs₃, hquote, value, cs₄, hvalue, h⟩ := h
  cases h
  obtain rfl := eq_append_of_readName hname
  rw [labelText_append, String.toList_ofList, List.prefix_append_right_inj] at hcs
  rw [skipBlanks_eq_self hcs rfl] at heq
  obtain rfl := eq_cons_of_readChar heq
  rw [List.cons_prefix_cons, and_iff_right rfl] at hcs
  rw [skipBlanks_eq_self hcs rfl] at hquote
  obtain rfl := eq_cons_of_readChar hquote
  rw [List.cons_prefix_cons, and_iff_right rfl, String.toList_ofList] at hcs
  rw [readQuoted_eq_some_iff] at hvalue
  subst hvalue
  obtain ⟨more, hmore⟩ := hcs
  rw [List.append_assoc, List.cons_append] at hmore
  have hplain := plain_of_escape_append hmore
  rw [hplain.flatMap_escape, List.append_cancel_left_eq] at hmore
  injection hmore with _ hmore
  exact ⟨by rwa [String.toList_ofList], more, hmore⟩

lemma labelsText_cons (l l' : String × String) (labels : List (String × String)) :
    labelsText (l :: l' :: labels) = labelText l ++ ',' :: labelsText (l' :: labels) := by
  rw [labelsText, List.map_cons, List.map_cons, List.intercalate_cons_cons, List.append_assoc,
    List.singleton_append, labelsText, List.map_cons]

lemma labelsText_singleton (l : String × String) : labelsText [l] = labelText l := by
  simp [labelsText]

/-- There is a label in front of the closing brace. -/
lemma readLabels_succ (h : ∀ cs', skipBlanks cs ≠ '}' :: cs') : readLabels (fuel + 1) cs = (do
      let (label, cs) ← readLabel cs
      match skipBlanks cs with
      | '}' :: cs => return ([label], cs)
      | ',' :: cs => (readLabels fuel cs).map fun r => (label :: r.1, r.2)
      | _ => none) := by
  rw [readLabels]
  split
  next cs' heq => exact absurd heq (h cs')
  next => rfl

lemma skipBlanks_ne_brace (hl : IsName isLabelChar l.1.toList) (hcs : cs <+: labelText l ++ rest)
    (cs' : List Char) : skipBlanks cs ≠ '}' :: cs' := by
  rw [skipBlanks_labelText hl hcs]
  rintro rfl
  obtain ⟨c, name, hname, hc⟩ := hl.exists_cons
  rw [labelText_append, hname, List.cons_append] at hcs
  obtain ⟨rfl, -⟩ := List.cons_prefix_cons.1 hcs
  exact absurd hc (by decide)

/-- **Labels without need of escapes** are read back. -/
lemma readLabels_labelsText (hne : labels ≠ []) (hl : ∀ l ∈ labels, IsName isLabelChar l.1.toList)
    (hplain : ∀ l ∈ labels, Plain l.2.toList) (hfuel : labels.length ≤ fuel) (rest : List Char) :
    readLabels fuel (labelsText labels ++ '}' :: rest) = some (labels, rest) := by
  induction labels generalizing fuel with
  | nil => exact absurd rfl hne
  | cons l labels ih =>
    obtain ⟨fuel, rfl⟩ := Nat.exists_eq_add_one_of_ne_zero (n := fuel) (by
      rw [List.length_cons] at hfuel
      omega)
    have hname := hl l List.mem_cons_self
    have hvalue := hplain l List.mem_cons_self
    cases labels with
    | nil =>
      rw [labelsText_singleton, readLabels_succ (skipBlanks_ne_brace hname (List.prefix_refl _)),
        readLabel_labelText hname hvalue]
      rfl
    | cons l' labels =>
      have hrest := ih (List.cons_ne_nil _ _) (fun l hl' => hl l (List.mem_cons_of_mem _ hl'))
        (fun l hl' => hplain l (List.mem_cons_of_mem _ hl')) (Nat.le_of_succ_le_succ hfuel)
      rw [labelsText_cons, List.append_assoc, List.cons_append,
        readLabels_succ (skipBlanks_ne_brace hname (List.prefix_refl _)),
        readLabel_labelText hname hvalue]
      simp only [Option.bind_eq_bind, Option.bind_some, skipBlanks_cons (c := ',') rfl, hrest,
        Option.map_some]

/-- **Labels that are read as they were meant** have no need of escapes. -/
lemma plain_of_readLabels (hne : labels ≠ []) (hl : ∀ l ∈ labels, IsName isLabelChar l.1.toList)
    (hcs : cs <+: labelsText labels ++ '}' :: rest)
    (h : readLabels fuel cs = some (labels, rest')) : ∀ l ∈ labels, Plain l.2.toList := by
  induction labels generalizing fuel cs rest' with
  | nil => exact absurd rfl hne
  | cons l labels ih =>
    have hname := hl l List.mem_cons_self
    obtain ⟨more, hcs', hmore⟩ : ∃ more, cs <+: labelText l ++ more ∧
        (labels ≠ [] → more = ',' :: (labelsText labels ++ '}' :: rest)) := by
      cases labels with
      | nil => exact ⟨_, by rwa [labelsText_singleton] at hcs, fun h => absurd rfl h⟩
      | cons l' labels =>
        rw [labelsText_cons, List.append_assoc] at hcs
        exact ⟨_, hcs, fun _ => rfl⟩
    cases fuel with
    | zero => cases h
    | succ fuel =>
      rw [readLabels_succ (skipBlanks_ne_brace hname hcs')] at h
      simp only [Option.bind_eq_bind, Option.bind_eq_some_iff, Prod.exists] at h
      obtain ⟨k, v, cs₁, hlabel, h⟩ := h
      split at h
      next cs₂ heq =>
        cases h
        exact List.forall_mem_singleton.2 (plain_of_readLabel hname hcs' hlabel).1
      next cs₂ heq =>
        obtain ⟨⟨ls, r⟩, hread, he⟩ := Option.map_eq_some_iff.1 h
        cases he
        obtain ⟨hplain, hcs₁⟩ := plain_of_readLabel hname hcs' hlabel
        refine List.forall_mem_cons.2 ⟨hplain, ?_⟩
        by_cases hls : ls = []
        · simp [hls]
        · rw [hmore hls] at hcs₁
          rw [skipBlanks_eq_self hcs₁ rfl] at heq
          subst heq
          rw [List.cons_prefix_cons, and_iff_right rfl] at hcs₁
          exact ih hls (fun l hl' => hl l (List.mem_cons_of_mem _ hl')) hcs₁ hread
      next => cases h

end Labels

/-! ### Numbers -/

section Numbers

lemma readDecimal_toDigits (m : ℕ) : readDecimal (Nat.toDigits 10 m) = some (m : ℚ) := by
  have hexponent : (Nat.toDigits 10 m).splitOnP (fun c => c = 'e' || c = 'E') =
      [Nat.toDigits 10 m] := by
    refine List.splitOnP_eq_singleton fun c hc => ?_
    obtain ⟨d, hd, rfl⟩ := Ip.mem_toDigits (by decide) (by decide) hc
    interval_cases d <;> decide
  have hpoint : (Nat.toDigits 10 m).splitOn '.' = [Nat.toDigits 10 m] :=
    List.splitOn_eq_singleton fun hc => absurd (isDigit_of_mem_toDigits hc) (by decide)
  have hread : Ip.readDigits 10 (Nat.toDigits 10 m) = some m :=
    Ip.readDigits_toDigits (by decide) (by decide) m
  rw [readDecimal, hexponent]
  simp only [readMantissa, hpoint, hread, Option.map_some]

lemma readMagnitude_toDigits (negative : Bool) (m : ℕ) :
    readMagnitude negative (Nat.toDigits 10 m) =
      some (.finite (if negative then -(m : ℚ) else m)) := by
  -- the words all have an `n`
  have hn : 'n' ∉ (Nat.toDigits 10 m).map Char.toLower := by
    intro hmem
    obtain ⟨c, hc, hlower⟩ := List.mem_map.1 hmem
    obtain ⟨d, hd, rfl⟩ := Ip.mem_toDigits (by decide) (by decide) hc
    revert hlower
    interval_cases d <;> decide
  have hword : ∀ w : List Char, 'n' ∈ w → (Nat.toDigits 10 m).map Char.toLower ≠ w := by
    rintro w hw rfl
    exact hn hw
  have hnan := hword "nan".toList (by decide)
  have hinf : ¬ ((Nat.toDigits 10 m).map Char.toLower = "inf".toList ∨
      (Nat.toDigits 10 m).map Char.toLower = "infinity".toList) :=
    not_or.2 ⟨hword _ (by decide), hword _ (by decide)⟩
  rw [readMagnitude]
  simp only [if_neg hnan, if_neg hinf, readDecimal_toDigits, Option.map_some]

lemma readNumber_toString (n : ℤ) : readNumber (toString n).toList = some (.finite n) := by
  have hmagnitude := fun negative => readMagnitude_toDigits negative n.natAbs
  rw [toList_toString]
  split
  next hn =>
    have habs : -(n.natAbs : ℚ) = n := by
      rw [← Int.cast_natCast, Int.ofNat_natAbs_of_nonpos hn.le, Int.cast_neg, neg_neg]
    rw [readNumber, hmagnitude, if_pos rfl, habs]
  next hn =>
    have habs : (n.natAbs : ℚ) = n := by
      rw [← Int.cast_natCast, Int.natAbs_of_nonneg (not_lt.1 hn)]
    obtain ⟨c, cs, hds, hc⟩ := exists_toDigits n.natAbs
    rw [hds] at hmagnitude ⊢
    rw [readNumber, hmagnitude, if_neg Bool.false_ne_true, habs]
    · rintro cs' he
      cases he
      exact absurd hc (by decide)
    · rintro cs' he
      cases he
      exact absurd hc (by decide)

end Numbers

/-! ### Lines -/

section Lines

variable {r : Reading} {rs : List Reading} {cs v t : List Char} {y : Option Sample}

lemma isBlank_of_mem_toString {n : ℤ} {c : Char} (h : c ∈ (toString n).toList) :
    isBlank c = false := by
  rw [isBlank, Bool.or_eq_false_iff, decide_eq_false_iff_not, decide_eq_false_iff_not]
  constructor
  · rintro rfl
    exact notMem_toString (by decide) (by decide) n h
  · rintro rfl
    exact notMem_toString (by decide) (by decide) n h

/-- The first character of a number is no brace and no blank. -/
lemma exists_toString (n : ℤ) : ∃ c cs, (toString n).toList = c :: cs ∧ c ≠ '{' := by
  rw [toList_toString]
  split
  · exact ⟨'-', _, rfl, by decide⟩
  · obtain ⟨c, cs, h, hc⟩ := exists_toDigits n.natAbs
    refine ⟨c, cs, h, ?_⟩
    rintro rfl
    exact absurd hc (by decide)

lemma words_cons_blank (cs : List Char) : words (' ' :: cs) = words cs := by
  have h : (' ' :: cs).splitOnP isBlank = [] :: cs.splitOnP isBlank :=
    List.splitOnP_append_cons [] cs rfl
  rw [words, h, List.filter_cons_of_neg (by simp), words]

lemma toList_toString_ne_nil (n : ℤ) : (toString n).toList ≠ [] := by
  obtain ⟨c, cs, h, -⟩ := exists_toString n
  rw [h]
  exact List.cons_ne_nil c cs

/-- A value and a time. -/
lemma readValue_tail (r : Reading) : readValue r.tail = some (.finite r.value, some r.timestamp) := by
  have hwords : words r.tail = [(toString r.value).toList, (toString r.timestamp).toList] := by
    rw [Reading.tail, words_cons_blank, words,
      List.splitOnP_append_cons_of_forall_mem (fun c hc => isBlank_of_mem_toString hc) ' ' rfl,
      List.splitOnP_eq_singleton fun c hc => isBlank_of_mem_toString hc]
    refine List.filter_eq_self.2 fun l hl => decide_eq_true ?_
    rcases List.mem_pair.1 hl with rfl | rfl
    · exact toList_toString_ne_nil _
    · exact toList_toString_ne_nil _
  rw [readValue, hwords]
  simp only [readNumber_toString, readInteger_toString]
  rfl

lemma readName_line (r : Reading) :
    readName isMetricChar r.line = some (r.name.toList, r.afterName) := by
  refine readName_append r.isName fun c hc => ?_
  rw [Reading.afterName] at hc
  split at hc
  · cases hc
    rfl
  · cases hc
    rfl

lemma length_le_labelsText (labels : List (String × String)) :
    labels.length ≤ (labelsText labels).length := by
  induction labels with
  | nil => exact Nat.zero_le _
  | cons l labels ih =>
    cases labels with
    | nil =>
      rw [labelsText_singleton, labelText, List.length_append, List.length_cons]
      exact Nat.le_add_left_of_le (Nat.succ_le_succ (Nat.zero_le _))
    | cons l' labels =>
      rw [labelsText_cons, List.length_append, List.length_cons, List.length_cons]
      exact Nat.le_add_left_of_le (Nat.succ_le_succ ih)

lemma readBraces_afterName (h : r.PlainLabels) : readBraces r.afterName = some (r.labels, r.tail) := by
  rw [Reading.afterName, readBraces]
  by_cases hlabels : r.labels = []
  · rw [if_pos hlabels]
    obtain ⟨c, cs, hc, hne⟩ := exists_toString r.value
    have hblank : isBlank c = false := isBlank_of_mem_toString (hc ▸ List.mem_cons_self)
    have hskip : skipBlanks r.tail = c :: (cs ++ ' ' :: (toString r.timestamp).toList) := by
      rw [Reading.tail, hc, skipBlanks, List.dropWhile_cons_of_pos rfl]
      exact skipBlanks_cons hblank _
    rw [hskip]
    split
    next heq =>
      cases heq
      exact absurd rfl hne
    next => rw [hlabels]
  · have hfuel : r.labels.length ≤ (labelsText r.labels ++ '}' :: r.tail).length + 1 := by
      have := length_le_labelsText r.labels
      rw [List.length_append]
      omega
    rw [if_neg hlabels, skipBlanks_cons rfl]
    exact readLabels_labelsText hlabels r.isLabelName h hfuel r.tail

/-- **A line without need of escapes** is read back. -/
lemma readSample_line (h : r.PlainLabels) : readSample r.line = some r.sample := by
  rw [readSample, readName_line]
  simp only [Option.bind_eq_bind, Option.bind_some, readBraces_afterName h, readValue_tail,
    String.ofList_toList]
  rfl

/-- **A line that is read as it was meant** has no need of escapes. -/
lemma plainLabels_of_readSample (hcs : cs <+: r.line) (h : readSample cs = some r.sample) :
    r.PlainLabels := by
  simp only [readSample, Option.bind_eq_bind, Option.bind_eq_some_iff, Prod.exists] at h
  obtain ⟨name, cs₁, hname, labels, cs₂, hbraces, value, timestamp, -, h⟩ := h
  have hs : (⟨String.ofList name, labels, value, timestamp⟩ : Sample) = r.sample := Option.some.inj h
  have hname' : name = r.name.toList := by
    rw [← String.toList_ofList (l := name)]
    exact congrArg String.toList (congrArg Sample.name hs)
  have hlabels : labels = r.labels := congrArg Sample.labels hs
  subst hname' hlabels
  obtain rfl := eq_append_of_readName hname
  rw [Reading.line, List.prefix_append_right_inj] at hcs
  by_cases hnil : r.labels = []
  · intro l hl
    rw [hnil] at hl
    exact absurd hl List.not_mem_nil
  · rw [Reading.afterName, if_neg hnil] at hcs
    rw [readBraces, skipBlanks_eq_self hcs rfl] at hbraces
    split at hbraces
    next =>
      rw [List.cons_prefix_cons, and_iff_right rfl] at hcs
      exact plain_of_readLabels hnil r.isLabelName hcs hbraces
    next =>
      exact absurd (congrArg Prod.fst (Option.some.inj hbraces)).symm hnil

/-- A line starts with the name. -/
lemma exists_line (r : Reading) : ∃ c cs, r.line = c :: cs ∧ isMetricChar c = true := by
  obtain ⟨c, cs, hname, hc⟩ := r.isName.exists_cons
  exact ⟨c, cs ++ r.afterName, by rw [Reading.line, hname]; rfl, hc⟩

/-- Nothing that starts with a name is blank or a comment. -/
lemma parseLine_cons {c : Char} (hc : isMetricChar c = true) (cs : List Char) :
    parseLine (c :: cs) = (readSample (c :: cs)).map some := by
  rw [parseLine, skipBlanks_cons (isBlank_of_isMetricChar hc)]
  split
  next heq => cases heq
  next heq =>
    cases heq
    exact absurd hc (by decide)
  next => rfl

/-- **A plain line**: it is one line, and read back. -/
lemma parseLine_line (h : r.PlainLabels) : parseLine r.line = some (some r.sample) := by
  obtain ⟨c, cs, hline, hc⟩ := exists_line r
  have hsample := readSample_line h
  rw [hline] at hsample ⊢
  rw [parseLine_cons hc, hsample, Option.map_some]

lemma mem_labelsText {labels : List (String × String)} {c : Char} (h : c ∈ labelsText labels) :
    c = ',' ∨ ∃ l ∈ labels, c ∈ labelText l := by
  induction labels with
  | nil => exact absurd h List.not_mem_nil
  | cons l labels ih =>
    cases labels with
    | nil => exact .inr ⟨l, List.mem_singleton_self l, by rwa [labelsText_singleton] at h⟩
    | cons l' labels =>
      rw [labelsText_cons, List.mem_append, List.mem_cons] at h
      rcases h with h | h | h
      · exact .inr ⟨l, List.mem_cons_self, h⟩
      · exact .inl h
      · refine (ih h).imp_right ?_
        rintro ⟨l, hl, hc⟩
        exact ⟨l, List.mem_cons_of_mem _ hl, hc⟩

lemma newline_notMem_labelText {l : String × String} (hl : IsName isLabelChar l.1.toList)
    (h : Plain l.2.toList) : '\n' ∉ labelText l := by
  rw [labelText, List.mem_append, List.mem_cons, List.mem_cons, List.mem_append]
  rintro (hc | hc | hc | hc | hc)
  · exact absurd (hl.1 _ hc) (by decide)
  · exact absurd hc (by decide)
  · exact absurd hc (by decide)
  · exact (h _ hc).2.2 rfl
  · exact absurd hc (by decide)

lemma newline_notMem_line (h : r.PlainLabels) : '\n' ∉ r.line := by
  have htail : '\n' ∉ r.tail := by
    rw [Reading.tail, List.mem_cons, List.mem_append, List.mem_cons]
    rintro (hc | hc | hc | hc)
    · exact absurd hc (by decide)
    · exact notMem_toString (by decide) (by decide) _ hc
    · exact absurd hc (by decide)
    · exact notMem_toString (by decide) (by decide) _ hc
  rw [Reading.line, List.mem_append, not_or, Reading.afterName]
  refine ⟨fun hc => absurd (r.isName.1 _ hc) (by decide), ?_⟩
  split
  next => exact htail
  next =>
    rw [List.mem_cons, List.mem_append, List.mem_cons]
    rintro (hc | hc | hc | hc)
    · exact absurd hc (by decide)
    · rcases mem_labelsText hc with hc | ⟨l, hl, hc⟩
      · exact absurd hc (by decide)
      · exact newline_notMem_labelText (r.isLabelName l hl) (h l hl) hc
    · exact absurd hc (by decide)
    · exact htail hc

/-- What is read from a line up to a break is a sample, and that of the line only if no label needs
an escape. -/
lemma parseLine_prefix (hcs : cs <+: r.line) (hne : cs ≠ []) (h : parseLine cs = some y) :
    ∃ s, y = some s ∧ (s = r.sample → r.PlainLabels) := by
  obtain ⟨c, cs', hline, hc⟩ := exists_line r
  obtain ⟨d, cs, rfl⟩ := List.exists_cons_of_ne_nil hne
  have hcs' := hcs
  rw [hline] at hcs'
  obtain ⟨rfl, -⟩ := List.cons_prefix_cons.1 hcs'
  rw [parseLine_cons hc] at h
  obtain ⟨s, hs, rfl⟩ := Option.map_eq_some_iff.1 h
  exact ⟨s, rfl, fun he => plainLabels_of_readSample hcs (he ▸ hs)⟩

/-- The first line of a text. -/
lemma exists_splitOn_line (r : Reading) :
    ∃ cs more, r.line.splitOn '\n' = cs :: more ∧ cs <+: r.line ∧ cs ≠ [] := by
  obtain ⟨c, cs, hline, hc⟩ := exists_line r
  have hne : (c == '\n') = false := by
    refine beq_false_of_ne ?_
    rintro rfl
    exact absurd hc (by decide)
  obtain ⟨hd, tl, htl⟩ := List.exists_cons_of_ne_nil (List.splitOn_ne_nil '\n' cs)
  have hsplit : r.line.splitOn '\n' = (c :: hd) :: tl := by
    rw [hline, List.splitOn_cons_eq_if_modifyHead, hne, htl]
    rfl
  exact ⟨c :: hd, tl, hsplit, List.prefix_of_splitOn hsplit, List.cons_ne_nil c hd⟩

/-- **Lines that are read as they were meant** need no escapes. -/
lemma plainLabels_of_mapM {ys : List (Option Sample)}
    (h : (rs.flatMap fun r => r.line.splitOn '\n').mapM parseLine = some ys)
    (hys : ys.reduceOption = rs.map Reading.sample) : ∀ r ∈ rs, r.PlainLabels := by
  induction rs generalizing ys with
  | nil => exact fun r hr => absurd hr List.not_mem_nil
  | cons r rs ih =>
    obtain ⟨cs, more, hsplit, hcs, hne⟩ := exists_splitOn_line r
    rw [List.flatMap_cons, hsplit, List.cons_append, List.mapM_eq_some_iff,
      List.forall₂_cons_left_iff] at h
    obtain ⟨y, ys, hy, h, rfl⟩ := h
    obtain ⟨s, rfl, hplain⟩ := parseLine_prefix hcs hne hy
    rw [List.reduceOption_cons_of_some, List.map_cons] at hys
    injection hys with hs hys
    have hr := hplain hs
    -- so the line is not broken, and all others follow
    rw [List.splitOn_eq_singleton (newline_notMem_line hr)] at hsplit
    injection hsplit with _ hmore
    rw [← hmore, List.nil_append, ← List.mapM_eq_some_iff] at h
    exact List.forall_mem_cons.2 ⟨hr, ih h hys⟩

/-- **Samples that are printed as they are** can be read back if and only if no label needs an
escape. -/
theorem parse_text_iff (rs : List Reading) :
    parse (text rs) = some (rs.map Reading.sample) ↔ ∀ r ∈ rs, r.PlainLabels := by
  have hlast : ((rs.flatMap fun r : Reading => r.line.splitOn '\n') ++ [[]]).getLast? = some [] :=
    List.getLast?_concat
  rw [parse, text, String.toList_ofList, splitOn_flatMap_newline]
  simp only [if_pos hlast, List.dropLast_concat]
  constructor
  · intro h
    obtain ⟨ys, hys, hreduce⟩ := Option.map_eq_some_iff.1 h
    exact plainLabels_of_mapM hys hreduce
  · intro h
    have hlines : (rs.flatMap fun r => r.line.splitOn '\n') = rs.map Reading.line := by
      rw [List.map_eq_flatMap]
      exact List.flatMap_congr fun r hr => List.splitOn_eq_singleton (newline_notMem_line (h r hr))
    rw [hlines, List.mapM_map_eq_some fun r hr => parseLine_line (h r hr), Option.map_some,
      List.reduceOption_map_some]

end Lines

end Prometheus
