import WireGui.Lib.Lines
import Mathlib.Data.List.ReduceOption

/-!
# Files of sections

Lines `key = value` under headers in brackets, as WireGuard's configurations have them.  `decode_text`:
what is printed is read back.
-/

namespace Ini

/-- A name, and the entries below it. -/
structure Section where
  name : String
  entries : List (String × String)
  deriving DecidableEq

inductive Line where
  | blank
  | header (name : String)
  | entry (key value : String)
  deriving DecidableEq

/-! ### Reading -/

/-- The texts before and after the first ` = `. -/
def splitEquals : List Char → Option (List Char × List Char)
  | [] => none
  | ' ' :: '=' :: ' ' :: cs => some ([], cs)
  | c :: cs => (splitEquals cs).map fun r => (c :: r.1, r.2)

def readHeader (cs : List Char) : Option Line :=
  if cs.getLast? = some ']' then some (.header (String.ofList cs.dropLast)) else none

def readLine : List Char → Option Line
  | [] => some .blank
  | '[' :: cs => readHeader cs
  | cs => (splitEquals cs).map fun r => .entry (String.ofList r.1) (String.ofList r.2)

/-- The entries before the first header, and the sections. -/
def gather : List Line → List (String × String) × List Section
  | [] => ([], [])
  | .blank :: lines => gather lines
  | .entry key value :: lines => ((key, value) :: (gather lines).1, (gather lines).2)
  | .header name :: lines => ([], ⟨name, (gather lines).1⟩ :: (gather lines).2)

/-- The sections of a text; no entry may stand before the first header. -/
def decode (s : String) : Option (List Section) := do
  let lines ← (s.toList.splitOn '\n').mapM readLine
  if (gather lines).1 = [] then some (gather lines).2 else none

/-! ### Printing -/

def Section.lines (s : Section) : List String :=
  ("[" ++ s.name ++ "]") :: s.entries.map fun entry => entry.1 ++ " = " ++ entry.2

/-- The lines of several sections, with a blank one between any two. -/
def lines (sections : List Section) : List String := [""].intercalate (sections.map Section.lines)

/-- **The text of sections.** -/
def text (sections : List Section) : String := "\n".intercalate (lines sections) ++ "\n"

/-- A key: no blanks in it, and it does not look like a header. -/
def IsKey (key : String) : Prop :=
  ' ' ∉ key.toList ∧ '\n' ∉ key.toList ∧ key.toList.head? ≠ some '['

instance (key : String) : Decidable (IsKey key) := by
  unfold IsKey; infer_instance

/-- A section that can be printed: its values are single lines. -/
structure Section.Printable (s : Section) : Prop where
  name : '\n' ∉ s.name.toList
  keys : ∀ entry ∈ s.entries, IsKey entry.1
  values : ∀ entry ∈ s.entries, '\n' ∉ entry.2.toList

section Lines

variable {key value name : String} {s : Section} {sections : List Section} {cs rest : List Char}

lemma splitEquals_append (h : ' ' ∉ cs) (rest : List Char) :
    splitEquals (cs ++ ' ' :: '=' :: ' ' :: rest) = some (cs, rest) := by
  induction cs with
  | nil => rfl
  | cons c cs ih =>
    rw [List.mem_cons, not_or] at h
    rw [List.cons_append, splitEquals]
    · rw [ih h.2]
      rfl
    · rintro cs' rfl
      exact absurd rfl h.1

lemma readLine_header (name : String) :
    readLine ("[" ++ name ++ "]").toList = some (.header name) := by
  have htext : ("[" ++ name ++ "]").toList = '[' :: (name.toList ++ [']']) := by simp
  rw [htext, readLine, readHeader, if_pos List.getLast?_concat, List.dropLast_concat,
    String.ofList_toList]

lemma readLine_entry (hkey : IsKey key) (value : String) :
    readLine (key ++ " = " ++ value).toList = some (.entry key value) := by
  have htext : (key ++ " = " ++ value).toList =
      key.toList ++ ' ' :: '=' :: ' ' :: value.toList := by simp
  have hsplit := splitEquals_append hkey.1 value.toList
  rw [htext, readLine, hsplit, Option.map_some, String.ofList_toList, String.ofList_toList]
  · exact List.append_ne_nil_of_right_ne_nil _ (List.cons_ne_nil _ _)
  · intro cs' he
    have hhead := hkey.2.2
    cases hcs : key.toList with
    | nil =>
      rw [hcs] at he
      cases he
    | cons c cs =>
      rw [hcs] at he hhead
      cases he
      exact hhead rfl

/-- What the lines of a section say. -/
def Section.tokens (s : Section) : List Line :=
  .header s.name :: s.entries.map fun entry => .entry entry.1 entry.2

lemma gather_entries (entries : List (String × String)) (more : List Line) :
    gather ((entries.map fun entry => Line.entry entry.1 entry.2) ++ more) =
      (entries ++ (gather more).1, (gather more).2) := by
  induction entries with
  | nil => rfl
  | cons entry entries ih =>
    rw [List.map_cons, List.cons_append, gather, ih]
    rfl

lemma gather_tokens (s : Section) (more : List Line) :
    gather (s.tokens ++ more) = ([], ⟨s.name, s.entries ++ (gather more).1⟩ :: (gather more).2) := by
  rw [Section.tokens, List.cons_append, gather, gather_entries]

/-- The tokens of a text are gathered to its sections. -/
lemma gather_intercalate (sections : List Section) :
    gather ([Line.blank].intercalate (sections.map Section.tokens) ++ [.blank]) = ([], sections) := by
  induction sections with
  | nil => rfl
  | cons s sections ih =>
    cases sections with
    | nil =>
      rw [List.map_singleton, List.intercalate_singleton, gather_tokens]
      simp [gather]
    | cons s' sections =>
      rw [List.map_cons] at ih
      rw [List.map_cons, List.map_cons, List.intercalate_cons_cons, List.append_assoc,
        List.append_assoc, gather_tokens, List.singleton_append, gather, ih, List.append_nil]

/-- The lines of a section are read as its tokens. -/
lemma mapM_readLine_section (h : s.Printable) :
    (s.lines.map String.toList).mapM readLine = some s.tokens := by
  have hentries : (s.entries.map fun entry => (entry.1 ++ " = " ++ entry.2).toList).mapM readLine =
      some (s.entries.map fun entry => .entry entry.1 entry.2) :=
    List.mapM_map_eq_some fun entry hentry => readLine_entry (h.keys entry hentry) entry.2
  rw [Section.lines, List.map_cons, List.map_map, List.mapM_cons, readLine_header]
  exact congrArg (Option.bind · _) hentries

lemma lines_cons (s s' : Section) (sections : List Section) :
    lines (s :: s' :: sections) = s.lines ++ "" :: lines (s' :: sections) := by
  rw [lines, List.map_cons, List.map_cons, List.intercalate_cons_cons, List.append_assoc, lines,
    List.map_cons]
  rfl

/-- All lines are read, one section after the other. -/
lemma mapM_readLine_lines (h : ∀ s ∈ sections, s.Printable) :
    ((lines sections).map String.toList).mapM readLine =
      some ([Line.blank].intercalate (sections.map Section.tokens)) := by
  induction sections with
  | nil => rfl
  | cons s sections ih =>
    have hs := mapM_readLine_section (h s List.mem_cons_self)
    cases sections with
    | nil => rwa [lines, List.map_singleton, List.map_singleton, List.intercalate_singleton,
        List.intercalate_singleton]
    | cons s' sections =>
      have hrest := ih fun s hs => h s (List.mem_cons_of_mem _ hs)
      have hblank : (("" :: lines (s' :: sections)).map String.toList).mapM readLine =
          some (.blank :: [Line.blank].intercalate ((s' :: sections).map Section.tokens)) := by
        rw [List.map_cons, List.mapM_cons, hrest]
        rfl
      rw [lines_cons, List.map_append, List.mapM_append_eq_some_iff]
      refine ⟨_, _, hs, hblank, ?_⟩
      rw [List.map_cons, List.map_cons, List.intercalate_cons_cons, List.append_assoc,
        List.singleton_append]

lemma newline_notMem_section (h : s.Printable) : ∀ l ∈ s.lines, '\n' ∉ l.toList := by
  intro l hl
  rcases List.mem_cons.1 hl with rfl | hl
  · have hname := h.name
    simp [hname]
  · obtain ⟨entry, hentry, rfl⟩ := List.mem_map.1 hl
    have hkey := (h.keys entry hentry).2.1
    have hvalue := h.values entry hentry
    simp [hkey, hvalue]

lemma newline_notMem_lines (h : ∀ s ∈ sections, s.Printable) :
    ∀ l ∈ lines sections, '\n' ∉ l.toList := by
  induction sections with
  | nil => exact fun l hl => absurd hl List.not_mem_nil
  | cons s sections ih =>
    have hs := newline_notMem_section (h s List.mem_cons_self)
    cases sections with
    | nil => rwa [lines, List.map_singleton, List.intercalate_singleton]
    | cons s' sections =>
      rw [lines_cons, List.forall_mem_append, List.forall_mem_cons]
      exact ⟨hs, by decide, ih fun s hs => h s (List.mem_cons_of_mem _ hs)⟩

lemma lines_ne_nil (s : Section) (sections : List Section) : lines (s :: sections) ≠ [] := by
  cases sections with
  | nil =>
    rw [lines, List.map_singleton, List.intercalate_singleton]
    exact List.cons_ne_nil _ _
  | cons s' sections =>
    rw [lines_cons]
    exact List.append_ne_nil_of_left_ne_nil (List.cons_ne_nil _ _) _

/-- **What is printed is read back.** -/
theorem decode_text (h : ∀ s ∈ sections, s.Printable) : decode (text sections) = some sections := by
  cases sections with
  | nil => rfl
  | cons s sections =>
    have htokens : ((lines (s :: sections)).map String.toList ++ [[]]).mapM readLine =
        some ([Line.blank].intercalate ((s :: sections).map Section.tokens) ++ [.blank]) :=
      List.mapM_append_eq_some_iff.2 ⟨_, _, mapM_readLine_lines h, rfl, rfl⟩
    rw [decode, text, splitOn_newline_lines (lines_ne_nil s sections) (newline_notMem_lines h),
      htokens, Option.bind_eq_bind, Option.bind_some, gather_intercalate, if_pos rfl]

end Lines

end Ini
