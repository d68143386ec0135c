import Mathlib.Data.Char
import Mathlib.Data.Finmap
import Mathlib.Data.List.Sort
import Mathlib.Data.String.Basic
import Mathlib.Tactic.IntervalCases

/-!
# Python's `json.dumps`

The text of an object whose values are texts, truth values or null, written in ASCII.
`dumps_injective` says that two objects with the same keys have the same text only if they are
equal.
-/

namespace Json

/-- A value: null, a truth value or a text. -/
inductive Value where
  | null
  | bool (b : Bool)
  | str (s : String)
  deriving DecidableEq

/-- A dictionary. -/
abbrev Object := Finmap fun _ : String => Value

/-- `dict.get`, where a missing key is as good as null. -/
def Object.get (o : Object) (key : String) : Value := (o.lookup key).getD .null

/-! ### Texts -/

/-- The escapes of one letter. -/
def shortEscapes : List (Char × Char) :=
  [('"', '"'), ('\\', '\\'), ('\n', 'n'), ('\r', 'r'), ('\t', 't'), ('\x08', 'b'), ('\x0c', 'f')]

/-- The UTF-16 code units of a character. -/
def codeUnits (c : Char) : List ℕ :=
  if c.toNat < 0x10000 then [c.toNat]
  else [0xd800 + (c.toNat - 0x10000) / 0x400, 0xdc00 + (c.toNat - 0x10000) % 0x400]

/-- A code unit, with its four hexadecimal digits. -/
def unitEscape (n : ℕ) : List Char :=
  '\\' :: 'u' :: [n / 0x1000 % 16, n / 0x100 % 16, n / 0x10 % 16, n % 16].map Nat.digitChar

def escapeChar (c : Char) : List Char :=
  match shortEscapes.lookup c with
  | some e => ['\\', e]
  | none =>
    if 0x20 ≤ c.toNat ∧ c.toNat ≤ 0x7e then [c] else (codeUnits c).flatMap unitEscape

def quote (s : String) : List Char := '"' :: (s.toList.flatMap escapeChar ++ ['"'])

def Value.text : Value → List Char
  | .null => "null".toList
  | .bool true => "true".toList
  | .bool false => "false".toList
  | .str s => quote s

/-- The items of an object, the first one after `sep`. -/
def itemsText (sep : List Char) : List (String × Value) → List Char
  | [] => ['}']
  | (key, v) :: items =>
    sep ++ (quote key ++ (':' :: ' ' :: (v.text ++ itemsText [',', ' '] items)))

/-- `json.dumps(…, sort_keys=True)`. -/
def dumps (items : List (String × Value)) : String :=
  String.ofList ('{' :: itemsText [] (items.insertionSort fun a b => a.1 ≤ b.1))

example : dumps [("scope", .str "é\n"), ("id", .null)] =
    "\x7b\"id\": null, \"scope\": \"\\u00e9\\n\"\x7d" := by decide

/-! ### Reading a text back -/

lemma digitChar_inj {a b : ℕ} (ha : a < 16) (hb : b < 16) (h : a.digitChar = b.digitChar) :
    a = b := by
  interval_cases a <;> interval_cases b <;> first | rfl | exact absurd h (by decide)

lemma unitEscape_append_inj {m n : ℕ} (hm : m < 0x10000) (hn : n < 0x10000) {r r' : List Char}
    (h : unitEscape m ++ r = unitEscape n ++ r') : m = n ∧ r = r' := by
  simp only [unitEscape, List.map_cons, List.map_nil, List.cons_append, List.nil_append,
    List.cons.injEq, true_and] at h
  obtain ⟨h₁, h₂, h₃, h₄, hr⟩ := h
  have hd := fun {a b : ℕ} (h : (a % 16).digitChar = (b % 16).digitChar) =>
    digitChar_inj (Nat.mod_lt a (by omega)) (Nat.mod_lt b (by omega)) h
  have := hd h₁
  have := hd h₂
  have := hd h₃
  have := hd h₄
  exact ⟨by omega, hr⟩

lemma mem_of_lookup_shortEscapes {c e : Char} (h : shortEscapes.lookup c = some e) :
    (c, e) ∈ shortEscapes := by
  obtain ⟨l₁, l₂, hl, -⟩ := List.lookup_eq_some_iff.1 h
  rw [hl]
  simp

/-- **The forms of an escaped character.** -/
lemma escapeChar_cases (c : Char) :
    (∃ e, (c, e) ∈ shortEscapes ∧ escapeChar c = ['\\', e]) ∨
      (c ≠ '\\' ∧ c ≠ '"' ∧ escapeChar c = [c]) ∨
      (c.toNat < 0x10000 ∧ escapeChar c = unitEscape c.toNat) ∨
      (0x10000 ≤ c.toNat ∧ escapeChar c = unitEscape (0xd800 + (c.toNat - 0x10000) / 0x400) ++
        unitEscape (0xdc00 + (c.toNat - 0x10000) % 0x400)) := by
  unfold escapeChar
  cases h : shortEscapes.lookup c with
  | some e => exact .inl ⟨e, mem_of_lookup_shortEscapes h, rfl⟩
  | none =>
    right
    dsimp only
    split
    · left
      refine ⟨?_, ?_, rfl⟩ <;>
      · rintro rfl
        exact absurd h (by decide)
    · right
      unfold codeUnits
      split
      next hc => exact .inl ⟨hc, by simp⟩
      next hc => exact .inr ⟨not_lt.1 hc, by simp⟩

lemma mem_shortEscapes {p : Char × Char} (h : p ∈ shortEscapes) :
    p.2 ≠ 'u' ∧ ∀ q ∈ shortEscapes, p.2 = q.2 → p.1 = q.1 := by
  have hall : ∀ p ∈ shortEscapes, p.2 ≠ 'u' ∧ ∀ q ∈ shortEscapes, p.2 = q.2 → p.1 = q.1 := by
    decide
  exact hall p h

/-- A surrogate is no character. -/
lemma toNat_valid (c : Char) : c.toNat < 0xd800 ∨ 0xdfff < c.toNat ∧ c.toNat < 0x110000 :=
  c.valid

/-- **An escaped character can be read back**, whatever comes after it. -/
lemma escapeChar_append_inj {c d : Char} {r r' : List Char}
    (h : escapeChar c ++ r = escapeChar d ++ r') : c = d ∧ r = r' := by
  have hcv := toNat_valid c
  have hdv := toNat_valid d
  rcases escapeChar_cases c with ⟨e, he, hc⟩ | ⟨hc₁, hc₂, hc⟩ | ⟨hclt, hc⟩ | ⟨hcge, hc⟩ <;>
    rcases escapeChar_cases d with ⟨f, hf, hd⟩ | ⟨hd₁, hd₂, hd⟩ | ⟨hdlt, hd⟩ | ⟨hdge, hd⟩ <;>
    rw [hc, hd] at h
  · simp only [List.cons_append, List.nil_append, List.cons.injEq, true_and] at h
    exact ⟨(mem_shortEscapes he).2 _ hf h.1, h.2⟩
  · exact absurd (List.cons.inj h).1.symm hd₁
  · exact absurd (List.cons.inj (List.cons.inj h).2).1 (mem_shortEscapes he).1
  · exact absurd (List.cons.inj (List.cons.inj h).2).1 (mem_shortEscapes he).1
  · exact absurd (List.cons.inj h).1 hc₁
  · exact List.cons.inj h
  · exact absurd (List.cons.inj h).1 hc₁
  · exact absurd (List.cons.inj h).1 hc₁
  · exact absurd (List.cons.inj (List.cons.inj h).2).1.symm (mem_shortEscapes hf).1
  · exact absurd (List.cons.inj h).1.symm hd₁
  · obtain ⟨hn, hr⟩ := unitEscape_append_inj hclt hdlt h
    exact ⟨Char.toNat_inj.1 hn, hr⟩
  · rw [List.append_assoc] at h
    have := (unitEscape_append_inj hclt (by omega) h).1
    omega
  · exact absurd (List.cons.inj (List.cons.inj h).2).1.symm (mem_shortEscapes hf).1
  · exact absurd (List.cons.inj h).1.symm hd₁
  · rw [List.append_assoc] at h
    have := (unitEscape_append_inj (by omega) hdlt h).1
    omega
  · rw [List.append_assoc, List.append_assoc] at h
    obtain ⟨hhigh, h⟩ := unitEscape_append_inj (by omega) (by omega) h
    obtain ⟨hlow, hr⟩ := unitEscape_append_inj (by omega) (by omega) h
    exact ⟨Char.toNat_inj.1 (by omega), hr⟩

lemma quote_ne_escapeChar {c : Char} {r r' : List Char} : '"' :: r ≠ escapeChar c ++ r' := by
  intro h
  rcases escapeChar_cases c with ⟨e, -, hc⟩ | ⟨-, hc', hc⟩ | ⟨-, hc⟩ | ⟨-, hc⟩ <;> rw [hc] at h
  · exact absurd (List.cons.inj h).1 (by decide)
  · exact hc' (List.cons.inj h).1.symm
  · exact absurd (List.cons.inj h).1 (by decide)
  · exact absurd (List.cons.inj h).1 (by decide)

lemma flatMap_escapeChar_inj {l l' r r' : List Char}
    (h : l.flatMap escapeChar ++ '"' :: r = l'.flatMap escapeChar ++ '"' :: r') :
    l = l' ∧ r = r' := by
  induction l generalizing l' with
  | nil =>
    cases l' with
    | nil => exact ⟨rfl, (List.cons.inj h).2⟩
    | cons d l' =>
      rw [List.flatMap_cons, List.append_assoc] at h
      exact absurd h quote_ne_escapeChar
  | cons c l ih =>
    cases l' with
    | nil =>
      rw [List.flatMap_cons, List.append_assoc] at h
      exact absurd h.symm quote_ne_escapeChar
    | cons d l' =>
      rw [List.flatMap_cons, List.flatMap_cons, List.append_assoc, List.append_assoc] at h
      obtain ⟨rfl, hrest⟩ := escapeChar_append_inj h
      obtain ⟨rfl, rfl⟩ := ih hrest
      exact ⟨rfl, rfl⟩

lemma quote_append_inj {s t : String} {r r' : List Char} (h : quote s ++ r = quote t ++ r') :
    s = t ∧ r = r' := by
  simp only [quote, List.cons_append, List.append_assoc, List.nil_append, List.cons.injEq,
    true_and] at h
  obtain ⟨hst, hr⟩ := flatMap_escapeChar_inj h
  exact ⟨String.toList_inj.1 hst, hr⟩

/-- The first letter tells null, the truth values and the texts apart. -/
lemma Value.text_append_inj {v w : Value} {r r' : List Char} (h : v.text ++ r = w.text ++ r') :
    v = w ∧ r = r' := by
  have hne : ∀ {a b : Char} {l l' : List Char}, a ≠ b → a :: l ≠ b :: l' :=
    fun hab h => hab (List.cons.inj h).1
  rcases v with _ | (_ | _) | s <;> rcases w with _ | (_ | _) | t
  case str.str => exact (quote_append_inj h).imp_left (congrArg Value.str)
  case null.null => exact ⟨rfl, List.append_cancel_left h⟩
  case bool.false.bool.false => exact ⟨rfl, List.append_cancel_left h⟩
  case bool.true.bool.true => exact ⟨rfl, List.append_cancel_left h⟩
  all_goals exact absurd h (hne (by decide))

/-- The text of the items tells their values, if the keys are known. -/
lemma itemsText_inj {sep : List Char} {items items' : List (String × Value)}
    (hkeys : items.map Prod.fst = items'.map Prod.fst)
    (h : itemsText sep items = itemsText sep items') : items = items' := by
  induction items generalizing sep items' with
  | nil => exact (List.map_eq_nil_iff.1 hkeys.symm).symm
  | cons p items ih =>
    obtain ⟨q, items', rfl⟩ : ∃ q l, items' = q :: l := by
      cases items' with
      | nil => cases hkeys
      | cons q l => exact ⟨q, l, rfl⟩
    rw [itemsText, itemsText] at h
    obtain ⟨hkey, h⟩ := quote_append_inj (List.append_cancel_left h)
    obtain ⟨hv, h⟩ := Value.text_append_inj (List.cons.inj (List.cons.inj h).2).2
    rw [Prod.ext hkey hv, ih (List.cons.inj hkeys).2 h]

/-- **The text determines the values**, for items in the order of their keys. -/
theorem dumps_injective {items items' : List (String × Value)}
    (hkeys : items.map Prod.fst = items'.map Prod.fst)
    (hs : (items.map Prod.fst).Pairwise (· ≤ ·)) (h : dumps items = dumps items') :
    items = items' := by
  have hsort : ∀ l : List (String × Value), (l.map Prod.fst).Pairwise (· ≤ ·) →
      l.insertionSort (fun a b => a.1 ≤ b.1) = l := fun l hl =>
    List.Pairwise.insertionSort_eq (List.pairwise_map.1 hl)
  rw [dumps, dumps, hsort _ hs, hsort _ (hkeys ▸ hs), String.ofList_inj] at h
  exact itemsText_inj hkeys (List.cons.inj h).2

end Json
