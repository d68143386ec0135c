import WireGui.Lib.List

/-!
# Dictionaries

that keep the order of insertion, as Python's do: a new key goes to the end, and a value that is
replaced stays in its place.  `update_update`: the same assignments a second time change nothing.
-/

/-- A dictionary, as the list of its items.  No key occurs twice. -/
structure Dict (κ α : Type) where
  items : List (κ × α)
  nodup : (items.map Prod.fst).Nodup

namespace Dict

variable {κ α : Type}

def keys (d : Dict κ α) : List κ := d.items.map Prod.fst

def values (d : Dict κ α) : List α := d.items.map Prod.snd

lemma nodup_keys (d : Dict κ α) : d.keys.Nodup := d.nodup

instance : EmptyCollection (Dict κ α) := ⟨⟨[], .nil⟩⟩

@[simp] lemma keys_empty : (∅ : Dict κ α).keys = [] := rfl

section Operations

variable [DecidableEq κ]

def get (d : Dict κ α) (k : κ) : Option α := (d.items.find? (·.1 = k)).map Prod.snd

/-- `d[k] = a`. -/
def insert (d : Dict κ α) (k : κ) (a : α) : Dict κ α :=
  if h : k ∈ d.keys then
    ⟨d.items.map fun item => if item.1 = k then (k, a) else item, by
      rw [List.map_writeBack (f := Prod.fst) (a := (k, a)) fun _ _ h => h.symm]
      exact d.nodup⟩
  else
    ⟨d.items ++ [(k, a)], List.nodup_map_append_singleton d.nodup fun _ hb he =>
      h (List.mem_map.2 ⟨_, hb, he⟩)⟩

/-- Assignments, one after the other. -/
def update (d : Dict κ α) (l : List (κ × α)) : Dict κ α :=
  l.foldl (fun d item => d.insert item.1 item.2) d

end Operations

/-! ### One assignment -/

section Insert

variable [DecidableEq κ] {d d' : Dict κ α} {k k' : κ} {a : α}

lemma get_eq_some_iff : d.get k = some a ↔ (k, a) ∈ d.items := by
  rw [get, Option.map_eq_some_iff]
  constructor
  · rintro ⟨⟨k', a'⟩, h, rfl⟩
    obtain ⟨hmem, rfl⟩ := List.mem_of_find?_key h
    exact hmem
  · exact fun h => ⟨(k, a), (List.find?_eq_some_of_nodup_map d.nodup).2 ⟨h, rfl⟩, rfl⟩

lemma mem_keys_iff : k ∈ d.keys ↔ ∃ a, d.get k = some a := by
  simp [keys, get_eq_some_iff]

lemma get_eq_none_iff : d.get k = none ↔ k ∉ d.keys := by
  rw [mem_keys_iff, Option.eq_none_iff_forall_ne_some, not_exists]

lemma mem_values_iff : a ∈ d.values ↔ ∃ k, d.get k = some a := by
  simp [values, get_eq_some_iff]

/-- The items, by their keys. -/
lemma items_map_some (d : Dict κ α) :
    d.items.map some = d.keys.map fun k => (d.get k).map (Prod.mk k) := by
  rw [keys, List.map_map]
  refine List.map_congr_left fun item hitem => ?_
  have h : d.get item.1 = some item.2 := get_eq_some_iff.2 hitem
  rw [Function.comp_apply, h]
  rfl

/-- **Two dictionaries are equal** if they have the same keys, in the same order, with the same
values. -/
theorem ext_get (hk : d.keys = d'.keys) (h : ∀ k, d.get k = d'.get k) : d = d' := by
  have hitems : d.items = d'.items := by
    refine List.map_injective_iff.2 (Option.some_injective _) ?_
    rw [items_map_some, items_map_some, hk]
    simp only [h]
  cases d
  cases d'
  cases hitems
  rfl

@[simp] lemma get_empty : (∅ : Dict κ α).get k = none := rfl

lemma keys_insert : (d.insert k a).keys = if k ∈ d.keys then d.keys else d.keys ++ [k] := by
  unfold insert
  split
  next h => exact List.map_writeBack (f := Prod.fst) (a := (k, a)) fun _ _ h => h.symm
  next h => simp [keys]

lemma get_insert : (d.insert k a).get k' = if k' = k then some a else d.get k' := by
  refine Option.ext fun b => ?_
  rw [get_eq_some_iff]
  have hmem : (k', b) ∈ (d.insert k a).items ↔
      (k', b) = (k, a) ∨ ((k', b) ∈ d.items ∧ k' ≠ k) := by
    unfold insert
    split
    next h =>
      obtain ⟨item, hitem, hk⟩ := List.mem_map.1 h
      exact List.mem_writeBack_iff (f := Prod.fst) (a := (k, a)) ⟨item, hitem, hk⟩
    next h =>
      rw [List.mem_append, List.mem_singleton, or_comm]
      refine or_congr_right (iff_self_and.2 ?_)
      rintro hitem rfl
      exact h (List.mem_map.2 ⟨_, hitem, rfl⟩)
  rw [hmem]
  split
  next h =>
    subst h
    simp [eq_comm]
  next h => simp [h, get_eq_some_iff]

end Insert

/-! ### Several assignments -/

section Update

variable [DecidableEq κ] {d : Dict κ α} {k : κ} {a : α} {l : List (κ × α)}

lemma update_cons {item : κ × α} :
    d.update (item :: l) = (d.insert item.1 item.2).update l := rfl

/-- **The keys after assignments**: those from before, and then the new ones in the order in which
they first occur. -/
theorem keys_update : (d.update l).keys = (d.keys ++ l.map Prod.fst).eraseDups := by
  induction l generalizing d with
  | nil =>
    rw [List.map_nil, List.append_nil, List.eraseDups_of_nodup d.nodup_keys]
    rfl
  | cons item l ih =>
    rw [update_cons, ih, keys_insert, List.map_cons]
    split
    next h =>
      -- a key that is there already is erased further on
      rw [List.eraseDups_append, List.eraseDups_append, List.cons_removeAll, if_neg (by simpa using h)]
    next h => rw [List.append_assoc, List.singleton_append]

/-- **The value after assignments** is the last one, or the one from before. -/
theorem get_update :
    (d.update l).get k = ((l.filter (·.1 = k)).getLast?.map Prod.snd).or (d.get k) := by
  induction l generalizing d with
  | nil => rfl
  | cons item l ih =>
    rw [update_cons, ih, get_insert, List.getLast?_filter_cons (f := Prod.fst)]
    cases (l.filter (·.1 = k)).getLast? with
    | some item' => rfl
    | none =>
      by_cases hk : k = item.1
      · rw [if_pos hk, if_pos hk.symm]
        rfl
      · rw [if_neg hk, if_neg (Ne.symm hk)]
        rfl

/-- **The same assignments a second time** change nothing. -/
theorem update_update : (d.update l).update l = d.update l := by
  refine ext_get ?_ fun k => ?_
  · rw [keys_update, keys_update, List.eraseDups_append_of_subset, List.eraseDups_of_nodup]
    · rw [← keys_update]
      exact (d.update l).nodup_keys
    · exact fun k hk => List.mem_eraseDups.2 (List.mem_append_right _ hk)
  · rw [get_update, get_update]
    cases ((l.filter (·.1 = k)).getLast?.map Prod.snd) with
    | none => rfl
    | some a => rfl

/-- A dictionary is made anew out of its items. -/
theorem update_items : (∅ : Dict κ α).update d.items = d := by
  refine ext_get ?_ fun k => Option.ext fun a => ?_
  · rw [keys_update, keys_empty, List.nil_append]
    exact List.eraseDups_of_nodup d.nodup_keys
  · rw [get_update, get_empty, Option.or_none, get_eq_some_iff, Option.map_eq_some_iff]
    constructor
    · rintro ⟨⟨k', a'⟩, hlast, rfl⟩
      obtain ⟨hmem, rfl⟩ := List.mem_of_getLast?_filter (f := Prod.fst) hlast
      exact hmem
    · exact fun hmem => ⟨(k, a), List.getLast?_filter_of_nodup (f := Prod.fst) d.nodup hmem, rfl⟩

end Update

end Dict
