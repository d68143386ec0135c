import WireGui.Api.Rules

/-!
# `utils/ordering.py`

`assign_priorities` numbers the ids of an order, and the page for rules writes the numbers into the
rows.

`persistOrder_rules`: what the rows are afterwards, all at once.
-/

namespace WireGui

/-- `PRIORITY_STEP`. -/
def priorityStep : ℤ := 10

/-- `assign_priorities`: the items of the dict.  The first id gets `step`, the second `2 * step`,
and so on. -/
def assignPriorities {T : Type} (orderedIds : List T) (step : ℤ := priorityStep) : List (T × ℤ) :=
  orderedIds.zipIdx.map fun p => (p.1, ((p.2 : ℤ) + 1) * step)

section Lookup

variable {T : Type} [DecidableEq T]

lemma lookup_zipIdx (ids : List T) (k : ℕ) (step : ℤ) (x : T) :
    ((ids.zipIdx k).map fun p => (p.1, ((p.2 : ℤ) + 1) * step)).lookup x =
      if x ∈ ids then some ((((k + ids.idxOf x : ℕ) : ℤ) + 1) * step) else none := by
  induction ids generalizing k with
  | nil => rfl
  | cons y ids ih =>
    rw [List.zipIdx_cons, List.map_cons, List.lookup_cons]
    by_cases hx : x = y
    · subst hx
      simp
    · have hy : y ≠ x := fun h => hx h.symm
      rw [beq_eq_false_iff_ne.2 hx, ih (k + 1)]
      simp only [List.mem_cons, hx, false_or, List.idxOf_cons_ne _ hy]
      rw [show k + 1 + ids.idxOf x = k + (ids.idxOf x).succ by omega]

/-- The number of an id says where it is. -/
theorem lookup_assignPriorities (ids : List T) (step : ℤ) (x : T) :
    (assignPriorities ids step).lookup x =
      if x ∈ ids then some (((ids.idxOf x : ℤ) + 1) * step) else none := by
  rw [assignPriorities, lookup_zipIdx, Nat.zero_add]

end Lookup

lemma map_fst_assignPriorities {T : Type} (ids : List T) (step : ℤ) :
    (assignPriorities ids step).map Prod.fst = ids := by
  rw [assignPriorities, List.map_map]
  exact List.zipIdx_map_fst 0 ids

example : assignPriorities ["a", "b", "c"] = [("a", 10), ("b", 20), ("c", 30)] := by decide

/-! ### Into the rows -/

/-- One turn of the loop in `_persist_order`. -/
def setPriority (now : ℕ) (db : Database) (item : Uuid × ℤ) : Database :=
  match db.rule item.1 with
  | none => db
  | some rule => db.setRule { rule with priority := item.2, updatedAt := now }

/-- The database part of `_persist_order`. -/
def persistOrder (now : ℕ) (orderedIds : List Uuid) (db : Database) : Database :=
  (assignPriorities orderedIds).foldl (setPriority now) db

/-- A row with the number that is listed for it. -/
def Rule.numbered (items : List (Uuid × ℤ)) (now : ℕ) (r : Rule) : Rule :=
  match items.lookup r.id with
  | none => r
  | some prio => { r with priority := prio, updatedAt := now }

lemma Rule.numbered_of_none {items : List (Uuid × ℤ)} {now : ℕ} {r : Rule}
    (h : items.lookup r.id = none) : r.numbered items now = r := by
  rw [Rule.numbered, h]

lemma Rule.numbered_of_some {items : List (Uuid × ℤ)} {now : ℕ} {r : Rule} {prio : ℤ}
    (h : items.lookup r.id = some prio) :
    r.numbered items now = { r with priority := prio, updatedAt := now } := by
  rw [Rule.numbered, h]

/-- The first item is the only one for its id, or it is another row's. -/
lemma Rule.numbered_cons {item : Uuid × ℤ} {items : List (Uuid × ℤ)} {now : ℕ} {r : Rule}
    (h : item.1 ∉ items.map Prod.fst) :
    r.numbered (item :: items) now = (r.numbered [item] now).numbered items now := by
  obtain ⟨id, prio⟩ := item
  by_cases hr : r.id = id
  · have hone : r.numbered [(id, prio)] now = { r with priority := prio, updatedAt := now } :=
      Rule.numbered_of_some (by simp [hr])
    have hrest : items.lookup (r.numbered [(id, prio)] now).id = none := by
      rw [hone, List.lookup_eq_none_iff]
      intro p hp
      rw [bne_iff_ne]
      exact fun he => h (List.mem_map.2 ⟨p, hp, he.symm.trans hr⟩)
    rw [Rule.numbered_of_none hrest, hone]
    exact Rule.numbered_of_some (by simp [hr])
  · have hne : (r.id == id) = false := beq_eq_false_iff_ne.2 hr
    have hone : r.numbered [(id, prio)] now = r :=
      Rule.numbered_of_none (by rw [List.lookup_cons, hne, List.lookup_nil])
    rw [hone, Rule.numbered, Rule.numbered, List.lookup_cons, hne]

@[simp] lemma Rule.numbered_id (items : List (Uuid × ℤ)) (now : ℕ) (r : Rule) :
    (r.numbered items now).id = r.id := by
  unfold Rule.numbered
  split <;> rfl

@[simp] lemma Rule.numbered_userId (items : List (Uuid × ℤ)) (now : ℕ) (r : Rule) :
    (r.numbered items now).userId = r.userId := by
  unfold Rule.numbered
  split <;> rfl

lemma map_id_numbered (items : List (Uuid × ℤ)) (now : ℕ) (rules : List Rule) :
    (rules.map (Rule.numbered items now)).map Rule.id = rules.map Rule.id := by
  rw [List.map_map]
  exact List.map_congr_left fun r _ => Rule.numbered_id items now r

/-- One turn numbers the row with the id, if there is one. -/
lemma setPriority_rules (now : ℕ) {db : Database} (hids : (db.rules.map Rule.id).Nodup)
    (item : Uuid × ℤ) :
    (setPriority now db item).rules = db.rules.map (Rule.numbered [item] now) := by
  obtain ⟨id, prio⟩ := item
  have hlookup : ∀ r : Rule, r.numbered [(id, prio)] now =
      if r.id = id then { r with priority := prio, updatedAt := now } else r := by
    intro r
    by_cases hr : r.id = id
    · rw [if_pos hr]
      exact Rule.numbered_of_some (by simp [hr])
    · rw [if_neg hr]
      have hne : (r.id == id) = false := beq_eq_false_iff_ne.2 hr
      exact Rule.numbered_of_none (by rw [List.lookup_cons, hne, List.lookup_nil])
  unfold setPriority
  cases hrule : db.rule id with
  | none =>
    have hnone : ∀ r ∈ db.rules, r.id ≠ id := by simpa using List.find?_eq_none.1 hrule
    refine (List.map_id _).symm.trans (List.map_congr_left fun r hr => ?_)
    rw [hlookup, if_neg (hnone r hr)]
    rfl
  | some rule =>
    obtain ⟨hmem, hid⟩ := List.mem_of_find?_key hrule
    refine List.map_congr_left fun r hr => ?_
    rw [hlookup]
    by_cases hr' : r.id = id
    · obtain rfl := List.inj_on_of_nodup_map hids hr hmem (hr'.trans hid.symm)
      rw [if_pos hr', if_pos rfl]
    · rw [if_neg hr', if_neg fun h => hr' (h.trans hid)]

lemma foldl_setPriority_rules (now : ℕ) {items : List (Uuid × ℤ)}
    (hitems : (items.map Prod.fst).Nodup) {db : Database} (hids : (db.rules.map Rule.id).Nodup) :
    (items.foldl (setPriority now) db).rules = db.rules.map (Rule.numbered items now) := by
  induction items generalizing db with
  | nil => exact (List.map_id _).symm
  | cons item items ih =>
    rw [List.map_cons, List.nodup_cons] at hitems
    have hone := setPriority_rules now hids item
    rw [List.foldl_cons, ih hitems.2 (by rwa [hone, map_id_numbered]), hone, List.map_map]
    exact List.map_congr_left fun r _ => (Rule.numbered_cons hitems.1).symm

/-- **Every row gets its number**, and rows that are not listed stay as they are. -/
theorem persistOrder_rules (now : ℕ) {orderedIds : List Uuid} (hordered : orderedIds.Nodup)
    {db : Database} (hids : (db.rules.map Rule.id).Nodup) :
    (persistOrder now orderedIds db).rules =
      db.rules.map (Rule.numbered (assignPriorities orderedIds) now) :=
  foldl_setPriority_rules now (by rwa [map_fst_assignPriorities]) hids

end WireGui
