import Mathlib.Data.Finset.Dedup
import Mathlib.Data.Finset.Basic
import Mathlib.Data.Finset.Sort

/-!
# The order of a set

A loop over a Python set sees each element once, in an order the program does not choose.
-/

/-- The elements of a finite set in some order. -/
structure SetOrder {α : Type} (s : Finset α) where
  toList : List α
  nodup : toList.Nodup
  mem_iff : ∀ a, a ∈ toList ↔ a ∈ s

namespace SetOrder

variable {α : Type} {s : Finset α}

/-- A list of the elements as an order. -/
def ofList [DecidableEq α] (l : List α) (hd : l.Nodup) (h : l.toFinset = s) : SetOrder s where
  toList := l
  nodup := hd
  mem_iff := fun a => by rw [← h, List.mem_toFinset]

def singleton {a : α} (h : s = {a}) : SetOrder s where
  toList := [a]
  nodup := List.nodup_singleton a
  mem_iff := fun b => by rw [h, List.mem_singleton, Finset.mem_singleton]

/-- The ascending order. -/
def sorted [LinearOrder α] (s : Finset α) : SetOrder s where
  toList := s.sort (· ≤ ·)
  nodup := s.sort_nodup (· ≤ ·)
  mem_iff := fun _ => s.mem_sort (· ≤ ·)

lemma toList_sorted_singleton [LinearOrder α] (a : α) :
    (sorted ({a} : Finset α)).toList = [a] := Finset.sort_singleton _ a

lemma toList_eq_nil (o : SetOrder (∅ : Finset α)) : o.toList = [] := by
  rw [List.eq_nil_iff_forall_not_mem]
  intro a ha
  exact absurd ((o.mem_iff a).1 ha) (Finset.notMem_empty a)

end SetOrder
