import Mathlib.Data.List.Forall2
import Mathlib.Data.List.ReduceOption
import Mathlib.Data.List.Sort
import Mathlib.Order.Lattice

/-!
# Lists

Partial maps over lists, and what makes a sort stable.
-/

/-! ### What holds of the members

is decided by going through them, also where one could go through all values of their type. -/

section Decidable

variable {α : Type} (p : α → Prop) [DecidablePred p]

instance (priority := high) List.decidableForallMem (l : List α) : Decidable (∀ a ∈ l, p a) :=
  l.decidableBAll p

instance (priority := high) List.decidableExistsMem (l : List α) : Decidable (∃ a ∈ l, p a) :=
  l.decidableBEx p

instance (priority := high) Option.decidableForallMem' (o : Option α) :
    Decidable (∀ a ∈ o, p a) := o.decidableForallMem

instance (priority := high) Option.decidableExistsMem' (o : Option α) :
    Decidable (∃ a ∈ o, p a) := o.decidableExistsMem

end Decidable

namespace List

variable {α β γ : Type}

/-- A partial map over a list succeeds with the list of the single results. -/
theorem mapM_eq_some_iff {f : α → Option β} {xs : List α} {ys : List β} :
    xs.mapM f = some ys ↔ Forall₂ (fun x y => f x = some y) xs ys := by
  induction xs generalizing ys with
  | nil => cases ys <;> simp
  | cons x xs ih =>
    rw [mapM_cons, forall₂_cons_left_iff]
    constructor
    · intro h
      obtain ⟨y, hy, h⟩ := Option.bind_eq_some_iff.1 h
      obtain ⟨ys', hys, h⟩ := Option.bind_eq_some_iff.1 h
      exact ⟨y, ys', hy, ih.1 hys, (Option.some.inj h).symm⟩
    · rintro ⟨y, ys', hy, hys, rfl⟩
      rw [hy, ih.2 hys]
      rfl

theorem exists_of_mapM {f : α → Option β} {xs : List α} {ys : List β} (h : xs.mapM f = some ys)
    {x : α} (hx : x ∈ xs) : ∃ y ∈ ys, f x = some y := by
  rw [mapM_eq_some_iff] at h
  induction h with
  | nil => exact absurd hx not_mem_nil
  | cons hxy _ ih =>
    rcases mem_cons.1 hx with rfl | hx
    · exact ⟨_, mem_cons_self, hxy⟩
    · obtain ⟨y, hy, h⟩ := ih hx
      exact ⟨y, mem_cons_of_mem _ hy, h⟩

theorem exists_of_mem_mapM {f : α → Option β} {xs : List α} {ys : List β} (h : xs.mapM f = some ys)
    {y : β} (hy : y ∈ ys) : ∃ x ∈ xs, f x = some y := by
  rw [mapM_eq_some_iff] at h
  induction h with
  | nil => exact absurd hy not_mem_nil
  | cons hxy _ ih =>
    rcases mem_cons.1 hy with rfl | hy
    · exact ⟨_, mem_cons_self, hxy⟩
    · obtain ⟨x, hx, h⟩ := ih hy
      exact ⟨x, mem_cons_of_mem _ hx, h⟩

theorem exists_mapM_iff {f : α → Option β} {xs : List α} :
    (∃ ys, xs.mapM f = some ys) ↔ ∀ x ∈ xs, ∃ y, f x = some y := by
  constructor
  · rintro ⟨ys, h⟩ x hx
    obtain ⟨y, -, hy⟩ := exists_of_mapM h hx
    exact ⟨y, hy⟩
  · intro h
    induction xs with
    | nil => exact ⟨[], rfl⟩
    | cons x xs ih =>
      obtain ⟨y, hy⟩ := h x mem_cons_self
      obtain ⟨ys, hys⟩ := ih fun z hz => h z (mem_cons_of_mem _ hz)
      exact ⟨y :: ys, mapM_eq_some_iff.2 (.cons hy (mapM_eq_some_iff.1 hys))⟩

/-- Results that can be computed from the results of another map. -/
theorem mapM_of_mapM {f : α → Option β} {g : α → Option γ} {h : β → γ} {xs : List α} {ys : List β}
    (hf : xs.mapM f = some ys) (hg : ∀ x ∈ xs, ∀ y, f x = some y → g x = some (h y)) :
    xs.mapM g = some (ys.map h) := by
  rw [mapM_eq_some_iff] at hf ⊢
  induction hf with
  | nil => exact .nil
  | cons hxy _ ih =>
    exact .cons (hg _ mem_cons_self _ hxy) (ih fun x hx => hg x (mem_cons_of_mem _ hx))

/-- Each of the values is read. -/
theorem mapM_map_eq_some {f : β → Option γ} {g : α → β} {h : α → γ} {xs : List α}
    (hx : ∀ x ∈ xs, f (g x) = some (h x)) : (xs.map g).mapM f = some (xs.map h) := by
  rw [mapM_eq_some_iff, forall₂_map_left_iff, forall₂_map_right_iff, forall₂_same]
  exact hx

theorem reduceOption_map_some (f : α → β) (xs : List α) :
    (xs.map fun x => some (f x)).reduceOption = xs.map f := by
  induction xs with
  | nil => rfl
  | cons x xs ih => rw [map_cons, map_cons, reduceOption_cons_of_some, ih]

theorem mapM_append_eq_some_iff {f : α → Option β} {xs xs' : List α} {ys : List β} :
    (xs ++ xs').mapM f = some ys ↔
      ∃ zs zs', xs.mapM f = some zs ∧ xs'.mapM f = some zs' ∧ ys = zs ++ zs' := by
  rw [mapM_append]
  constructor
  · intro h
    obtain ⟨zs, hzs, h⟩ := Option.bind_eq_some_iff.1 h
    obtain ⟨zs', hzs', h⟩ := Option.bind_eq_some_iff.1 h
    exact ⟨zs, zs', hzs, hzs', (Option.some.inj h).symm⟩
  · rintro ⟨zs, zs', hzs, hzs', rfl⟩
    rw [hzs, hzs']
    rfl

/-! ### The first result -/

theorem findSome?_congr {f g : α → Option β} {xs : List α} (h : ∀ x ∈ xs, f x = g x) :
    xs.findSome? f = xs.findSome? g := by
  induction xs with
  | nil => rfl
  | cons x xs ih =>
    rw [findSome?_cons, findSome?_cons, h x mem_cons_self,
      ih fun y hy => h y (mem_cons_of_mem _ hy)]

/-- The result of the one element that has any. -/
theorem findSome?_eq_of_unique {f : α → Option β} {xs : List α} {x : α} (hx : x ∈ xs)
    (h : ∀ y ∈ xs, y ≠ x → f y = none) : xs.findSome? f = f x := by
  cases hs : xs.findSome? f with
  | none => exact (findSome?_eq_none_iff.1 hs x hx).symm
  | some b =>
    obtain ⟨y, hy, hb⟩ := exists_of_findSome?_eq_some hs
    by_cases hyx : y = x
    · rw [← hyx, hb]
    · rw [h y hy hyx] at hb
      cases hb

/-! ### Rows with a key -/

theorem mem_of_find?_key [DecidableEq β] {f : α → β} {l : List α} {a : α} {k : β}
    (h : l.find? (fun a => f a = k) = some a) : a ∈ l ∧ f a = k :=
  ⟨mem_of_find?_eq_some h, by simpa using find?_some h⟩

/-- The row with a key, where keys are unique. -/
theorem find?_eq_some_of_nodup_map [DecidableEq β] {f : α → β} {l : List α} {a : α} {k : β}
    (h : (l.map f).Nodup) : l.find? (fun a => f a = k) = some a ↔ a ∈ l ∧ f a = k := by
  refine ⟨mem_of_find?_key, ?_⟩
  rintro ⟨ha, hk⟩
  cases hb : l.find? fun a => f a = k with
  | none => exact absurd hk (by simpa using find?_eq_none.1 hb a ha)
  | some b =>
    obtain ⟨hmem, hbk⟩ := mem_of_find?_key hb
    rw [inj_on_of_nodup_map h hmem ha (hbk.trans hk.symm)]

theorem filter_eq_singleton_of_nodup_map [DecidableEq β] {f : α → β} {l : List α} {a : α}
    (h : (l.map f).Nodup) (ha : a ∈ l) : l.filter (fun b => f b = f a) = [a] := by
  induction l with
  | nil => cases ha
  | cons b l ih =>
    rw [map_cons, nodup_cons] at h
    rcases mem_cons.1 ha with rfl | ha
    · have hrest : l.filter (fun c => f c = f a) = [] := by
        refine filter_eq_nil_iff.2 fun c hc he => h.1 ?_
        rw [← of_decide_eq_true he]
        exact mem_map_of_mem hc
      rw [filter_cons_of_pos (by simp), hrest]
    · have hne : f b ≠ f a := fun he => h.1 (he ▸ mem_map_of_mem ha)
      rw [filter_cons_of_neg (by simpa using hne), ih h.2 ha]

section Last

variable [DecidableEq β] {f : α → β} {l : List α} {a : α} {k : β}

/-! The last row with a key, as a dictionary keeps it. -/

theorem getLast?_filter_cons :
    ((a :: l).filter (f · = k)).getLast? =
      (l.filter (f · = k)).getLast?.or (if f a = k then some a else none) := by
  rw [getLast?_filter, reverse_cons, find?_append, ← getLast?_filter]
  by_cases h : f a = k
  · rw [if_pos h, find?_cons_of_pos (by simpa using h)]
  · rw [if_neg h, find?_cons_of_neg (by simpa using h), find?_nil]

theorem getLast?_filter_eq_none_iff :
    (l.filter (f · = k)).getLast? = none ↔ ∀ a ∈ l, f a ≠ k := by
  rw [getLast?_eq_none_iff, filter_eq_nil_iff]
  simp

theorem mem_of_getLast?_filter (h : (l.filter (f · = k)).getLast? = some a) :
    a ∈ l ∧ f a = k := by
  have hm := mem_filter.1 (mem_of_getLast? h)
  exact ⟨hm.1, of_decide_eq_true hm.2⟩

theorem getLast?_filter_of_nodup (h : (l.map f).Nodup) (ha : a ∈ l) :
    (l.filter (f · = f a)).getLast? = some a := by
  have hr : (l.reverse.map f).Nodup := by
    rw [map_reverse, nodup_reverse]
    exact h
  rw [getLast?_filter]
  exact (find?_eq_some_of_nodup_map hr).2 ⟨mem_reverse.2 ha, rfl⟩

end Last

section WriteBack

variable [DecidableEq β] {f : α → β} {l : List α} {a b : α}

/-- A row that is written back takes the place of those with its key. -/
theorem mem_writeBack_iff (ha : ∃ c ∈ l, f c = f a) :
    b ∈ l.map (fun c => if f c = f a then a else c) ↔ b = a ∨ (b ∈ l ∧ f b ≠ f a) := by
  rw [mem_map]
  constructor
  · rintro ⟨c, hc, rfl⟩
    split
    · exact .inl rfl
    next hne => exact .inr ⟨hc, hne⟩
  · rintro (rfl | ⟨hb, hne⟩)
    · obtain ⟨c, hc, hk⟩ := ha
      exact ⟨c, hc, if_pos hk⟩
    · exact ⟨b, hb, if_neg hne⟩

/-- What it has in common with the row before it stays in its place. -/
theorem map_writeBack {g : α → γ} (h : ∀ c ∈ l, f c = f a → g a = g c) :
    (l.map fun c => if f c = f a then a else c).map g = l.map g := by
  rw [map_map]
  refine map_congr_left fun c hc => ?_
  rw [Function.comp_apply]
  split
  next hk => exact h c hc hk
  next => rfl

/-- The rows that are kept stay if neither the row nor those it replaces are among them. -/
theorem filter_writeBack {q : α → Bool} (ha : q a = false) (h : ∀ c ∈ l, f c = f a → q c = false) :
    (l.map fun c => if f c = f a then a else c).filter q = l.filter q := by
  have hq : l.filter (q ∘ fun c => if f c = f a then a else c) = l.filter q := by
    refine filter_congr fun c hc => ?_
    rw [Function.comp_apply]
    split
    next hk => rw [ha, h c hc hk]
    next => rfl
  have hkept : (l.filter q).map (fun c => if f c = f a then a else c) = (l.filter q).map id := by
    refine map_congr_left fun c hc => if_neg fun hk => ?_
    obtain ⟨hc, hqc⟩ := mem_filter.1 hc
    exact absurd hqc (by simp [h c hc hk])
  rw [filter_map, hq, hkept, map_id]

end WriteBack

theorem nodup_map_append_singleton {f : α → β} {l : List α} {a : α} (hl : (l.map f).Nodup)
    (ha : ∀ b ∈ l, f b ≠ f a) : ((l ++ [a]).map f).Nodup := by
  rw [map_append, nodup_append]
  refine ⟨hl, nodup_singleton _, ?_⟩
  simpa using ha

/-! ### First occurrences -/

theorem eraseDups_of_nodup [DecidableEq α] {l : List α} (h : l.Nodup) : l.eraseDups = l := by
  induction l with
  | nil => rfl
  | cons a l ih =>
    obtain ⟨ha, hl⟩ := nodup_cons.1 h
    have hf : l.filter (fun b => !b == a) = l := by
      refine filter_eq_self.2 fun b hb => ?_
      have hne : b ≠ a := fun he => ha (he ▸ hb)
      simpa using hne
    rw [eraseDups_cons, hf, ih hl]

/-- What has occurred before adds nothing. -/
theorem eraseDups_append_of_subset [DecidableEq α] {l l' : List α} (h : ∀ a ∈ l', a ∈ l) :
    (l ++ l').eraseDups = l.eraseDups := by
  have hnil : l'.removeAll l = [] := by
    refine filter_eq_nil_iff.2 fun a ha => ?_
    simpa using h a ha
  rw [eraseDups_append, hnil, eraseDups_nil, append_nil]

/-! ### Moving an element -/

section Move

variable [DecidableEq γ] {key : α → γ} {src target : γ} {l : List α}

/-- The element with the key `src` is taken out and put immediately before the one with the key
`target`. -/
def moveBefore (key : α → γ) (src target : γ) (l : List α) : List α :=
  if src = target then l
  else
    match l.find? (key · = src) with
    | none => l
    | some a =>
      let rest := l.filter (key · ≠ src)
      rest.takeWhile (key · ≠ target) ++ a :: rest.dropWhile (key · ≠ target)

theorem map_moveBefore (f : α → β) {key' : β → γ} (hf : ∀ a, key' (f a) = key a) :
    (l.moveBefore key src target).map f = (l.map f).moveBefore key' src target := by
  have hcomp : ∀ q : γ → Bool, ((q <| key' ·) ∘ f) = (q <| key ·) := by
    intro q
    funext a
    exact congrArg q (hf a)
  unfold moveBefore
  rw [find?_map, hcomp (decide <| · = src)]
  split
  · rfl
  cases l.find? fun a => decide (key a = src) with
  | none => rfl
  | some a =>
    simp only [Option.map_some]
    rw [filter_map, hcomp (decide <| · ≠ src), takeWhile_map, dropWhile_map,
      hcomp (decide <| · ≠ target), map_append, map_cons]

/-- Nothing is lost and nothing comes twice. -/
theorem moveBefore_perm (h : (l.map key).Nodup) : (l.moveBefore key src target).Perm l := by
  unfold moveBefore
  split
  · exact .refl _
  cases ha : l.find? fun a => decide (key a = src) with
  | none => exact .refl _
  | some a =>
    obtain ⟨hmem, rfl⟩ := mem_of_find?_key ha
    have hone := filter_eq_singleton_of_nodup_map h hmem
    have hsplit := filter_append_perm (fun b => decide (key b = key a)) l
    rw [hone] at hsplit
    refine perm_middle.trans ?_
    rw [takeWhile_append_dropWhile]
    simpa using hsplit

theorem insertIdx_idxOf [DecidableEq α] (a b : α) (l : List α) :
    l.insertIdx (l.idxOf a) b = l.takeWhile (· ≠ a) ++ b :: l.dropWhile (· ≠ a) := by
  induction l with
  | nil => rfl
  | cons c l ih =>
    by_cases hc : c = a
    · subst hc
      simp
    · rw [idxOf_cons_ne _ hc, insertIdx_succ_cons, ih, takeWhile_cons_of_pos (by simpa using hc),
        dropWhile_cons_of_pos (by simpa using hc), cons_append]

/-- `l.remove(src)` and `l.insert(l.index(target), src)`. -/
theorem insertIdx_erase_eq_moveBefore {src target : γ} {l : List γ} (h : l.Nodup) (hs : src ∈ l)
    (hne : src ≠ target) :
    (l.erase src).insertIdx ((l.erase src).idxOf target) src = l.moveBefore id src target := by
  have hfind : l.find? (fun a => decide (id a = src)) = some src :=
    (find?_eq_some_of_nodup_map (by rwa [map_id])).2 ⟨hs, rfl⟩
  have herase : l.erase src = l.filter fun a => decide (id a ≠ src) := by
    rw [h.erase_eq_filter]
    refine filter_congr fun a _ => ?_
    by_cases ha : a = src <;> simp [ha]
  rw [insertIdx_idxOf, moveBefore, if_neg hne, hfind, herase]
  rfl

end Move

/-! ### Splitting -/

/-- What stands before the first separator. -/
theorem prefix_of_splitOn [DecidableEq α] {x : α} {l hd : List α} {tl : List (List α)}
    (h : l.splitOn x = hd :: tl) : hd <+: l := by
  have hl : [x].intercalate (hd :: tl) = l := h ▸ intercalate_splitOn x
  cases tl with
  | nil =>
    rw [intercalate_singleton] at hl
    exact hl ▸ prefix_refl hd
  | cons m ms =>
    rw [intercalate_cons_cons, append_assoc] at hl
    exact ⟨_, hl⟩

/-- No separator is left in a part. -/
theorem notMem_of_mem_splitOn [DecidableEq α] {x : α} {l part : List α}
    (h : part ∈ l.splitOn x) : x ∉ part := by
  induction l generalizing part with
  | nil =>
    rw [splitOn_nil, mem_singleton] at h
    rw [h]
    exact not_mem_nil
  | cons y l ih =>
    rw [splitOn_cons_eq_if_modifyHead] at h
    split at h
    next =>
      rcases mem_cons.1 h with rfl | h
      · exact not_mem_nil
      · exact ih h
    next hy =>
      cases hl : l.splitOn x with
      | nil => exact absurd hl (splitOn_ne_nil x l)
      | cons first parts =>
        rw [hl, modifyHead_cons] at h
        rcases mem_cons.1 h with rfl | h
        · intro hx
          rcases mem_cons.1 hx with rfl | hx
          · exact hy (beq_self_eq_true x)
          · exact ih (by rw [hl]; exact mem_cons_self) hx
        · exact ih (by rw [hl]; exact mem_cons_of_mem _ h)

/-- The second half of a separator counts as the head of what follows. -/
theorem intercalate_pair (x y : α) (l : List α) (ls : List (List α)) :
    [x, y].intercalate (l :: ls) = [x].intercalate (l :: ls.map (y :: ·)) := by
  induction ls generalizing l with
  | nil => rfl
  | cons m ls ih =>
    have hhead : ∀ ms, [x].intercalate ((y :: m) :: ms) = y :: [x].intercalate (m :: ms) := by
      intro ms
      cases ms <;> simp
    rw [intercalate_cons_cons, ih, map_cons, intercalate_cons_cons, hhead]
    simp

/-! ### Stable sorting -/

section Stable

variable [LinearOrder β] {key : α → β}

/-- **`l'` is `l` sorted by a key**, elements with the same key in the order of `l`. -/
structure StableSort (key : α → β) (l l' : List α) : Prop where
  perm : l'.Perm l
  sorted : l'.Pairwise fun a b => key a ≤ key b
  stable : ∀ k, l'.filter (key · = k) = l.filter (key · = k)

lemma filter_orderedInsert (a : α) (l : List α) (k : β) :
    (l.orderedInsert (fun a b => key a ≤ key b) a).filter (key · = k) =
      (a :: l).filter (key · = k) := by
  induction l with
  | nil => rfl
  | cons b l ih =>
    rw [orderedInsert_cons]
    by_cases h : key a ≤ key b
    · rw [if_pos h]
    · rw [if_neg h, filter_cons, ih]
      by_cases hb : key b = k
      · have ha : key a ≠ k := fun ha => h (by rw [ha, hb])
        simp [hb, ha]
      · simp [hb, filter_cons]

theorem stableSort_insertionSort (key : α → β) (l : List α) :
    StableSort key l (l.insertionSort fun a b => key a ≤ key b) where
  perm := perm_insertionSort _ l
  sorted := by
    have : Std.Total fun a b : α => key a ≤ key b := ⟨fun a b => le_total _ _⟩
    have : IsTrans α fun a b => key a ≤ key b := ⟨fun a b c => le_trans⟩
    exact pairwise_insertionSort _ l
  stable := by
    intro k
    induction l with
    | nil => rfl
    | cons a l ih => rw [insertionSort_cons, filter_orderedInsert, filter_cons, filter_cons, ih]

/-- A list is sorted by its keys and the order within each key. -/
lemma eq_of_sorted_of_filter {l l' : List α} (hl : l.Pairwise fun a b => key a ≤ key b)
    (hl' : l'.Pairwise fun a b => key a ≤ key b)
    (h : ∀ k, l.filter (key · = k) = l'.filter (key · = k)) : l = l' := by
  induction l generalizing l' with
  | nil =>
    cases l' with
    | nil => rfl
    | cons b l' =>
      have hb := h (key b)
      rw [filter_nil, filter_cons_of_pos (by simp)] at hb
      cases hb
  | cons a l ih =>
    cases l' with
    | nil =>
      have ha := h (key a)
      rw [filter_nil, filter_cons_of_pos (by simp)] at ha
      cases ha
    | cons b l' =>
      rw [pairwise_cons] at hl hl'
      have hmem : ∀ c, c ∈ a :: l ↔ c ∈ b :: l' := by
        intro c
        have hc := congrArg (c ∈ ·) (h (key c))
        simpa using hc
      -- the two heads have the same key
      have hab : key a = key b := by
        apply le_antisymm
        · rcases mem_cons.1 ((hmem b).2 mem_cons_self) with hb | hb
          · rw [hb]
          · exact hl.1 b hb
        · rcases mem_cons.1 ((hmem a).1 mem_cons_self) with ha | ha
          · rw [ha]
          · exact hl'.1 a ha
      have hhead := h (key a)
      rw [filter_cons_of_pos (by simp), filter_cons_of_pos (by simpa using hab.symm)] at hhead
      obtain ⟨rfl, -⟩ := cons.inj hhead
      congr 1
      refine ih hl.2 hl'.2 fun k => ?_
      have hk := h k
      rw [filter_cons, filter_cons] at hk
      by_cases hak : key a = k
      · simpa [hak] using hk
      · simpa [hak] using hk

/-- **There is one stable sort.** -/
theorem StableSort.eq {l l₁ l₂ : List α} (h₁ : StableSort key l l₁) (h₂ : StableSort key l l₂) :
    l₁ = l₂ :=
  eq_of_sorted_of_filter h₁.sorted h₂.sorted fun k => (h₁.stable k).trans (h₂.stable k).symm

end Stable

section Filter

variable (r : α → α → Prop) [DecidableRel r]

lemma orderedInsert_filter [IsTrans α r] {l : List α} (hl : l.Pairwise r) (a : α)
    (q : α → Bool) :
    (l.orderedInsert r a).filter q =
      if q a then (l.filter q).orderedInsert r a else l.filter q := by
  induction l with
  | nil => cases hq : q a <;> simp [hq]
  | cons b l ih =>
    rw [pairwise_cons] at hl
    rw [orderedInsert_cons]
    by_cases hab : r a b
    · rw [if_pos hab, filter_cons]
      by_cases hqa : q a = true
      · rw [if_pos hqa, if_pos hqa]
        -- what is kept of `b :: l` comes after `a` as well
        have hall : ∀ c ∈ (b :: l).filter q, r a c := by
          intro c hc
          rcases mem_cons.1 (mem_of_mem_filter hc) with rfl | hc
          · exact hab
          · exact IsTrans.trans _ _ _ hab (hl.1 c hc)
        cases hf : (b :: l).filter q with
        | nil => rfl
        | cons c cs =>
          rw [orderedInsert_cons, if_pos (hall c (by rw [hf]; exact mem_cons_self))]
      · rw [if_neg hqa, if_neg hqa]
    · rw [if_neg hab, filter_cons, filter_cons, ih hl.2]
      by_cases hqb : q b = true
      · rw [if_pos hqb, if_pos hqb]
        by_cases hqa : q a = true
        · rw [if_pos hqa, if_pos hqa, orderedInsert_cons, if_neg hab]
        · rw [if_neg hqa, if_neg hqa]
      · rw [if_neg hqb, if_neg hqb]

/-- Sorting and picking out go together. -/
theorem filter_insertionSort [Std.Total r] [IsTrans α r] (l : List α) (q : α → Bool) :
    (l.insertionSort r).filter q = (l.filter q).insertionSort r := by
  induction l with
  | nil => rfl
  | cons a l ih =>
    rw [insertionSort_cons, orderedInsert_filter r (pairwise_insertionSort r l), ih, filter_cons]
    by_cases hq : q a = true
    · rw [if_pos hq, if_pos hq, insertionSort_cons]
    · rw [if_neg hq, if_neg hq]

end Filter

end List

/-! ### Related items -/

namespace Option

variable {α α' β β' : Type} {R : α → α' → Prop} {S : β → β' → Prop} {o : Option α}
  {o' : Option α'}

theorem Rel.bind {f : α → Option β} {g : α' → Option β'} (h : Rel R o o')
    (hfg : ∀ a a', R a a' → Rel S (f a) (g a')) : Rel S (o.bind f) (o'.bind g) := by
  cases h with
  | none => exact .none
  | some ha => exact hfg _ _ ha

theorem Rel.elim {x : β} {y : β'} {f : α → β} {g : α' → β'} (h : Rel R o o') (hxy : S x y)
    (hfg : ∀ a a', R a a' → S (f a) (g a')) : S (o.elim x f) (o'.elim y g) := by
  cases h with
  | none => exact hxy
  | some ha => exact hfg _ _ ha

theorem Rel.toList (h : Rel R o o') : List.Forall₂ R o.toList o'.toList := by
  cases h with
  | none => exact .nil
  | some ha => exact .cons ha .nil

end Option

namespace List

section Related

variable {α α' β β' : Type} {R : α → α' → Prop} {S : β → β' → Prop} {l : List α} {l' : List α'}

theorem rel_find? {p : α → Bool} {q : α' → Bool} (hpq : ∀ a a', R a a' → p a = q a')
    (h : Forall₂ R l l') : Option.Rel R (l.find? p) (l'.find? q) := by
  induction h with
  | nil => exact .none
  | cons ha _ ih =>
    rw [find?_cons, find?_cons, ← hpq _ _ ha]
    split
    · exact .some ha
    · exact ih

theorem rel_mapM {f : α → Option β} {g : α' → Option β'}
    (hfg : ∀ a a', R a a' → Option.Rel S (f a) (g a')) (h : Forall₂ R l l') :
    Option.Rel (Forall₂ S) (l.mapM f) (l'.mapM g) := by
  induction h with
  | nil => exact .some .nil
  | cons ha _ ih =>
    rw [mapM_cons, mapM_cons]
    exact (hfg _ _ ha).bind fun _ _ hb => ih.bind fun _ _ hbs => .some (.cons hb hbs)

theorem forall_mem_iff_of_forall₂ {p : α → Prop} {q : α' → Prop}
    (hpq : ∀ a a', R a a' → (p a ↔ q a')) (h : Forall₂ R l l') :
    (∀ a ∈ l, p a) ↔ ∀ a' ∈ l', q a' := by
  induction h with
  | nil => simp
  | cons ha _ ih => rw [forall_mem_cons, forall_mem_cons, hpq _ _ ha, ih]

end Related

end List
