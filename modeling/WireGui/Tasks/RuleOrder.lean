import WireGui.Tasks.Reconcile
import Mathlib.Data.Prod.Lex

/-!
# The order of rules on the two ways to a chain

`_rebuild_user_chain` picks the rules of one user and sorts them; `reconcile` sorts all rules and
picks those of each user.  `rebuild_all_rules` sorts once more by priority alone.

* `orderRules_unique`: with distinct ranks there is one order, so that it makes no difference which
  of the sorted lists the database answers with.
* `exprsFor_eq`: both ways write the same expressions, one for each rule of the user, by rank.
-/

namespace WireGui

/-! ### Ranks -/

/-- The place of a rule: `(priority, inserted_at)`. -/
def Rule.rank (r : Rule) : ℤ ×ₗ ℕ := toLex (r.priority, r.insertedAt)

lemma before_iff_rank {r s : Rule} : r.before s ↔ r.rank ≤ s.rank := by
  simp [Rule.before, Rule.rank, Prod.Lex.le_iff]

/-- No two rules have the same place. -/
def RanksDistinct (rules : List Rule) : Prop := (rules.map Rule.rank).Nodup

lemma RanksDistinct.perm {l l' : List Rule} (h : RanksDistinct l) (hp : l.Perm l') :
    RanksDistinct l' := (hp.map _).nodup_iff.1 h

lemma RanksDistinct.filter {l : List Rule} (h : RanksDistinct l) (q : Rule → Bool) :
    RanksDistinct (l.filter q) := h.sublist (List.filter_sublist.map _)

lemma RanksDistinct.eq {l : List Rule} (h : RanksDistinct l) {r s : Rule} (hr : r ∈ l) (hs : s ∈ l)
    (he : r.rank = s.rank) : r = s := List.inj_on_of_nodup_map h hr hs he

lemma ranksDistinct_of_insertedAt {rules : List Rule} (h : (rules.map Rule.insertedAt).Nodup) :
    RanksDistinct rules := by
  refine List.Nodup.of_map (fun k : ℤ ×ₗ ℕ => (ofLex k).2) ?_
  rw [List.map_map]
  exact h

lemma orderRules_perm (rules : List Rule) : (orderRules rules).Perm rules :=
  List.perm_insertionSort _ _

lemma orderRules_sorted (rules : List Rule) : (orderRules rules).Pairwise Rule.before :=
  List.pairwise_insertionSort _ _

/-- **With distinct ranks there is one order.** -/
theorem orderRules_unique {rules l : List Rule} (h : RanksDistinct rules) (hp : l.Perm rules)
    (hs : l.Pairwise Rule.before) : l = orderRules rules := by
  refine (hp.trans (orderRules_perm rules).symm).eq_of_pairwise ?_ hs (orderRules_sorted rules)
  intro r s hr hsm hrs hsr
  refine h.eq (hp.mem_iff.1 hr) ((orderRules_perm rules).mem_iff.1 hsm) ?_
  exact le_antisymm (before_iff_rank.1 hrs) (before_iff_rank.1 hsr)

/-- In that order the ranks ascend. -/
lemma orderRules_strict {rules : List Rule} (h : RanksDistinct rules) :
    (orderRules rules).Pairwise fun r s => r.rank < s.rank := by
  have hne : (orderRules rules).Pairwise fun r s => r.rank ≠ s.rank :=
    List.pairwise_map.1 (h.perm (orderRules_perm rules).symm)
  refine List.Pairwise.imp₂ (fun r s hle hrs => ?_) (orderRules_sorted rules) hne
  exact lt_of_le_of_ne (before_iff_rank.1 hle) hrs

/-! ### What is written -/

/-- The expression that is written for a rule of an entry. -/
def RuleEntry.expr (r : RuleEntry) : String :=
  buildRuleExpr r.destination r.action r.portType r.portRange

/-- The expressions for the chain of an entry, one after the other. -/
def Entry.exprs (e : Entry) : List String := e.orderedRules.map RuleEntry.expr

/-- The expressions that a rebuild from the entries writes for the user. -/
def exprsFor (u : Uuid) (entries : List Entry) : List String :=
  (entries.filter (·.userId = u.str)).flatMap Entry.exprs

/-- The rules of a user come in order already. -/
lemma orderedRules_userEntry (db : Database) (u : Uuid) :
    (db.userEntry u).orderedRules = (db.userRules u).map Rule.entry := by
  have hsorted : (db.userEntry u).rules.Pairwise
      fun r s => r.priority.getD 100 ≤ s.priority.getD 100 := by
    show ((db.userRules u).map Rule.entry).Pairwise _
    rw [List.pairwise_map]
    refine (orderRules_sorted _).imp fun {r s} h => ?_
    show r.priority ≤ s.priority
    unfold Rule.before at h
    omega
  rw [Entry.orderedRules, hsorted.insertionSort_eq]
  rfl

lemma exprs_userEntry (db : Database) (u : Uuid) :
    (db.userEntry u).exprs = (db.userRules u).map fun r => r.entry.expr := by
  rw [Entry.exprs, orderedRules_userEntry, List.map_map]
  rfl

lemma exprsFor_rebuild (db : Database) (u : Uuid) :
    exprsFor u [db.userEntry u] = (db.userRules u).map fun r => r.entry.expr := by
  have hu : (db.userEntry u).userId = u.str := rfl
  rw [exprsFor, List.filter_cons_of_pos (by simpa using hu), List.filter_nil,
    List.flatMap_singleton, exprs_userEntry]

lemma userRules_of_no_rows {db : Database} {u : Uuid} (h : ¬ db.HasRows u) :
    db.userRules u = [] := by
  have hf : db.rules.filter (·.userId = some u) = [] := by
    refine List.filter_eq_nil_iff.2 fun r hr hu => h (.inr ⟨r, hr, ?_⟩)
    simpa using hu
  rw [Database.userRules, hf]
  rfl

/-- The entry of the user is one of those of a reconciliation; without rows there is none. -/
lemma exprsFor_reconcile (db : Database) (uids : SetOrder db.userIds) (u : Uuid) :
    exprsFor u (db.reconcileEntries uids) = (db.userRules u).map fun r => r.entry.expr := by
  obtain ⟨users, hnodup, husers, -, hentries⟩ := reconcileEntries_eq db uids
  have hid : ∀ v, (db.userEntry v).userId = u.str ↔ v = u := fun v =>
    ⟨fun h : v.str = u.str => Uuid.str_injective h, fun h => by rw [h]; rfl⟩
  have hfilter : (users.map db.userEntry).filter (·.userId = u.str) =
      (users.filter (· = u)).map db.userEntry := by
    rw [List.filter_map]
    refine congrArg (List.map db.userEntry) (List.filter_congr fun v _ => ?_)
    rw [Function.comp_apply, decide_eq_decide]
    exact hid v
  rw [exprsFor, hentries, hfilter, List.filter_eq]
  by_cases hu : db.HasRows u
  · rw [List.count_eq_one_of_mem hnodup ((husers u).2 hu)]
    show [db.userEntry u].flatMap Entry.exprs = _
    rw [List.flatMap_singleton, exprs_userEntry]
  · rw [List.count_eq_zero_of_not_mem fun hm => hu ((husers u).1 hm), userRules_of_no_rows hu]
    rfl

/-- **Both ways write the same**: the expressions of the rules of the user, each once, by rank. -/
theorem exprsFor_eq (db : Database)
    (hdistinct : (db.rules.map Rule.insertedAt).Nodup) (u : Uuid)
    (uids : SetOrder db.userIds) :
    exprsFor u [db.userEntry u] = exprsFor u (db.reconcileEntries uids) ∧
      ∃ ordered : List Rule, ordered.Perm (db.rules.filter (·.userId = some u)) ∧
        (ordered.Pairwise fun r s => r.rank < s.rank) ∧
        exprsFor u [db.userEntry u] = ordered.map fun r => r.entry.expr := by
  have hranks : RanksDistinct (db.rules.filter (·.userId = some u)) :=
    (ranksDistinct_of_insertedAt hdistinct).filter _
  refine ⟨(exprsFor_rebuild db u).trans (exprsFor_reconcile db uids u).symm, db.userRules u,
    orderRules_perm _, orderRules_strict hranks, exprsFor_rebuild db u⟩

/-! Two rules with the same priority. -/

def acceptHost : Rule where
  id := ⟨11, by decide⟩
  action := "accept"
  destination := "10.3.2.9/32"
  portType := none
  portRange := none
  priority := -5
  userId := some alice
  insertedAt := 1
  updatedAt := 1

def dropRest : Rule where
  id := ⟨12, by decide⟩
  action := "drop"
  destination := "0.0.0.0/0"
  portType := none
  portRange := none
  priority := -5
  userId := some alice
  insertedAt := 2
  updatedAt := 2

def tiedRules : Database := { twoUsers with rules := [dropRest, acceptHost] }

theorem exprsFor_eq_tiedRules :
    exprsFor alice [tiedRules.userEntry alice] =
      exprsFor alice (tiedRules.reconcileEntries (ascending _)) :=
  (exprsFor_eq tiedRules (by decide) alice (ascending _)).1

example : exprsFor alice [tiedRules.userEntry alice] =
    ["ip daddr 10.3.2.9/32 accept", "ip daddr 0.0.0.0/0 drop"] := by decide

end WireGui
