import WireGui.Pages.AdminRules
import WireGui.Tasks.RuleOrder
import WireGui.Utils.Ordering
import WireGui.Lib.Run

/-!
# The order of a user's rules on the page `/admin/rules`

Creating, dragging and deleting keep the order of the rules in sparse numbers: a new rule gets the
highest number plus ten, a drag numbers all rules of the list by tens, and ties, which only rows
from elsewhere have, are broken by the time of insertion.

* `lists_step`: each of these operations is one on a plain list;
* `loadRules_run`: and so is any sequence of them.
-/

namespace WireGui

/-! ### The page -/

/-- The page of one administrator: what the program works on, the user in the filter (`none` is
`all`), the ids of the rows that are shown, and the row that is being dragged. -/
structure RulesPage extends State where
  filterUser : Option Uuid
  order : List Uuid
  dragged : Option Uuid

/-- `_load_rules`. -/
def loadRules (filterUser : Option Uuid) (db : Database) : List Rule :=
  match filterUser with
  | none => orderRules db.rules
  | some u => db.userRules u

/-- `_next_priority`: new rules go to the end of their scope. -/
def nextPriority (user : Option Uuid) (db : Database) : ℤ :=
  match (db.rules.filter (·.userId = user)).map Rule.priority with
  | [] => 10
  | prio :: existing => existing.foldl max prio + 10

/-- The fields of the dialog for a new rule.  `user` is `none` for the choice `global`. -/
structure CreateForm where
  action : String
  dest : String
  portType : String
  portRange : String
  user : Option Uuid

/-- The columns that `create_rule` sets. -/
def CreateForm.body (form : CreateForm) (priority : ℤ) : RuleCreate where
  action := form.action
  destination := strip form.dest
  portType := chosenType form.portType
  portRange := enteredRange form.portRange
  priority := priority
  userId := form.user

namespace RulesPage

/-- `render_rules`, which puts a new list in the place of the one shown. -/
def renderRules (p : RulesPage) : RulesPage :=
  { p with order := (loadRules p.filterUser p.db).map Rule.id, dragged := none }

/-- The page as it is loaded. -/
def load (s : State) : RulesPage := renderRules ⟨s, none, [], none⟩

/-- `on_filter_change`. -/
def onFilterChange (value : Option Uuid) (p : RulesPage) : RulesPage :=
  renderRules { p with filterUser := value }

/-- The start of a drag. -/
def dragStart (id : Uuid) (p : RulesPage) : RulesPage := { p with dragged := some id }

section Handlers

variable (settings : Settings) (nft : FrontEnd) (order : SetOrders)

/-- `create_rule`.  The row gets its id and times when it is made. -/
def createRule (id : Uuid) (now : ℕ) (form : CreateForm) (p : RulesPage) : RulesPage :=
  if strip form.dest = "" then p
  else
    let body := form.body (nextPriority form.user p.db)
    renderRules { p with toState := WireGui.createRule settings nft order id now body p.toState }

/-- `delete_rule`. -/
def deleteRule (id : Uuid) (p : RulesPage) : RulesPage :=
  match p.db.rule id with
  | none => renderRules p
  | some rule =>
    let db := p.db.deleteRule id
    renderRules { p with toState := ⟨db, onRuleChanged settings nft order db rule p.fw⟩ }

/-- `_persist_order`, and the event it starts. -/
def persistOrder (now : ℕ) (p : RulesPage) : RulesPage :=
  let db := WireGui.persistOrder now p.order p.db
  match p.filterUser with
  | none => { p with db := db }
  | some u => { p with db := db, fw := onRulesReordered settings nft order db u p.fw }

/-- `do_drop`.  `order.remove` and `order.index` raise a `ValueError` for an id that is not in the
list. -/
def doDrop (now : ℕ) (target : Uuid) (p : RulesPage) : RulesPage :=
  match p.dragged with
  | none => p
  | some src =>
    let p := { p with dragged := none }
    if src = target ∨ src ∉ p.order then p
    else
      let rest := p.order.erase src
      if target ∉ rest then { p with order := rest }
      else
        let order' := rest.insertIdx (rest.idxOf target) src
        renderRules (persistOrder settings nft order now { p with order := order' })

end Handlers

end RulesPage

/-- What the administrator does on the page. -/
inductive RuleOp
  | filter (value : Option Uuid)
  | create (id : Uuid) (now : ℕ) (form : CreateForm)
  | drag (now : ℕ) (src target : Uuid)
  | delete (id : Uuid)

section Step

variable (settings : Settings) (nft : FrontEnd) (order : SetOrders)

def RulesPage.step : RuleOp → RulesPage → RulesPage
  | .filter value, p => p.onFilterChange value
  | .create id now form, p => p.createRule settings nft order id now form
  | .drag now src target, p => (p.dragStart src).doDrop settings nft order now target
  | .delete id, p => p.deleteRule settings nft order id

end Step

/-- The operations on the rules of the user that go through: a new rule is for the user, has a
destination and an id that no row has, and rows are dragged in the list of the user's rules. -/
def RuleOp.Commits (u : Uuid) : RuleOp → RulesPage → Prop
  | .filter _, _ => True
  | .create id _ form, p =>
    form.user = some u ∧ strip form.dest ≠ "" ∧ ∀ r ∈ p.db.rules, r.id ≠ id
  | .drag _ src target, p => p.filterUser = some u ∧ src ∈ p.order ∧ target ∈ p.order
  | .delete _, _ => True

instance (u : Uuid) : ∀ (op : RuleOp) (p : RulesPage), Decidable (op.Commits u p)
  | .filter _, _ => inferInstanceAs (Decidable True)
  | .create _ _ _, _ => inferInstanceAs (Decidable (_ ∧ _ ∧ _))
  | .drag _ _ _, _ => inferInstanceAs (Decidable (_ ∧ _ ∧ _))
  | .delete _, _ => inferInstanceAs (Decidable True)

/-! ### The plain lists -/

/-- A row without the number of its place and the time of its last change. -/
def Rule.unplaced (r : Rule) : Rule := { r with priority := 0, updatedAt := 0 }

/-- The rules of one user in their order, and the rows of everyone else. -/
structure RuleLists where
  own : List Rule
  others : List Rule

/-- The row of a new rule. -/
def CreateForm.row (form : CreateForm) (id : Uuid) (now : ℕ) (priority : ℤ) : Rule where
  id := id
  action := form.action
  destination := strip form.dest
  portType := chosenType form.portType
  portRange := enteredRange form.portRange
  priority := priority
  userId := form.user
  insertedAt := now
  updatedAt := now

/-- Creating appends, dragging moves, deleting removes. -/
def RuleLists.step : RuleOp → RuleLists → RuleLists
  | .filter _, l => l
  | .create id now form, l => { l with own := l.own ++ [(form.row id now 0).unplaced] }
  | .drag _ src target, l => { l with own := l.own.moveBefore Rule.id src target }
  | .delete id, l => ⟨l.own.filter (·.id ≠ id), l.others.filter (·.id ≠ id)⟩

/-- What the lists are on the page. -/
def RulesPage.lists (u : Uuid) (p : RulesPage) : RuleLists where
  own := (loadRules (some u) p.db).map Rule.unplaced
  others := p.db.rules.filter (·.userId ≠ some u)

/-! ### What the operations do to the rows of the user -/

section Rows

variable {u : Uuid} {db : Database}

lemma mem_userRules_iff {r : Rule} : r ∈ db.userRules u ↔ r ∈ db.rules ∧ r.userId = some u := by
  rw [Database.userRules, (orderRules_perm _).mem_iff, List.mem_filter, decide_eq_true_iff]

lemma le_foldl_max {x y : ℤ} {l : List ℤ} (h : x ≤ y ∨ x ∈ l) : x ≤ l.foldl max y := by
  induction l generalizing y with
  | nil => exact h.resolve_right List.not_mem_nil
  | cons z l ih =>
    refine ih ?_
    rcases h with h | h
    · exact .inl (h.trans (le_max_left y z))
    · rcases List.mem_cons.1 h with rfl | h
      · exact .inl (le_max_right y x)
      · exact .inr h

lemma priority_lt_nextPriority {user : Option Uuid} {r : Rule} (hr : r ∈ db.rules)
    (hu : r.userId = user) : r.priority < nextPriority user db := by
  have hmem : r.priority ∈ (db.rules.filter (·.userId = user)).map Rule.priority :=
    List.mem_map_of_mem (List.mem_filter.2 ⟨hr, decide_eq_true hu⟩)
  unfold nextPriority
  split
  next hnil => rw [hnil] at hmem; cases hmem
  next prio existing hcons =>
    rw [hcons, List.mem_cons] at hmem
    have := le_foldl_max (hmem.imp_left le_of_eq)
    omega

lemma rank_lt_of_priority_lt {r s : Rule} (h : r.priority < s.priority) : r.rank < s.rank :=
  Prod.Lex.toLex_lt_toLex.2 (.inl h)

/-- A list of the rules by ascending ranks is the one that is loaded. -/
lemma userRules_eq {l : List Rule} (hp : l.Perm (db.rules.filter (·.userId = some u)))
    (hs : l.Pairwise fun r s => r.rank < s.rank) :
    db.userRules u = l ∧ RanksDistinct (db.rules.filter (·.userId = some u)) := by
  have hranks : RanksDistinct l := List.pairwise_map.2 (hs.imp fun h => ne_of_lt h)
  refine ⟨(orderRules_unique (hranks.perm hp) hp ?_).symm, hranks.perm hp⟩
  exact hs.imp fun h => before_iff_rank.2 h.le

lemma nodup_ids_of_perm {l : List Rule} (hids : (db.rules.map Rule.id).Nodup)
    (hp : l.Perm (db.userRules u)) : (l.map Rule.id).Nodup :=
  ((hp.trans (orderRules_perm _)).map _).nodup_iff.2 (hids.sublist (List.filter_sublist.map _))

/-- A rule above all others comes last. -/
lemma userRules_append {rule : Rule} (hu : rule.userId = some u)
    (hranks : RanksDistinct (db.rules.filter (·.userId = some u)))
    (hlast : ∀ r ∈ db.rules, r.userId = some u → r.priority < rule.priority) :
    let db' := { db with rules := db.rules ++ [rule] }
    db'.userRules u = db.userRules u ++ [rule] ∧
      RanksDistinct (db'.rules.filter (·.userId = some u)) := by
  refine userRules_eq ?_ ?_
  · rw [List.filter_append, List.filter_cons_of_pos (by simpa using hu), List.filter_nil]
    exact (orderRules_perm _).append_right _
  · rw [List.pairwise_append]
    refine ⟨orderRules_strict hranks, List.pairwise_singleton _ _, ?_⟩
    intro r hr s hs
    obtain rfl := List.mem_singleton.1 hs
    obtain ⟨hr, hru⟩ := mem_userRules_iff.1 hr
    exact rank_lt_of_priority_lt (hlast r hr hru)

lemma userRules_deleteRule (id : Uuid) :
    (db.deleteRule id).userRules u = (db.userRules u).filter (·.id ≠ id) := by
  rw [Database.userRules, Database.userRules, orderRules, orderRules, List.filter_insertionSort]
  · exact congrArg _ (List.filter_comm _ _ _)

/-- Numbered in their order, the rules of the user are loaded in that order. -/
lemma userRules_persistOrder {l : List Rule} (hids : (db.rules.map Rule.id).Nodup)
    (hp : l.Perm (db.userRules u)) (now : ℕ) :
    let db' := persistOrder now (l.map Rule.id) db
    db'.userRules u = l.map (Rule.numbered (assignPriorities (l.map Rule.id)) now) ∧
      RanksDistinct (db'.rules.filter (·.userId = some u)) := by
  have hperm : l.Perm (db.rules.filter (·.userId = some u)) := hp.trans (orderRules_perm _)
  have hl := nodup_ids_of_perm hids hp
  refine userRules_eq ?_ ?_
  · rw [persistOrder_rules now hl hids, List.filter_map]
    refine (hperm.map _).trans (.of_eq (congrArg _ (List.filter_congr fun r _ => ?_)))
    rw [Function.comp_apply, Rule.numbered_userId]
  · rw [List.pairwise_map, List.pairwise_iff_getElem]
    intro i j hi hj hij
    have hnumber : ∀ (k : ℕ) (hk : k < l.length),
        ((l[k]).numbered (assignPriorities (l.map Rule.id)) now).priority = ((k : ℤ) + 1) * 10 := by
      intro k hk
      have hidx : (l.map Rule.id).idxOf (l[k]).id = k := by
        have := hl.idxOf_getElem k (by rwa [List.length_map])
        rwa [List.getElem_map] at this
      have hlookup := lookup_assignPriorities (l.map Rule.id) priorityStep (l[k]).id
      rw [if_pos (List.mem_map_of_mem (List.getElem_mem hk)), hidx] at hlookup
      rw [Rule.numbered_of_some hlookup]
      rfl
    refine rank_lt_of_priority_lt ?_
    rw [hnumber i hi, hnumber j hj]
    omega

lemma unplaced_numbered (items : List (Uuid × ℤ)) (now : ℕ) (r : Rule) :
    (r.numbered items now).unplaced = r.unplaced := by
  unfold Rule.numbered
  split <;> rfl

/-- Only rows of the user are numbered. -/
lemma others_persistOrder {l : List Rule} (hids : (db.rules.map Rule.id).Nodup)
    (hp : l.Perm (db.userRules u)) (now : ℕ) :
    (persistOrder now (l.map Rule.id) db).rules.filter (·.userId ≠ some u) =
      db.rules.filter (·.userId ≠ some u) := by
  rw [persistOrder_rules now (nodup_ids_of_perm hids hp) hids, List.filter_map]
  have hcongr : db.rules.filter ((fun r : Rule => decide (r.userId ≠ some u)) ∘
      Rule.numbered (assignPriorities (l.map Rule.id)) now) =
        db.rules.filter (·.userId ≠ some u) := by
    refine List.filter_congr fun r _ => ?_
    rw [Function.comp_apply, Rule.numbered_userId]
  rw [hcongr]
  refine (List.map_congr_left fun r hr => ?_).trans (List.map_id _)
  obtain ⟨hr, hru⟩ := List.mem_filter.1 hr
  refine Rule.numbered_of_none ?_
  rw [lookup_assignPriorities, if_neg]
  intro hm
  obtain ⟨s, hs, hid⟩ := List.mem_map.1 hm
  obtain ⟨hs, hsu⟩ := mem_userRules_iff.1 (hp.mem_iff.1 hs)
  obtain rfl := List.inj_on_of_nodup_map hids hs hr hid
  simp [hsu] at hru

end Rows

/-! ### Step by step -/

/-- Keys and places are unique, and the page shows what it would load. -/
structure RulesPage.Inv (u : Uuid) (p : RulesPage) : Prop where
  ids : (p.db.rules.map Rule.id).Nodup
  ranks : RanksDistinct (p.db.rules.filter (·.userId = some u))
  shown : p.order = (loadRules p.filterUser p.db).map Rule.id

section Steps

variable {settings : Settings} {nft : FrontEnd} {order : SetOrders} {u : Uuid} {p : RulesPage}

variable (settings nft order p) in
lemma createRule_db (id : Uuid) (now : ℕ) {form : CreateForm} (hdest : strip form.dest ≠ "") :
    (p.createRule settings nft order id now form).db =
      { p.db with rules := p.db.rules ++ [form.row id now (nextPriority form.user p.db)] } := by
  rw [RulesPage.createRule, if_neg hdest]
  rfl

lemma createRule_step {id : Uuid} {now : ℕ} {form : CreateForm} (h : p.Inv u)
    (hc : (RuleOp.create id now form).Commits u p) :
    (p.createRule settings nft order id now form).Inv u ∧
      (p.createRule settings nft order id now form).lists u =
        (p.lists u).step (.create id now form) := by
  obtain ⟨hu, hdest, hfresh⟩ := hc
  have hdb := createRule_db settings nft order p id now hdest
  set rule := form.row id now (nextPriority form.user p.db)
  have hrule : rule.userId = some u := hu
  have hlast : ∀ r ∈ p.db.rules, r.userId = some u → r.priority < rule.priority :=
    fun r hr hru => priority_lt_nextPriority hr (hru.trans hu.symm)
  have hown := userRules_append hrule h.ranks hlast
  rw [← hdb] at hown
  refine ⟨⟨?_, hown.2, ?_⟩, ?_⟩
  · rw [hdb]
    exact List.nodup_map_append_singleton h.ids hfresh
  · rw [RulesPage.createRule, if_neg hdest]
    rfl
  · have hothers : (p.createRule settings nft order id now form).db.rules.filter
        (·.userId ≠ some u) = p.db.rules.filter (·.userId ≠ some u) := by
      rw [hdb, List.filter_append, List.filter_cons_of_neg (by simpa using hrule),
        List.filter_nil, List.append_nil]
    rw [RulesPage.lists, hothers, loadRules, hown.1, List.map_append, List.map_singleton]
    rfl

lemma deleteRule_step {id : Uuid} (h : p.Inv u) :
    (p.deleteRule settings nft order id).Inv u ∧
      (p.deleteRule settings nft order id).lists u = (p.lists u).step (.delete id) := by
  have hdb : (p.deleteRule settings nft order id).db = p.db.deleteRule id := by
    unfold RulesPage.deleteRule
    split
    next hnone =>
      have hid : ∀ r ∈ p.db.rules, r.id ≠ id := by simpa using List.find?_eq_none.1 hnone
      have hkeep : p.db.rules.filter (·.id ≠ id) = p.db.rules :=
        List.filter_eq_self.2 fun r hr => decide_eq_true (hid r hr)
      rw [Database.deleteRule, hkeep]
      rfl
    next => rfl
  have hunplaced : ((p.db.userRules u).filter (·.id ≠ id)).map Rule.unplaced =
      ((p.db.userRules u).map Rule.unplaced).filter (·.id ≠ id) := by
    rw [List.filter_map]
    rfl
  refine ⟨⟨?_, ?_, ?_⟩, ?_⟩
  · rw [hdb]
    exact h.ids.sublist (List.filter_sublist.map _)
  · rw [hdb, Database.deleteRule, List.filter_comm]
    exact h.ranks.filter _
  · unfold RulesPage.deleteRule
    split <;> rfl
  · rw [RulesPage.lists, hdb, loadRules, userRules_deleteRule, hunplaced, Database.deleteRule,
      List.filter_comm]
    rfl

/-- What a drop makes of the list that is shown. -/
lemma doDrop_eq {now : ℕ} {src target : Uuid} (h : p.order.Nodup) (hs : src ∈ p.order)
    (ht : target ∈ p.order) (hne : src ≠ target) :
    (p.dragStart src).doDrop settings nft order now target =
      (RulesPage.persistOrder settings nft order now
        { p with order := p.order.moveBefore id src target, dragged := none }).renderRules := by
  have hrest : target ∈ p.order.erase src := (List.mem_erase_of_ne (Ne.symm hne)).2 ht
  have hmove := List.insertIdx_erase_eq_moveBefore h hs hne
  simp [RulesPage.doDrop, RulesPage.dragStart, hne, hs, hrest, hmove]

lemma doDrop_step {now : ℕ} {src target : Uuid} (h : p.Inv u)
    (hc : (RuleOp.drag now src target).Commits u p) :
    ((p.dragStart src).doDrop settings nft order now target).Inv u ∧
      ((p.dragStart src).doDrop settings nft order now target).lists u =
        (p.lists u).step (.drag now src target) := by
  obtain ⟨hu, hs, ht⟩ := hc
  have hshown : p.order = (p.db.userRules u).map Rule.id := by
    rw [h.shown, hu]
    rfl
  have hown := nodup_ids_of_perm h.ids (List.Perm.refl (p.db.userRules u))
  by_cases hne : src = target
  · -- a drop on the row itself does nothing
    subst hne
    have hsame : (p.dragStart src).doDrop settings nft order now src =
        { p with dragged := none } := by
      simp [RulesPage.doDrop, RulesPage.dragStart]
    rw [hsame]
    refine ⟨⟨h.ids, h.ranks, h.shown⟩, ?_⟩
    rw [RuleLists.step, List.moveBefore, if_pos rfl]
    rfl
  · set moved := (p.db.userRules u).moveBefore Rule.id src target with hmoved
    have hperm : moved.Perm (p.db.userRules u) := List.moveBefore_perm hown
    have horder : p.order.moveBefore id src target = moved.map Rule.id := by
      rw [hshown]
      exact (List.map_moveBefore Rule.id fun _ => rfl).symm
    rw [doDrop_eq (hshown ▸ hown) hs ht hne, horder]
    set p' := (RulesPage.persistOrder settings nft order now
      { p with order := moved.map Rule.id, dragged := none }).renderRules with hp'
    have hdb : p'.db = persistOrder now (moved.map Rule.id) p.db := by
      rw [hp', RulesPage.persistOrder, hu]
      rfl
    obtain ⟨hload, hranks⟩ := userRules_persistOrder h.ids hperm now
    have hids : p'.db.rules.map Rule.id = p.db.rules.map Rule.id := by
      rw [hdb, persistOrder_rules now (nodup_ids_of_perm h.ids hperm) h.ids, map_id_numbered]
    refine ⟨⟨hids ▸ h.ids, hdb ▸ hranks, ?_⟩, ?_⟩
    · rw [hp', RulesPage.persistOrder, hu]
      rfl
    · have hunplaced : (p'.db.userRules u).map Rule.unplaced =
          ((p.db.userRules u).map Rule.unplaced).moveBefore Rule.id src target := by
        rw [hdb, hload, List.map_map, ← List.map_moveBefore Rule.unplaced fun _ => rfl]
        exact List.map_congr_left fun r _ => unplaced_numbered _ now r
      rw [RulesPage.lists, loadRules, hunplaced, hdb, others_persistOrder h.ids hperm now]
      rfl

/-- **Each operation is one on the plain lists.** -/
theorem lists_step {op : RuleOp} (h : p.Inv u) (hc : op.Commits u p) :
    (RulesPage.step settings nft order op p).Inv u ∧
      (RulesPage.step settings nft order op p).lists u = (p.lists u).step op := by
  cases op with
  | filter value => exact ⟨⟨h.ids, h.ranks, rfl⟩, rfl⟩
  | create id now form => exact createRule_step h hc
  | drag now src target => exact doDrop_step h hc
  | delete id => exact deleteRule_step h

end Steps

/-- **Any run on the page is one on the plain lists.**  The rules of the user, loaded in the order
of their numbers, are the list that the operations make of the one at the start; the rows of
everyone else are the same, but for those that were deleted; and no row is there twice. -/
theorem loadRules_run (settings : Settings) (nft : FrontEnd) (order : SetOrders) (u : Uuid)
    {s : State} (hids : (s.db.rules.map Rule.id).Nodup)
    (hinserted : ((s.db.rules.filter (·.userId = some u)).map Rule.insertedAt).Nodup)
    {ops : List RuleOp}
    (hops : Run.Throughout (RulesPage.step settings nft order) (RuleOp.Commits u) ops (.load s)) :
    let p := Run.final (RulesPage.step settings nft order) ops (.load s)
    let l := Run.final RuleLists.step ops ((RulesPage.load s).lists u)
    (loadRules (some u) p.db).map Rule.unplaced = l.own ∧
      p.db.rules.filter (·.userId ≠ some u) = l.others ∧
      (p.db.rules.map Rule.id).Nodup := by
  have hinv : (RulesPage.load s).Inv u := ⟨hids, ranksDistinct_of_insertedAt hinserted, rfl⟩
  have hI : ∀ op p, RulesPage.Inv u p → op.Commits u p →
      (RulesPage.step settings nft order op p).Inv u := fun _ _ h hc => (lists_step h hc).1
  have hstep : ∀ op p, RulesPage.Inv u p → op.Commits u p →
      (RulesPage.step settings nft order op p).lists u = (p.lists u).step op :=
    fun _ _ h hc => (lists_step h hc).2
  obtain ⟨hfinal, hlists⟩ := Run.final_of_simulation hI hstep hinv hops
  refine ⟨?_, ?_, hfinal.ids⟩
  · rw [← hlists]
    rfl
  · rw [← hlists]
    rfl

/-! Two rules with one number: the one that was inserted later is put first, a third one is added
and put between them, and the one that was first is deleted. -/

def tiedState : State := ⟨tiedRules, twoUsersTable⟩

def httpsId : Uuid := ⟨13, by decide⟩

def httpsForm : CreateForm where
  action := "accept"
  dest := " 10.3.2.7/32"
  portType := "tcp"
  portRange := "443"
  user := some alice

def shuffle : List RuleOp :=
  [.filter (some alice), .drag 5 dropRest.id acceptHost.id, .create httpsId 6 httpsForm,
    .drag 7 httpsId acceptHost.id, .delete acceptHost.id]

def offSettings : Settings := ⟨false, "wg0", "10.3.2.0/24", "fd00::/120"⟩

theorem loadRules_run_shuffle :
    let p := Run.final (RulesPage.step offSettings (.fragment tableName) ascending) shuffle
      (.load tiedState)
    (loadRules (some alice) p.db).map Rule.unplaced =
      (Run.final RuleLists.step shuffle ((RulesPage.load tiedState).lists alice)).own :=
  (loadRules_run offSettings (.fragment tableName) ascending alice (s := tiedState) (by decide)
    (by decide) (by decide)).1

example :
    (Run.final RuleLists.step shuffle ((RulesPage.load tiedState).lists alice)).own.map Rule.id =
      [dropRest.id, httpsId] := by decide

end WireGui
