import WireGui.Api.Rules
import WireGui.Lib.Text

/-!
# `pages/admin/rules.py`

The admin page for rules: its edit dialog and its switches for the network policies.  Every handler
writes the row first and starts the event in a task of its own; here the task has run to its end.
-/

namespace WireGui

/-- The fields of the edit dialog.  `user` is `none` for the choice `global`. -/
structure EditForm where
  action : String
  dest : String
  portType : String
  portRange : String
  priority : Option ℤ
  user : Option Uuid

/-- `open_edit`: the dialog filled in from a row. -/
def EditForm.ofRule (rule : Rule) : EditForm where
  action := rule.action
  dest := rule.destination
  portType := (truthy rule.portType).getD "any"
  portRange := (truthy rule.portRange).getD ""
  priority := some rule.priority
  user := rule.userId

/-- The choice of a port type; `any` is none. -/
def chosenType (value : String) : Option String := if value = "any" then none else some value

/-- `value.strip() or None`. -/
def enteredRange (value : String) : Option String := truthy (some (strip value))

/-- The row that `save_edit` writes. -/
def EditForm.write (form : EditForm) (rule : Rule) : Rule :=
  { rule with
    action := form.action
    destination := strip form.dest
    portType := chosenType form.portType
    portRange := enteredRange form.portRange
    priority := form.priority.getD rule.priority
    userId := form.user }

section Handlers

variable (settings : Settings) (nft : FrontEnd) (order : SetOrders)

/-- `save_edit` for the rule `id`, and the event it starts. -/
def saveEdit (id : Uuid) (form : EditForm) (s : State) : State :=
  match s.db.rule id with
  | none => s
  | some rule =>
    let rule' := form.write rule
    let db := s.db.setRule rule'
    ⟨db, onRuleChanged settings nft order db rule' s.fw⟩

/-- `toggle_peer_to_peer`. -/
def togglePeerToPeer (now : ℕ) (value : Bool) (s : State) : State where
  db := { s.db with
    configuration := s.db.configuration.map fun c =>
      { c with allowPeerToPeer := value, updatedAt := now } }
  fw := applyPeerToPeerPolicy nft settings value s.fw

/-- `toggle_lan_to_peers`. -/
def toggleLanToPeers (now : ℕ) (value : Bool) (s : State) : State where
  db := { s.db with
    configuration := s.db.configuration.map fun c =>
      { c with allowLanToPeers := value, updatedAt := now } }
  fw := applyLanToPeersPolicy nft settings value s.fw

end Handlers

/-! ### What the dialog makes of a row -/

/-- A row as the dialog stores it: no blanks around the destination and the port range, and no
`any` or empty text for a choice that was not made. -/
structure Rule.Normal (rule : Rule) : Prop where
  destination : strip rule.destination = rule.destination
  portType : ∀ p ∈ rule.portType, p ≠ "any" ∧ p ≠ ""
  portRange : ∀ p ∈ rule.portRange, strip p = p ∧ p ≠ ""

lemma truthy_eq_some_iff {s : Option String} {w : String} :
    truthy s = some w ↔ s = some w ∧ w ≠ "" := by
  unfold truthy
  rw [Option.filter_eq_some_iff]
  simp

lemma truthy_some {w : String} (h : w ≠ "") : truthy (some w) = some w :=
  truthy_eq_some_iff.2 ⟨rfl, h⟩

lemma chosenType_eq_iff {p : Option String} :
    chosenType ((truthy p).getD "any") = p ↔ ∀ q ∈ p, q ≠ "any" ∧ q ≠ "" := by
  cases p with
  | none => exact iff_of_true rfl (by simp)
  | some q =>
    by_cases he : q = ""
    · subst he
      exact iff_of_false (by decide) fun h => (h "" rfl).2 rfl
    · rw [truthy_some he, Option.getD_some, chosenType]
      by_cases ha : q = "any"
      · rw [if_pos ha]
        exact iff_of_false (by simp) fun h => (h q rfl).1 ha
      · rw [if_neg ha]
        exact iff_of_true rfl (by simpa using ⟨ha, he⟩)

lemma enteredRange_eq_iff {p : Option String} :
    enteredRange ((truthy p).getD "") = p ↔ ∀ q ∈ p, strip q = q ∧ q ≠ "" := by
  cases p with
  | none => exact iff_of_true (by decide) (by simp)
  | some q =>
    by_cases he : q = ""
    · subst he
      exact iff_of_false (by decide) fun h => (h "" rfl).2 rfl
    · rw [truthy_some he, Option.getD_some, enteredRange, truthy_eq_some_iff]
      constructor
      · rintro ⟨hs, -⟩ r hr
        obtain rfl := Option.some.inj hr
        exact ⟨Option.some.inj hs, he⟩
      · intro h
        exact ⟨by rw [(h q rfl).1], he⟩

/-- Saving what the dialog was filled with keeps just the normal rows. -/
theorem write_ofRule_eq_iff {rule rule' : Rule} (hid : rule'.id = rule.id)
    (hins : rule'.insertedAt = rule.insertedAt) (hupd : rule'.updatedAt = rule.updatedAt) :
    (EditForm.ofRule rule').write rule = rule' ↔ rule'.Normal := by
  have hiff : (EditForm.ofRule rule').write rule = rule' ↔
      strip rule'.destination = rule'.destination ∧
        chosenType ((truthy rule'.portType).getD "any") = rule'.portType ∧
        enteredRange ((truthy rule'.portRange).getD "") = rule'.portRange := by
    cases rule
    cases rule'
    subst hid hins hupd
    simp [EditForm.write, EditForm.ofRule]
  rw [hiff, chosenType_eq_iff, enteredRange_eq_iff]
  exact ⟨fun h => ⟨h.1, h.2.1, h.2.2⟩, fun h => ⟨h.1, h.2, h.3⟩⟩

end WireGui
