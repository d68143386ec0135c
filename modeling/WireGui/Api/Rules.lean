import WireGui.Services.Events

/-!
# `api/v0/rules.py`

The REST endpoints for rules, for an administrator; `require_admin` turns everybody else away.
Creating and deleting a rule carry the change over to the firewall, updating one does not.
-/

namespace WireGui

/-- What the program works on: the database and the table of the firewall. -/
structure State where
  db : Database
  fw : Table

/-- An answer that is not a success. -/
structure HttpError where
  status : ℕ
  detail : String
  deriving DecidableEq

/-- The row with the id. -/
def Database.rule (db : Database) (id : Uuid) : Option Rule := db.rules.find? (·.id = id)

/-- Writes a row back. -/
def Database.setRule (db : Database) (rule : Rule) : Database :=
  { db with rules := db.rules.map fun r => if r.id = rule.id then rule else r }

def Database.deleteRule (db : Database) (id : Uuid) : Database :=
  { db with rules := db.rules.filter (·.id ≠ id) }

/-- `RuleCreate`, with its defaults. -/
structure RuleCreate where
  action : String := "drop"
  destination : String
  portType : Option String := none
  portRange : Option String := none
  priority : ℤ := 100
  userId : Option Uuid := none

/-- `RuleUpdate`: for each field nothing, or a value that may be null. -/
structure RuleUpdate where
  action : Option (Option String) := none
  destination : Option (Option String) := none
  portType : Option (Option String) := none
  portRange : Option (Option String) := none
  priority : Option (Option ℤ) := none
  userId : Option (Option Uuid) := none

/-- `setattr` for the fields that are set, and the commit, which fails if a column that must not be
null is. -/
def RuleUpdate.applyTo (body : RuleUpdate) (rule : Rule) : Option Rule := do
  let action ← body.action.getD (some rule.action)
  let destination ← body.destination.getD (some rule.destination)
  let priority ← body.priority.getD (some rule.priority)
  return { rule with
    action := action
    destination := destination
    portType := body.portType.getD rule.portType
    portRange := body.portRange.getD rule.portRange
    priority := priority
    userId := body.userId.getD rule.userId }

section Endpoints

variable (settings : Settings) (nft : FrontEnd) (order : SetOrders)

/-- `POST /rules`; the row gets its id and times when it is made. -/
def createRule (id : Uuid) (now : ℕ) (body : RuleCreate) (s : State) : State :=
  let rule : Rule :=
    { id := id, action := body.action, destination := body.destination, portType := body.portType,
      portRange := body.portRange, priority := body.priority, userId := body.userId,
      insertedAt := now, updatedAt := now }
  let db := { s.db with rules := s.db.rules ++ [rule] }
  ⟨db, onRuleChanged settings nft order db rule s.fw⟩

/-- `PUT /rules/{rule_id}`. -/
def updateRule (id : Uuid) (body : RuleUpdate) (s : State) : Except HttpError State :=
  match s.db.rule id with
  | none => .error ⟨404, "Rule not found"⟩
  | some rule =>
    match body.applyTo rule with
    | none => .error ⟨500, "Internal Server Error"⟩
    | some rule' => .ok { s with db := s.db.setRule rule' }

/-- `DELETE /rules/{rule_id}`. -/
def deleteRule (id : Uuid) (s : State) : Except HttpError State :=
  match s.db.rule id with
  | none => .error ⟨404, "Rule not found"⟩
  | some rule =>
    let db := s.db.deleteRule id
    .ok ⟨db, onRuleChanged settings nft order db rule s.fw⟩

end Endpoints

end WireGui
