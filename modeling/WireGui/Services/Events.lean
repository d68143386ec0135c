import WireGui.Services.FirewallSpec
import Mathlib.Data.String.Basic

/-!
# `services/events.py`: the firewall

The handlers that carry changes of the database over to the firewall.  A rule event or a change of a
device rebuilds the chain of one user with `rebuild_all_rules`, from the one entry of that user.

`rebuildUserChain_frame_iff`: what such a rebuild does to everyone else.
-/

namespace WireGui

open Nft (IsName)

/-! ### Rows and entries -/

/-- `ORDER BY priority, inserted_at`. -/
def Rule.before (r s : Rule) : Prop :=
  r.priority < s.priority ∨ (r.priority = s.priority ∧ r.insertedAt ≤ s.insertedAt)

instance : DecidableRel Rule.before := fun r s => by unfold Rule.before; infer_instance

def orderRules (rules : List Rule) : List Rule := rules.insertionSort Rule.before

def Rule.entry (r : Rule) : RuleEntry where
  destination := r.destination
  action := r.action
  portType := r.portType
  portRange := r.portRange
  priority := some r.priority

def Device.entry (d : Device) : DeviceEntry where
  ipv4 := d.ipv4
  ipv6 := d.ipv6
  allowedSubnets := d.allowedSubnets

def Database.userDevices (db : Database) (u : Uuid) : List Device :=
  db.devices.filter (·.userId = u)

def Database.userRules (db : Database) (u : Uuid) : List Rule :=
  orderRules (db.rules.filter (·.userId = some u))

/-- What `_rebuild_user_chain` reads from the database. -/
def Database.userEntry (db : Database) (u : Uuid) : Entry where
  userId := u.str
  devices := (db.userDevices u).map Device.entry
  rules := (db.userRules u).map Rule.entry

/-- The chain of a user. -/
def chainOf (u : Uuid) : String := userChainName u.str

lemma userEntry_chain (db : Database) (u : Uuid) : (db.userEntry u).chain = chainOf u := rfl

lemma isName_chainOf (u : Uuid) : IsName (chainOf u) := isName_userChainName u

lemma isUserChain_chainOf (u : Uuid) : IsUserChain (chainOf u) := isUserChain_userChainName u.str

/-- The orders in which Python goes through its sets. -/
abbrev SetOrders := ∀ s : Finset String, SetOrder s

def ascending : SetOrders := fun s => SetOrder.sorted s

/-! ### Handlers -/

section Handlers

variable (settings : Settings) (nft : FrontEnd) (order : SetOrders)

/-- `_rebuild_user_chain`; an error is logged. -/
def rebuildUserChain (db : Database) (u : Uuid) (t : Table) : Table :=
  orKeep t (rebuildAllRules nft [db.userEntry u] t (order (orphanedChains t [db.userEntry u])))

/-- `on_rule_created`, `on_rule_updated` and `on_rule_deleted`. -/
def onRuleChanged (db : Database) (rule : Rule) (t : Table) : Table :=
  if settings.wgEnabled then
    match rule.userId with
    | none => t
    | some u => rebuildUserChain nft order db u t
  else t

def onRulesReordered (db : Database) (u : Uuid) (t : Table) : Table :=
  if settings.wgEnabled then rebuildUserChain nft order db u t else t

/-- The firewall part of `on_device_created`. -/
def onDeviceCreated (device : Device) (t : Table) : Table :=
  if settings.wgEnabled then
    match addUserChain nft device.userId.str t with
    | .error _ => t
    | .ok t₁ => orKeep t₁ (addDeviceJumpRule nft device.userId.str device.entry t₁)
  else t

/-- The firewall part of `on_device_deleted`: jumps are left for the next rebuild. -/
def onDeviceDeleted (_device : Device) (t : Table) : Table := t

/-- The firewall part of `on_device_updated`. -/
def onDeviceUpdated (db : Database) (device : Device) (t : Table) : Table :=
  if settings.wgEnabled then rebuildUserChain nft order db device.userId t else t

variable {nft order}

/-- A rebuild that nft accepts. -/
lemma rebuildUserChain_of_ok {db : Database} {u : Uuid} {t t' : Table}
    (h : rebuildAllRules nft [db.userEntry u] t (order _) = .ok t') :
    rebuildUserChain nft order db u t = t' := by
  rw [rebuildUserChain, h]
  rfl

end Handlers

end WireGui
