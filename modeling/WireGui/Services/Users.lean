import WireGui.Api.Rules

/-!
# `services/users.py`
-/

namespace WireGui

/-- The rows that are left when a user is deleted: the keys to the user cascade. -/
def Database.deleteUser (db : Database) (u : Uuid) : Database where
  users := db.users.filter (·.id ≠ u)
  devices := db.devices.filter (·.userId ≠ u)
  rules := db.rules.filter (·.userId ≠ some u)
  mfaMethods := db.mfaMethods.filter (·.userId ≠ u)
  apiTokens := db.apiTokens.filter (·.userId ≠ u)
  oidcConnections := db.oidcConnections.filter (·.userId ≠ u)
  configuration := db.configuration

/-- `delete_user_and_cleanup`. -/
def deleteUserAndCleanup (u : Uuid) (s : State) : State :=
  let devices := s.db.userDevices u
  ⟨s.db.deleteUser u, devices.foldl (fun t d => onDeviceDeleted d t) s.fw⟩

end WireGui
