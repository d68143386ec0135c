import WireGui.Tasks.Reconcile

/-!
# `main.py`: the firewall at startup
-/

namespace WireGui

/-- The firewall part of `startup`. -/
def startup (settings : Settings) (nft : FrontEnd) (order : SetOrders) (db : Database) (t : Table) :
    Except String Table :=
  if settings.wgEnabled then
    match setupBaseTables nft t with
    | .error e => .error e
    | .ok t₁ =>
      .ok (reconcileFirewall nft order db (order db.userIds) (setupMasquerade nft settings t₁))
  else .ok t

end WireGui
