import WireGui.Api.Rules
import WireGui.Utils.Network

/-!
# `api/v0/devices.py`: making and deleting devices

The admin page and the users' page make devices in the same way; only the admin page asks for relay
subnets.  The requests here are those that have passed the checks of who may send them.
-/

namespace WireGui

/-- What is given for a new device, with the keys that are made for it. -/
structure DeviceCreate where
  id : Uuid
  name : String
  publicKey : String
  presharedKey : Option String
  subnets : String := ""
  userId : Uuid

/-- What `random.randint` gives for the two addresses. -/
structure Draws where
  v4 : ℕ → ℕ
  v6 : ℕ → ℕ

/-- The row of a new device; `none` if a network or a subnet cannot be read or no
address is left. -/
def newDevice (settings : Settings) (db : Database) (draws : Draws) (body : DeviceCreate) :
    Option Device := do
  let network4 ← Ip.familyNetwork .v4 settings.wgIpv4Network
  let network6 ← Ip.familyNetwork .v6 settings.wgIpv6Network
  let ipv4 ← (allocateIpv4 db network4 draws.v4).toOption
  let ipv6 ← (allocateIpv6 db network6 draws.v6).toOption
  let subnets ← parseSubnetList body.subnets
  return {
    id := body.id
    name := body.name
    publicKey := body.publicKey
    presharedKey := body.presharedKey
    ipv4 := some ipv4
    ipv6 := some ipv6
    allowedSubnets := subnets
    userId := body.userId }

def Database.device (db : Database) (id : Uuid) : Option Device := db.devices.find? (·.id = id)

/-- `create_device`, and the event it starts. -/
def createDevice (settings : Settings) (nft : FrontEnd) (draws : Draws) (body : DeviceCreate)
    (s : State) : State :=
  match newDevice settings s.db draws body with
  | none => s
  | some device =>
    ⟨{ s.db with devices := s.db.devices ++ [device] }, onDeviceCreated settings nft device s.fw⟩

/-- `delete_device`, and the event it starts. -/
def deleteDevice (id : Uuid) (s : State) : State :=
  match s.db.device id with
  | none => s
  | some device =>
    ⟨{ s.db with devices := s.db.devices.filter (·.id ≠ id) }, onDeviceDeleted device s.fw⟩

/-! ### New rows -/

/-- The address is written as the allocator writes those of its family. -/
def IsAllocated (f : Ip.Family) (s : String) : Prop := ∃ a : Ip.Addr, a.fam = f ∧ s = a.str

/-- The tunnel addresses of all devices are such. -/
def Database.Allocated (db : Database) : Prop :=
  ∀ d ∈ db.devices, (∀ s ∈ d.ipv4, IsAllocated .v4 s) ∧ ∀ s ∈ d.ipv6, IsAllocated .v6 s

lemma toOption_eq_some_iff {ε α : Type} {x : Except ε α} {a : α} :
    x.toOption = some a ↔ x = .ok a := by
  cases x <;> simp [Except.toOption]

/-- What a new row is made of. -/
lemma newDevice_eq_some {settings : Settings} {db : Database} {draws : Draws} {body : DeviceCreate}
    {d : Device} (h : newDevice settings db draws body = some d) :
    ∃ ipv4 ipv6 subnets, parseSubnetList body.subnets = some subnets ∧
      d = {
        id := body.id
        name := body.name
        publicKey := body.publicKey
        presharedKey := body.presharedKey
        ipv4 := some ipv4
        ipv6 := some ipv6
        allowedSubnets := subnets
        userId := body.userId } := by
  unfold newDevice at h
  obtain ⟨_, -, h⟩ := Option.bind_eq_some_iff.1 h
  obtain ⟨_, -, h⟩ := Option.bind_eq_some_iff.1 h
  obtain ⟨ipv4, -, h⟩ := Option.bind_eq_some_iff.1 h
  obtain ⟨ipv6, -, h⟩ := Option.bind_eq_some_iff.1 h
  obtain ⟨subnets, hsub, h⟩ := Option.bind_eq_some_iff.1 h
  exact ⟨ipv4, ipv6, subnets, hsub, (Option.some.inj h).symm⟩

/-- **The row of a new device**: addresses that no device has. -/
theorem newDevice_spec {settings : Settings} {db : Database} {draws : Draws} {body : DeviceCreate}
    {d : Device} (h : newDevice settings db draws body = some d) :
    ∃ a₄ a₆ : Ip.Addr, a₄.fam = .v4 ∧ a₆.fam = .v6 ∧ d.ipv4 = some a₄.str ∧ d.ipv6 = some a₆.str ∧
      (∀ d' ∈ db.devices, d'.ipv4 ≠ some a₄.str ∧ d'.ipv6 ≠ some a₆.str) ∧
      d.userId = body.userId := by
  unfold newDevice at h
  obtain ⟨n₄, hn₄, h⟩ := Option.bind_eq_some_iff.1 h
  obtain ⟨n₆, hn₆, h⟩ := Option.bind_eq_some_iff.1 h
  obtain ⟨s₄, hs₄, h⟩ := Option.bind_eq_some_iff.1 h
  obtain ⟨s₆, hs₆, h⟩ := Option.bind_eq_some_iff.1 h
  obtain ⟨subnets, hsub, h⟩ := Option.bind_eq_some_iff.1 h
  obtain rfl := Option.some.inj h
  obtain ⟨hfree₄, a₄, -, hf₄, rfl⟩ := findAvailable_spec (toOption_eq_some_iff.1 hs₄)
  obtain ⟨hfree₆, a₆, -, hf₆, rfl⟩ := findAvailable_spec (toOption_eq_some_iff.1 hs₆)
  refine ⟨a₄, a₆, hf₄.trans (Ip.familyNetwork_fam hn₄), hf₆.trans (Ip.familyNetwork_fam hn₆),
    rfl, rfl, ?_, rfl⟩
  intro d' hd'
  constructor
  · intro he
    exact hfree₄ (List.mem_toFinset.2 (List.mem_filterMap.2 ⟨d', hd', he⟩))
  · intro he
    exact hfree₆ (List.mem_toFinset.2 (List.mem_filterMap.2 ⟨d', hd', he⟩))

end WireGui
