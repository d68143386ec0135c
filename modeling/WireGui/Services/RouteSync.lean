import WireGui.Lib.Run
import WireGui.Services.DeviceEvents
import WireGui.Services.Frame

/-!
# The routes follow the database

A new device has its subnets routed one by one; an edit and a deletion compare all routes with the
database, the deletion only if the device had subnets.  `run_routes` says that the subnets of the
devices are what is routed throughout, next to the tunnel networks.
-/

namespace WireGui

/-- The texts are those of networks, and none is the default route. -/
def Canonical (subnets : Finset String) : Prop :=
  ∀ s ∈ subnets, ∃ n : Ip.Net, s = n.str ∧ 0 < n.len

/-- **The subnets are routed**, and apart from the tunnel networks nothing else is. -/
structure Routes.Follow (settings : Settings) (subnets : Finset String) (r : Routes) : Prop where
  routed : ∀ n : Ip.Net, n.str ∈ subnets → n ∈ r
  listed : ∀ n ∈ r, settings.IsTunnel n ∨ n.str ∈ subnets

section Follow

variable {settings : Settings} {subnets subnets' : Finset String} {r : Routes} {n : Ip.Net}

/-- A network other than the tunnel's is routed exactly if it is among the subnets. -/
lemma Routes.Follow.mem_iff (h : r.Follow settings subnets) (hn : ¬ settings.IsTunnel n) :
    n ∈ r ↔ n.str ∈ subnets :=
  ⟨fun hr => (h.listed n hr).resolve_left hn, h.routed n⟩

lemma Canonical.ipNetwork_iff (h : Canonical subnets) :
    (∃ s ∈ subnets, Ip.ipNetwork s = some ⟨n, none⟩) ↔ n.str ∈ subnets := by
  constructor
  · rintro ⟨s, hs, hn⟩
    obtain ⟨m, rfl, -⟩ := h s hs
    obtain rfl : m = n := by simpa [Ip.ipNetwork_str] using hn
    exact hs
  · exact fun hn => ⟨_, hn, Ip.ipNetwork_str n⟩

/-- No default route is among the routes that follow the database. -/
lemma Routes.Follow.len_ne_zero (h : r.Follow settings subnets) (hc : Canonical subnets)
    (hr : n ∈ r) : settings.IsTunnel n ∨ n.len ≠ 0 := by
  refine (h.listed n hr).imp_right fun hn => ?_
  obtain ⟨m, hm, hlen⟩ := hc _ hn
  rw [Ip.net_str_injective hm]
  exact hlen.ne'

/-- **A comparison with the database** makes the routes follow it. -/
lemma Routes.Follow.sync (h : r.Follow settings subnets) (hc : Canonical subnets)
    (hc' : Canonical subnets') : (syncRoutes settings subnets' r).Follow settings subnets' where
  routed n hn := mem_syncRoutes_iff.2 (.inl (hc'.ipNetwork_iff.2 hn))
  listed n hn := by
    rcases mem_syncRoutes_iff.1 hn with hs | ⟨hr, ht | h0⟩
    · exact .inr (hc'.ipNetwork_iff.1 hs)
    · exact .inl ht
    · exact .inl ((h.len_ne_zero hc hr).resolve_right (not_not.2 h0))

/-- The subnets of a new device are routed next to those that are. -/
lemma Routes.Follow.add {new : List String} (h : r.Follow settings subnets)
    (hc : Canonical new.toFinset) :
    (addRoutes new r).Follow settings (subnets ∪ new.toFinset) := by
  have hstr : ∀ s ∈ new, OwnText s := by
    intro s hs
    obtain ⟨m, rfl, -⟩ := hc s (List.mem_toFinset.2 hs)
    exact ownText_str m
  refine ⟨fun n hn => ?_, fun n hn => ?_⟩
  · rw [mem_addRoutes_of_str hstr]
    exact (Finset.mem_union.1 hn).imp (h.routed n) List.mem_toFinset.1
  · rcases (mem_addRoutes_of_str hstr).1 hn with hr | hs
    · exact (h.listed n hr).imp_right (Finset.mem_union_left _)
    · exact .inr (Finset.mem_union_right _ (List.mem_toFinset.2 hs))

end Follow

/-! ### One request -/

/-- The routes are in sync with a database that keeps subnets in their normal form. -/
structure Host.InSync (settings : Settings) (h : Host) : Prop where
  keyed : h.db.Keyed
  canonical : Canonical h.db.relaySubnets
  follow : h.routes.Follow settings h.db.relaySubnets

/-- The subnets of the row that the event writes are in their normal form. -/
def HostEvent.WritesCanonical (e : HostEvent) (h : Host) : Prop :=
  ∀ d ∈ e.written h, Canonical d.allowedSubnets.toFinset

section Next

variable {settings : Settings} {nft : FrontEnd} {order : SetOrders} {h : Host} {e : HostEvent}
  {db db' : Database} {s : String}

lemma mem_relaySubnets_iff : s ∈ db.relaySubnets ↔ ∃ d ∈ db.devices, s ∈ d.allowedSubnets := by
  simp [Database.relaySubnets]

/-- The subnets after a request: those of the row it writes, and those of the devices it does not
touch. -/
lemma canonical_next (hk : h.db.Keyed) (hc : Canonical h.db.relaySubnets)
    (he : e.WritesCanonical h) : Canonical (e.next settings nft order h).db.relaySubnets := by
  intro s hs
  obtain ⟨d, hd, hsd⟩ := mem_relaySubnets_iff.1 hs
  rcases (mem_devices_next hk e).1 hd with hw | ⟨hd, -⟩
  · exact he d hw s (List.mem_toFinset.2 hsd)
  · exact hc s (mem_relaySubnets_iff.2 ⟨d, hd, hsd⟩)

lemma routes_onDeviceDeleted (hwg : settings.wgEnabled = true) (d : Device) (h : Host) :
    (h.onDeviceDeleted settings d).routes =
      if d.allowedSubnets = [] then h.routes
      else syncRoutes settings h.db.relaySubnets h.routes := by
  unfold Host.onDeviceDeleted
  rw [if_pos hwg]

/-- Where only devices without subnets are gone, the subnets are the same. -/
lemma relaySubnets_eq_of_removed {gone : List Device}
    (hdb : ∀ d, d ∈ db.devices ↔ d ∈ db'.devices ∨ d ∈ gone)
    (hgone : ∀ d ∈ gone, d.allowedSubnets = []) : db.relaySubnets = db'.relaySubnets := by
  ext s
  simp only [mem_relaySubnets_iff, hdb]
  constructor
  · rintro ⟨d, hd | hd, hs⟩
    · exact ⟨d, hd, hs⟩
    · rw [hgone d hd] at hs
      cases hs
  · rintro ⟨d, hd, hs⟩
    exact ⟨d, .inl hd, hs⟩

/-- **The handlers of devices that are gone**, one after the other: the first one whose device had
subnets puts the routes right, and the others leave them so. -/
lemma follow_foldl_onDeviceDeleted (hwg : settings.wgEnabled = true) (gone : List Device)
    (h : Host) {subnets : Finset String} (hc : Canonical subnets)
    (hc' : Canonical h.db.relaySubnets)
    (hf : h.routes.Follow settings subnets)
    (hgone : (∀ d ∈ gone, d.allowedSubnets = []) → subnets = h.db.relaySubnets) :
    (gone.foldl (fun h d => Host.onDeviceDeleted settings d h) h).routes.Follow settings
      h.db.relaySubnets := by
  induction gone generalizing subnets h with
  | nil =>
    rw [← hgone (List.forall_mem_nil _)]
    exact hf
  | cons d gone ih =>
    have hdb : (h.onDeviceDeleted settings d).db = h.db := db_onDeviceDeleted
    have hroutes := routes_onDeviceDeleted hwg d h
    rw [List.foldl_cons, ← hdb]
    by_cases hd : d.allowedSubnets = []
    · rw [if_pos hd] at hroutes
      refine ih _ hc (by rwa [hdb]) (by rwa [hroutes]) fun hrest => ?_
      rw [hdb]
      exact hgone (List.forall_mem_cons.2 ⟨hd, hrest⟩)
    · rw [if_neg hd] at hroutes
      refine ih _ hc' (by rwa [hdb]) ?_ fun _ => by rw [hdb]
      rw [hroutes]
      exact hf.sync hc hc'

/-- **Each request leaves the routes in sync.** -/
theorem inSync_next (hwg : settings.wgEnabled = true) (hs : h.InSync settings)
    (he : e.WritesCanonical h) : (e.next settings nft order h).InSync settings := by
  have hcan : Canonical (e.next settings nft order h).db.relaySubnets :=
    canonical_next hs.keyed hs.canonical he
  refine ⟨keyed_next e hs.keyed, hcan, ?_⟩
  cases e with
  | create d =>
    simp only [HostEvent.next, Host.createDevice] at hcan ⊢
    split
    next ha =>
      have hnew : Canonical d.allowedSubnets.toFinset := he d (if_pos ha)
      have hsub : ({ h.db with devices := h.db.devices ++ [d] } : Database).relaySubnets =
          h.db.relaySubnets ∪ d.allowedSubnets.toFinset := by
        simp [Database.relaySubnets]
      have hroutes : (if d.allowedSubnets = [] then h.routes
          else addRoutes d.allowedSubnets h.routes) = addRoutes d.allowedSubnets h.routes := by
        split
        next hnil => rw [hnil]; rfl
        next => rfl
      rw [db_onDeviceCreated, Host.onDeviceCreated, if_pos hwg]
      simp only [hsub, hroutes]
      exact hs.follow.add hnew
    next => exact hs.follow
  | update id edit =>
    rw [HostEvent.next, updateDevice_eq] at hcan ⊢
    cases hw : (h.db.device id).bind edit.applyTo with
    | none => exact hs.follow
    | some d =>
      rw [hw, Option.elim_some, db_onDeviceUpdated] at hcan
      rw [Option.elim_some, db_onDeviceUpdated, Host.onDeviceUpdated, if_pos hwg]
      exact hs.follow.sync hs.canonical hcan
  | delete id =>
    simp only [HostEvent.next, Host.deleteDevice] at hcan ⊢
    cases hd : h.db.device id with
    | none => exact hs.follow
    | some d =>
      simp only [hd, db_onDeviceDeleted] at hcan ⊢
      obtain ⟨hdm, rfl⟩ := device_eq_some hd
      refine follow_foldl_onDeviceDeleted hwg [d] { h with db := h.db.eraseDevice d.id }
        hs.canonical hcan hs.follow ?_
      refine relaySubnets_eq_of_removed fun e => ?_
      rw [mem_eraseDevice_iff, List.mem_singleton]
      refine ⟨fun hem => ?_, ?_⟩
      · by_cases hid : e.id = d.id
        · exact .inr (hs.keyed.eq_of_id hem hdm hid)
        · exact .inl ⟨hem, hid⟩
      · rintro (⟨hem, -⟩ | rfl)
        · exact hem
        · exact hdm
  | deleteUser u =>
    rw [HostEvent.next, db_deleteUser] at hcan ⊢
    refine follow_foldl_onDeviceDeleted hwg (h.db.userDevices u) { h with db := h.db.deleteUser u }
      hs.canonical hcan hs.follow ?_
    refine relaySubnets_eq_of_removed fun e => ?_
    simp only [Database.deleteUser, Database.userDevices, List.mem_filter, decide_eq_true_eq]
    by_cases hu : e.userId = u <;> simp [hu]

/-- **The routes follow the database** in every run. -/
theorem run_routes (hwg : settings.wgEnabled = true) (hs : h.InSync settings)
    {events : List HostEvent}
    (hrun : Run.Throughout (HostEvent.next settings nft order) HostEvent.WritesCanonical events h) :
    Run.Always (HostEvent.next settings nft order)
      (fun h => h.routes.Follow settings h.db.relaySubnets) events h :=
  (Run.always_of_step (fun _ _ hs he => inSync_next hwg hs he) hs hrun).imp
    fun _ => Host.InSync.follow

end Next

/-! A device that lists the network of the tunnel. -/

/-- The routes other than the tunnel networks are the subnets, one for one. -/
def Routes.ExactlyListed (settings : Settings) (subnets : Finset String) (r : Routes) : Prop :=
  ∀ n : Ip.Net, (n ∈ r ∧ ¬ settings.IsTunnel n) ↔ n.str ∈ subnets

def laptopTunnel : Device := { laptop with allowedSubnets := ["10.3.2.0/24", "192.168.7.0/24"] }

/-- Before the first device. -/
def accountsHost : Host where
  db := accounts
  fw := twoUsersTable
  peers := .empty
  routes := ∅

lemma laptopTunnel_accepted : accountsHost.db.Accepts laptopTunnel :=
  ⟨⟨aliceUser, List.mem_cons_self, rfl⟩, fun _ hd => absurd hd List.not_mem_nil⟩

lemma accountsHost_inSync : accountsHost.InSync defaultSettings where
  keyed := ⟨List.nodup_nil, List.nodup_nil⟩
  canonical := fun _ hs => absurd hs (Finset.notMem_empty _)
  follow := ⟨fun _ hn => absurd hn (Finset.notMem_empty _),
    fun _ hn => absurd hn (Finset.notMem_empty _)⟩

lemma laptopTunnel_writesCanonical :
    (HostEvent.create laptopTunnel).WritesCanonical accountsHost := by
  have hnets : ∀ s ∈ laptopTunnel.allowedSubnets,
      ∃ n ∈ Ip.readNet s, s = n.str ∧ 0 < n.len := by decide
  intro d hd s hs
  rw [HostEvent.written, if_pos laptopTunnel_accepted] at hd
  obtain rfl := Option.some.inj hd
  obtain ⟨n, -, hn⟩ := hnets s (List.mem_toFinset.1 hs)
  exact ⟨n, hn⟩

/-- **The network of the tunnel is listed**, but it is not one of the other routes. -/
theorem tunnel_subnet_not_exact :
    accountsHost.InSync defaultSettings ∧
      accountsHost.routes.ExactlyListed defaultSettings accountsHost.db.relaySubnets ∧
      (HostEvent.create laptopTunnel).WritesCanonical accountsHost ∧
      ¬ Run.Always (HostEvent.next defaultSettings (.fragment tableName) ascending)
        (fun h => h.routes.ExactlyListed defaultSettings h.db.relaySubnets)
        [.create laptopTunnel] accountsHost := by
  refine ⟨accountsHost_inSync, fun n => ?_, laptopTunnel_writesCanonical, fun h => ?_⟩
  · exact iff_of_false (fun hn => absurd hn.1 (Finset.notMem_empty _)) (Finset.notMem_empty _)
  · obtain ⟨n, hread, hstr⟩ : ∃ n : Ip.Net,
        Ip.ipNetwork "10.3.2.0/24" = some ⟨n, none⟩ ∧ n.str = "10.3.2.0/24" :=
      ⟨⟨.v4, 0x0a030200, 24, by decide, by decide, by decide⟩, by decide, by decide⟩
    have hlisted : n.str ∈ ((HostEvent.create laptopTunnel).next defaultSettings
        (.fragment tableName) ascending accountsHost).db.relaySubnets := by
      rw [mem_relaySubnets_iff, hstr]
      refine ⟨laptopTunnel, (mem_devices_next accountsHost_inSync.keyed _).2 (.inl ?_), ?_⟩
      · rw [HostEvent.written, if_pos laptopTunnel_accepted]
      · exact List.mem_cons_self
    exact ((h.2 n).2 hlisted).2 (.inl hread)

theorem run_routes_laptop :
    Run.Always (HostEvent.next defaultSettings (.fragment tableName) ascending)
      (fun h => h.routes.Follow defaultSettings h.db.relaySubnets)
      [.create laptopTunnel, .delete laptopTunnel.id] accountsHost := by
  have hdelete : ∀ h, (HostEvent.delete laptopTunnel.id).WritesCanonical h := fun _ _ hd => by
    cases hd
  exact run_routes rfl accountsHost_inSync
    ⟨laptopTunnel_writesCanonical, hdelete _, trivial⟩

end WireGui
