import WireGui.Services.Prefixes
import WireGui.Services.RouteSync

/-!
# What is left of a user

Deleting a user takes the rows with it, and the handler of each of the user's devices takes away its
peer and, if the device had subnets, compares the routes with the database.  `deleteUser_complete`
says that nothing else goes.
-/

namespace WireGui

/-- No row belongs to the user. -/
structure Database.HasNothingOf (u : Uuid) (db : Database) : Prop where
  users : ∀ user ∈ db.users, user.id ≠ u
  devices : ∀ d ∈ db.devices, d.userId ≠ u
  rules : ∀ r ∈ db.rules, r.userId ≠ some u
  mfaMethods : ∀ m ∈ db.mfaMethods, m.userId ≠ u
  apiTokens : ∀ t ∈ db.apiTokens, t.userId ≠ u
  oidcConnections : ∀ c ∈ db.oidcConnections, c.userId ≠ u

/-- The rows of everybody else, and those that belong to nobody, are the same. -/
structure Database.SameOthers (u : Uuid) (db db' : Database) : Prop where
  users : ∀ user, user.id ≠ u → (user ∈ db'.users ↔ user ∈ db.users)
  devices : ∀ d : Device, d.userId ≠ u → (d ∈ db'.devices ↔ d ∈ db.devices)
  rules : ∀ r : Rule, r.userId ≠ some u → (r ∈ db'.rules ↔ r ∈ db.rules)
  mfaMethods : ∀ m : MfaMethod, m.userId ≠ u → (m ∈ db'.mfaMethods ↔ m ∈ db.mfaMethods)
  apiTokens : ∀ t : ApiToken, t.userId ≠ u → (t ∈ db'.apiTokens ↔ t ∈ db.apiTokens)
  oidcConnections : ∀ c : OidcConnection, c.userId ≠ u →
    (c ∈ db'.oidcConnections ↔ c ∈ db.oidcConnections)
  configuration : db'.configuration = db.configuration

/-- A device lists the network as one of its subnets. -/
def Database.Relays (db : Database) (n : Ip.Net) : Prop :=
  ∃ d ∈ db.devices, ∃ s ∈ d.allowedSubnets, Ip.ipNetwork s = some ⟨n, none⟩

/-- **The peers are those of the devices**, and so are the routes, apart from default routes and the
tunnel networks. -/
structure Host.Reflects (settings : Settings) (h : Host) : Prop where
  peers : ∀ k, k ∈ h.peers.peers ↔ ∃ d ∈ h.db.devices, d.publicKey = k
  routes : ∀ n : Ip.Net, 0 < n.len → ¬ settings.IsTunnel n → (n ∈ h.routes ↔ h.db.Relays n)

section Rows

variable {db : Database} {u : Uuid}

lemma hasNothingOf_deleteUser : (db.deleteUser u).HasNothingOf u where
  users _ hu := of_decide_eq_true (List.mem_filter.1 hu).2
  devices _ hd := of_decide_eq_true (List.mem_filter.1 hd).2
  rules _ hr := of_decide_eq_true (List.mem_filter.1 hr).2
  mfaMethods _ hm := of_decide_eq_true (List.mem_filter.1 hm).2
  apiTokens _ ht := of_decide_eq_true (List.mem_filter.1 ht).2
  oidcConnections _ hc := of_decide_eq_true (List.mem_filter.1 hc).2

lemma sameOthers_deleteUser : db.SameOthers u (db.deleteUser u) where
  users user hu := by simp [Database.deleteUser, hu]
  devices d hd := by simp [Database.deleteUser, hd]
  rules r hr := by simp [Database.deleteUser, hr]
  mfaMethods m hm := by simp [Database.deleteUser, hm]
  apiTokens t ht := by simp [Database.deleteUser, ht]
  oidcConnections c hc := by simp [Database.deleteUser, hc]
  configuration := rfl

lemma mem_devices_deleteUser_iff {d : Device} :
    d ∈ (db.deleteUser u).devices ↔ d ∈ db.devices ∧ d.userId ≠ u := by
  simp [Database.deleteUser]

lemma mem_userDevices_iff {d : Device} : d ∈ db.userDevices u ↔ d ∈ db.devices ∧ d.userId = u := by
  simp [Database.userDevices]

lemma relays_iff {n : Ip.Net} :
    db.Relays n ↔ ∃ s ∈ db.relaySubnets, Ip.ipNetwork s = some ⟨n, none⟩ := by
  simp only [Database.Relays, mem_relaySubnets_iff]
  constructor
  · rintro ⟨d, hd, s, hs, hn⟩
    exact ⟨s, ⟨d, hd, hs⟩, hn⟩
  · rintro ⟨s, ⟨d, hd, hs⟩, hn⟩
    exact ⟨d, hd, s, hs, hn⟩

end Rows

section Handlers

variable {settings : Settings} {nft : FrontEnd} {order : SetOrders} {h : Host} {u : Uuid}

/-- The routes, default routes and tunnel networks aside, after a comparison with the database:
whatever there was before. -/
lemma routes_sync_iff {db : Database} {r : Routes} {n : Ip.Net} (hn : 0 < n.len)
    (ht : ¬ settings.IsTunnel n) : n ∈ syncRoutes settings db.relaySubnets r ↔ db.Relays n := by
  rw [mem_syncRoutes_iff, relays_iff]
  simp [hn.ne', ht]

/-- **The routes after the handlers of devices that are gone**: what they were, if no device had
subnets, else what the database says. -/
lemma routes_foldl_onDeviceDeleted (hwg : settings.wgEnabled = true) (gone : List Device) (h : Host)
    {n : Ip.Net} (hn : 0 < n.len) (ht : ¬ settings.IsTunnel n) :
    n ∈ (gone.foldl (fun h d => Host.onDeviceDeleted settings d h) h).routes ↔
      if ∀ d ∈ gone, d.allowedSubnets = [] then n ∈ h.routes else h.db.Relays n := by
  induction gone generalizing h with
  | nil => simp
  | cons d gone ih =>
    have hroutes := routes_onDeviceDeleted hwg d h
    rw [List.foldl_cons, ih, db_onDeviceDeleted]
    by_cases hd : d.allowedSubnets = []
    · rw [if_pos hd] at hroutes
      simp [hd, hroutes]
    · rw [if_neg hd] at hroutes
      simp [hd, hroutes, routes_sync_iff hn ht]

/-- What the remaining devices relay, where those that are gone had no subnets. -/
lemma relays_deleteUser_iff {n : Ip.Net}
    (hnone : ∀ d ∈ h.db.userDevices u, d.allowedSubnets = []) :
    (h.db.deleteUser u).Relays n ↔ h.db.Relays n := by
  constructor
  · rintro ⟨d, hd, hs⟩
    exact ⟨d, (mem_devices_deleteUser_iff.1 hd).1, hs⟩
  · rintro ⟨d, hd, s, hs, hn⟩
    refine ⟨d, mem_devices_deleteUser_iff.2 ⟨hd, fun hu => ?_⟩, s, hs, hn⟩
    rw [hnone d (mem_userDevices_iff.2 ⟨hd, hu⟩)] at hs
    cases hs

/-- The peers after the user is gone. -/
lemma peers_deleteUser (hwg : settings.wgEnabled = true) :
    (h.deleteUser settings u).peers =
      Wg.run (((h.db.userDevices u).map Device.publicKey).map .remove) h.peers := by
  have hr : (HostEvent.deleteUser u).Readable h := fun _ hd => by cases hd
  have hp : (HostEvent.next settings (.fragment tableName) ascending (.deleteUser u) h).peers =
      Wg.run ((h.db.userDevices u).map fun d => .remove d.publicKey) h.peers := peers_next hwg hr
  rw [List.map_map]
  exact hp

/-- A device that is left has a key of its own. -/
lemma key_notMem_of_left (hk : h.db.Keyed) {d : Device} (hd : d ∈ (h.db.deleteUser u).devices) :
    d.publicKey ∉ (h.db.userDevices u).map Device.publicKey := by
  obtain ⟨hdm, hdu⟩ := mem_devices_deleteUser_iff.1 hd
  intro hmem
  obtain ⟨e, he, hek⟩ := List.mem_map.1 hmem
  obtain ⟨hem, heu⟩ := mem_userDevices_iff.1 he
  exact hdu (hk.eq_of_key hdm hem hek.symm ▸ heu)

/-- **Deleting a user is complete**: nothing of the user is left in the database, the peers and the
routes are those of the remaining devices, and nobody else's rows and peers have changed. -/
theorem deleteUser_complete (hwg : settings.wgEnabled = true) (hk : h.db.Keyed)
    (hs : h.Reflects settings) :
    (h.deleteUser settings u).db.HasNothingOf u ∧
      h.db.SameOthers u (h.deleteUser settings u).db ∧
      (h.deleteUser settings u).Reflects settings ∧
      ∀ d ∈ (h.deleteUser settings u).db.devices,
        (h.deleteUser settings u).peers.psk d.publicKey = h.peers.psk d.publicKey ∧
          ∀ n, (h.deleteUser settings u).peers.holder n = some d.publicKey ↔
            h.peers.holder n = some d.publicKey := by
  rw [db_deleteUser, peers_deleteUser hwg]
  refine ⟨hasNothingOf_deleteUser, sameOthers_deleteUser, ⟨fun k => ?_, fun n hn ht => ?_⟩,
    fun d hd => ⟨?_, fun n => ?_⟩⟩
  · rw [db_deleteUser, peers_deleteUser hwg, Wg.mem_run_remove_iff, hs.peers]
    constructor
    · rintro ⟨hgone, d, hd, rfl⟩
      refine ⟨d, mem_devices_deleteUser_iff.2 ⟨hd, fun hu => hgone ?_⟩, rfl⟩
      exact List.mem_map_of_mem (mem_userDevices_iff.2 ⟨hd, hu⟩)
    · rintro ⟨d, hd, rfl⟩
      exact ⟨key_notMem_of_left hk hd, d, (mem_devices_deleteUser_iff.1 hd).1, rfl⟩
  · rw [db_deleteUser, Host.deleteUser, routes_foldl_onDeviceDeleted hwg _ _ hn ht]
    split
    next hnone => rw [hs.routes n hn ht, relays_deleteUser_iff hnone]
    next => exact Iff.rfl
  · refine Wg.psk_run_of_forall_ne ?_
    intro c hc
    obtain ⟨k, hkm, rfl⟩ := List.mem_map.1 hc
    exact fun he => key_notMem_of_left hk hd (he ▸ hkm)
  · rw [Wg.holder_run_remove_iff]
    exact and_iff_right (key_notMem_of_left hk hd)

end Handlers

/-! Two users with a device each, which relay one network. -/

lemma siteHost_reflects : siteHost.Reflects defaultSettings where
  peers k := by
    simp [siteHost, sitePeers, Wg.Interface.empty, laptopSite, phoneSite, laptop, phone, or_comm,
      eq_comm]
  routes n _ _ := by
    have hread : Ip.ipNetwork "192.168.7.0/24" = some ⟨siteNet, none⟩ := by decide
    simp [Database.Relays, siteHost, laptopSite, phoneSite, hread, eq_comm]

theorem deleteUser_complete_alice :
    (siteHost.deleteUser defaultSettings alice).db.HasNothingOf alice ∧
      siteHost.db.SameOthers alice (siteHost.deleteUser defaultSettings alice).db ∧
      (siteHost.deleteUser defaultSettings alice).Reflects defaultSettings :=
  have h := deleteUser_complete (u := alice) rfl siteHost_keyed siteHost_reflects
  ⟨h.1, h.2.1, h.2.2.1⟩

end WireGui
