import WireGui.Lib.List
import WireGui.Lib.Run
import WireGui.Pages.Login
import WireGui.Services.Frame
import WireGui.Services.PeerCommands

/-!
# `tasks/vpn_session.py`

A user whose last sign-in is too long ago loses the peers of their devices.  Signing in again does
not bring them back: peers are only set when a device is made or edited.  `run_access` says in which
runs whoever has signed in lately has access.

A point in time is a number of microseconds.
-/

namespace WireGui

/-- The service on its host, and what time it is. -/
structure VpnHost extends Host where
  now : ℕ

/-- The session of the user is longer ago than it may be. -/
def User.Expired (config : Configuration) (now : ℕ) (user : User) : Prop :=
  user.disabledAt = none ∧
    ∃ t ∈ user.lastSignedInAt, config.vpnSessionDuration * 1000000 < (now : ℤ) - t

instance (config : Configuration) (now : ℕ) : DecidablePred (User.Expired config now) :=
  fun user => by unfold User.Expired; infer_instance

/-- `_expire_sessions`. -/
def VpnHost.expireSessions (h : VpnHost) : VpnHost :=
  match h.db.configuration with
  | none => h
  | some config =>
    if config.vpnSessionDuration = 0 then h
    else
      let expired := h.db.users.filter fun user => user.Expired config h.now
      { h with
        peers := expired.foldl
          (fun w user => (h.db.userDevices user.id).foldl (fun w d => removePeer d.publicKey w) w)
          h.peers }

/-- The user may sign in. -/
def User.Enters (u : Uuid) (user : User) : Prop := user.id = u ∧ user.disabledAt = none

instance (u : Uuid) : DecidablePred (User.Enters u) :=
  fun user => by unfold User.Enters; infer_instance

/-- A user signs in, by whatever method. -/
def VpnHost.signIn (u : Uuid) (method : String) (h : VpnHost) : VpnHost :=
  { h with
    db := { h.db with
      users := h.db.users.map fun user =>
        if user.Enters u then user.signedIn h.now method else user } }

/-- What happens: a sign-in, a round of the expiry task, a request for devices, and time passes. -/
inductive VpnEvent where
  | signIn (u : Uuid) (method : String)
  | tick
  | device (e : HostEvent)
  | advance (dt : ℕ)

def VpnEvent.next (settings : Settings) (nft : FrontEnd) (order : SetOrders) (e : VpnEvent)
    (h : VpnHost) : VpnHost :=
  match e with
  | .signIn u method => h.signIn u method
  | .tick => h.expireSessions
  | .device e => { h with toHost := e.next settings nft order h.toHost }
  | .advance dt => { h with now := h.now + dt }

/-- The user of the device is enabled and has signed in lately. -/
def VpnHost.Entitled (h : VpnHost) (d : Device) : Prop :=
  ∃ config ∈ h.db.configuration, ∃ user ∈ h.db.users, user.id = d.userId ∧
    user.disabledAt = none ∧
      ∃ t ∈ user.lastSignedInAt, (h.now : ℤ) - t ≤ config.vpnSessionDuration * 1000000

/-- **Whoever is entitled has access.** -/
def VpnHost.Access (h : VpnHost) : Prop :=
  ∀ d ∈ h.db.devices, h.Entitled d → d.publicKey ∈ h.peers.peers

/-- **Access after a round of the expiry task.** -/
def VpnEvent.LeavesAccess (settings : Settings) (nft : FrontEnd) (order : SetOrders)
    (e : VpnEvent) (h : VpnHost) : Prop :=
  e = .tick → (e.next settings nft order h).Access

/-- Nobody signs in while one of their devices is not a peer. -/
def VpnEvent.FindsPeers (e : VpnEvent) (h : VpnHost) : Prop :=
  match e with
  | .signIn u _ => ∀ user ∈ h.db.users, user.Enters u →
      ∀ d ∈ h.db.userDevices u, d.publicKey ∈ h.peers.peers
  | _ => True

/-- The commands of the request succeed. -/
def VpnEvent.Readable (e : VpnEvent) (h : VpnHost) : Prop :=
  match e with
  | .device e => e.Readable h.toHost
  | _ => True

/-- Rows have ids and keys of their own. -/
structure VpnHost.Ok (h : VpnHost) : Prop where
  keyed : h.db.Keyed
  users : (h.db.users.map User.id).Nodup

section Steps

variable {settings : Settings} {nft : FrontEnd} {order : SetOrders} {h : VpnHost} {e : VpnEvent}
  {d : Device}

/-- A request for devices writes neither users nor the configuration; at most it deletes a user. -/
lemma users_next (e : HostEvent) (h : Host) :
    (e.next settings nft order h).db.users.Sublist h.db.users ∧
      (e.next settings nft order h).db.configuration = h.db.configuration := by
  cases e with
  | create d =>
    simp only [HostEvent.next, Host.createDevice]
    split
    · rw [db_onDeviceCreated]
      exact ⟨.refl _, rfl⟩
    · exact ⟨.refl _, rfl⟩
  | update id edit =>
    rw [HostEvent.next, updateDevice_eq]
    cases (h.db.device id).bind edit.applyTo with
    | none => exact ⟨.refl _, rfl⟩
    | some d =>
      rw [Option.elim_some, db_onDeviceUpdated]
      exact ⟨.refl _, rfl⟩
  | delete id =>
    simp only [HostEvent.next, Host.deleteDevice]
    split
    · exact ⟨.refl _, rfl⟩
    · rw [db_onDeviceDeleted]
      exact ⟨.refl _, rfl⟩
  | deleteUser u =>
    rw [HostEvent.next, db_deleteUser]
    exact ⟨List.filter_sublist, rfl⟩

/-- **Each event keeps ids and keys apart.** -/
lemma VpnHost.ok_next (e : VpnEvent) (hok : h.Ok) : (e.next settings nft order h).Ok := by
  cases e with
  | signIn u method =>
    refine ⟨⟨hok.keyed.ids, hok.keyed.keys⟩, ?_⟩
    have hids : (h.signIn u method).db.users.map User.id = h.db.users.map User.id := by
      rw [VpnHost.signIn, List.map_map]
      refine List.map_congr_left fun user _ => ?_
      simp only [Function.comp_apply]
      split <;> rfl
    exact hids ▸ hok.users
  | tick =>
    simp only [VpnEvent.next, VpnHost.expireSessions]
    split
    · exact hok
    · split
      · exact hok
      · exact ⟨hok.keyed, hok.users⟩
  | device e => exact ⟨keyed_next e hok.keyed, hok.users.sublist ((users_next e _).1.map _)⟩
  | advance dt => exact ⟨hok.keyed, hok.users⟩

/-- A round of the task removes the peers of the users whose sessions have expired. -/
lemma mem_expireSessions_iff {k : String} :
    k ∈ h.expireSessions.peers.peers ↔ k ∈ h.peers.peers ∧
      ∀ config ∈ h.db.configuration, config.vpnSessionDuration ≠ 0 →
        ∀ user ∈ h.db.users, user.Expired config h.now →
          ∀ d ∈ h.db.userDevices user.id, d.publicKey ≠ k := by
  unfold VpnHost.expireSessions
  split
  next hnone => simp [hnone]
  next config hconfig =>
    split
    next h0 => simp [hconfig, h0]
    next h0 =>
      have hrun : ∀ (users : List User) (w : Peers),
          users.foldl (fun w user =>
            (h.db.userDevices user.id).foldl (fun w d => removePeer d.publicKey w) w) w =
          Wg.run ((users.flatMap fun user =>
            (h.db.userDevices user.id).map Device.publicKey).map .remove) w := by
        intro users w
        rw [Wg.run, List.foldl_map, List.foldl_flatMap]
        simp only [List.foldl_map]
        rfl
      have hkeys : k ∈ ((h.db.users.filter fun user => user.Expired config h.now).flatMap
          fun user => (h.db.userDevices user.id).map Device.publicKey) ↔
          ∃ user ∈ h.db.users, user.Expired config h.now ∧
            ∃ d ∈ h.db.userDevices user.id, d.publicKey = k := by
        simp [and_assoc]
      simp only [hrun, Wg.mem_run_remove_iff, hkeys, hconfig, Option.mem_def, Option.some.injEq,
        forall_eq']
      push Not
      exact ⟨fun hk => ⟨hk.2, fun _ => hk.1⟩, fun hk => ⟨hk.2 h0, hk.1⟩⟩

lemma db_expireSessions (h : VpnHost) : h.expireSessions.db = h.db := by
  unfold VpnHost.expireSessions
  split
  · rfl
  · split <;> rfl

lemma now_expireSessions (h : VpnHost) : h.expireSessions.now = h.now := by
  unfold VpnHost.expireSessions
  split
  · rfl
  · split <;> rfl

/-- **A round of the task** takes nothing from those who are entitled. -/
lemma access_expireSessions (hok : h.Ok) (ha : h.Access) : h.expireSessions.Access := by
  intro d hd hent
  unfold VpnHost.Entitled at hent
  rw [db_expireSessions, now_expireSessions] at hent
  rw [db_expireSessions] at hd
  refine mem_expireSessions_iff.2 ⟨ha d hd hent, fun config hc _ user hu hexp e he hek => ?_⟩
  obtain ⟨config', hc', user', hu', hid, -, t, ht, hfresh⟩ := hent
  obtain rfl := Option.some.inj (hc.symm.trans hc')
  obtain ⟨hem, heu⟩ := List.mem_filter.1 he
  obtain rfl := hok.keyed.eq_of_key hem hd hek
  -- the device has one user, who cannot be both
  obtain rfl : user = user' := by
    refine List.inj_on_of_nodup_map hok.users hu hu' ?_
    rw [hid, of_decide_eq_true heu]
  obtain ⟨-, t', ht', hlate⟩ := hexp
  obtain rfl := Option.some.inj (ht.symm.trans ht')
  omega

/-- **Signing in** keeps access if it finds the peers of the user in place. -/
lemma access_signIn {u : Uuid} {method : String} (ha : h.Access)
    (hfind : (VpnEvent.signIn u method).FindsPeers h) : (h.signIn u method).Access := by
  rintro d hd ⟨config, hc, user', hu', hid, hen, t, ht, hfresh⟩
  obtain ⟨user, hu, rfl⟩ := List.mem_map.1 hu'
  split at hid
  next he =>
    refine hfind user hu he d (List.mem_filter.2 ⟨hd, ?_⟩)
    exact decide_eq_true (hid.symm.trans he.1)
  next he =>
    rw [if_neg he] at hen ht
    exact ha d hd ⟨config, hc, user, hu, hid, hen, t, ht, hfresh⟩

/-- **A request for devices** keeps access. -/
lemma access_device (hwg : settings.wgEnabled = true) (hok : h.Ok) {e : HostEvent}
    (hr : e.Readable h.toHost) (ha : h.Access) :
    VpnHost.Access { h with toHost := e.next settings nft order h.toHost } := by
  obtain ⟨husers, hconfig⟩ :
      (e.next settings nft order h.toHost).db.users.Sublist h.db.users ∧
        (e.next settings nft order h.toHost).db.configuration = h.db.configuration :=
    users_next e h.toHost
  rintro d hd ⟨config, hc, user, hu, hent⟩
  refine (mem_peers_next_iff hwg hok.keyed hr).2 ?_
  rcases (mem_devices_next hok.keyed e).1 hd with hw | ⟨hdm, hnt⟩
  · exact .inl ⟨d, hw, rfl⟩
  · refine .inr ⟨fun c hcm ht hck => hnt ?_, ha d hdm ⟨config, hconfig ▸ hc, user, ?_, hent⟩⟩
    · rwa [← hok.keyed.eq_of_key hcm hdm hck]
    · exact husers.subset hu

/-- **Each event keeps access**, if a sign-in finds the peers of the user in place. -/
theorem access_next (hwg : settings.wgEnabled = true) (hok : h.Ok) (hr : e.Readable h)
    (hfind : e.FindsPeers h) (ha : h.Access) : (e.next settings nft order h).Access := by
  cases e with
  | signIn u method => exact access_signIn ha hfind
  | tick => exact access_expireSessions hok ha
  | device e => exact access_device hwg hok hr ha
  | advance dt =>
    rintro d hd ⟨config, hc, user, hu, hid, hen, t, ht, hfresh⟩
    refine ha d hd ⟨config, hc, user, hu, hid, hen, t, ht, ?_⟩
    simp only [VpnEvent.next] at hfresh
    push_cast at hfresh
    omega

/-- **In which runs the users who have signed in lately have access** after every round of the task:
those in which nobody signs in while one of their devices is not a peer. -/
theorem run_access (hwg : settings.wgEnabled = true) (hok : h.Ok)
    (hstart : ∀ d ∈ h.db.devices, d.publicKey ∈ h.peers.peers) {events : List VpnEvent}
    (hr : Run.Throughout (VpnEvent.next settings nft order) VpnEvent.Readable events h)
    (hfind : Run.Throughout (VpnEvent.next settings nft order) VpnEvent.FindsPeers events h) :
    Run.Throughout (VpnEvent.next settings nft order)
      (VpnEvent.LeavesAccess settings nft order) events h := by
  have ha : h.Access := fun d hd _ => hstart d hd
  have hrun : Run.Always (VpnEvent.next settings nft order) (fun h => h.Ok ∧ h.Access) events h :=
    Run.always_of_step
      (fun e h hs hc => ⟨VpnHost.ok_next e hs.1, access_next hwg hs.1 hc.1 hc.2 hs.2⟩) ⟨hok, ha⟩
      (hr.and hfind)
  exact hrun.throughout_next.imp fun _ _ hs _ => hs.2

end Steps

/-! A user with one device, who signs in anew when the session has expired. -/

def timedUsers : Database :=
  { twoUsers with
    users := [{ aliceUser with lastSignedInAt := some 0 }]
    devices := [laptop]
    configuration := some { vpnSessionDuration := 3600, updatedAt := 0 } }

def timedHost : VpnHost where
  db := timedUsers
  fw := laptopTable
  peers := Wg.Interface.empty.set "pk1" [laptopAddr.host] none
  routes := ∅
  now := 0

lemma timedHost_ok : timedHost.Ok where
  keyed := ⟨List.nodup_singleton _, List.nodup_singleton _⟩
  users := List.nodup_singleton _

lemma timedHost_peers : ∀ d ∈ timedHost.db.devices, d.publicKey ∈ timedHost.peers.peers :=
  List.forall_mem_singleton.2 (Finset.mem_insert_self _ _)

/-- The session expires, is noticed, and the user signs in again. -/
def returning : List VpnEvent := [.advance 3601000000, .tick, .signIn alice "local", .tick]

/-- The user is back before the session has expired. -/
def inTime : List VpnEvent := [.advance 3000000000, .tick, .signIn alice "local", .tick]

/-- **The peer stays away**, though its user has just signed in. -/
theorem run_access_lost :
    timedHost.Ok ∧ (∀ d ∈ timedHost.db.devices, d.publicKey ∈ timedHost.peers.peers) ∧
      ¬ Run.Throughout (VpnEvent.next defaultSettings (.fragment tableName) ascending)
        (VpnEvent.LeavesAccess defaultSettings (.fragment tableName) ascending) returning
        timedHost := by
  refine ⟨timedHost_ok, timedHost_peers, fun h => ?_⟩
  have hlost := h.2.2.2.1 rfl laptop List.mem_cons_self
    ⟨{ vpnSessionDuration := 3600, updatedAt := 0 }, rfl, _, List.mem_cons_self, rfl, rfl, _, rfl,
      by decide⟩
  exact absurd hlost (by decide)

theorem run_access_inTime :
    Run.Throughout (VpnEvent.next defaultSettings (.fragment tableName) ascending)
      (VpnEvent.LeavesAccess defaultSettings (.fragment tableName) ascending) inTime
      timedHost := by
  have hwg : defaultSettings.wgEnabled = true := rfl
  refine run_access hwg timedHost_ok timedHost_peers ⟨trivial, trivial, trivial, trivial, trivial⟩
    ⟨trivial, trivial, fun _ _ _ => ?_, trivial, trivial⟩
  exact List.forall_mem_singleton.2 (by decide)

/-! ### Disabled users

The task passes over users who are disabled, and leaves them the peers they have. -/

/-- The same state, but for when the user was disabled. -/
def VpnHost.setDisabled (u : Uuid) (disabledAt : Option ℕ) (h : VpnHost) : VpnHost :=
  { h with
    db := { h.db with
      users := h.db.users.map fun user =>
        if user.id = u then { user with disabledAt := disabledAt } else user } }

/-- The peers of the user's devices. -/
def VpnHost.userPeers (u : Uuid) (h : VpnHost) : Finset String :=
  h.peers.peers.filter fun k => ∃ d ∈ h.db.userDevices u, d.publicKey = k

/-- The last sign-in of the user is longer ago than it may be, whether or not they are disabled. -/
def VpnHost.SessionOver (u : Uuid) (h : VpnHost) : Prop :=
  ∃ config ∈ h.db.configuration, ∃ user ∈ h.db.users, user.id = u ∧
    ∃ t ∈ user.lastSignedInAt, config.vpnSessionDuration * 1000000 < (h.now : ℤ) - t

section Disabled

variable {h : VpnHost} {u : Uuid} {k : String} {t : Option ℕ}

lemma mem_userPeers_iff :
    k ∈ h.userPeers u ↔ k ∈ h.peers.peers ∧ ∃ d ∈ h.db.userDevices u, d.publicKey = k := by
  rw [VpnHost.userPeers, Finset.mem_filter]

/-- A device is that of the user whose id it has. -/
lemma VpnHost.Ok.user_eq (hok : h.Ok) {v : Uuid} {d e : Device} (hd : d ∈ h.db.userDevices u)
    (he : e ∈ h.db.userDevices v) (hk : d.publicKey = e.publicKey) : u = v := by
  obtain ⟨hdm, hdu⟩ := List.mem_filter.1 hd
  obtain ⟨hem, hev⟩ := List.mem_filter.1 he
  obtain rfl := hok.keyed.eq_of_key hdm hem hk
  exact (of_decide_eq_true hdu).symm.trans (of_decide_eq_true hev)

/-- **What the task leaves of the user's peers**: all of them, or, if the user is enabled and their
session is over, none. -/
lemma mem_userPeers_expireSessions_iff (hok : h.Ok)
    (hpos : ∀ config ∈ h.db.configuration, 0 < config.vpnSessionDuration) :
    k ∈ (h.setDisabled u t).expireSessions.userPeers u ↔
      k ∈ h.userPeers u ∧ ¬ (t = none ∧ h.SessionOver u) := by
  rw [mem_userPeers_iff, mem_userPeers_iff, db_expireSessions, mem_expireSessions_iff, and_assoc,
    and_assoc]
  refine and_congr_right fun hk => ?_
  rw [and_comm]
  refine and_congr_right fun ⟨d, hd, hdk⟩ => ?_
  rw [not_and]
  constructor
  · rintro hkept rfl ⟨config, hc, user, hu, rfl, hexp⟩
    have hmem : { user with disabledAt := none } ∈ (h.setDisabled user.id none).db.users :=
      List.mem_map.2 ⟨user, hu, if_pos rfl⟩
    exact hkept config hc (hpos config hc).ne' _ hmem ⟨rfl, hexp⟩ d hd hdk
  · intro hover config hc _ user' hu' hexp e he hek
    obtain ⟨user, hu, rfl⟩ := List.mem_map.1 hu'
    by_cases huid : user.id = u
    · rw [if_pos huid] at hexp
      exact hover hexp.1 ⟨config, hc, user, hu, huid, hexp.2⟩
    · -- another user has no device with the key
      rw [if_neg huid] at he
      exact huid (hok.user_eq hd he (hdk.trans hek.symm)).symm

/-- **Disabling a user and the expiry task.**  A disabled user keeps all peers, so there are more of
them than without `disabled_at` just if the session is over and there are any. -/
theorem userPeers_disabled_subset_iff (hok : h.Ok)
    (hpos : ∃ config ∈ h.db.configuration, 0 < config.vpnSessionDuration) (disabledAt : ℕ) :
    (h.setDisabled u (some disabledAt)).expireSessions.userPeers u = h.userPeers u ∧
      ((h.setDisabled u (some disabledAt)).expireSessions.userPeers u ⊆
          (h.setDisabled u none).expireSessions.userPeers u ↔
        ¬ h.SessionOver u ∨ h.userPeers u = ∅) := by
  have hall : ∀ config ∈ h.db.configuration, 0 < config.vpnSessionDuration := by
    obtain ⟨config, hc, hlt⟩ := hpos
    intro config' hc'
    rwa [← Option.some.inj (hc.symm.trans hc')]
  have hkeep : (h.setDisabled u (some disabledAt)).expireSessions.userPeers u = h.userPeers u := by
    ext k
    simp [mem_userPeers_expireSessions_iff hok hall]
  refine ⟨hkeep, ?_⟩
  rw [hkeep]
  constructor
  · intro hsub
    by_cases hover : h.SessionOver u
    · refine .inr (Finset.eq_empty_of_forall_notMem fun k hk => ?_)
      exact ((mem_userPeers_expireSessions_iff hok hall).1 (hsub hk)).2 ⟨rfl, hover⟩
    · exact .inl hover
  · rintro (hover | hnone) k hk
    · exact (mem_userPeers_expireSessions_iff hok hall).2 ⟨hk, fun hn => hover hn.2⟩
    · rw [hnone] at hk
      exact absurd hk (Finset.notMem_empty k)

end Disabled

/-- An hour and a second after the sign-in. -/
def lateHost : VpnHost := { timedHost with now := 3601000000 }

lemma lateHost_ok : lateHost.Ok := ⟨timedHost_ok.keyed, timedHost_ok.users⟩

lemma lateHost_duration : ∃ config ∈ lateHost.db.configuration, 0 < config.vpnSessionDuration :=
  ⟨_, rfl, by decide⟩

lemma lateHost_over : lateHost.SessionOver alice :=
  ⟨_, rfl, _, List.mem_cons_self, rfl, 0, rfl, by decide⟩

lemma lateHost_userPeers : "pk1" ∈ lateHost.userPeers alice := by decide

/-- **Who is disabled keeps access** that the task takes from those who are not. -/
theorem userPeers_disabled_more :
    lateHost.Ok ∧ (∃ config ∈ lateHost.db.configuration, 0 < config.vpnSessionDuration) ∧
      ¬ (lateHost.setDisabled alice (some 0)).expireSessions.userPeers alice ⊆
        (lateHost.setDisabled alice none).expireSessions.userPeers alice := by
  refine ⟨lateHost_ok, lateHost_duration, fun hsub => ?_⟩
  have hall : ∀ config ∈ lateHost.db.configuration, 0 < config.vpnSessionDuration := by
    rintro config ⟨⟩
    decide
  have hdis := (mem_userPeers_expireSessions_iff (t := some 0) lateHost_ok hall).2
    ⟨lateHost_userPeers, nofun⟩
  exact ((mem_userPeers_expireSessions_iff lateHost_ok hall).1 (hsub hdis)).2 ⟨rfl, lateHost_over⟩

theorem userPeers_disabled_subset_iff_late :
    (lateHost.setDisabled alice (some 0)).expireSessions.userPeers alice =
      lateHost.userPeers alice :=
  (userPeers_disabled_subset_iff lateHost_ok lateHost_duration 0).1

end WireGui
