import WireGui.Tasks.VpnSession

/-!
# One round of the expiry task

`_expire_sessions` gives one remove command for each device of an expired user, logs those that fail
and goes on.  `expireSessionsWith_exact` says which peers are gone afterwards.
-/

namespace WireGui

/-- The removals for the devices of one user; those in `fails` raise an error, which is logged. -/
def removeDevices (fails : Device → Bool) (devices : List Device) (w : Peers) : Peers :=
  devices.foldl (fun w d => if fails d then w else removePeer d.publicKey w) w

/-- `_expire_sessions`, where some of its commands fail. -/
def VpnHost.expireSessionsWith (fails : Device → Bool) (h : VpnHost) : VpnHost :=
  match h.db.configuration with
  | none => h
  | some config =>
    if config.vpnSessionDuration = 0 then h
    else
      let expired := h.db.users.filter fun user => user.Expired config h.now
      { h with
        peers := expired.foldl (fun w user => removeDevices fails (h.db.userDevices user.id) w)
          h.peers }

/-- A duration is set, and the last sign-in of the device's user is longer ago. -/
def VpnHost.Overdue (h : VpnHost) (d : Device) : Prop :=
  (∀ config ∈ h.db.configuration, config.vpnSessionDuration ≠ 0) ∧ h.SessionOver d.userId

/-- The peer is a device of a disabled user. -/
def VpnHost.OfDisabled (h : VpnHost) (k : String) : Prop :=
  ∃ user ∈ h.db.users, user.disabledAt ≠ none ∧ ∃ d ∈ h.db.userDevices user.id, d.publicKey = k

/-- **Exactly the expired peers are gone.** -/
structure VpnHost.ExactTick (fails : Device → Bool) (h h' : VpnHost) : Prop where
  /-- Disabled users aside, those whose sessions are over and whose command does not fail. -/
  removed : ∀ k ∈ h.peers.peers, ¬ h.OfDisabled k →
    (k ∉ h'.peers.peers ↔ ∃ d ∈ h.db.devices, d.publicKey = k ∧ h.Overdue d ∧ fails d = false)
  added : h'.peers.peers ⊆ h.peers.peers
  strangers : ∀ k ∈ h.peers.peers, (∀ d ∈ h.db.devices, d.publicKey ≠ k) → k ∈ h'.peers.peers
  db : h'.db = h.db

section Tick

variable {fails : Device → Bool} {h : VpnHost} {k : String} {w : Peers}

/-- The removals for one user: the keys whose commands do not fail are gone. -/
lemma mem_removeDevices_iff {devices : List Device} :
    k ∈ (removeDevices fails devices w).peers ↔
      k ∈ w.peers ∧ ∀ d ∈ devices, fails d = false → d.publicKey ≠ k := by
  induction devices generalizing w with
  | nil => simp [removeDevices]
  | cons d devices ih =>
    have hone : k ∈ (if fails d then w else removePeer d.publicKey w).peers ↔
        k ∈ w.peers ∧ (fails d = false → d.publicKey ≠ k) := by
      cases fails d with
      | true => simp
      | false => simp [removePeer, and_comm, eq_comm]
    rw [removeDevices, List.foldl_cons, ← removeDevices, ih, hone, List.forall_mem_cons, and_assoc]

/-- The removals for several users, one after the other. -/
lemma mem_foldl_removeDevices_iff {users : List User} {db : Database} :
    k ∈ (users.foldl (fun w user => removeDevices fails (db.userDevices user.id) w) w).peers ↔
      k ∈ w.peers ∧ ∀ user ∈ users, ∀ d ∈ db.userDevices user.id, fails d = false →
        d.publicKey ≠ k := by
  induction users generalizing w with
  | nil => simp
  | cons user users ih =>
    rw [List.foldl_cons, ih, mem_removeDevices_iff, List.forall_mem_cons, and_assoc]

/-- **What a round leaves**: no enabled user whose session is over has a device with the key, unless
its command fails. -/
lemma mem_expireSessionsWith_iff :
    k ∈ (h.expireSessionsWith fails).peers.peers ↔ k ∈ h.peers.peers ∧
      ∀ config ∈ h.db.configuration, config.vpnSessionDuration ≠ 0 →
        ∀ user ∈ h.db.users, user.Expired config h.now →
          ∀ d ∈ h.db.userDevices user.id, fails d = false → d.publicKey ≠ k := by
  unfold VpnHost.expireSessionsWith
  split
  next hnone => simp [hnone]
  next config hconfig =>
    simp only [hconfig, Option.mem_def, Option.some.injEq, forall_eq']
    split
    next h0 => simp [h0]
    next h0 =>
      rw [mem_foldl_removeDevices_iff]
      refine and_congr_right fun _ => ?_
      simp only [List.mem_filter, decide_eq_true_eq, and_imp, ne_eq, h0, not_false_iff,
        true_imp_iff]

lemma db_expireSessionsWith (fails : Device → Bool) (h : VpnHost) :
    (h.expireSessionsWith fails).db = h.db := by
  unfold VpnHost.expireSessionsWith
  split
  · rfl
  · split <;> rfl

/-- **A round of the task removes exactly the expired peers**, whichever of its commands fail. -/
theorem expireSessionsWith_exact (fails : Device → Bool) (h : VpnHost) :
    VpnHost.ExactTick fails h (h.expireSessionsWith fails) where
  removed := by
    intro k hk hdis
    rw [mem_expireSessionsWith_iff, not_and]
    constructor
    · intro hgone
      have hno := hgone hk
      push Not at hno
      obtain ⟨config, hc, h0, user, hu, ⟨-, hover⟩, d, hd, hok, rfl⟩ := hno
      obtain ⟨hdm, hdu⟩ := List.mem_filter.1 hd
      refine ⟨d, hdm, rfl, ⟨fun config' hc' => ?_, config, hc, user, hu, ?_, hover⟩, hok⟩
      · rwa [← Option.some.inj (hc.symm.trans hc')]
      · exact (of_decide_eq_true hdu).symm
    · rintro ⟨d, hd, rfl, ⟨h0, config, hc, user, hu, hid, hover⟩, hok⟩ - hkept
      have hdu : d ∈ h.db.userDevices user.id := List.mem_filter.2 ⟨hd, decide_eq_true hid.symm⟩
      have hen : user.disabledAt = none := by
        by_contra hne
        exact hdis ⟨user, hu, hne, d, hdu, rfl⟩
      exact hkept config hc (h0 config hc) user hu ⟨hen, hover⟩ d hdu hok rfl
  added k hk := (mem_expireSessionsWith_iff.1 hk).1
  strangers k hk hno :=
    mem_expireSessionsWith_iff.2 ⟨hk, fun _ _ _ _ _ _ d hd _ => hno d (List.mem_filter.1 hd).1⟩
  db := db_expireSessionsWith fails h

end Tick

example : (lateHost.expireSessionsWith fun _ => true).peers.peers = {"pk1"} ∧
    (lateHost.expireSessionsWith fun _ => false).peers.peers = ∅ := by decide

end WireGui
