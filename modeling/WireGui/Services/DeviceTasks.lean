import WireGui.Lib.Run
import WireGui.Services.DeviceEvents
import WireGui.Services.Frame
import Mathlib.Logic.Function.Basic

/-!
# Requests for devices that run at the same time

Each request commits its change first and tells `wg` about it afterwards, from a copy of the row
that it has read in between.  Other requests may come in between any two of these steps.  A schedule
says which request takes the next step.

A row that is committed is *owed* a peer by the request that has still to set it, and a peer whose
row is gone is owed its removal.  `tasks_match` says in which runs nothing is owed that nobody pays.
The commands for the routes and the firewall touch neither rows nor peers and are left out here.
-/

namespace WireGui

/-- How far a request has come.  An update: it has read the row and made its edit.  A deletion: it
has read what it deletes.  Then: the row is committed, has been read again, the rows are deleted. -/
inductive DevicePhase where
  | pending
  | edited (old new : Device)
  | selected (d : Device)
  | cascading (u : Uuid) (ds : List Device)
  | written (id : Uuid)
  | adding (d : Device)
  | removing (ds : List Device)
  | finished

/-- A commit writes the columns that the edit has changed, whatever the row is by then. -/
def Device.withChanges (row old new : Device) : Device :=
  { row with
    name := if new.name = old.name then row.name else new.name
    allowedSubnets :=
      if new.allowedSubnets = old.allowedSubnets then row.allowedSubnets else new.allowedSubnets }

/-- The first step of a request: a creation commits, the others read. -/
def HostEvent.start (e : HostEvent) (db : Database) : Database × DevicePhase :=
  match e with
  | .create d =>
    if db.Accepts d then ({ db with devices := db.devices ++ [d] }, .written d.id)
    else (db, .finished)
  | .update id edit =>
    (db, ((db.device id).bind fun d => (edit.applyTo d).map (.edited d)).getD .finished)
  | .delete id => (db, ((db.device id).map .selected).getD .finished)
  | .deleteUser u => (db, .cascading u (db.userDevices u))

/-- The database, the peers and the requests, one for each `i : ι`. -/
structure DeviceTasks (ι : Type) where
  db : Database
  peers : Peers
  phase : ι → DevicePhase

section Schedule

variable {ι : Type} [DecidableEq ι] (task : ι → HostEvent)

/-- **The next step of the request `i`.** -/
def DeviceTasks.next (i : ι) (s : DeviceTasks ι) : DeviceTasks ι :=
  let goto (p : DevicePhase) : ι → DevicePhase := Function.update s.phase i p
  match s.phase i with
  | .pending => ⟨((task i).start s.db).1, s.peers, goto ((task i).start s.db).2⟩
  | .edited old new =>
    match s.db.device old.id with
    | none => ⟨s.db, s.peers, goto .finished⟩
    | some row => ⟨s.db.setDevice (row.withChanges old new), s.peers, goto (.written old.id)⟩
  | .selected d => ⟨s.db.eraseDevice d.id, s.peers, goto (.removing [d])⟩
  | .cascading u ds => ⟨s.db.deleteUser u, s.peers, goto (.removing ds)⟩
  | .written id => ⟨s.db, s.peers, goto (((s.db.device id).map .adding).getD .finished)⟩
  | .adding d => ⟨s.db, addDevice d s.peers, goto .finished⟩
  | .removing [] => ⟨s.db, s.peers, goto .finished⟩
  | .removing (d :: ds) => ⟨s.db, removePeer d.publicKey s.peers, goto (.removing ds)⟩
  | .finished => s

end Schedule

/-! ### What is owed -/

/-- The device is a peer, with its own prefixes. -/
structure Device.IsPeer (w : Peers) (d : Device) : Prop where
  mem : d.publicKey ∈ w.peers
  holds : ∀ n, w.holder n = some d.publicKey ↔ d.Lists n

/-- **Every device is a peer**, and every peer a device. -/
structure PeersMatch (devices : List Device) (w : Peers) : Prop where
  set : ∀ d ∈ devices, d.IsPeer w
  known : ∀ k ∈ w.peers, ∃ d ∈ devices, d.publicKey = k

/-- The request has still to set the peer of the device. -/
def DevicePhase.Sets (d : Device) : DevicePhase → Prop
  | .written id => d.id = id
  | .adding c => d.publicKey = c.publicKey
  | _ => False

/-- The request has still to remove the peer. -/
def DevicePhase.Removes (k : String) : DevicePhase → Prop
  | .removing ds => ∃ d ∈ ds, d.publicKey = k
  | _ => False

/-- The next step of the request deletes the row. -/
def DevicePhase.Erases (d : Device) : DevicePhase → Prop
  | .selected c => d.id = c.id
  | .cascading u _ => d.userId = u
  | _ => False

/-- The devices whose peers are removed after the next step. -/
def DevicePhase.gone : DevicePhase → List Device
  | .selected d => [d]
  | .cascading _ ds => ds
  | _ => []

namespace DeviceTasks

variable {ι : Type}

/-- What is not as it should be is owed by a request under way. -/
structure Settled (s : DeviceTasks ι) : Prop where
  set : ∀ d ∈ s.db.devices, d.IsPeer s.peers ∨ ∃ i, (s.phase i).Sets d
  known : ∀ k ∈ s.peers.peers,
    (∃ d ∈ s.db.devices, d.publicKey = k) ∨ ∃ i, (s.phase i).Removes k

/-- **The next step of the request `i` fits the rows**: a peer is set as its row is now, takes no
prefix of another device, and is removed only if the row is gone; a deletion has read all the
peers whose rows it deletes.  What another request still has to do may be wrong for now. -/
def Sound (i : ι) (s : DeviceTasks ι) : Prop :=
  match s.phase i with
  | .selected _ | .cascading _ _ =>
    ∀ d ∈ s.db.devices, (s.phase i).Erases d → d.publicKey ∈ s.peers.peers →
      (∃ c ∈ (s.phase i).gone, c.publicKey = d.publicKey) ∨
        ∃ j, (s.phase j).Removes d.publicKey
  | .adding c =>
    (∀ d ∈ s.db.devices, (∃ j, j ≠ i ∧ (s.phase j).Sets d) ∨
      (d.publicKey = c.publicKey ∧ ∀ n, c.Lists n ↔ d.Lists n) ∨
      (d.publicKey ≠ c.publicKey ∧ ∀ n, c.Lists n → ¬ d.Lists n)) ∧
    ((∃ d ∈ s.db.devices, d.publicKey = c.publicKey) ∨ ∃ j, (s.phase j).Removes c.publicKey)
  | .removing (c :: _) =>
    ∀ d ∈ s.db.devices, d.publicKey = c.publicKey → ∃ j, (s.phase j).Sets d
  | _ => True

/-- The prefixes that the request gives to `wg` can be read: the command succeeds. -/
def Readable (i : ι) (s : DeviceTasks ι) : Prop :=
  ∀ d, s.phase i = .adding d → ∃ nets, d.nets = some nets

end DeviceTasks

/-! ### One command -/

section Command

variable {w : Peers} {d e : Device} {c : Wg.Cmd String Ip.Net String}

/-- A command about another peer leaves a peer alone, unless it takes one of its prefixes. -/
lemma Device.IsPeer.apply_iff (h : d.IsPeer w) (hne : c.key ≠ d.publicKey) :
    d.IsPeer (c.apply w) ↔ ∀ n ∈ c.nets, ¬ d.Lists n := by
  constructor
  · intro h' n hn hl
    rcases Wg.Cmd.holder_apply_eq_some_iff.1 ((h'.holds n).2 hl) with ⟨he, -⟩ | ⟨-, hnot, -⟩
    · exact hne he
    · exact hnot hn
  · intro hfree
    refine ⟨Wg.Cmd.mem_peers_apply_iff.2 (.inr ⟨hne, h.mem⟩), fun n => ?_⟩
    rw [Wg.Cmd.holder_apply_eq_some_iff, h.holds]
    constructor
    · rintro (⟨he, -⟩ | ⟨-, -, hl⟩)
      · exact absurd he hne
      · exact hl
    · exact fun hl => .inr ⟨hne, fun hn => hfree n hn hl, hl⟩

/-- A peer that is set has the prefixes it is given. -/
lemma isPeer_addCmd_iff (hk : e.publicKey = d.publicKey) :
    e.IsPeer (d.addCmd.apply w) ↔ ∀ n, d.Lists n ↔ e.Lists n := by
  have hkey : d.addCmd.key = e.publicKey := hk.symm
  have hholder : ∀ n, (d.addCmd.apply w).holder n = some e.publicKey ↔ d.Lists n := by
    intro n
    rw [Wg.Cmd.holder_apply_eq_some_iff, nets_addCmd, hkey]
    simp
  constructor
  · exact fun h n => (hholder n).symm.trans (h.holds n)
  · exact fun h => ⟨Wg.Cmd.mem_peers_apply_iff.2 (.inl ⟨hkey, trivial⟩),
      fun n => (hholder n).trans (h n)⟩

lemma not_isPeer_remove : ¬ d.IsPeer (w.remove d.publicKey) := by
  intro h
  have hmem := h.mem
  rw [Wg.peers_remove] at hmem
  exact absurd rfl (Finset.mem_erase.1 hmem).1

end Command

/-! ### One step -/

section Steps

variable {ι : Type} {task : ι → HostEvent} {i : ι} {s : DeviceTasks ι} {db : Database} {w : Peers}
  {p : DevicePhase}

/-- Where the request `i` owes nothing, the others do. -/
lemma exists_other_iff {P : DevicePhase → Prop} (h : ¬ P (s.phase i)) :
    (∃ j, j ≠ i ∧ P (s.phase j)) ↔ ∃ j, P (s.phase j) := by
  constructor
  · rintro ⟨j, -, hj⟩
    exact ⟨j, hj⟩
  · rintro ⟨j, hj⟩
    refine ⟨j, ?_, hj⟩
    rintro rfl
    exact h hj

variable [DecidableEq ι]

/-- What is settled after a step is up to the request that takes it and to the others. -/
lemma settled_update_iff :
    DeviceTasks.Settled ⟨db, w, Function.update s.phase i p⟩ ↔
      (∀ d ∈ db.devices, d.IsPeer w ∨ p.Sets d ∨ ∃ j, j ≠ i ∧ (s.phase j).Sets d) ∧
        ∀ k ∈ w.peers, (∃ d ∈ db.devices, d.publicKey = k) ∨ p.Removes k ∨
          ∃ j, j ≠ i ∧ (s.phase j).Removes k := by
  have hphase : ∀ P : DevicePhase → Prop, (∃ j, P (Function.update s.phase i p j)) ↔
      P p ∨ ∃ j, j ≠ i ∧ P (s.phase j) := by
    intro P
    simpa only [exists_prop] using Function.exists_update_iff s.phase (p := fun _ q => P q)
  constructor
  · rintro ⟨hs, hk⟩
    exact ⟨fun d hd => (hs d hd).imp_right (hphase _).1,
      fun k hkw => (hk k hkw).imp_right (hphase _).1⟩
  · rintro ⟨hs, hk⟩
    exact ⟨fun d hd => (hs d hd).imp_right (hphase _).2,
      fun k hkw => (hk k hkw).imp_right (hphase _).2⟩

/-- **A step without a command**: rows that are new or owed by the request are owed by it afterwards,
and no row disappears. -/
lemma settled_of_quiet (hs : s.Settled)
    (hrows : ∀ d ∈ db.devices, (d ∈ s.db.devices ∧ ¬ (s.phase i).Sets d) ∨ p.Sets d)
    (hkeys : ∀ d ∈ s.db.devices, ∃ e ∈ db.devices, e.publicKey = d.publicKey)
    (hrem : ∀ k, (s.phase i).Removes k → p.Removes k) :
    DeviceTasks.Settled ⟨db, s.peers, Function.update s.phase i p⟩ := by
  refine settled_update_iff.2 ⟨fun d hd => ?_, fun k hk => ?_⟩
  · rcases hrows d hd with ⟨hdm, hn⟩ | hp
    · exact (hs.set d hdm).imp_right fun h => .inr ((exists_other_iff hn).2 h)
    · exact .inr (.inl hp)
  · rcases hs.known k hk with ⟨d, hd, rfl⟩ | ⟨j, hj⟩
    · exact .inl (hkeys d hd)
    · by_cases hji : j = i
      · exact .inr (.inl (hrem k (hji ▸ hj)))
      · exact .inr (.inr ⟨j, hji, hj⟩)

/-- **A deletion is settled** if the peers of the rows that go are owed their removal. -/
lemma settled_erase_iff (db : Database) (hk : s.db.Keyed) (hs : s.Settled)
    (hdb : ∀ d, d ∈ db.devices ↔ d ∈ s.db.devices ∧ ¬ (s.phase i).Erases d)
    (hsets : ∀ d, ¬ (s.phase i).Sets d) (hrem : ∀ k, ¬ (s.phase i).Removes k) :
    DeviceTasks.Settled ⟨db, s.peers, Function.update s.phase i (.removing (s.phase i).gone)⟩ ↔
      ∀ d ∈ s.db.devices, (s.phase i).Erases d → d.publicKey ∈ s.peers.peers →
        (∃ c ∈ (s.phase i).gone, c.publicKey = d.publicKey) ∨
          ∃ j, (s.phase j).Removes d.publicKey := by
  rw [settled_update_iff]
  constructor
  · rintro ⟨-, hknown⟩ d hd he hdw
    rcases hknown d.publicKey hdw with ⟨e, hem, hek⟩ | hgone | ⟨j, -, hj⟩
    · obtain ⟨hem, hne⟩ := (hdb e).1 hem
      exact absurd (hk.eq_of_key hem hd hek ▸ he) hne
    · exact .inl hgone
    · exact .inr ⟨j, hj⟩
  · intro hgone
    refine ⟨fun d hd => ?_, fun k hkw => ?_⟩
    · exact (hs.set d ((hdb d).1 hd).1).imp_right fun h => .inr ((exists_other_iff (hsets d)).2 h)
    · rcases hs.known k hkw with ⟨d, hd, rfl⟩ | hj
      · by_cases he : (s.phase i).Erases d
        · refine .inr ((hgone d hd he hkw).imp_right fun h => ?_)
          exact (exists_other_iff (hrem _)).2 h
        · exact .inl ⟨d, (hdb d).2 ⟨hd, he⟩, rfl⟩
      · exact .inr (.inr ((exists_other_iff (hrem k)).2 hj))

/-- **A peer that is set**, for the row that it is set for and for the others. -/
lemma settled_add_iff (hs : s.Settled) {c : Device} (hi : s.phase i = .adding c)
    (hr : s.Readable i) :
    DeviceTasks.Settled ⟨s.db, addDevice c s.peers, Function.update s.phase i .finished⟩ ↔
      s.Sound i := by
  have hrow : ∀ d ∈ s.db.devices,
      (d.IsPeer (c.addCmd.apply s.peers) ∨ DevicePhase.finished.Sets d ∨
        ∃ j, j ≠ i ∧ (s.phase j).Sets d) ↔
      ((∃ j, j ≠ i ∧ (s.phase j).Sets d) ∨
        (d.publicKey = c.publicKey ∧ ∀ n, c.Lists n ↔ d.Lists n) ∨
        (d.publicKey ≠ c.publicKey ∧ ∀ n, c.Lists n → ¬ d.Lists n)) := by
    intro d hd
    have hfin : ¬ DevicePhase.finished.Sets d := id
    by_cases ho : ∃ j, j ≠ i ∧ (s.phase j).Sets d
    · exact iff_of_true (.inr (.inr ho)) (.inl ho)
    by_cases hk : d.publicKey = c.publicKey
    · simp only [isPeer_addCmd_iff hk, hfin, ho, hk, or_false, false_or, true_and, ne_eq,
        not_true_eq_false, false_and]
    · -- nobody owes the device anything, so it is a peer as it should be
      have hn : ¬ (s.phase i).Sets d := by rwa [hi]
      have hpeer : d.IsPeer s.peers :=
        (hs.set d hd).resolve_right fun h => ho ((exists_other_iff hn).2 h)
      have hne : c.addCmd.key ≠ d.publicKey := fun he => hk he.symm
      simp only [hpeer.apply_iff hne, nets_addCmd, hfin, ho, hk, or_false, false_or, true_and,
        ne_eq, not_false_eq_true, false_and]
  have hrem : ∀ k, ¬ (s.phase i).Removes k := fun k => by rw [hi]; exact id
  have hknown : (∀ k ∈ (c.addCmd.apply s.peers).peers, (∃ d ∈ s.db.devices, d.publicKey = k) ∨
        DevicePhase.finished.Removes k ∨ ∃ j, j ≠ i ∧ (s.phase j).Removes k) ↔
      (∃ d ∈ s.db.devices, d.publicKey = c.publicKey) ∨
        ∃ j, (s.phase j).Removes c.publicKey := by
    constructor
    · intro h
      refine (h c.publicKey (Finset.mem_insert_self _ _)).imp_right fun h => ?_
      exact (exists_other_iff (hrem _)).1 (h.resolve_left id)
    · intro h k hk
      rcases Finset.mem_insert.1 hk with rfl | hk
      · exact h.imp_right fun h => .inr ((exists_other_iff (hrem _)).2 h)
      · exact (hs.known k hk).imp_right fun h => .inr ((exists_other_iff (hrem _)).2 h)
  rw [addDevice_eq_apply (hr c hi), settled_update_iff, hknown, DeviceTasks.Sound, hi]
  exact and_congr_left fun _ => forall₂_congr hrow

/-- **A peer that is removed.** -/
lemma settled_remove_iff (hs : s.Settled) {c : Device} {ds : List Device}
    (hi : s.phase i = .removing (c :: ds)) :
    DeviceTasks.Settled ⟨s.db, removePeer c.publicKey s.peers,
      Function.update s.phase i (.removing ds)⟩ ↔ s.Sound i := by
  have hsets : ∀ d, ¬ (s.phase i).Sets d := fun d => by rw [hi]; exact id
  rw [settled_update_iff, DeviceTasks.Sound, hi]
  constructor
  · rintro ⟨hset, -⟩ d hd hdk
    rcases hset d hd with hpeer | h | ⟨j, -, hj⟩
    · rw [removePeer, ← hdk] at hpeer
      exact absurd hpeer not_isPeer_remove
    · exact h.elim
    · exact ⟨j, hj⟩
  · intro hgone
    refine ⟨fun d hd => ?_, fun k hk => ?_⟩
    · by_cases hdk : d.publicKey = c.publicKey
      · exact .inr (.inr ((exists_other_iff (hsets d)).2 (hgone d hd hdk)))
      · refine (hs.set d hd).imp (fun hpeer => ?_) fun h =>
          .inr ((exists_other_iff (hsets d)).2 h)
        have hcmd : (Wg.Cmd.remove c.publicKey : Wg.Cmd String Ip.Net String).key ≠ d.publicKey :=
          fun he => hdk he.symm
        exact (hpeer.apply_iff hcmd).2 nofun
    · obtain ⟨hne, hkw⟩ := Finset.mem_erase.1 hk
      rcases hs.known k hkw with hd | ⟨j, hj⟩
      · exact .inl hd
      · by_cases hji : j = i
        · subst hji
          rw [hi] at hj
          obtain ⟨d, hd, hdk⟩ := hj
          rcases List.mem_cons.1 hd with rfl | hd
          · exact absurd hdk.symm hne
          · exact .inr (.inl ⟨d, hd, hdk⟩)
        · exact .inr (.inr ⟨j, hji, hj⟩)

/-- The first step of a request adds at most a row, under a new id and a new key. -/
lemma start_cases (e : HostEvent) (db : Database) :
    (e.start db).1 = db ∨
      ∃ d, db.Accepts d ∧ e.start db = ({ db with devices := db.devices ++ [d] }, .written d.id) := by
  cases e with
  | create d =>
    by_cases ha : db.Accepts d
    · exact .inr ⟨d, ha, if_pos ha⟩
    · exact .inl (by rw [HostEvent.start, if_neg ha])
  | update id edit => exact .inl rfl
  | delete id => exact .inl rfl
  | deleteUser u => exact .inl rfl

/-- **Each step keeps ids and keys apart.** -/
lemma keyed_tasks_next (hk : s.db.Keyed) : (s.next task i).db.Keyed := by
  unfold DeviceTasks.next
  split
  case h_1 =>
    rcases start_cases (task i) s.db with h | ⟨d, ha, h⟩
    · rw [h]
      exact hk
    · rw [h]
      exact hk.append ha
  case h_2 old new _ =>
    split
    · exact hk
    next row hrow => exact hk.setDevice (device_eq_some hrow).1 rfl rfl
  case h_3 => exact hk.of_sublist List.filter_sublist
  case h_4 =>
    exact ⟨(hk.of_sublist List.filter_sublist).ids, (hk.of_sublist List.filter_sublist).keys⟩
  all_goals exact hk

/-- **The first step of a request**: the row that it adds is owed its peer. -/
lemma settled_start (hs : s.Settled) {e : HostEvent} (hi : s.phase i = .pending) :
    DeviceTasks.Settled ⟨(e.start s.db).1, s.peers,
      Function.update s.phase i (e.start s.db).2⟩ := by
  have hsets : ∀ d, ¬ (s.phase i).Sets d := fun d => by rw [hi]; exact id
  have hrem : ∀ k, ¬ (s.phase i).Removes k := fun k => by rw [hi]; exact id
  rcases start_cases e s.db with h | ⟨c, ha, h⟩
  · rw [h]
    exact settled_of_quiet hs (fun d hd => .inl ⟨hd, hsets d⟩) (fun d hd => ⟨d, hd, rfl⟩)
      fun k hk => absurd hk (hrem k)
  · rw [h]
    refine settled_of_quiet hs (fun d hd => ?_) (fun d hd => ⟨d, ?_, rfl⟩)
      fun k hk => absurd hk (hrem k)
    · rcases List.mem_append.1 hd with hd | hd
      · exact .inl ⟨hd, hsets d⟩
      · exact .inr (congrArg Device.id (List.mem_singleton.1 hd))
    · exact List.mem_append_left _ hd

/-- **A row that is changed** is owed its peer, and keeps its key. -/
lemma settled_change (hk : s.db.Keyed) (hs : s.Settled) {row new : Device}
    (hrow : row ∈ s.db.devices) (hid : new.id = row.id) (hkey : new.publicKey = row.publicKey)
    (hsets : ∀ d, ¬ (s.phase i).Sets d) (hrem : ∀ k, ¬ (s.phase i).Removes k) :
    DeviceTasks.Settled ⟨s.db.setDevice new, s.peers,
      Function.update s.phase i (.written row.id)⟩ := by
  have hmem : ∀ d, d ∈ (s.db.setDevice new).devices ↔
      d = new ∨ (d ∈ s.db.devices ∧ d.id ≠ new.id) :=
    fun d => mem_setDevice_iff ⟨row, hrow, hid.symm⟩
  refine settled_of_quiet hs (fun d hd => ?_) (fun d hd => ?_) fun k hk => absurd hk (hrem k)
  · rcases (hmem d).1 hd with rfl | ⟨hd, -⟩
    · exact .inr hid
    · exact .inl ⟨hd, hsets d⟩
  · by_cases hdr : d.id = row.id
    · exact ⟨_, (hmem _).2 (.inl rfl), by rw [hk.eq_of_id hd hrow hdr, hkey]⟩
    · exact ⟨d, (hmem d).2 (.inr ⟨hd, fun h => hdr (h.trans hid)⟩), rfl⟩

/-- **One step** leaves everything settled exactly if it fits the rows. -/
theorem settled_next_iff (hk : s.db.Keyed) (hr : s.Readable i) (hs : s.Settled) :
    (s.next task i).Settled ↔ s.Sound i := by
  have hkeep : ∀ d ∈ s.db.devices, ∃ e ∈ s.db.devices, e.publicKey = d.publicKey :=
    fun d hd => ⟨d, hd, rfl⟩
  unfold DeviceTasks.next
  split
  case h_1 hi =>
    exact iff_of_true (settled_start hs hi) (by rw [DeviceTasks.Sound, hi]; trivial)
  case h_2 old new hi =>
    refine iff_of_true ?_ (by rw [DeviceTasks.Sound, hi]; trivial)
    have hsets : ∀ d, ¬ (s.phase i).Sets d := fun d => by rw [hi]; exact id
    have hrem : ∀ k, ¬ (s.phase i).Removes k := fun k => by rw [hi]; exact id
    split
    · exact settled_of_quiet hs (fun d hd => .inl ⟨hd, hsets d⟩) hkeep
        fun k hk => absurd hk (hrem k)
    next row hrow =>
      obtain ⟨hrm, hid⟩ := device_eq_some hrow
      exact hid ▸ settled_change hk hs hrm rfl rfl hsets hrem
  case h_3 c hi =>
    have herase := settled_erase_iff (i := i) (s.db.eraseDevice c.id) hk hs
    rw [DeviceTasks.Sound]
    rw [hi] at herase ⊢
    exact herase (fun d => mem_eraseDevice_iff) (fun _ => id) fun _ => id
  case h_4 u ds hi =>
    have herase := settled_erase_iff (i := i) (s.db.deleteUser u) hk hs
    rw [DeviceTasks.Sound]
    rw [hi] at herase ⊢
    exact herase (fun d => by simp [Database.deleteUser, DevicePhase.Erases]) (fun _ => id)
      fun _ => id
  case h_5 k hi =>
    refine iff_of_true ?_ (by rw [DeviceTasks.Sound, hi]; trivial)
    refine settled_of_quiet hs (fun d hd => ?_) hkeep fun k hk => absurd hk (by rw [hi]; exact id)
    rw [hi]
    by_cases hid : d.id = k
    · subst hid
      rw [hk.device_of_mem hd]
      exact .inr rfl
    · exact .inl ⟨hd, hid⟩
  case h_6 c hi => exact settled_add_iff hs hi hr
  case h_7 hi =>
    refine iff_of_true ?_ (by rw [DeviceTasks.Sound, hi]; trivial)
    refine settled_of_quiet hs (fun d hd => .inl ⟨hd, by rw [hi]; exact id⟩) hkeep ?_
    rw [hi]
    rintro k ⟨d, hd, -⟩
    cases hd
  case h_8 c ds hi => exact settled_remove_iff hs hi
  case h_9 hi => exact iff_of_true hs (by rw [DeviceTasks.Sound, hi]; trivial)

/-- **In which runs everything is settled throughout.** -/
theorem always_settled_iff (hk : s.db.Keyed) (hs : s.Settled) {sched : List ι}
    (hr : Run.Throughout (DeviceTasks.next task) DeviceTasks.Readable sched s) :
    Run.Always (DeviceTasks.next task) DeviceTasks.Settled sched s ↔
      Run.Throughout (DeviceTasks.next task) DeviceTasks.Sound sched s :=
  Run.always_iff (I := fun s : DeviceTasks ι => s.db.Keyed) (fun _ _ hk => keyed_tasks_next hk)
    (fun _ _ hk hr hs => settled_next_iff hk hr hs) hk hs hr

omit [DecidableEq ι] in
/-- Once all requests have finished, nothing is owed any more. -/
lemma match_of_settled (hs : s.Settled) (hend : ∀ i, s.phase i = .finished) :
    PeersMatch s.db.devices s.peers where
  set d hd := by
    refine (hs.set d hd).resolve_right ?_
    rintro ⟨i, hi⟩
    rw [hend i] at hi
    exact hi
  known k hk := by
    refine (hs.known k hk).resolve_right ?_
    rintro ⟨i, hi⟩
    rw [hend i] at hi
    exact hi

/-- **The peers match the devices** once all requests have finished, in every run whose steps fit the
rows they find. -/
theorem tasks_match (hk : s.db.Keyed) (hm : PeersMatch s.db.devices s.peers) {sched : List ι}
    (hr : Run.Throughout (DeviceTasks.next task) DeviceTasks.Readable sched s)
    (hsound : Run.Throughout (DeviceTasks.next task) DeviceTasks.Sound sched s)
    (hend : ∀ i, (Run.final (DeviceTasks.next task) sched s).phase i = .finished) :
    let fin := Run.final (DeviceTasks.next task) sched s
    PeersMatch fin.db.devices fin.peers := by
  have hs : s.Settled := ⟨fun d hd => .inl (hm.set d hd), fun k hk => .inl (hm.known k hk)⟩
  exact match_of_settled ((always_settled_iff hk hs hr).2 hsound).final hend

end Steps

/-! A device is made and deleted, and the handler of its creation comes last. -/

def twoRequests : Bool → HostEvent
  | false => .create laptop
  | true => .delete laptop.id

/-- How far the two requests have come. -/
def twoPhases (create delete : DevicePhase) : Bool → DevicePhase
  | false => create
  | true => delete

def requestsPending : DeviceTasks Bool := ⟨accounts, .empty, twoPhases .pending .pending⟩

/-- The row is committed and read again before the deletion comes in. -/
def lateAdd : List Bool := [false, false, true, true, true, true, false]

def inTurn : List Bool := [false, false, false, true, true, true, true]

lemma accounts_keyed : accounts.Keyed := ⟨List.nodup_nil, List.nodup_nil⟩

lemma accounts_match : PeersMatch accounts.devices .empty where
  set := fun _ hd => absurd hd List.not_mem_nil
  known := fun _ hk => absurd hk (Finset.notMem_empty _)

lemma laptop_readable : ∃ nets, laptop.nets = some nets := ⟨[laptopAddr.host], by decide⟩

section TwoRequests

variable {p q r : DevicePhase}

@[simp] lemma update_twoPhases_false :
    Function.update (twoPhases p q) false r = twoPhases r q := by
  funext i
  cases i <;> rfl

@[simp] lemma update_twoPhases_true :
    Function.update (twoPhases p q) true r = twoPhases p r := by
  funext i
  cases i <;> rfl

end TwoRequests

def withLaptop : Database := { accounts with devices := [laptop] }

@[simp] lemma start_create_laptop :
    (twoRequests false).start accounts = (withLaptop, .written laptop.id) := by
  have ha : accounts.Accepts laptop :=
    ⟨⟨aliceUser, List.mem_cons_self, rfl⟩, fun _ hd => absurd hd List.not_mem_nil⟩
  rw [twoRequests, HostEvent.start, if_pos ha]
  rfl

@[simp] lemma device_withLaptop : withLaptop.device laptop.id = some laptop := by
  simp [Database.device, withLaptop]

@[simp] lemma eraseDevice_withLaptop : withLaptop.eraseDevice laptop.id = accounts := by
  simp [Database.eraseDevice, withLaptop, accounts]

@[simp] lemma start_delete_laptop :
    (twoRequests true).start withLaptop = (withLaptop, .selected laptop) := by
  rw [twoRequests, HostEvent.start, device_withLaptop]
  rfl

lemma final_lateAdd :
    Run.final (DeviceTasks.next twoRequests) lateAdd requestsPending =
      ⟨accounts, addDevice laptop (removePeer "pk1" .empty), twoPhases .finished .finished⟩ := by
  simp [lateAdd, requestsPending, Run.final, DeviceTasks.next, twoPhases]
  rfl

lemma final_inTurn :
    Run.final (DeviceTasks.next twoRequests) inTurn requestsPending =
      ⟨accounts, removePeer "pk1" (addDevice laptop .empty), twoPhases .finished .finished⟩ := by
  simp [inTurn, requestsPending, Run.final, DeviceTasks.next, twoPhases]
  rfl

lemma readable_lateAdd :
    Run.Throughout (DeviceTasks.next twoRequests) DeviceTasks.Readable lateAdd
      requestsPending := by
  simp [lateAdd, requestsPending, Run.Throughout, DeviceTasks.next, twoPhases,
    DeviceTasks.Readable, laptop_readable]

lemma readable_inTurn :
    Run.Throughout (DeviceTasks.next twoRequests) DeviceTasks.Readable inTurn
      requestsPending := by
  simp [inTurn, requestsPending, Run.Throughout, DeviceTasks.next, twoPhases,
    DeviceTasks.Readable, laptop_readable]

lemma sound_inTurn :
    Run.Throughout (DeviceTasks.next twoRequests) DeviceTasks.Sound inTurn requestsPending := by
  have hrow : withLaptop.devices = [laptop] := rfl
  have hgone : accounts.devices = [] := rfl
  simp [inTurn, requestsPending, Run.Throughout, DeviceTasks.next, twoPhases,
    DeviceTasks.Sound, DevicePhase.gone, hrow, hgone]

lemma finished_twoPhases (i : Bool) : twoPhases .finished .finished i = .finished := by
  cases i <;> rfl

/-- **A stray peer**: the device is gone, and its peer is there. -/
theorem tasks_leave_stray :
    let fin := Run.final (DeviceTasks.next twoRequests) lateAdd requestsPending
    requestsPending.db.Keyed ∧ PeersMatch requestsPending.db.devices requestsPending.peers ∧
      Run.Throughout (DeviceTasks.next twoRequests) DeviceTasks.Readable lateAdd requestsPending ∧
      (∀ i, fin.phase i = .finished) ∧ ¬ PeersMatch fin.db.devices fin.peers := by
  rw [final_lateAdd]
  refine ⟨accounts_keyed, accounts_match, readable_lateAdd, finished_twoPhases, fun h => ?_⟩
  obtain ⟨d, hd, -⟩ := h.known "pk1" (by decide)
  exact absurd hd List.not_mem_nil

theorem tasks_match_inTurn :
    let fin := Run.final (DeviceTasks.next twoRequests) inTurn requestsPending
    PeersMatch fin.db.devices fin.peers :=
  tasks_match accounts_keyed accounts_match readable_inTurn sound_inTurn fun i => by
    rw [final_inTurn]
    exact finished_twoPhases i

end WireGui
