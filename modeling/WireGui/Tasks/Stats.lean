import WireGui.Ip.Network
import WireGui.Lib.Dict
import WireGui.Models
import WireGui.Services.PeerInfo

/-!
# `tasks/stats.py`: what the peers have sent and received

Every minute the rows of the devices take over what their peers report.

* `remoteIp_eq_iff`: the address of an endpoint is found unless it is an IPv6 address.
* `exists_statsStored_iff`: when the rows are right afterwards.
-/

namespace WireGui

/-! ### One row -/

/-- `peer.endpoint.split(":")[0] if peer.endpoint else None` -/
def remoteIp (endpoint : Option String) : Option String :=
  match endpoint with
  | none => none
  | some e => if e = "" then none else (e.toList.splitOn ':').head?.map String.ofList

/-- What the loop assigns to a device. -/
def Device.withStats (d : Device) (peer : PeerInfo) : Device :=
  { d with
    rxBytes := some peer.rxBytes
    txBytes := some peer.txBytes
    latestHandshake := peer.latestHandshake
    remoteIp := WireGui.remoteIp peer.endpoint }

/-- A value for a `BigInteger` column. -/
def storableBigInt (n : ℤ) : Bool := -2 ^ 63 ≤ n && n < 2 ^ 63

/-- The counters of the row fit their columns. -/
def Device.StorableStats (d : Device) : Prop :=
  (∀ n ∈ d.rxBytes, storableBigInt n = true) ∧ ∀ n ∈ d.txBytes, storableBigInt n = true

instance (d : Device) : Decidable d.StorableStats := by
  unfold Device.StorableStats; infer_instance

/-! ### All rows -/

/-- `{p.public_key: p for p in peers}` -/
def peerMap (peers : List PeerInfo) : Dict String PeerInfo :=
  (∅ : Dict String PeerInfo).update (peers.map fun p => (p.publicKey, p))

/-- The row of a device after the loop. -/
def storeStats (peers : List PeerInfo) (d : Device) : Device :=
  ((peerMap peers).get d.publicKey).elim d d.withStats

/-- The loop over the devices and the commit; `none` is a commit that the database refuses. -/
def writeStats (peers : List PeerInfo) (devices : List Device) (db : Database) : Option Database :=
  if ∀ d ∈ devices, (storeStats peers d).StorableStats then
    some { db with
      devices := db.devices.map fun d => if d ∈ devices then storeStats peers d else d }
  else none

/-- `_update_stats` -/
def updateStats (peers : List PeerInfo) (db : Database) : Option Database :=
  if peers = [] then some db
  else writeStats peers (db.devices.filter fun d => d.publicKey ∈ (peerMap peers).keys) db

/-! ### Endpoints -/

/-- How an address is printed together with a port. -/
inductive PrintedEndpoint : Option String → Option String → Prop
  | none : PrintedEndpoint none none
  | v4 {t : String} (ht : Ip.readAddress .v4 t.toList ≠ none) (port : ℕ) :
    PrintedEndpoint (some t) (some (t ++ ":" ++ port.repr))
  | v6 {t : String} (ht : Ip.readAddress .v6 t.toList ≠ none) (port : ℕ) :
    PrintedEndpoint (some t) (some ("[" ++ t ++ "]:" ++ port.repr))

/-- The endpoint starts with a bracket, as only those with an IPv6 address do. -/
def Bracketed (endpoint : Option String) : Prop := ∃ e ∈ endpoint, e.toList.head? = some '['

instance (endpoint : Option String) : Decidable (Bracketed endpoint) := by
  unfold Bracketed; infer_instance

section Endpoint

variable {t : String} {cs : List Char} {address endpoint : Option String}

lemma isAddrChar_of_readAddress_v4 (h : Ip.readAddress .v4 cs ≠ none) {c : Char} (hc : c ∈ cs) :
    Ip.isAddrChar c = true ∧ c ≠ ':' := by
  obtain ⟨⟨a, zone⟩, ha⟩ := Option.ne_none_iff_exists'.1 h
  obtain ⟨a, ha, -⟩ := Option.map_eq_some_iff.1 ha
  unfold Ip.parseAddr at ha
  rw [String.toList_ofList] at ha
  cases hn : Ip.parse4 cs with
  | none => simp [hn] at ha
  | some n =>
    refine ⟨Ip.isAddrChar_of_parse4 hn hc, ?_⟩
    rintro rfl
    exact Ip.colon_notMem_of_parse4 hn hc

lemma colon_mem_of_readAddress_v6 (h : Ip.readAddress .v6 cs ≠ none) : ':' ∈ cs := by
  obtain ⟨⟨a, zone⟩, ha⟩ := Option.ne_none_iff_exists'.1 h
  rw [Ip.readAddress, Option.bind_eq_bind, Option.bind_eq_some_iff] at ha
  obtain ⟨⟨addr, zone'⟩, hsplit, ha⟩ := ha
  obtain ⟨a, ha, -⟩ := Option.map_eq_some_iff.1 ha
  have hcolon : ':' ∈ addr := by
    unfold Ip.parseAddr at ha
    rw [String.toList_ofList] at ha
    cases hn : Ip.parse6 addr with
    | none => simp [hn] at ha
    | some n => exact Ip.colon_mem_of_parse6 hn
  have hmem : addr ∈ cs.splitOn '%' := by
    unfold Ip.splitScopeId at hsplit
    split at hsplit
    next heq =>
      cases hsplit
      simp [heq]
    next heq =>
      split at hsplit
      · cases hsplit
      · cases hsplit
        simp [heq]
    next => cases hsplit
  exact Ip.mem_of_mem_splitOn '%' hmem hcolon

/-- The address before the first colon. -/
lemma remoteIp_of_notMem (ht : ':' ∉ t.toList) (rest : String) :
    remoteIp (some (t ++ ":" ++ rest)) = some t := by
  have hne : t ++ ":" ++ rest ≠ "" := by simp
  have hcolon : (":" : String).toList = [':'] := rfl
  rw [remoteIp, if_neg hne, String.toList_append, String.toList_append, hcolon, List.append_assoc,
    List.singleton_append, List.splitOn_append_cons_self, List.splitOn_eq_singleton ht]
  simp

/-- With a bracket in front, no address is found. -/
lemma remoteIp_bracket_ne (ht : ':' ∈ t.toList) (rest : String) :
    remoteIp (some ("[" ++ t ++ rest)) ≠ some t := by
  obtain ⟨front, back, hsplit, hfront⟩ := List.eq_append_cons_of_mem ht
  have hmem : ':' ∉ ("[" ++ String.ofList front).toList := by
    rw [String.toList_append, List.mem_append, not_or]
    refine ⟨by decide, ?_⟩
    rwa [String.toList_ofList]
  have htext : "[" ++ t ++ rest =
      "[" ++ String.ofList front ++ ":" ++ (String.ofList back ++ rest) := by
    rw [← String.toList_inj]
    simp [hsplit]
  intro h
  rw [htext, remoteIp_of_notMem hmem] at h
  exact hmem (Option.some.inj h ▸ ht)

lemma not_bracketed_v4 (ht : Ip.readAddress .v4 t.toList ≠ none) (port : ℕ) :
    ¬ Bracketed (some (t ++ ":" ++ port.repr)) := by
  rintro ⟨e, he, hhead⟩
  cases he
  rw [String.toList_append, String.toList_append] at hhead
  cases hcs : t.toList with
  | nil =>
    rw [hcs, List.nil_append] at hhead
    cases hhead
  | cons c cs =>
    rw [hcs] at hhead ht
    have hc := (isAddrChar_of_readAddress_v4 ht List.mem_cons_self).1
    rw [Option.some.inj hhead] at hc
    exact absurd hc (by decide)

/-- **The address of an endpoint** is found if and only if there are no brackets around it. -/
lemma remoteIp_eq_iff (h : PrintedEndpoint address endpoint) :
    remoteIp endpoint = address ↔ ¬ Bracketed endpoint := by
  cases h with
  | none => simp [remoteIp, Bracketed]
  | @v4 t ht port =>
    refine iff_of_true (remoteIp_of_notMem (fun hc => ?_) _) (not_bracketed_v4 ht port)
    exact (isAddrChar_of_readAddress_v4 ht hc).2 rfl
  | @v6 t ht port =>
    refine iff_of_false ?_ (not_not_intro ⟨_, rfl, ?_⟩)
    · rw [String.append_assoc]
      exact remoteIp_bracket_ne (colon_mem_of_readAddress_v6 ht) _
    · simp

end Endpoint

/-! ### The rows afterwards -/

section Rows

variable {peers : List PeerInfo} {db : Database} {d : Device} {peer : PeerInfo}

/-- **A row after polling**: a device of one of the peers has what that peer reports, with the
address of its endpoint, and any other is as before. -/
def Polled (peers : List PeerInfo) (d d' : Device) : Prop :=
  (∀ p ∈ peers, p.publicKey = d.publicKey → ∃ address, PrintedEndpoint address p.endpoint ∧
    d' = { d with
      rxBytes := some p.rxBytes
      txBytes := some p.txBytes
      latestHandshake := p.latestHandshake
      remoteIp := address }) ∧
    ((∀ p ∈ peers, p.publicKey ≠ d.publicKey) → d' = d)

/-- **The database after polling**: each row of a device is `Polled`, and nothing else changes. -/
def StatsStored (peers : List PeerInfo) (db db' : Database) : Prop :=
  List.Forall₂ (Polled peers) db.devices db'.devices ∧ db' = { db with devices := db'.devices }

/-- What a peer reports for a device can be taken over. -/
def PeerInfo.Pollable (p : PeerInfo) : Prop :=
  ¬ Bracketed p.endpoint ∧ storableBigInt p.rxBytes = true ∧ storableBigInt p.txBytes = true

instance (p : PeerInfo) : Decidable p.Pollable := by
  unfold PeerInfo.Pollable; infer_instance

/-- The peers of the devices can be taken over. -/
def PollablePeers (peers : List PeerInfo) (db : Database) : Prop :=
  ∀ d ∈ db.devices, ∀ p ∈ peers, p.publicKey = d.publicKey → p.Pollable

instance (peers : List PeerInfo) (db : Database) : Decidable (PollablePeers peers db) := by
  unfold PollablePeers; infer_instance

lemma mem_keys_peerMap {key : String} :
    key ∈ (peerMap peers).keys ↔ ∃ p ∈ peers, p.publicKey = key := by
  rw [peerMap, Dict.keys_update, List.mem_eraseDups]
  simp

/-- With distinct keys, each peer is found by its own. -/
lemma get_peerMap (hkeys : (peers.map (·.publicKey)).Nodup) (hp : peer ∈ peers) :
    (peerMap peers).get peer.publicKey = some peer := by
  have hmem : (peer.publicKey, peer) ∈ peers.map fun p => (p.publicKey, p) :=
    List.mem_map_of_mem hp
  have hnodup : ((peers.map fun p => (p.publicKey, p)).map Prod.fst).Nodup := by
    rwa [List.map_map]
  rw [peerMap, Dict.get_update,
    List.getLast?_filter_of_nodup (f := Prod.fst) hnodup hmem]
  rfl

lemma storeStats_of_mem (hkeys : (peers.map (·.publicKey)).Nodup) (hp : peer ∈ peers)
    (hd : peer.publicKey = d.publicKey) : storeStats peers d = d.withStats peer := by
  rw [storeStats, ← hd, get_peerMap hkeys hp, Option.elim_some]

lemma storeStats_of_forall_ne (h : ∀ p ∈ peers, p.publicKey ≠ d.publicKey) :
    storeStats peers d = d := by
  have hnone : (peerMap peers).get d.publicKey = none := by
    rw [Dict.get_eq_none_iff, mem_keys_peerMap]
    rintro ⟨p, hp, hpd⟩
    exact h p hp hpd
  rw [storeStats, hnone, Option.elim_none]

/-- **One row**: it is right if and only if the peer has no address in brackets. -/
lemma polled_storeStats_iff (hkeys : (peers.map (·.publicKey)).Nodup)
    (hpeers : ∀ p ∈ peers, ∃ address, PrintedEndpoint address p.endpoint) :
    Polled peers d (storeStats peers d) ↔
      ∀ p ∈ peers, p.publicKey = d.publicKey → ¬ Bracketed p.endpoint := by
  constructor
  · rintro ⟨h, -⟩ p hp hpd
    obtain ⟨address, haddress, hrow⟩ := h p hp hpd
    rw [storeStats_of_mem hkeys hp hpd] at hrow
    exact (remoteIp_eq_iff haddress).1 (congrArg Device.remoteIp hrow)
  · refine fun h => ⟨fun p hp hpd => ?_, fun hne => storeStats_of_forall_ne hne⟩
    obtain ⟨address, haddress⟩ := hpeers p hp
    refine ⟨address, haddress, ?_⟩
    rw [storeStats_of_mem hkeys hp hpd, Device.withStats,
      (remoteIp_eq_iff haddress).2 (h p hp hpd)]

/-- **All rows** are right if and only if no peer of a device has an address in brackets. -/
lemma statsStored_iff (hkeys : (peers.map (·.publicKey)).Nodup)
    (hpeers : ∀ p ∈ peers, ∃ address, PrintedEndpoint address p.endpoint) :
    StatsStored peers db { db with devices := db.devices.map (storeStats peers) } ↔
      ∀ d ∈ db.devices, ∀ p ∈ peers, p.publicKey = d.publicKey → ¬ Bracketed p.endpoint := by
  rw [StatsStored, and_iff_left rfl, List.forall₂_map_right_iff, List.forall₂_same]
  exact forall₂_congr fun d _ => polled_storeStats_iff hkeys hpeers

/-- The counters of all peers of devices fit their columns. -/
def StorablePeers (peers : List PeerInfo) (db : Database) : Prop :=
  ∀ d ∈ db.devices, d.publicKey ∈ (peerMap peers).keys → (storeStats peers d).StorableStats

instance (peers : List PeerInfo) (db : Database) : Decidable (StorablePeers peers db) := by
  unfold StorablePeers; infer_instance

lemma storeStats_of_notMem (h : d.publicKey ∉ (peerMap peers).keys) : storeStats peers d = d :=
  storeStats_of_forall_ne fun p hp hpd => h (mem_keys_peerMap.2 ⟨p, hp, hpd⟩)

/-- The rows that the loop leaves out would not change anyway. -/
lemma map_storeStats {devices updated : List Device}
    (h : ∀ d ∈ devices, d.publicKey ∈ (peerMap peers).keys → d ∈ updated) :
    (devices.map fun d => if d ∈ updated then storeStats peers d else d) =
      devices.map (storeStats peers) := by
  refine List.map_congr_left fun d hd => ?_
  by_cases hkey : d.publicKey ∈ (peerMap peers).keys
  · rw [if_pos (h d hd hkey)]
  · rw [storeStats_of_notMem hkey, ite_self]

/-- **What the loop does** if it goes through all devices of the peers. -/
lemma writeStats_eq {devices : List Device}
    (h : ∀ d, d ∈ devices ↔ d ∈ db.devices ∧ d.publicKey ∈ (peerMap peers).keys) :
    writeStats peers devices db = if StorablePeers peers db then
      some { db with devices := db.devices.map (storeStats peers) }
    else none := by
  have hrows := map_storeStats fun d hd hkey => (h d).2 ⟨hd, hkey⟩
  rw [writeStats, hrows]
  refine if_congr ?_ rfl rfl
  simp only [h, and_imp, StorablePeers]

/-- Without peers there is nothing to do. -/
lemma writeStats_nil (db : Database) :
    (if StorablePeers [] db then
      some { db with devices := db.devices.map (storeStats []) }
    else none) = some db := by
  have hsame : db.devices.map (storeStats []) = db.devices := List.map_id _
  have hstorable : StorablePeers [] db := fun d _ hkey => absurd hkey List.not_mem_nil
  rw [if_pos hstorable, hsame]

/-- **What `_update_stats` does** to the rows. -/
theorem updateStats_eq (peers : List PeerInfo) (db : Database) : updateStats peers db =
    if StorablePeers peers db then
      some { db with devices := db.devices.map (storeStats peers) }
    else none := by
  unfold updateStats
  by_cases hnil : peers = []
  · subst hnil
    rw [if_pos rfl, writeStats_nil]
  · rw [if_neg hnil, writeStats_eq fun d => by rw [List.mem_filter, decide_eq_true_eq]]

/-- The commit goes through if and only if the counters fit. -/
lemma storablePeers_iff (hkeys : (peers.map (·.publicKey)).Nodup) :
    StorablePeers peers db ↔ ∀ d ∈ db.devices, ∀ p ∈ peers, p.publicKey = d.publicKey →
      storableBigInt p.rxBytes = true ∧ storableBigInt p.txBytes = true := by
  refine forall₂_congr fun d hd => ?_
  constructor
  · intro h p hp hpd
    have hstore := h (mem_keys_peerMap.2 ⟨p, hp, hpd⟩)
    rw [storeStats_of_mem hkeys hp hpd] at hstore
    exact ⟨hstore.1 _ rfl, hstore.2 _ rfl⟩
  · intro h hkey
    obtain ⟨p, hp, hpd⟩ := mem_keys_peerMap.1 hkey
    rw [storeStats_of_mem hkeys hp hpd]
    obtain ⟨hrx, htx⟩ := h p hp hpd
    exact ⟨fun n hn => Option.some.inj hn ▸ hrx, fun n hn => Option.some.inj hn ▸ htx⟩

/-- **A poll takes everything over** if and only if each peer of a device can be taken over. -/
lemma exists_statsStored_iff (hkeys : (peers.map (·.publicKey)).Nodup)
    (hpeers : ∀ p ∈ peers, ∃ address, PrintedEndpoint address p.endpoint) :
    (∃ db', updateStats peers db = some db' ∧ StatsStored peers db db') ↔
      PollablePeers peers db := by
  rw [updateStats_eq]
  constructor
  · rintro ⟨db', hupdate, hstored⟩
    split at hupdate
    next hstorable =>
      cases hupdate
      intro d hd p hp hpd
      exact ⟨(statsStored_iff hkeys hpeers).1 hstored d hd p hp hpd,
        (storablePeers_iff hkeys).1 hstorable d hd p hp hpd⟩
    next => cases hupdate
  · intro h
    have hstorable : StorablePeers peers db :=
      (storablePeers_iff hkeys).2 fun d hd p hp hpd => (h d hd p hp hpd).2
    refine ⟨_, if_pos hstorable, (statsStored_iff hkeys hpeers).2 fun d hd p hp hpd => ?_⟩
    exact (h d hd p hp hpd).1

end Rows

end WireGui
