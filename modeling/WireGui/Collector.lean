import WireGui.Lib.Prometheus
import WireGui.Tasks.Stats

/-!
# `collector.py`: frequent polling

A process of its own, which updates the rows as `tasks/stats.py` does and passes metrics on.

* `polledStatistics_iff`: when both leave the right rows; they always leave the same ones.
* `buildPrometheusPayload_iff`: when the metrics can be read back.
-/

namespace WireGui

/-! ### The rows of devices -/

/-- What the metrics of a device are labelled with. -/
structure DeviceLabels where
  deviceName : String
  userEmail : String
  deriving DecidableEq

/-- `select(Device, User.email).join(User)` -/
def Database.devicesWithEmails (db : Database) : List (Device × String) :=
  db.devices.flatMap fun d => (db.users.filter (·.id = d.userId)).map fun u => (d, u.email)

/-- `_update_db`: the labels by public keys; `none` is a commit that the database refuses. -/
def updateDb (peers : List PeerInfo) (db : Database) : Option (Dict String DeviceLabels × Database) :=
  if peers = [] then some (∅, db)
  else
    let rows := db.devicesWithEmails.filter fun row => row.1.publicKey ∈ (peerMap peers).keys
    let labels := (∅ : Dict String DeviceLabels).update
      (rows.map fun row => (row.1.publicKey, ⟨row.1.name, row.2⟩))
    (writeStats peers (rows.map Prod.fst) db).map fun db' => (labels, db')

section Rows

variable {peers : List PeerInfo} {db : Database}

/-- Every device is in the join, as it has a user. -/
lemma mem_devicesWithEmails_iff (husers : ∀ d ∈ db.devices, ∃ u ∈ db.users, u.id = d.userId)
    {d : Device} : d ∈ db.devicesWithEmails.map Prod.fst ↔ d ∈ db.devices := by
  simp only [Database.devicesWithEmails, List.map_flatMap, List.mem_flatMap, List.map_map,
    List.mem_map, List.mem_filter, decide_eq_true_eq]
  constructor
  · rintro ⟨d', hd', u, -, rfl⟩
    exact hd'
  · intro hd
    obtain ⟨u, hu, hid⟩ := husers d hd
    exact ⟨d, hd, u, ⟨hu, hid⟩, rfl⟩

/-- The devices that the loop goes through. -/
lemma mem_rows_iff (husers : ∀ d ∈ db.devices, ∃ u ∈ db.users, u.id = d.userId) (d : Device) :
    d ∈ (db.devicesWithEmails.filter fun row =>
      row.1.publicKey ∈ (peerMap peers).keys).map Prod.fst ↔
        d ∈ db.devices ∧ d.publicKey ∈ (peerMap peers).keys := by
  rw [← mem_devicesWithEmails_iff husers]
  simp only [List.mem_map, List.mem_filter, decide_eq_true_eq]
  constructor
  · rintro ⟨row, ⟨hrow, hkey⟩, rfl⟩
    exact ⟨⟨row, hrow, rfl⟩, hkey⟩
  · rintro ⟨⟨row, hrow, rfl⟩, hkey⟩
    exact ⟨row, ⟨hrow, hkey⟩, rfl⟩

/-- **Both functions** leave the same rows. -/
lemma updateDb_eq_updateStats (husers : ∀ d ∈ db.devices, ∃ u ∈ db.users, u.id = d.userId) :
    (updateDb peers db).map Prod.snd = updateStats peers db := by
  rw [updateStats_eq]
  unfold updateDb
  by_cases hnil : peers = []
  · subst hnil
    rw [if_pos rfl, writeStats_nil]
    rfl
  · rw [if_neg hnil, ← writeStats_eq (mem_rows_iff husers), Option.map_map]
    exact Option.map_id'

/-- **Statistics land in the right rows**, by both functions, if and only if each peer of a device
has no address in brackets and counters that can be stored. -/
theorem polledStatistics_iff (hkeys : (peers.map (·.publicKey)).Nodup)
    (hpeers : ∀ p ∈ peers, ∃ address, PrintedEndpoint address p.endpoint)
    (husers : ∀ d ∈ db.devices, ∃ u ∈ db.users, u.id = d.userId) :
    ((∃ db', updateStats peers db = some db' ∧ StatsStored peers db db') ∧
      (∃ result, updateDb peers db = some result ∧ StatsStored peers db result.2) ∧
        (updateDb peers db).map Prod.snd = updateStats peers db) ↔ PollablePeers peers db := by
  have hsame : (updateDb peers db).map Prod.snd = updateStats peers db :=
    updateDb_eq_updateStats husers
  rw [and_iff_left hsame, ← exists_statsStored_iff hkeys hpeers, ← hsame]
  constructor
  · exact fun h => h.1
  · rintro ⟨db', hupdate, hstored⟩
    obtain ⟨result, hresult, rfl⟩ := Option.map_eq_some_iff.1 hupdate
    exact ⟨⟨result.2, hupdate, hstored⟩, result, hresult, hstored⟩

end Rows

/-! A device whose peer has an IPv4 address, and then an IPv6 one. -/

def grace : User where
  id := ⟨0x9ace, by decide⟩
  email := "grace@example.com"
  passwordHash := none
  role := "unprivileged"
  disabledAt := none
  themePreference := "auto"

def gracePhone : Device where
  id := ⟨0x40e, by decide⟩
  name := "phone"
  publicKey := "pk-phone"
  presharedKey := none
  ipv4 := some "10.3.2.5"
  ipv6 := none
  allowedSubnets := []
  userId := grace.id

def graceDatabase : Database where
  users := [grace]
  devices := [gracePhone]
  rules := []
  mfaMethods := []
  configuration := none

def peerAt (endpoint : String) : PeerInfo where
  publicKey := "pk-phone"
  endpoint := some endpoint
  rxBytes := 123456
  txBytes := 789012

lemma printedEndpoint_peerAt : ∃ address, PrintedEndpoint address (peerAt "[fd00::9]:51820").endpoint :=
  ⟨some "fd00::9", .v6 (by decide) 51820⟩

theorem polledStatistics_iff_phone :
    ∃ db', updateStats [peerAt "1.2.3.4:51820"] graceDatabase = some db' ∧
      StatsStored [peerAt "1.2.3.4:51820"] graceDatabase db' :=
  ((polledStatistics_iff (by decide)
    (by
      rintro p hp
      rw [List.mem_singleton.1 hp]
      exact ⟨some "1.2.3.4", .v4 (by decide) 51820⟩)
    (by decide)).2 (by decide)).1

/-- The address of an IPv6 endpoint is not stored. -/
theorem not_statsStored_ipv6 :
    ([peerAt "[fd00::9]:51820"].map (·.publicKey)).Nodup ∧
      (∀ p ∈ [peerAt "[fd00::9]:51820"], ∃ address, PrintedEndpoint address p.endpoint) ∧
      (∀ d ∈ graceDatabase.devices, ∃ u ∈ graceDatabase.users, u.id = d.userId) ∧
      ¬ ∃ db', updateStats [peerAt "[fd00::9]:51820"] graceDatabase = some db' ∧
        StatsStored [peerAt "[fd00::9]:51820"] graceDatabase db' := by
  have hkeys : ([peerAt "[fd00::9]:51820"].map (·.publicKey)).Nodup := by decide
  have hpeers : ∀ p ∈ [peerAt "[fd00::9]:51820"], ∃ address, PrintedEndpoint address p.endpoint := by
    intro p hp
    rw [List.mem_singleton.1 hp]
    exact printedEndpoint_peerAt
  refine ⟨hkeys, hpeers, by decide, ?_⟩
  rw [exists_statsStored_iff hkeys hpeers]
  decide

/-! ### Metrics -/

/-- `int(peer.latest_handshake.timestamp()) if peer.latest_handshake else 0` -/
def PeerInfo.handshakeTs (p : PeerInfo) : ℤ :=
  p.latestHandshake.elim 0 fun t => ((t : ℤ) - 62135596800000000).tdiv 1000000

/-- `1 if (handshake_ts and (time.time() - handshake_ts) < 180) else 0`, at a time in microseconds. -/
def PeerInfo.connected (now : ℤ) (p : PeerInfo) : ℤ :=
  if p.handshakeTs ≠ 0 ∧ now - p.handshakeTs * 1000000 < 180 * 1000000 then 1 else 0

/-- `peer.public_key[:16]` -/
def PeerInfo.shortKey (p : PeerInfo) : String := String.ofList (p.publicKey.toList.take 16)

def metricTag (p : PeerInfo) (info : DeviceLabels) : String :=
  "public_key=\"" ++ p.shortKey ++ "\",device_name=\"" ++ info.deviceName ++ "\",user_email=\"" ++
    info.userEmail ++ "\""

def metricLine (name tag : String) (value nowMs : ℤ) : String :=
  name ++ "\x7b" ++ tag ++ "\x7d " ++ toString value ++ " " ++ toString nowMs

def peerLines (nowMs now : ℤ) (p : PeerInfo) (info : DeviceLabels) : List String :=
  [metricLine "wiregui_peer_rx_bytes" (metricTag p info) p.rxBytes nowMs,
    metricLine "wiregui_peer_tx_bytes" (metricTag p info) p.txBytes nowMs,
    metricLine "wiregui_peer_latest_handshake_seconds" (metricTag p info) p.handshakeTs nowMs,
    metricLine "wiregui_peer_connected" (metricTag p info) (p.connected now) nowMs]

section Payload

variable (time : ℕ → ℤ) (labels : Dict String DeviceLabels)

/-- `int(time.time() * 1000)`.  The clock is read at the start and then for each peer, in
microseconds. -/
def nowMs : ℤ := (time 0).tdiv 1000

/-- One peer: the lines so far, and how many are connected. -/
def addPeerLines (acc : List String × ℕ) (peer : PeerInfo × ℕ) : List String × ℕ :=
  match labels.get peer.1.publicKey with
  | none => acc
  | some info =>
    (acc.1 ++ peerLines (nowMs time) (time (peer.2 + 1)) peer.1 info,
      if peer.1.connected (time (peer.2 + 1)) = 1 then acc.2 + 1 else acc.2)

/-- `_build_prometheus_payload` -/
def buildPrometheusPayload (peers : List PeerInfo) : String :=
  let (lines, activeCount) := peers.zipIdx.foldl (addPeerLines time labels) ([], 0)
  "\n".intercalate
    (lines ++ ["wiregui_peers_total " ++ toString activeCount ++ " " ++ toString (nowMs time)]) ++ "\n"

/-! ### What the metrics are to say -/

/-- A sample about a peer. -/
def peerSample (name : String) (p : PeerInfo) (info : DeviceLabels) (value nowMs : ℤ) :
    Prometheus.Sample where
  name := name
  labels := [("public_key", p.shortKey), ("device_name", info.deviceName),
    ("user_email", info.userEmail)]
  value := .finite value
  timestamp := some nowMs

/-- The four samples about a peer, if it has labels. -/
def samplesOf (peer : PeerInfo × ℕ) : List Prometheus.Sample :=
  (labels.get peer.1.publicKey).elim [] fun info =>
    [peerSample "wiregui_peer_rx_bytes" peer.1 info peer.1.rxBytes (nowMs time),
      peerSample "wiregui_peer_tx_bytes" peer.1 info peer.1.txBytes (nowMs time),
      peerSample "wiregui_peer_latest_handshake_seconds" peer.1 info peer.1.handshakeTs (nowMs time),
      peerSample "wiregui_peer_connected" peer.1 info (peer.1.connected (time (peer.2 + 1)))
        (nowMs time)]

/-- **The samples about the peers.** -/
def peerSamples (peers : List PeerInfo) : List Prometheus.Sample :=
  peers.zipIdx.flatMap (samplesOf time labels)

/-- The sample says that a peer is connected. -/
def IsConnected (s : Prometheus.Sample) : Prop :=
  s.name = "wiregui_peer_connected" ∧ s.value = .finite 1

instance (s : Prometheus.Sample) : Decidable (IsConnected s) := by
  unfold IsConnected; infer_instance

/-- **The total**: how many samples say that a peer is connected. -/
def totalSample (samples : List Prometheus.Sample) : Prometheus.Sample where
  name := "wiregui_peers_total"
  labels := []
  value := .finite (samples.filter fun s => IsConnected s).length
  timestamp := some (nowMs time)

/-- No label of the peer needs an escape. -/
def PlainLabels (p : PeerInfo) (info : DeviceLabels) : Prop :=
  Prometheus.Plain p.shortKey.toList ∧ Prometheus.Plain info.deviceName.toList ∧
    Prometheus.Plain info.userEmail.toList

instance (p : PeerInfo) (info : DeviceLabels) : Decidable (PlainLabels p info) := by
  unfold PlainLabels; infer_instance

end Payload

/-! ### The payload as a text of samples -/

/-- A line about a peer, as a reading. -/
def peerReading (name : String) (hname : Prometheus.IsName Prometheus.isMetricChar name.toList)
    (p : PeerInfo) (info : DeviceLabels) (value nowMs : ℤ) : Prometheus.Reading where
  name := name
  labels := [("public_key", p.shortKey), ("device_name", info.deviceName),
    ("user_email", info.userEmail)]
  value := value
  timestamp := nowMs
  isName := hname
  isLabelName := by
    simp only [List.forall_mem_cons]
    decide

def readingsOf (time : ℕ → ℤ) (labels : Dict String DeviceLabels) (peer : PeerInfo × ℕ) :
    List Prometheus.Reading :=
  (labels.get peer.1.publicKey).elim [] fun info =>
    [peerReading "wiregui_peer_rx_bytes" (by decide) peer.1 info peer.1.rxBytes (nowMs time),
      peerReading "wiregui_peer_tx_bytes" (by decide) peer.1 info peer.1.txBytes (nowMs time),
      peerReading "wiregui_peer_latest_handshake_seconds" (by decide) peer.1 info
        peer.1.handshakeTs (nowMs time),
      peerReading "wiregui_peer_connected" (by decide) peer.1 info
        (peer.1.connected (time (peer.2 + 1))) (nowMs time)]

def totalReading (time : ℕ → ℤ) (activeCount : ℕ) : Prometheus.Reading where
  name := "wiregui_peers_total"
  labels := []
  value := activeCount
  timestamp := nowMs time
  isName := by decide
  isLabelName l hl := absurd hl List.not_mem_nil

section Payload

variable {time : ℕ → ℤ} {labels : Dict String DeviceLabels} {peers : List PeerInfo}

lemma metricLine_eq {name : String} (hname : Prometheus.IsName Prometheus.isMetricChar name.toList)
    (p : PeerInfo) (info : DeviceLabels) (value nowMs : ℤ) :
    metricLine name (metricTag p info) value nowMs =
      String.ofList (peerReading name hname p info value nowMs).line := by
  rw [← String.toList_inj, String.toList_ofList]
  delta metricLine metricTag
  simp [peerReading, Prometheus.Reading.line, Prometheus.Reading.afterName,
    Prometheus.Reading.tail, Prometheus.labelsText, Prometheus.labelText]

lemma map_sample_readingsOf (peer : PeerInfo × ℕ) :
    (readingsOf time labels peer).map Prometheus.Reading.sample = samplesOf time labels peer := by
  unfold readingsOf samplesOf
  cases labels.get peer.1.publicKey with
  | none => rfl
  | some info => rfl

/-- The peer counts if its sample says so. -/
lemma isConnected_peerSample_iff {p : PeerInfo} {info : DeviceLabels} {value nowMs : ℤ} :
    IsConnected (peerSample "wiregui_peer_connected" p info value nowMs) ↔ value = 1 := by
  rw [IsConnected, peerSample, and_iff_right rfl, Prometheus.Number.finite.injEq]
  exact Int.cast_eq_one

/-- **One peer** adds its lines, and to the count if it is connected. -/
lemma addPeerLines_eq (acc : List String × ℕ) (peer : PeerInfo × ℕ) :
    addPeerLines time labels acc peer =
      (acc.1 ++ (readingsOf time labels peer).map fun r => String.ofList r.line,
        acc.2 + ((samplesOf time labels peer).filter fun s => IsConnected s).length) := by
  unfold addPeerLines readingsOf samplesOf
  cases labels.get peer.1.publicKey with
  | none => simp
  | some info =>
    have hother : ∀ (name : String) (value : ℤ), name ≠ "wiregui_peer_connected" →
        ¬ IsConnected (peerSample name peer.1 info value (nowMs time)) :=
      fun name value hne h => hne h.1
    simp only [Option.elim_some, peerLines, List.map_cons, List.map_nil]
    refine Prod.ext ?_ ?_
    · simp only [← metricLine_eq]
    · by_cases hconnected : peer.1.connected (time (peer.2 + 1)) = 1
      · simp [isConnected_peerSample_iff, hother, hconnected]
      · simp [isConnected_peerSample_iff, hother, hconnected]

/-- **All peers**, one after the other. -/
lemma foldl_addPeerLines (acc : List String × ℕ) (zs : List (PeerInfo × ℕ)) :
    zs.foldl (addPeerLines time labels) acc =
      (acc.1 ++ (zs.flatMap (readingsOf time labels)).map fun r => String.ofList r.line,
        acc.2 + ((zs.flatMap (samplesOf time labels)).filter fun s => IsConnected s).length) := by
  induction zs generalizing acc with
  | nil => simp
  | cons z zs ih =>
    rw [List.foldl_cons, addPeerLines_eq, ih, List.flatMap_cons, List.map_append, List.flatMap_cons,
      List.filter_append, List.length_append, List.append_assoc, Nat.add_assoc]

/-- The line of the total. -/
lemma totalLine_eq (activeCount : ℕ) :
    "wiregui_peers_total " ++ toString activeCount ++ " " ++ toString (nowMs time) =
      String.ofList (totalReading time activeCount).line := by
  have hcount : toString activeCount = toString (activeCount : ℤ) := rfl
  rw [← String.toList_inj, String.toList_ofList, hcount]
  simp [totalReading, Prometheus.Reading.line, Prometheus.Reading.afterName, Prometheus.Reading.tail]

/-- **The payload is the text of its samples**, printed as they are. -/
lemma buildPrometheusPayload_eq : buildPrometheusPayload time labels peers =
    Prometheus.text (peers.zipIdx.flatMap (readingsOf time labels) ++ [totalReading time
      ((peerSamples time labels peers).filter fun s => IsConnected s).length]) := by
  rw [buildPrometheusPayload, foldl_addPeerLines]
  simp only [List.nil_append, Nat.zero_add, totalLine_eq]
  rw [← String.toList_inj, toList_intercalate_newline (by simp), Prometheus.text, String.toList_ofList]
  simp [List.flatMap_map, peerSamples]

lemma map_sample_eq : (peers.zipIdx.flatMap (readingsOf time labels) ++ [totalReading time
      ((peerSamples time labels peers).filter fun s => IsConnected s).length]).map
        Prometheus.Reading.sample =
    peerSamples time labels peers ++ [totalSample time (peerSamples time labels peers)] := by
  rw [List.map_append, List.map_flatMap, List.map_singleton]
  simp only [map_sample_readingsOf]
  rfl

lemma plainLabels_peerReading_iff {name : String}
    {hname : Prometheus.IsName Prometheus.isMetricChar name.toList} {p : PeerInfo}
    {info : DeviceLabels} {value nowMs : ℤ} :
    (peerReading name hname p info value nowMs).PlainLabels ↔ PlainLabels p info := by
  simp [Prometheus.Reading.PlainLabels, peerReading, PlainLabels]

lemma forall_readingsOf_iff {peer : PeerInfo × ℕ} :
    (∀ r ∈ readingsOf time labels peer, r.PlainLabels) ↔
      ∀ info ∈ labels.get peer.1.publicKey, PlainLabels peer.1 info := by
  unfold readingsOf
  cases labels.get peer.1.publicKey with
  | none => simp
  | some info => simp [plainLabels_peerReading_iff]

/-- The labels of all lines are those of the peers. -/
lemma forall_plainLabels_iff {activeCount : ℕ} :
    (∀ r ∈ peers.zipIdx.flatMap (readingsOf time labels) ++ [totalReading time activeCount],
      r.PlainLabels) ↔
        ∀ p ∈ peers, ∀ info ∈ labels.get p.publicKey, PlainLabels p info := by
  have htotal : (totalReading time activeCount).PlainLabels := fun l hl =>
    absurd hl List.not_mem_nil
  rw [List.forall_mem_append, List.forall_mem_singleton, and_iff_left htotal, List.forall_mem_flatMap]
  simp only [forall_readingsOf_iff]
  have hpeers := List.forall_mem_map (f := Prod.fst) (l := peers.zipIdx)
    (P := fun p => ∀ info ∈ labels.get p.publicKey, PlainLabels p info)
  rw [List.zipIdx_map_fst] at hpeers
  exact hpeers.symm

/-- **The metrics can be read back** if and only if no key, name or address among their labels needs
an escape. -/
theorem buildPrometheusPayload_iff (time : ℕ → ℤ) (labels : Dict String DeviceLabels)
    (peers : List PeerInfo) :
    Prometheus.parse (buildPrometheusPayload time labels peers) =
        some (peerSamples time labels peers ++
          [totalSample time (peerSamples time labels peers)]) ↔
      ∀ p ∈ peers, ∀ info ∈ labels.get p.publicKey, PlainLabels p info := by
  rw [buildPrometheusPayload_eq, ← map_sample_eq, Prometheus.parse_text_iff]
  exact forall_plainLabels_iff

end Payload

/-! A device whose name has a quote. -/

def quotedLabels : Dict String DeviceLabels :=
  (∅ : Dict String DeviceLabels).insert "pk-phone" ⟨"my \"phone\"", grace.email⟩

/-- The metrics of such a device cannot be read back. -/
theorem buildPrometheusPayload_quoted :
    ¬ Prometheus.parse (buildPrometheusPayload (fun _ => 0) quotedLabels [peerAt "1.2.3.4:51820"]) =
      some (peerSamples (fun _ => 0) quotedLabels [peerAt "1.2.3.4:51820"] ++
        [totalSample (fun _ => 0)
          (peerSamples (fun _ => 0) quotedLabels [peerAt "1.2.3.4:51820"])]) := by
  rw [buildPrometheusPayload_eq, ← map_sample_eq, Prometheus.parse_text_iff, forall_plainLabels_iff]
  decide

end WireGui
