import WireGui.Wg.Dump

/-!
# `services/wireguard.py`: what the peers report

`get_peers` reads what `wg show <iface> dump` prints.  `getPeers_dump`: it gives one entry for each
peer, in order and with what was printed.
-/

namespace WireGui

/-- A peer of the interface.  The time is in microseconds since the year 1. -/
structure PeerInfo where
  publicKey : String
  endpoint : Option String := none
  allowedIps : List String := []
  latestHandshake : Option ℕ := none
  rxBytes : ℤ := 0
  txBytes : ℤ := 0
  deriving DecidableEq

/-- `datetime.fromtimestamp(…, UTC)` of a number of seconds; `none` is a `ValueError`. -/
def fromTimestamp (ts : ℤ) : Option ℕ :=
  let seconds := ts + 62135596800
  if 0 ≤ seconds ∧ seconds < 315537897600 then some (seconds.toNat * 1000000) else none

/-- The time of the last handshake, or nothing if there was none. -/
def readHandshake (text : String) : Option (Option ℕ) := do
  let handshakeTs ← if text ≠ "0" then (readInt text).map some else some none
  match handshakeTs.filter (· ≠ 0) with
  | none => return none
  | some ts => (fromTimestamp ts).map some

/-- One line after that of the interface; a short one is skipped, and an error is `none`. -/
def peerOfLine (line : String) : Option (Option PeerInfo) :=
  match (line.toList.splitOn '\t').map String.ofList with
  | pubKey :: _ :: endpoint :: allowedIps :: handshake :: rx :: tx :: _ :: _ => do
    let latestHandshake ← readHandshake handshake
    let rxBytes ← readInt rx
    let txBytes ← readInt tx
    return some {
      publicKey := pubKey
      endpoint := if endpoint = "(none)" then none else some endpoint
      allowedIps :=
        if allowedIps = "(none)" then [] else (allowedIps.toList.splitOn ',').map String.ofList
      latestHandshake := latestHandshake
      rxBytes := rxBytes
      txBytes := txBytes }
  | _ => some none

/-- `get_peers`, from what the command prints.  A command that fails is caught; an error in a line is
not, and `none`. -/
def getPeers (stdout : Except String String) : Option (List PeerInfo) :=
  match stdout with
  | .error _ => some []
  | .ok output =>
    (((splitLines (strip output)).tail).mapM peerOfLine).map List.reduceOption

/-! ### Peers and their lines -/

/-- **What a peer reports**, as `get_peers` is to keep it. -/
def peerInfo (p : Wg.DumpPeer) : PeerInfo where
  publicKey := p.publicKey.text
  endpoint := p.endpoint.map fun e => e.text
  allowedIps := p.allowedIps.map fun ip => ip.text
  latestHandshake := p.latestHandshake.map Wg.Handshake.time
  rxBytes := p.rxBytes.val
  txBytes := p.txBytes.val

section Dump

variable {p : Wg.DumpPeer}

lemma fromTimestamp_seconds (h : Wg.Handshake) : fromTimestamp h.seconds = some h.time := by
  have hlt := h.lt
  have hseconds : (h.seconds + 62135596800 : ℤ).toNat = h.seconds + 62135596800 := by omega
  rw [fromTimestamp, if_pos (by omega), hseconds, Wg.Handshake.time]

/-- **The time of a handshake** is read back; zero stands for none. -/
lemma readHandshake_repr (h : Option Wg.Handshake) :
    readHandshake ((h.map Wg.Handshake.seconds).getD 0).repr = some (h.map Wg.Handshake.time) := by
  cases h with
  | none => decide
  | some h =>
    have hlt := h.lt
    have hpos := h.pos
    have hdigits : h.seconds < 10 ^ 12 := by omega
    have hread : readInt h.seconds.repr = some (h.seconds : ℤ) := by
      apply readInt_repr
      apply hdigits.trans_le
      gcongr <;> decide
    have hne : h.seconds.repr ≠ "0" := by
      intro hzero
      have hread' : readInt "0" = some 0 := by decide
      rw [hzero, hread'] at hread
      have := Option.some.inj hread
      omega
    rw [readHandshake, Option.map_some, Option.getD_some, if_pos hne, hread]
    simp only [Option.map_some, Option.bind_eq_bind, Option.bind_some]
    rw [Option.filter_some, if_pos (by simpa using hpos.ne')]
    simp only [fromTimestamp_seconds, Option.map_some]

lemma endpoint_field : (if ((p.endpoint.map Wg.Endpoint.toWord).getD .none).text = "(none)" then none
    else some ((p.endpoint.map Wg.Endpoint.toWord).getD .none).text) =
      p.endpoint.map fun e => e.text := by
  cases p.endpoint with
  | none => rfl
  | some e => exact if_neg e.text_ne

lemma allowedIps_field (ips : List Wg.AllowedIp) :
    (if (Wg.allowedIpsWord ips).text = "(none)" then []
      else ((Wg.allowedIpsWord ips).text.toList.splitOn ',').map String.ofList) =
      ips.map fun ip => ip.text := by
  by_cases h : ips = []
  · subst h
    rfl
  · rw [if_neg (Wg.allowedIpsWord_ne h), Wg.splitOn_comma h, List.map_map]
    exact List.map_congr_left fun ip _ => String.ofList_toList

/-- **The line of a peer** is read as what it reports. -/
theorem peerOfLine_line (p : Wg.DumpPeer) : peerOfLine p.line = some (some (peerInfo p)) := by
  have hfields : (p.line.toList.splitOn '\t').map String.ofList = p.fields.map Wg.Word.text := by
    have hne : p.fields ≠ [] := List.cons_ne_nil _ _
    rw [Wg.DumpPeer.line, Wg.splitOn_tab hne, List.map_map]
    exact List.map_congr_left fun w _ => String.ofList_toList
  have hhandshake := readHandshake_repr p.latestHandshake
  have hrx : readInt p.rxBytes.val.repr = some (p.rxBytes.val : ℤ) := readInt_repr p.rxBytes.lt
  have htx : readInt p.txBytes.val.repr = some (p.txBytes.val : ℤ) := readInt_repr p.txBytes.lt
  unfold peerOfLine
  rw [hfields]
  simp only [Wg.DumpPeer.fields, List.map_cons, List.map_nil, Wg.Word.nat, hhandshake, hrx, htx,
    endpoint_field, allowedIps_field]
  rfl

/-- **What is printed is read back**: one entry for each peer, in order. -/
theorem getPeers_dump (i : Wg.InterfaceLine) (peers : List Wg.DumpPeer) :
    getPeers (.ok (Wg.dump i peers)) = some (peers.map peerInfo) := by
  have hlines : (splitLines (strip (Wg.dump i peers))).tail = peers.map Wg.DumpPeer.line := by
    have hline : ∀ l ∈ peers.map (·.line.toList), IsLine l := by
      intro l hl
      obtain ⟨p, -, rfl⟩ := List.mem_map.1 hl
      exact Wg.isLine_intercalate (List.cons_ne_nil _ _)
    rw [Wg.dump_eq, splitLines_strip_tail i.noBreak i.notBlank hline, List.map_map]
    exact List.map_congr_left fun p _ => String.ofList_toList
  rw [getPeers, hlines, List.mapM_map_eq_some fun p _ => peerOfLine_line p, Option.map_some,
    List.reduceOption_map_some]

end Dump

end WireGui
