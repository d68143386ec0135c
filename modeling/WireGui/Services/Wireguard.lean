import WireGui.Services.Firewall
import WireGui.Wg.Interface

/-!
# `services/wireguard.py`: the peers

`add_peer` and `remove_peer` run `wg set`, which works on the interface of the settings.  A command
that `wg` refuses raises an error; all of its callers log it.
-/

namespace WireGui

/-- The peers of the interface, by public key. -/
abbrev Peers := Wg.Interface String Ip.Net String

/-- How `wg` reads a list of allowed IPs. -/
def readAllowedIps (text : String) : Option (List Ip.Net) :=
  if text = "" then some []
  else (text.toList.splitOn ',').mapM fun word => Ip.readNet (String.ofList word)

/-- `add_peer`: the peers afterwards, or the error it raises. -/
def addPeer (publicKey : String) (allowedIps : List String) (presharedKey : Option String)
    (w : Peers) : Except String Peers :=
  let text := ",".intercalate allowedIps
  match readAllowedIps text with
  | none => .error s!"Unable to parse IP address: {text}"
  | some nets => .ok (w.set publicKey nets (truthy presharedKey))

/-- `remove_peer`. -/
def removePeer (publicKey : String) (w : Peers) : Peers := w.remove publicKey

/-- An error that is logged. -/
def orKeepPeers (w : Peers) : Except String Peers → Peers
  | .ok w' => w'
  | .error _ => w

/-- `_device_allowed_ips`: the tunnel addresses of a device, then the subnets it relays. -/
def Device.deviceAllowedIps (d : Device) : List String :=
  ((truthy d.ipv4).toList.map fun a => s!"{a}/32") ++
    ((truthy d.ipv6).toList.map fun a => s!"{a}/128") ++ d.allowedSubnets

/-- The prefixes of a device, if they can be read. -/
def Device.nets (d : Device) : Option (List Ip.Net) := d.deviceAllowedIps.mapM Ip.readNet

/-- `add_peer` for a device, in the handlers as in `reconcile`. -/
def addDevice (d : Device) (w : Peers) : Peers :=
  orKeepPeers w (addPeer d.publicKey d.deviceAllowedIps d.presharedKey w)

/-- A device has the prefix among its allowed IPs. -/
def Device.Lists (d : Device) (n : Ip.Net) : Prop := ∃ nets ∈ d.nets, n ∈ nets

/-- What `wg` is told to add a device. -/
def Device.addCmd (d : Device) : Wg.Cmd String Ip.Net String :=
  .set d.publicKey (d.nets.getD []) (truthy d.presharedKey)

lemma comma_notMem_of_readNet {s : String} {n : Ip.Net} (h : Ip.readNet s = some n) :
    ',' ∉ s.toList := by
  intro hc
  rcases Ip.isAddrChar_of_parseNet (Ip.readNet_eq_some_iff.1 h) hc with hc | hc
  · exact absurd hc (by decide)
  · cases hc

/-- What is joined by commas is read as the single prefixes. -/
theorem readAllowedIps_join {ips : List String} {nets : List Ip.Net}
    (h : ips.mapM Ip.readNet = some nets) : readAllowedIps (",".intercalate ips) = some nets := by
  cases ips with
  | nil =>
    obtain rfl := Option.some.inj h
    rfl
  | cons s ips =>
    have hcomma : ∀ l ∈ (s :: ips).map String.toList, ',' ∉ l := by
      intro l hl
      obtain ⟨t, ht, rfl⟩ := List.mem_map.1 hl
      obtain ⟨n, -, hn⟩ := List.exists_of_mapM h ht
      exact comma_notMem_of_readNet hn
    have hsplit : (",".intercalate (s :: ips)).toList.splitOn ',' =
        (s :: ips).map String.toList := by
      rw [String.toList_intercalate]
      exact List.splitOn_intercalate ',' hcomma (by simp)
    have hne : ",".intercalate (s :: ips) ≠ "" := by
      intro he
      obtain ⟨n, -, hn⟩ := List.exists_of_mapM h List.mem_cons_self
      have hs := Ip.parseNet_ne_empty (Ip.readNet_eq_some_iff.1 hn)
      rw [he] at hsplit
      exact hs (List.head_eq_of_cons_eq hsplit).symm
    rw [readAllowedIps, if_neg hne, hsplit, List.mapM_map]
    simpa [Function.comp_def] using h

/-- **A device whose prefixes can be read** becomes a peer with just these. -/
theorem addDevice_eq_apply {d : Device} (hd : ∃ nets, d.nets = some nets) (w : Peers) :
    addDevice d w = d.addCmd.apply w := by
  obtain ⟨nets, hn⟩ := hd
  unfold addDevice addPeer Device.addCmd
  rw [hn]
  simp only [readAllowedIps_join hn]
  rfl

lemma nets_addCmd {d : Device} {n : Ip.Net} : n ∈ d.addCmd.nets ↔ d.Lists n := by
  unfold Device.addCmd Wg.Cmd.nets Device.Lists
  cases d.nets <;> simp

end WireGui
