import WireGui.Services.Frame
import WireGui.Nft.Eval

/-!
# What a rule says and what its statement matches

`RuleEntry.Covers` is what the fields of a rule say of a packet, each by itself; a field left out
says nothing.  `_build_rule_expr` writes the ports only for a rule that has a port type as well, so
that the statement of a rule with one of the two matches more than the rule says.
-/

namespace Nft

def Transport.proto : Transport → Option Proto
  | .tcp _ => some .tcp
  | .udp _ => some .udp
  | .other _ => none

/-- The destination port, whatever the protocol. -/
def Transport.port : Transport → Option ℕ
  | .tcp d | .udp d => some d
  | .other _ => none

lemma dport_eq_some_iff {t : Transport} {proto : Proto} {d : ℕ} :
    t.dport proto = some d ↔ t.proto = some proto ∧ t.port = some d := by
  cases t <;> cases proto <;> simp [Transport.dport, Transport.proto, Transport.port]

end Nft

namespace WireGui

/-- The domain of a rule: its destination is a network, its action `accept` or `drop`; its port type
is `tcp`, `udp` or left out, its port range a port, a range or left out. -/
structure RuleEntry.Proper (r : RuleEntry) : Prop where
  destination : (Ip.readNet r.destination).isSome
  action : (readAction r.action).isSome
  portType : ∀ s ∈ r.portType, (readProto s).isSome
  portRange : ∀ s ∈ r.portRange, (Nft.readPorts s).isSome

/-- **What the rule says** of a packet. -/
structure RuleEntry.Covers (r : RuleEntry) (p : Nft.Packet) : Prop where
  destination : ∃ n ∈ Ip.readNet r.destination, p.dst ∈ n
  portType : ∀ s ∈ r.portType, ∃ proto ∈ readProto s, p.transport.proto = some proto
  portRange : ∀ s ∈ r.portRange, ∃ ports ∈ Nft.readPorts s, ∃ d ∈ p.transport.port,
    ports.1 ≤ d ∧ d ≤ ports.2

/-- nft reads the line of the rule as one rule of the chain, and that rule matches the packet. -/
def RuleEntry.Matches (nft : FrontEnd) (c : String) (r : RuleEntry) (p : Nft.Packet) : Prop :=
  ∃ rule, nft.single c (r.line c) = some rule ∧ rule.Hits (Nft.sat nft.other) p

section Proper

variable {r : RuleEntry}

lemma truthy_eq_self {o : Option String} (h : ∀ s ∈ o, s ≠ "") : truthy o = o := by
  cases o with
  | none => rfl
  | some s =>
    have hs : s ≠ "" := h s rfl
    simp [truthy, hs]

/-- The ports in the statement of a proper rule. -/
lemma RuleEntry.Proper.portMatch (h : r.Proper) :
    ∃ ports, portMatch r.portType r.portRange = some ports ∧
      ∀ (other : String → Nft.Packet → Bool) (p : Nft.Packet),
        (∀ m ∈ ports, Nft.sat other m p = true) ↔
          ∀ s ∈ r.portType, ∀ s' ∈ r.portRange, ∃ proto ∈ readProto s,
            ∃ q ∈ Nft.readPorts s', ∃ d ∈ p.transport.dport proto, q.1 ≤ d ∧ d ≤ q.2 := by
  have hpt : ∀ s ∈ r.portType, s ≠ "" := by
    rintro s hs rfl
    cases h.portType _ hs
  have hpr : ∀ s ∈ r.portRange, s ≠ "" := by
    rintro s hs rfl
    exact absurd (h.portRange _ hs) (by decide)
  unfold WireGui.portMatch
  rw [truthy_eq_self hpt, truthy_eq_self hpr]
  cases ht : r.portType with
  | none => exact ⟨[], rfl, fun other p => by simp⟩
  | some s =>
    cases hr : r.portRange with
    | none => exact ⟨[], rfl, fun other p => by simp⟩
    | some s' =>
      obtain ⟨proto, hproto⟩ := Option.isSome_iff_exists.1 (h.portType s ht)
      obtain ⟨q, hq⟩ := Option.isSome_iff_exists.1 (h.portRange s' hr)
      refine ⟨[.dport proto q.1 q.2], by simp [hproto, hq], fun other p => ?_⟩
      simp only [List.forall_mem_singleton, Nft.sat, decide_eq_true_eq, forall_eq',
        Option.mem_def, hproto, hq, Option.some.injEq, exists_eq_left']

/-- **What the statement matches**: the destination, and for a rule with both a protocol and ports
these. -/
theorem matches_iff (nft : FrontEnd) (u : Uuid) (h : r.Proper) (p : Nft.Packet) :
    r.Matches nft (chainOf u) p ↔ (∃ n ∈ Ip.readNet r.destination, p.dst ∈ n) ∧
      ∀ s ∈ r.portType, ∀ s' ∈ r.portRange, ∃ proto ∈ readProto s,
        ∃ q ∈ Nft.readPorts s', ∃ d ∈ p.transport.dport proto, q.1 ≤ d ∧ d ≤ q.2 := by
  obtain ⟨n, hn⟩ := Option.isSome_iff_exists.1 h.destination
  obtain ⟨v, hv⟩ := Option.isSome_iff_exists.1 h.action
  obtain ⟨ports, hports, hsat⟩ := h.portMatch
  have hmeaning : r.meaning = some ⟨.daddr false n :: ports, v⟩ :=
    meaning_eq_some_iff.2 ⟨n, ports, v, hn, hports, hv, rfl⟩
  have hread := (Nft.single_eq_some_iff nft).2 (read_ruleLine nft (isName_chainOf u) hmeaning)
  have hhits : r.Matches nft (chainOf u) p ↔
      (⟨.daddr false n :: ports, v⟩ : NftRule).Hits (Nft.sat nft.other) p := by
    unfold RuleEntry.Matches
    rw [hread]
    simp only [Option.some.injEq, exists_eq_left']
  rw [hhits, ← hsat nft.other p, hn]
  simp [Nft.Rule.Hits]

/-- A statement never matches less than the rule says. -/
theorem RuleEntry.Covers.matches (nft : FrontEnd) (u : Uuid) (h : r.Proper) {p : Nft.Packet}
    (hp : r.Covers p) : r.Matches nft (chainOf u) p := by
  refine (matches_iff nft u h p).2 ⟨hp.destination, fun s hs s' hs' => ?_⟩
  obtain ⟨proto, hproto, htrans⟩ := hp.portType s hs
  obtain ⟨q, hq, d, hd, hle⟩ := hp.portRange s' hs'
  exact ⟨proto, hproto, q, hq, d, Nft.dport_eq_some_iff.2 ⟨htrans, hd⟩, hle⟩

/-- A packet to the network that is neither TCP nor UDP. -/
def portless (n : Ip.Net) : Nft.Packet where
  src := n.addr
  dst := n.addr
  transport := .other 1
  oif := ""

/-- **The statement matches what the rule says** exactly if the rule has both a protocol and ports,
or neither. -/
theorem matches_iff_covers (nft : FrontEnd) (u : Uuid) (h : r.Proper) :
    (∀ p, r.Matches nft (chainOf u) p ↔ r.Covers p) ↔ (r.portType.isSome ↔ r.portRange.isSome) := by
  constructor
  · intro hall
    obtain ⟨n, hn⟩ := Option.isSome_iff_exists.1 h.destination
    have hdst : ∃ m ∈ Ip.readNet r.destination, (portless n).dst ∈ m :=
      ⟨n, hn, Ip.mem_iff.2 ⟨rfl, rfl⟩⟩
    cases ht : r.portType with
    | none =>
      cases hr : r.portRange with
      | none => simp
      | some s' =>
        -- the ports are not looked at
        have hm : r.Matches nft (chainOf u) (portless n) :=
          (matches_iff nft u h _).2 ⟨hdst, by simp [ht]⟩
        obtain ⟨-, -, d, hd, -⟩ := ((hall _).1 hm).portRange s' hr
        cases hd
    | some s =>
      cases hr : r.portRange with
      | some s' => simp
      | none =>
        -- the protocol is not looked at
        have hm : r.Matches nft (chainOf u) (portless n) :=
          (matches_iff nft u h _).2 ⟨hdst, by simp [hr]⟩
        obtain ⟨proto, -, hp⟩ := ((hall _).1 hm).portType s ht
        cases hp
  · intro hboth p
    refine ⟨fun hm => ?_, RuleEntry.Covers.matches nft u h⟩
    obtain ⟨hdst, hports⟩ := (matches_iff nft u h p).1 hm
    refine ⟨hdst, fun s hs => ?_, fun s' hs' => ?_⟩
    · obtain ⟨s', hs'⟩ := Option.isSome_iff_exists.1 (hboth.1 (Option.isSome_iff_exists.2 ⟨s, hs⟩))
      obtain ⟨proto, hproto, q, -, d, hd, -⟩ := hports s hs s' hs'
      exact ⟨proto, hproto, (Nft.dport_eq_some_iff.1 hd).1⟩
    · obtain ⟨s, hs⟩ := Option.isSome_iff_exists.1 (hboth.2 (Option.isSome_iff_exists.2 ⟨s', hs'⟩))
      obtain ⟨proto, -, q, hq, d, hd, hle⟩ := hports s hs s' hs'
      exact ⟨q, hq, d, (Nft.dport_eq_some_iff.1 hd).2, hle⟩

end Proper

/-! A rule for all of TCP to a host, and a UDP packet to the host. -/

def tcpOnly : RuleEntry where
  destination := "10.3.2.9/32"
  action := "accept"
  portType := some "tcp"
  portRange := none
  priority := some 10

def datagram : Nft.Packet where
  src := laptopAddr
  dst := ⟨.v4, 0x0a030209, by decide⟩
  transport := .udp 53
  oif := "wg0"

lemma tcpOnly_proper : tcpOnly.Proper := by
  constructor <;> simp only [tcpOnly, Option.mem_def, reduceCtorEq, false_implies, implies_true,
    Option.some.injEq, forall_eq'] <;> decide

/-- The statement of the rule for TCP accepts UDP. -/
theorem tcpOnly_matches_udp :
    tcpOnly.Proper ∧ tcpOnly.Matches (.fragment tableName) (chainOf alice) datagram ∧
      ¬ tcpOnly.Covers datagram := by
  refine ⟨tcpOnly_proper, (matches_iff _ _ tcpOnly_proper _).2 ⟨by decide, by simp [tcpOnly]⟩, ?_⟩
  intro h
  obtain ⟨proto, hproto, hp⟩ := h.portType "tcp" rfl
  cases hp
  cases hproto

/-- A rule with both. -/
def webPorts : RuleEntry where
  destination := "10.3.2.9/32"
  action := "accept"
  portType := some "tcp"
  portRange := some "80-443"
  priority := some 10

lemma webPorts_proper : webPorts.Proper := by
  constructor <;> simp only [webPorts, Option.mem_def, Option.some.injEq, forall_eq'] <;> decide

theorem matches_iff_covers_web :
    webPorts.Proper ∧
      ∀ p, webPorts.Matches (.fragment tableName) (chainOf alice) p ↔ webPorts.Covers p :=
  ⟨webPorts_proper, (matches_iff_covers _ _ webPorts_proper).2 (by decide)⟩

end WireGui
