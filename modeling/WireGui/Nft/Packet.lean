import WireGui.Lib.List
import WireGui.Ip.Address

/-!
# Packets and header matches
-/

namespace Nft

/-- The transport header of a packet, as far as port matches look at it. -/
inductive Transport where
  | tcp (dport : ℕ) | udp (dport : ℕ) | other (proto : ℕ)
  deriving DecidableEq, Repr

structure Packet where
  src : Ip.Addr
  dst : Ip.Addr
  transport : Transport
  oif : String
  deriving DecidableEq

inductive Proto where
  | tcp | udp
  deriving DecidableEq, Repr

/-- The destination port of a packet of the protocol. -/
def Transport.dport : Transport → Proto → Option ℕ
  | .tcp d, .tcp | .udp d, .udp => some d
  | _, _ => none

/-- A match of a rule; `neg` is the `!=` of nft.  Matches of other kinds are kept as text. -/
inductive Match where
  | saddr (neg : Bool) (n : Ip.Net)
  | daddr (neg : Bool) (n : Ip.Net)
  | dport (proto : Proto) (lo hi : ℕ)
  | oifname (neg : Bool) (name : String)
  | other (text : String)
  deriving DecidableEq

/-- The network protocol that a match is on. -/
def Match.family : Match → Option Ip.Family
  | .saddr _ n | .daddr _ n => some n.fam
  | _ => none

/-- The transport protocol that a match is on. -/
def Match.proto : Match → Option Proto
  | .dport proto _ _ => some proto
  | _ => none

/-- Two matches that can stand in one rule: they are on no two network protocols and on no two
transport protocols. -/
def Match.Compatible (m m' : Match) : Prop :=
  (∀ f ∈ m.family, ∀ f' ∈ m'.family, f = f') ∧
    ∀ proto ∈ m.proto, ∀ proto' ∈ m'.proto, proto = proto'

instance (m m' : Match) : Decidable (m.Compatible m') := by unfold Match.Compatible; infer_instance

instance : Std.Symm Match.Compatible where
  symm _ _ h :=
    ⟨fun f hf f' hf' => (h.1 f' hf' f hf).symm, fun p hp p' hp' => (h.2 p' hp' p hp).symm⟩

lemma Match.Compatible.refl (m : Match) : m.Compatible m :=
  ⟨fun _ hf _ hf' => Option.mem_unique hf hf', fun _ hp _ hp' => Option.mem_unique hp hp'⟩

/-- A match against a packet; `other` is what nft makes of the matches kept as text.  An address
match, negated or not, is only passed by packets of its family. -/
def sat (other : String → Packet → Bool) : Match → Packet → Bool
  | .saddr neg n, p => p.src.fam = n.fam ∧ (p.src ∈ n) ≠ (neg = true)
  | .daddr neg n, p => p.dst.fam = n.fam ∧ (p.dst ∈ n) ≠ (neg = true)
  | .dport proto lo hi, p => ∃ d ∈ p.transport.dport proto, lo ≤ d ∧ d ≤ hi
  | .oifname neg name, p => (p.oif = name) ≠ (neg = true)
  | .other text, p => other text p

variable {other : String → Packet → Bool} {p : Packet} {n : Ip.Net}

@[simp] lemma sat_saddr : sat other (.saddr false n) p = true ↔ p.src ∈ n := by
  simpa [sat] using fun h : p.src ∈ n => h.1

@[simp] lemma sat_daddr : sat other (.daddr false n) p = true ↔ p.dst ∈ n := by
  simpa [sat] using fun h : p.dst ∈ n => h.1

end Nft
