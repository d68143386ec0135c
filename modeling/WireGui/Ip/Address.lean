import Mathlib.Data.Nat.Basic
import Mathlib.Tactic.Basic
import Mathlib.Tactic.Ring

/-!
# Addresses and networks

IPv4 and IPv6 addresses as numbers below `2 ^ 32` and `2 ^ 128`, and networks as a base address
with its host bits cleared and a prefix length.  An address of one family lies in no network of the
other.
-/

namespace Ip

inductive Family where
  | v4 | v6
  deriving DecidableEq, Repr

/-- The number of bits of an address. -/
def Family.bits : Family → ℕ
  | .v4 => 32
  | .v6 => 128

structure Addr where
  fam : Family
  val : ℕ
  lt : val < 2 ^ fam.bits
  deriving DecidableEq

/-- A network: the host bits of its base are zero. -/
structure Net where
  fam : Family
  base : ℕ
  len : ℕ
  lt : base < 2 ^ fam.bits
  len_le : len ≤ fam.bits
  masked : 2 ^ (fam.bits - len) ∣ base
  deriving DecidableEq

/-- The network of prefix length `len` around an address. -/
def Addr.net (a : Addr) (len : ℕ) (h : len ≤ a.fam.bits) : Net where
  fam := a.fam
  base := a.val / 2 ^ (a.fam.bits - len) * 2 ^ (a.fam.bits - len)
  len := len
  lt := lt_of_le_of_lt (Nat.div_mul_le_self _ _) a.lt
  len_le := h
  masked := Nat.dvd_mul_left _ _

/-- The network of the one address. -/
def Addr.host (a : Addr) : Net := a.net a.fam.bits le_rfl

/-- The address agrees with the base on the prefix. -/
def Net.Mem (n : Net) (a : Addr) : Prop :=
  a.fam = n.fam ∧ a.val / 2 ^ (n.fam.bits - n.len) = n.base / 2 ^ (n.fam.bits - n.len)

instance : Membership Addr Net := ⟨Net.Mem⟩

instance (a : Addr) (n : Net) : Decidable (a ∈ n) := by
  unfold Membership.mem instMembershipAddrNet Net.Mem; infer_instance

lemma mem_iff {a : Addr} {n : Net} :
    a ∈ n ↔ a.fam = n.fam ∧
      a.val / 2 ^ (n.fam.bits - n.len) = n.base / 2 ^ (n.fam.bits - n.len) := Iff.rfl

@[simp] lemma host_fam (a : Addr) : a.host.fam = a.fam := rfl
@[simp] lemma host_len (a : Addr) : a.host.len = a.fam.bits := rfl
@[simp] lemma host_base (a : Addr) : a.host.base = a.val := by simp [Addr.host, Addr.net]

theorem mem_host {a b : Addr} : a ∈ b.host ↔ a = b := by
  obtain ⟨f, v, hv⟩ := a
  obtain ⟨g, w, hw⟩ := b
  simp [mem_iff]

theorem host_injective : Function.Injective Addr.host := fun _ _ h =>
  mem_host.1 (h ▸ mem_host.2 rfl)

/-- The last address of a network. -/
def Net.last (n : Net) : ℕ := n.base + 2 ^ (n.fam.bits - n.len) - 1

/-- The addresses of a network are those from its base to its last one. -/
theorem mem_iff_le {a : Addr} {n : Net} :
    a ∈ n ↔ a.fam = n.fam ∧ n.base ≤ a.val ∧ a.val ≤ n.last := by
  have hp : 0 < 2 ^ (n.fam.bits - n.len) := Nat.two_pow_pos _
  obtain ⟨k, hk⟩ := n.masked
  rw [mem_iff, Net.last, hk, Nat.mul_div_cancel_left _ hp, Nat.div_eq_iff hp]
  refine and_congr_right fun _ => ?_
  rw [Nat.mul_comm k]

/-- The last address of a network is an address. -/
lemma Net.last_lt (n : Net) : n.last < 2 ^ n.fam.bits := by
  have hp : 0 < 2 ^ (n.fam.bits - n.len) := Nat.two_pow_pos _
  obtain ⟨k, hk⟩ := n.masked
  have hbits : 2 ^ n.fam.bits = 2 ^ (n.fam.bits - n.len) * 2 ^ n.len := by
    rw [← pow_add, Nat.sub_add_cancel n.len_le]
  have hlt : 2 ^ (n.fam.bits - n.len) * k < 2 ^ (n.fam.bits - n.len) * 2 ^ n.len := by
    rw [← hk, ← hbits]
    exact n.lt
  have hk1 : k + 1 ≤ 2 ^ n.len := Nat.lt_of_mul_lt_mul_left hlt
  have hle := Nat.mul_le_mul_left (2 ^ (n.fam.bits - n.len)) hk1
  rw [Nat.mul_add, Nat.mul_one, ← hbits, ← hk] at hle
  unfold Net.last
  omega

end Ip
