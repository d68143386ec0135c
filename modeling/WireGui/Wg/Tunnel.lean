import Mathlib.Data.Finset.Max
import WireGui.Wg.Interface

/-!
# Two ends of a tunnel

What is sent to an address goes to the peer that owns it, and what comes from a peer is let in only
if this peer owns its source.  In between, each end must know the public key of the other, and both
must have the same preshared key.

`delivers_of_single`: when this is so for an end that has no other peer, as a client has it.

Private keys `σ`, public keys `κ`, prefixes `π`, preshared keys `ψ` and addresses `α` are arbitrary
types.
-/

namespace Wg

variable {σ κ π ψ α : Type}

/-- An interface with its private key. -/
structure End (σ κ π ψ : Type) where
  privateKey : σ
  peers : Interface κ π ψ

section Delivery

variable (pub : σ → Option κ) (covers : α → π → Prop) (len : π → ℕ)

/-- **A packet gets through** from one end to the other. -/
def End.Delivers (x y : End σ κ π ψ) (src dst : α) : Prop :=
  ∃ k c, pub x.privateKey = some k ∧ pub y.privateKey = some c ∧
    x.peers.Owns covers len dst c ∧ y.peers.Owns covers len src k ∧ x.peers.psk c = y.peers.psk k

end Delivery

section Single

variable [DecidableEq κ] [DecidableEq π] {pub : σ → Option κ} {covers : α → π → Prop} {len : π → ℕ}
  {a : α} {k c : κ} {nets : List π} {psk : Option ψ}

/-- Of a single peer: it owns the addresses of its prefixes. -/
lemma owns_single_iff :
    ((Interface.empty.set k nets psk).Owns covers len a c : Prop) ↔
      c = k ∧ ∃ n ∈ nets, covers a n := by
  have hholder : ∀ n d, (Interface.empty.set k nets psk).holder n = some d ↔ n ∈ nets ∧ d = k := by
    intro n d
    rw [holder_set_eq_some_iff]
    refine ⟨fun h => h.resolve_right ?_, .inl⟩
    rintro ⟨-, -, hd⟩
    cases hd
  constructor
  · rintro ⟨n, hn, ha, -⟩
    obtain ⟨hmem, rfl⟩ := (hholder n c).1 hn
    exact ⟨rfl, n, hmem, ha⟩
  · rintro ⟨rfl, n, hn, ha⟩
    classical
    -- the longest of the prefixes around the address
    obtain ⟨m, hm, hmax⟩ := Finset.exists_max_image (nets.toFinset.filter (covers a)) len
      ⟨n, Finset.mem_filter.2 ⟨List.mem_toFinset.2 hn, ha⟩⟩
    obtain ⟨hmem, hcov⟩ := Finset.mem_filter.1 hm
    refine ⟨m, (hholder m c).2 ⟨List.mem_toFinset.1 hmem, rfl⟩, hcov, fun m' d hd hcov' => ?_⟩
    have hmem' := ((hholder m' d).1 hd).1
    exact hmax m' (Finset.mem_filter.2 ⟨List.mem_toFinset.2 hmem', hcov'⟩)

/-- **A client whose only peer is the server** talks to whom its prefixes cover, from the addresses
that it owns at the server. -/
theorem delivers_of_single {y : End σ κ π ψ} {p : σ} {src dst : α} (hk : pub p = some k)
    (hc : pub y.privateKey = some c) (hpsk : psk = y.peers.psk k)
    (hsrc : y.peers.Owns covers len src k) (hdst : ∃ n ∈ nets, covers dst n) :
    (⟨p, Interface.empty.set c nets psk⟩ : End σ κ π ψ).Delivers pub covers len y src dst ∧
      y.Delivers pub covers len ⟨p, Interface.empty.set c nets psk⟩ dst src := by
  have hpeer : (Interface.empty.set c nets psk).psk c = y.peers.psk k := by
    rw [psk_set_of_notMem (Finset.notMem_empty c)]
    exact hpsk
  have hown : (Interface.empty.set c nets psk).Owns covers len dst c :=
    owns_single_iff.2 ⟨rfl, hdst⟩
  exact ⟨⟨k, c, hk, hc, hown, hsrc, hpeer⟩, ⟨c, k, hc, hk, hsrc, hown, hpeer.symm⟩⟩

end Single

end Wg
