import Mathlib.Data.Finset.Basic
import Mathlib.Data.List.Basic
import Mathlib.Logic.Function.Basic
import WireGui.Lib.List

/-!
# A WireGuard interface

The peers of an interface, their preshared keys and the prefixes they hold.  A prefix is held by one
peer at most: `set` takes the prefixes it is given away from whoever holds them, and frees those
that its peer held before; `remove` frees all of its peer's prefixes.

A peer only remembers the last command about it, and a prefix the last one that touched it
(`mem_run_iff`, `holder_run_iff`).

Public keys `κ`, prefixes `π` and preshared keys `ψ` are arbitrary types.
-/

namespace Wg

structure Interface (κ π ψ : Type) where
  peers : Finset κ
  psk : κ → Option ψ
  holder : π → Option κ
  held : ∀ n, ∀ k ∈ holder n, k ∈ peers

variable {κ π ψ : Type}

/-- The interface without peers. -/
def Interface.empty : Interface κ π ψ where
  peers := ∅
  psk := fun _ => none
  holder := fun _ => none
  held := nofun

/-! ### Routing by prefixes -/

section Routing

variable {α : Type} (covers : α → π → Prop) (len : π → ℕ) {w : Interface κ π ψ} {a : α} {k c : κ}
  {n : π}

/-- **The peer of an address** is the one that holds the longest prefix around it.  What is sent to
the address goes to this peer, and what comes from the address is let in from no other. -/
def Interface.Owns (w : Interface κ π ψ) (a : α) (k : κ) : Prop :=
  ∃ n, w.holder n = some k ∧ covers a n ∧
    ∀ m c, w.holder m = some c → covers a m → len m ≤ len n

variable {covers len}

/-- There is one such peer, where an address has one prefix of each length. -/
lemma Interface.Owns.unique (hlen : ∀ m n, covers a m → covers a n → len m = len n → m = n)
    (h : w.Owns covers len a k) (h' : w.Owns covers len a c) : k = c := by
  obtain ⟨n, hn, ha, hmax⟩ := h
  obtain ⟨m, hm, ha', hmax'⟩ := h'
  obtain rfl := hlen m n ha' ha (le_antisymm (hmax m c hm ha') (hmax' n k hn ha))
  exact Option.some.inj (hn.symm.trans hm)

/-- No prefix around the address is longer. -/
lemma Interface.owns_of_longest (hn : w.holder n = some k) (ha : covers a n)
    (hmax : ∀ m, covers a m → len m ≤ len n) : w.Owns covers len a k :=
  ⟨n, hn, ha, fun m _ _ hm => hmax m hm⟩

end Routing

/-! ### Removing a peer -/

variable [DecidableEq κ]

/-- `wg set … peer k remove`. -/
def Interface.remove (k : κ) (w : Interface κ π ψ) : Interface κ π ψ where
  peers := w.peers.erase k
  psk := w.psk
  holder := fun n => if w.holder n = some k then none else w.holder n
  held := by
    intro n c hc
    rw [Option.mem_def] at hc
    split at hc
    · cases hc
    next hne => exact Finset.mem_erase.2 ⟨fun e => hne (e ▸ hc), w.held n c hc⟩

section Remove

variable {w : Interface κ π ψ} {k c : κ} {n : π}

@[simp] lemma peers_remove : (w.remove k).peers = w.peers.erase k := rfl

@[simp] lemma psk_remove : (w.remove k).psk = w.psk := rfl

lemma holder_remove_eq_some_iff :
    (w.remove k).holder n = some c ↔ c ≠ k ∧ w.holder n = some c := by
  unfold Interface.remove
  by_cases hk : w.holder n = some k
  · simpa [hk] using fun h e => h e.symm
  · simp only [hk, if_false]
    exact ⟨fun h => ⟨fun e => hk (e ▸ h), h⟩, fun h => h.2⟩

end Remove

/-! ### Setting a peer -/

variable [DecidableEq π]

/-- `wg set … peer k allowed-ips …`.  Without a preshared key a peer that is there keeps its own. -/
def Interface.set (k : κ) (nets : List π) (psk : Option ψ) (w : Interface κ π ψ) :
    Interface κ π ψ where
  peers := insert k w.peers
  psk := Function.update w.psk k (psk <|> if k ∈ w.peers then w.psk k else none)
  holder := fun n => if n ∈ nets then some k else if w.holder n = some k then none else w.holder n
  held := by
    intro n c hc
    rw [Option.mem_def] at hc
    split at hc
    · rw [← Option.some.inj hc]
      exact Finset.mem_insert_self k w.peers
    · split at hc
      · cases hc
      · exact Finset.mem_insert_of_mem (w.held n c hc)

section Set

variable {w : Interface κ π ψ} {k c : κ} {nets : List π} {psk : Option ψ} {n : π}

@[simp] lemma peers_set : (w.set k nets psk).peers = insert k w.peers := rfl

lemma psk_set_of_ne (h : c ≠ k) : (w.set k nets psk).psk c = w.psk c :=
  Function.update_of_ne h _ _

/-- A new peer has just the preshared key it is given. -/
lemma psk_set_of_notMem (h : k ∉ w.peers) : (w.set k nets psk).psk k = psk := by
  simp [Interface.set, h]

lemma holder_set_eq_some_iff :
    (w.set k nets psk).holder n = some c ↔
      (n ∈ nets ∧ c = k) ∨ (n ∉ nets ∧ c ≠ k ∧ w.holder n = some c) := by
  unfold Interface.set
  by_cases hn : n ∈ nets
  · simp [hn, eq_comm]
  · by_cases hk : w.holder n = some k
    · simpa [hn, hk] using fun h e => h e.symm
    · simp only [hn, if_false, hk, false_and, false_or, not_false_iff, true_and]
      exact ⟨fun h => ⟨fun e => hk (e ▸ h), h⟩, fun h => h.2⟩

end Set

/-! ### Commands -/

inductive Cmd (κ π ψ : Type) where
  | set (k : κ) (nets : List π) (psk : Option ψ)
  | remove (k : κ)
  deriving DecidableEq

namespace Cmd

/-- The peer that a command is about. -/
def key : Cmd κ π ψ → κ
  | .set k _ _ | .remove k => k

/-- The prefixes that a command gives to its peer. -/
def nets : Cmd κ π ψ → List π
  | .set _ nets _ => nets
  | .remove _ => []

/-- The command makes sure that its peer is there. -/
def IsSet : Cmd κ π ψ → Prop
  | .set .. => True
  | .remove _ => False

def apply : Cmd κ π ψ → Interface κ π ψ → Interface κ π ψ
  | .set k nets psk => .set k nets psk
  | .remove k => .remove k

variable {w : Interface κ π ψ} {c : Cmd κ π ψ} {k : κ} {n : π}

lemma mem_peers_apply_iff :
    k ∈ (c.apply w).peers ↔ (c.key = k ∧ c.IsSet) ∨ (c.key ≠ k ∧ k ∈ w.peers) := by
  cases c with
  | set k' nets psk =>
    rw [apply, peers_set, Finset.mem_insert, key, IsSet, eq_comm (a := k)]
    tauto
  | remove k' =>
    rw [apply, peers_remove, Finset.mem_erase, key, IsSet, ne_comm]
    tauto

lemma holder_apply_eq_some_iff :
    (c.apply w).holder n = some k ↔
      (c.key = k ∧ n ∈ c.nets) ∨ (c.key ≠ k ∧ n ∉ c.nets ∧ w.holder n = some k) := by
  cases c with
  | set k' nets psk =>
    rw [apply, holder_set_eq_some_iff, key, Cmd.nets, eq_comm (a := k)]
    tauto
  | remove k' =>
    rw [apply, holder_remove_eq_some_iff, key, Cmd.nets, ne_comm]
    simp

end Cmd

/-- One command after the other. -/
def run (cmds : List (Cmd κ π ψ)) (w : Interface κ π ψ) : Interface κ π ψ :=
  cmds.foldl (fun w c => c.apply w) w

section Run

variable {w : Interface κ π ψ} {k : κ} {c : Cmd κ π ψ} {cmds : List (Cmd κ π ψ)}

@[simp] lemma run_nil : run [] w = w := rfl

@[simp] lemma run_cons : run (c :: cmds) w = run cmds (c.apply w) := rfl

lemma run_append {cmds' : List (Cmd κ π ψ)} : run (cmds ++ cmds') w = run cmds' (run cmds w) :=
  List.foldl_append

/-- Commands about other peers leave the preshared key alone. -/
lemma psk_run_of_forall_ne (h : ∀ c ∈ cmds, c.key ≠ k) : (run cmds w).psk k = w.psk k := by
  induction cmds generalizing w with
  | nil => rfl
  | cons c cmds ih =>
    rw [run_cons, ih fun d hd => h d (List.mem_cons_of_mem _ hd)]
    have hc : k ≠ c.key := (h c List.mem_cons_self).symm
    cases c with
    | set k' nets psk => exact psk_set_of_ne hc
    | remove k' => rfl

/-- Who is left when peers are removed one after the other. -/
lemma mem_run_remove_iff {ks : List κ} :
    k ∈ (run (ks.map .remove) w).peers ↔ k ∉ ks ∧ k ∈ w.peers := by
  induction ks generalizing w with
  | nil => simp
  | cons k' ks ih =>
    rw [List.map_cons, run_cons, ih, Cmd.apply, peers_remove, Finset.mem_erase, List.mem_cons]
    tauto

/-- The prefixes that are left when peers are removed one after the other. -/
lemma holder_run_remove_iff {ks : List κ} {n : π} :
    (run (ks.map .remove) w).holder n = some k ↔ k ∉ ks ∧ w.holder n = some k := by
  induction ks generalizing w with
  | nil => simp
  | cons k' ks ih =>
    rw [List.map_cons, run_cons, ih, Cmd.apply, holder_remove_eq_some_iff, List.mem_cons]
    tauto

end Run

/-! ### What is left of a run -/

omit [DecidableEq π]

/-- The last command about the peer `k`. -/
def lastOn (k : κ) (cmds : List (Cmd κ π ψ)) : Option (Cmd κ π ψ) :=
  (cmds.filter fun c => c.key = k).getLast?

/-- After the last command about the peer `k`, another peer is given the prefix `n`. -/
def TakenFrom (k : κ) (n : π) : List (Cmd κ π ψ) → Prop
  | [] => False
  | c :: cmds => TakenFrom k n cmds ∨ ((∀ d ∈ cmds, d.key ≠ k) ∧ c.key ≠ k ∧ n ∈ c.nets)

section Last

variable {w : Interface κ π ψ} {k : κ} {n : π} {c : Cmd κ π ψ} {cmds : List (Cmd κ π ψ)}

lemma lastOn_cons :
    lastOn k (c :: cmds) = (lastOn k cmds).or (if c.key = k then some c else none) :=
  List.getLast?_filter_cons

lemma lastOn_eq_none_iff : lastOn k cmds = none ↔ ∀ c ∈ cmds, c.key ≠ k :=
  List.getLast?_filter_eq_none_iff

/-- Without a command about the peer, its prefixes are up to the commands about others. -/
lemma takenFrom_iff_of_lastOn_eq_none (h : lastOn k cmds = none) :
    TakenFrom k n cmds ↔ ∃ c ∈ cmds, n ∈ c.nets := by
  induction cmds with
  | nil => simp [TakenFrom]
  | cons c cmds ih =>
    have hall := lastOn_eq_none_iff.1 h
    have htail : ∀ d ∈ cmds, d.key ≠ k := fun d hd => hall d (List.mem_cons_of_mem _ hd)
    rw [TakenFrom, ih (lastOn_eq_none_iff.2 htail)]
    simp only [List.mem_cons, exists_eq_or_imp]
    constructor
    · rintro (hc | ⟨-, -, hc⟩)
      · exact .inr hc
      · exact .inl hc
    · rintro (hc | hc)
      · exact .inr ⟨htail, hall c List.mem_cons_self, hc⟩
      · exact .inl hc

omit [DecidableEq κ] in
/-- A prefix that no other peer is given is not taken away. -/
lemma not_takenFrom (h : ∀ c ∈ cmds, c.key ≠ k → n ∉ c.nets) : ¬ TakenFrom k n cmds := by
  induction cmds with
  | nil => exact id
  | cons c cmds ih =>
    rintro (hc | ⟨-, hne, hn⟩)
    · exact ih (fun d hd => h d (List.mem_cons_of_mem _ hd)) hc
    · exact h c List.mem_cons_self hne hn

/-- With one command for each peer, that one is the last. -/
lemma lastOn_of_nodup (h : (cmds.map Cmd.key).Nodup) (hc : c ∈ cmds) :
    lastOn c.key cmds = some c :=
  List.getLast?_filter_of_nodup h hc

variable [DecidableEq π]

/-- **Who is a peer after a run** is up to the last command about it. -/
theorem mem_run_iff :
    k ∈ (run cmds w).peers ↔
      (∃ c ∈ lastOn k cmds, c.IsSet) ∨ (lastOn k cmds = none ∧ k ∈ w.peers) := by
  induction cmds generalizing w with
  | nil => simp [lastOn]
  | cons c cmds ih =>
    rw [run_cons, ih, Cmd.mem_peers_apply_iff, lastOn_cons]
    cases lastOn k cmds with
    | some d => simp
    | none => by_cases hc : c.key = k <;> simp [hc]

/-- **Who holds a prefix after a run**: the peer whose last command gave it the prefix, if no other
peer has been given it since. -/
theorem holder_run_iff :
    (run cmds w).holder n = some k ↔
      ¬ TakenFrom k n cmds ∧
        ((∃ c ∈ lastOn k cmds, n ∈ c.nets) ∨ (lastOn k cmds = none ∧ w.holder n = some k)) := by
  induction cmds generalizing w with
  | nil => simp [lastOn, TakenFrom]
  | cons c cmds ih =>
    rw [run_cons, ih, Cmd.holder_apply_eq_some_iff, lastOn_cons, TakenFrom]
    cases hl : lastOn k cmds with
    | some d =>
      -- the command is not the last one about the peer
      have hex : ¬ ∀ d ∈ cmds, d.key ≠ k := by
        rw [← lastOn_eq_none_iff, hl]
        simp
      simp [hex]
    | none =>
      have hall := lastOn_eq_none_iff.1 hl
      by_cases hc : c.key = k
      · simp [hc]
      · by_cases hn : n ∈ c.nets
        · simpa [hc, hn] using fun _ d hd hdk => absurd hdk (hall d hd)
        · simp [hc, hn]

/-- A prefix that is given to somebody is held in the end. -/
lemma exists_holder_run (h : (cmds.map Cmd.key).Nodup) (hc : c ∈ cmds) (hn : n ∈ c.nets) :
    ∃ d ∈ cmds, n ∈ d.nets ∧ (run cmds w).holder n = some d.key := by
  induction cmds generalizing w c with
  | nil => exact absurd hc List.not_mem_nil
  | cons b cmds ih =>
    rw [List.map_cons, List.nodup_cons] at h
    by_cases hlater : ∃ d ∈ cmds, n ∈ d.nets
    · obtain ⟨d, hd, hdn⟩ := hlater
      obtain ⟨e, he, hen⟩ := ih (w := b.apply w) h.2 hd hdn
      exact ⟨e, List.mem_cons_of_mem _ he, hen⟩
    · -- the head is the last one to be given the prefix
      obtain rfl : c = b := (List.mem_cons.1 hc).resolve_right fun hc => hlater ⟨c, hc, hn⟩
      have hnone : lastOn c.key cmds = none :=
        lastOn_eq_none_iff.2 fun d hd he => h.1 (he ▸ List.mem_map_of_mem hd)
      refine ⟨c, List.mem_cons_self, hn, ?_⟩
      rw [run_cons, holder_run_iff, takenFrom_iff_of_lastOn_eq_none hnone]
      exact ⟨hlater, .inr ⟨hnone, Cmd.holder_apply_eq_some_iff.2 (.inl ⟨rfl, hn⟩)⟩⟩

/-- The preshared key of a peer that is new and set once. -/
lemma psk_run_of_new {nets : List π} {psk : Option ψ} (h : (cmds.map Cmd.key).Nodup)
    (hc : .set k nets psk ∈ cmds) (hk : k ∉ w.peers) : (run cmds w).psk k = psk := by
  obtain ⟨before, after, rfl⟩ := List.append_of_mem hc
  rw [List.map_append, List.map_cons, List.nodup_append, List.nodup_cons] at h
  have hbefore : ∀ c ∈ before, c.key ≠ k := fun c hcb =>
    h.2.2 c.key (List.mem_map_of_mem hcb) k List.mem_cons_self
  have hafter : ∀ c ∈ after, c.key ≠ k := by
    intro c hca he
    refine h.2.1.1 ?_
    rw [Cmd.key, ← he]
    exact List.mem_map_of_mem hca
  have hnew : k ∉ (run before w).peers := by
    rw [mem_run_iff, lastOn_eq_none_iff.2 hbefore]
    simp [hk]
  rw [run_append, run_cons, psk_run_of_forall_ne hafter]
  exact psk_set_of_notMem hnew

end Last

end Wg
