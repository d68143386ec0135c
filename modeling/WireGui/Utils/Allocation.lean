import WireGui.Services.Frame
import WireGui.Utils.Network

/-!
# When no address is allocated, and which one is

The allocator gives up if as many addresses are held as the pool has, wherever the held ones lie:
`allocate_error_iff` says when that is right.  `allocate_safe` is about the addresses it gives, next
to the one that `services/wireguard.py` takes for the server.
-/

namespace WireGui

/-- The column of the tunnel address of a family. -/
def Device.address (d : Device) : Ip.Family → Option String
  | .v4 => d.ipv4
  | .v6 => d.ipv6

/-- `_get_used_ips`. -/
def Database.usedIps (db : Database) (f : Ip.Family) : Finset String :=
  (db.devices.filterMap fun d => d.address f).toFinset

/-- `allocate_ipv4` or `allocate_ipv6`, by the family of the network. -/
def allocate (db : Database) (network : Ip.Network) (draw : ℕ → ℕ) : Except String String :=
  match network.net.fam with
  | .v4 => allocateIpv4 db network draw
  | .v6 => allocateIpv6 db network draw

/-- **The network is full**: each address from the third to the one before the last is held by a
device. -/
def Database.Full (db : Database) (network : Ip.Net) : Prop :=
  ∀ n, network.base + 2 ≤ n → n + 1 ≤ network.last →
    ∃ d ∈ db.devices, d.address network.fam = some (addressText network.fam n)

section Allocate

variable {db : Database} {network : Ip.Network} {draw : ℕ → ℕ}

lemma allocate_eq (db : Database) (network : Ip.Network) (draw : ℕ → ℕ) :
    allocate db network draw = findAvailable network (db.usedIps network.net.fam) draw := by
  unfold allocate
  split
  next hf => rw [allocateIpv4, Database.usedIps, hf]; rfl
  next hf => rw [allocateIpv6, Database.usedIps, hf]; rfl

lemma mem_usedIps_iff {f : Ip.Family} {s : String} :
    s ∈ db.usedIps f ↔ ∃ d ∈ db.devices, d.address f = some s := by
  rw [Database.usedIps, List.mem_toFinset, List.mem_filterMap]

/-- In a full network nothing is allocated. -/
lemma error_of_full (h : db.Full network.net) : ∃ e, allocate db network draw = .error e := by
  rw [allocate_eq]
  cases hfind : findAvailable network (db.usedIps network.net.fam) draw with
  | error e => exact ⟨e, rfl⟩
  | ok c =>
    obtain ⟨hfree, offset, hlt, rfl⟩ := exists_offset_of_findAvailable hfind
    refine absurd (mem_usedIps_iff.2 (h _ ?_ ?_)) hfree
    · exact Nat.le_add_right _ _
    · unfold poolSize at hlt
      omega

/-- With as many addresses held as the pool has, nothing is allocated. -/
lemma error_of_card (h : poolSize network.net ≤ (db.usedIps network.net.fam).card) :
    ∃ e, allocate db network draw = .error e := by
  rw [allocate_eq, findAvailable]
  split
  · exact ⟨_, rfl⟩
  · exact ⟨_, rfl⟩

/-- **The allocator fails exactly in a full network**, if the network is full or there are fewer
held addresses than the pool has; the held ones outside of the network count as well. -/
theorem allocate_error_iff (db : Database) (network : Ip.Network) (draw : ℕ → ℕ) :
    ((∃ e, allocate db network draw = .error e) ↔ db.Full network.net) ↔
      (db.Full network.net ∨
        ((db.usedIps network.net.fam).card : ℤ) < poolSize network.net) := by
  by_cases hfull : db.Full network.net
  · exact iff_of_true (iff_of_true (error_of_full hfull) hfull) (.inl hfull)
  by_cases hcard : ((db.usedIps network.net.fam).card : ℤ) < poolSize network.net
  · refine iff_of_true (iff_of_false ?_ hfull) (.inr hcard)
    rintro ⟨e, he⟩
    rw [allocate_eq] at he
    obtain ⟨c, hc⟩ := exists_findAvailable hcard
    rw [hc] at he
    cases he
  · refine iff_of_false (fun h => hfull (h.1 (error_of_card (not_lt.1 hcard)))) ?_
    exact not_or.2 ⟨hfull, hcard⟩

end Allocate

/-! A device from before the tunnel network was changed. -/

/-- One address is left for clients. -/
def tinyNet : Ip.Network := ⟨laptopAddr.net 30 (by decide), none⟩

def movedPhone : Database := { twoUsers with devices := [{ phone with ipv4 := some "10.9.9.9" }] }

/-- The device outside of the network takes its only address. -/
theorem allocate_counts_outside :
    allocate movedPhone tinyNet (fun _ => 0) = .error "No available addresses in 10.3.2.0/30" ∧
      ¬ movedPhone.Full tinyNet.net := by
  refine ⟨by decide, fun h => ?_⟩
  obtain ⟨d, hd, hda⟩ := h 0x0a030202 (by decide) (by decide)
  obtain rfl := List.mem_singleton.1 hd
  exact absurd hda (by decide)

/-! ### The server's address -/

def Settings.wgNetwork (settings : Settings) : Ip.Family → String
  | .v4 => settings.wgIpv4Network
  | .v6 => settings.wgIpv6Network

/-- `next(network.hosts())`.  Of two addresses both are hosts; of a single one `hosts` makes a list,
which `next` refuses. -/
def nextHost (network : Ip.Net) : Option ℕ :=
  if network.len = network.fam.bits then none
  else if network.len + 1 = network.fam.bits then some network.base
  else some (network.base + 1)

/-- The address of the server in the network of a family, with the prefix length. -/
def Settings.serverAddress (settings : Settings) (f : Ip.Family) : Option String := do
  let network ← Ip.familyNetwork f (settings.wgNetwork f)
  let host ← nextHost network.net
  return s!"{addressText f host}/{network.net.len}"

/-- `_server_addresses`; `none` is an error. -/
def Settings.serverAddresses (settings : Settings) : Option (List String) := do
  let v4 ← settings.serverAddress .v4
  let v6 ← settings.serverAddress .v6
  return [v4, v6]

section Safe

variable {settings : Settings} {db : Database} {f : Ip.Family} {network : Ip.Network}
  {draw : ℕ → ℕ}

/-- The address of the server comes before those of the clients. -/
lemma nextHost_lt {n : Ip.Net} {host : ℕ} (h : nextHost n = some host) : host < n.base + 2 := by
  unfold nextHost at h
  split at h
  · cases h
  · split at h
    · obtain rfl := Option.some.inj h
      omega
    · obtain rfl := Option.some.inj h
      omega

lemma nextHost_le_last {n : Ip.Net} {host : ℕ} (h : nextHost n = some host) :
    host ≤ n.last := by
  have hlen := n.len_le
  unfold nextHost at h
  split at h
  · cases h
  next hne =>
    have hpow : 2 ^ 1 ≤ 2 ^ (n.fam.bits - n.len) := Nat.pow_le_pow_right (by omega) (by omega)
    unfold Ip.Net.last
    split at h
    · obtain rfl := Option.some.inj h
      omega
    · obtain rfl := Option.some.inj h
      omega

/-- The texts of addresses before a slash are the same only for the same address. -/
lemma eq_of_str_append_slash {a b : Ip.Addr} {s t : String}
    (h : a.str ++ "/" ++ s = b.str ++ "/" ++ t) : a = b := by
  have hslash : ∀ c : Ip.Addr, ∀ d ∈ c.str.toList, d ≠ '/' := by
    rintro c d hd rfl
    exact absurd (Ip.isAddrChar_of_parseAddr (Ip.parseAddr_str c) hd) (by decide)
  have htake : ∀ (c : Ip.Addr) (u : String),
      (c.str ++ "/" ++ u).toList.takeWhile (· ≠ '/') = c.str.toList := by
    intro c u
    rw [String.toList_append, String.toList_append, List.append_assoc,
      List.takeWhile_append_of_pos fun d hd => by simpa using hslash c d hd]
    simp
  have hstr : a.str = b.str := by
    rw [← String.toList_inj, ← htake a s, ← htake b t, h]
  have hhost := Ip.readNet_addr_str a
  rw [hstr, Ip.readNet_addr_str] at hhost
  exact (Ip.host_injective (Option.some.inj hhost)).symm

/-- **An allocated address is safe to use**: it lies in the network and no device has it; it is not
the first address of the network nor the last one, and not the server's. -/
theorem allocate_safe (hnet : Ip.familyNetwork f (settings.wgNetwork f) = some network) {c : String}
    (h : allocate db network draw = .ok c) :
    ∃ a : Ip.Addr, c = a.str ∧ a ∈ network.net ∧ (∀ d ∈ db.devices, d.address f ≠ some c) ∧
      a.val ≠ network.net.base ∧ a.val ≠ network.net.last ∧
      (∀ len, settings.serverAddress f ≠ some (c ++ "/" ++ len)) ∧
      ∀ addresses ∈ settings.serverAddresses, ∀ len, c ++ "/" ++ len ∉ addresses := by
  have hf : network.net.fam = f := Ip.familyNetwork_fam hnet
  rw [allocate_eq] at h
  obtain ⟨hfree, offset, hlt, rfl⟩ := exists_offset_of_findAvailable h
  obtain ⟨a, ha, htext, hfam, hval⟩ := exists_addr_of_offset hlt
  rw [htext] at hfree ⊢
  have hlast : a.val + 1 ≤ network.net.last := by
    unfold poolSize at hlt
    omega
  unfold firstHost at hval
  -- the server has a smaller address in the same network
  have hserver : ∀ g len, settings.serverAddress g ≠ some (a.str ++ "/" ++ len) := by
    intro g len hs
    obtain ⟨network', hnet', hs⟩ := Option.bind_eq_some_iff.1 hs
    obtain ⟨host, hhost, hs⟩ := Option.bind_eq_some_iff.1 hs
    have hg : network'.net.fam = g := Ip.familyNetwork_fam hnet'
    have hle := (nextHost_le_last hhost).trans_lt network'.net.last_lt
    have hb : (⟨network'.net.fam, host, hle⟩ : Ip.Addr).str ++ "/" ++
        toString network'.net.len = a.str ++ "/" ++ len := by
      subst hg
      exact Option.some.inj hs
    have hab := eq_of_str_append_slash hb
    have hgf : g = f := by
      rw [← hg, ← hf, ← hfam, ← hab]
    subst hgf
    obtain rfl := Option.some.inj (hnet'.symm.trans hnet)
    have hlt' := nextHost_lt hhost
    have hhost' : host = a.val := congrArg Ip.Addr.val hab
    omega
  refine ⟨a, rfl, ha, fun d hd hda => ?_, by omega, by omega, hserver f, ?_⟩
  · exact hfree (mem_usedIps_iff.2 ⟨d, hd, hf ▸ hda⟩)
  · intro addresses haddresses len hmem
    obtain ⟨v4, h4, haddresses⟩ := Option.bind_eq_some_iff.1 haddresses
    obtain ⟨v6, h6, haddresses⟩ := Option.bind_eq_some_iff.1 haddresses
    obtain rfl := Option.some.inj haddresses
    simp only [List.mem_cons, List.not_mem_nil, or_false] at hmem
    rcases hmem with rfl | rfl
    · exact hserver .v4 len h4
    · exact hserver .v6 len h6

end Safe

/-- The first address that is free, in the network of the default settings. -/
theorem allocate_safe_default :
    ∃ a : Ip.Addr, "10.3.2.4" = a.str ∧ a.val ≠ 0x0a030200 ∧
      ∀ len, defaultSettings.serverAddress .v4 ≠ some ("10.3.2.4" ++ "/" ++ len) := by
  have hnet : Ip.familyNetwork .v4 (defaultSettings.wgNetwork .v4) =
      some ⟨⟨.v4, 0x0a030200, 24, by decide, by decide, by decide⟩, none⟩ := by decide
  have hok : allocate twoUsers ⟨⟨.v4, 0x0a030200, 24, by decide, by decide, by decide⟩, none⟩
      (fun i => i) = .ok "10.3.2.4" := by decide
  obtain ⟨a, hstr, -, -, hbase, -, hserver, -⟩ := allocate_safe hnet hok
  exact ⟨a, hstr, hbase, hserver⟩

end WireGui
