import WireGui.Ip.Text
import WireGui.Lib.List

/-!
# Networks as Python's `ipaddress` reads them

`ip_network(s, strict=False)` takes more than a base and a prefix length: leading zeros in the
prefix length, an IPv4 netmask or hostmask in its place, and an IPv6 address with a zone.  Host bits
are cleared, and the zone of an address goes with them; otherwise it stays.

* `ipNetwork_str`: without a zone, the text of a network is read back.
* `cleanCidr_str_iff`: and it holds nothing but digits, separators and a prefix length.
-/

namespace Ip

/-! ### Prefix lengths -/

/-- `_prefix_from_prefix_string`: digits of ASCII, of which `int` takes at most 4300. -/
def prefixFromDigits (f : Family) (cs : List Char) : Option ℕ :=
  if 4300 < cs.length then none else (readDigits 10 cs).filter (· ≤ f.bits)

/-- `_count_righthand_zero_bits`. -/
def countRighthandZeroBits (n bits : ℕ) : ℕ :=
  ((List.range bits).takeWhile fun i => !n.testBit i).length

/-- `_prefix_from_ip_int`: ones, then zeros. -/
def prefixFromInt (n : ℕ) : Option ℕ :=
  let zeros := countRighthandZeroBits n 32
  if n / 2 ^ zeros = 2 ^ (32 - zeros) - 1 then some (32 - zeros) else none

/-- `_prefix_from_ip_string`: a netmask, or else a hostmask. -/
def prefixFromMask (cs : List Char) : Option ℕ :=
  (parse4 cs).bind fun n => (prefixFromInt n).or (prefixFromInt (n ^^^ (2 ^ 32 - 1)))

/-- `_make_netmask`, which only takes masks for IPv4. -/
def makeNetmask : Family → List Char → Option ℕ
  | .v4, cs => (prefixFromDigits .v4 cs).or (prefixFromMask cs)
  | .v6, cs => prefixFromDigits .v6 cs

/-! ### Networks -/

/-- `_split_scope_id`: an address, and the zone after a `%`. -/
def splitScopeId (cs : List Char) : Option (List Char × Option (List Char)) :=
  match cs.splitOn '%' with
  | [addr] => some (addr, none)
  | [addr, zone] => if zone = [] then none else some (addr, some zone)
  | _ => none

/-- What a text says: an address, maybe with a zone, and a prefix length. -/
structure NetworkText where
  addr : Addr
  zone : Option (List Char)
  len : ℕ
  le : len ≤ addr.fam.bits
  deriving DecidableEq

/-- The address and its zone; only IPv6 has them. -/
def readAddress : Family → List Char → Option (Addr × Option (List Char))
  | .v4, cs => (parseAddr .v4 (String.ofList cs)).map (·, none)
  | .v6, cs => do
    let (addr, zone) ← splitScopeId cs
    (parseAddr .v6 (String.ofList addr)).map (·, zone)

/-- `_split_optional_netmask`. -/
def splitOptionalNetmask (s : String) : Option (List Char × Option (List Char)) :=
  match s.toList.splitOn '/' with
  | [addr] => some (addr, none)
  | [addr, mask] => some (addr, some mask)
  | _ => none

/-- What the text says to the class of the family. -/
def readNetworkText (f : Family) (s : String) : Option NetworkText := do
  let (addr, mask) ← splitOptionalNetmask s
  let (a, zone) ← readAddress f addr
  let len ← mask.elim (some a.fam.bits) (makeNetmask f)
  if h : len ≤ a.fam.bits then return ⟨a, zone, len, h⟩ else none

/-- A network, and the zone of its address. -/
structure Network where
  net : Net
  zone : Option (List Char)
  deriving DecidableEq

/-- `str` of a network. -/
def Network.str (n : Network) : String :=
  String.ofList (n.net.addr.str.toList ++ n.zone.elim [] ('%' :: ·) ++
    '/' :: Nat.toDigits 10 n.net.len)

/-- Bits of the address lie outside of the prefix. -/
def NetworkText.HasHostBits (t : NetworkText) : Prop := t.addr.val % 2 ^ (t.addr.fam.bits - t.len) ≠ 0

instance (t : NetworkText) : Decidable t.HasHostBits := by
  unfold NetworkText.HasHostBits; infer_instance

/-- The network with `strict=False`. -/
def NetworkText.network (t : NetworkText) : Network where
  net := t.addr.net t.len t.le
  zone := if t.HasHostBits then none else t.zone

/-- `IPv4Network(s, strict=False)` and `IPv6Network(s, strict=False)`. -/
def familyNetwork (f : Family) (s : String) : Option Network :=
  (readNetworkText f s).map NetworkText.network

/-- What the text says, to IPv4 or else to IPv6. -/
def ipNetworkText (s : String) : Option NetworkText :=
  (readNetworkText .v4 s).or (readNetworkText .v6 s)

/-- `ip_network(s, strict=False)`; `none` is a `ValueError`. -/
def ipNetwork (s : String) : Option Network := (ipNetworkText s).map NetworkText.network

example : (ipNetwork "192.168.1.5/255.255.255.0").map Network.str = some "192.168.1.0/24" ∧
    (ipNetwork "10.1.2.3/0.255.255.255").map Network.str = some "10.0.0.0/8" ∧
    (ipNetwork "fe80::1%eth0/64").map Network.str = some "fe80::/64" ∧
    (ipNetwork "fe80::1%eth0").map Network.str = some "fe80::1%eth0/128" ∧
    ipNetwork "10.0.0.0/33" = none ∧ ipNetwork "fe80::%/64" = none := by decide

/-! ### The text of a network -/

section Text

variable {n : Net} {a : Addr}

lemma str_zone_none (n : Net) : (⟨n, none⟩ : Network).str = n.str := by
  rw [Network.str, Option.elim_none, List.append_nil, Net.str]

lemma prefixFromDigits_toDigits {f : Family} {l : ℕ} (h : l ≤ f.bits) :
    prefixFromDigits f (Nat.toDigits 10 l) = some l := by
  have hbits : f.bits ≤ 128 := by cases f <;> decide
  have hlen : (Nat.toDigits 10 l).length ≤ 3 := length_toDigits_le (by omega) (by omega) (by omega)
  rw [prefixFromDigits, if_neg (by omega), readDigits_toDigits (by omega) (by omega),
    Option.filter_some, if_pos (by simpa using h)]

lemma makeNetmask_toDigits {f : Family} {l : ℕ} (h : l ≤ f.bits) :
    makeNetmask f (Nat.toDigits 10 l) = some l := by
  cases f with
  | v4 => rw [makeNetmask, prefixFromDigits_toDigits h, Option.some_or]
  | v6 => exact prefixFromDigits_toDigits h

/-- A zone that an address of the family can have. -/
def Zoned (f : Family) (zone : Option (List Char)) : Prop :=
  ∀ z ∈ zone, f = .v6 ∧ z ≠ [] ∧ '%' ∉ z ∧ '/' ∉ z

/-- The text of an address, and of its zone if it has one. -/
def zonedText (a : Addr) (zone : Option (List Char)) : List Char :=
  a.str.toList ++ zone.elim [] ('%' :: ·)

lemma percent_notMem_str (a : Addr) : '%' ∉ a.str.toList := fun hc =>
  absurd (isAddrChar_of_parseAddr (parseAddr_str a) hc) (by decide)

lemma slash_notMem_str (a : Addr) : '/' ∉ a.str.toList := fun hc =>
  absurd (isAddrChar_of_parseAddr (parseAddr_str a) hc) (by decide)

/-- **The text of an address** is read back with its zone. -/
lemma readAddress_zonedText {zone : Option (List Char)} (hz : Zoned a.fam zone) :
    readAddress a.fam (zonedText a zone) = some (a, zone) := by
  have hread := parseAddr_str a
  have hpercent := percent_notMem_str a
  unfold zonedText
  obtain ⟨f, v, hv⟩ := a
  cases f with
  | v4 =>
    have hnone : zone = none := by
      by_contra hne
      obtain ⟨z, rfl⟩ := Option.ne_none_iff_exists'.1 hne
      cases (hz z rfl).1
    subst hnone
    rw [readAddress, Option.elim_none, List.append_nil, String.ofList_toList, hread,
      Option.map_some]
  | v6 =>
    have hsplit : splitScopeId ((⟨.v6, v, hv⟩ : Addr).str.toList ++ zone.elim [] ('%' :: ·)) =
        some ((⟨.v6, v, hv⟩ : Addr).str.toList, zone) := by
      cases zone with
      | none =>
        rw [splitScopeId, Option.elim_none, List.append_nil,
          List.splitOn_eq_singleton hpercent]
      | some z =>
        obtain ⟨-, hne, hno, -⟩ := hz z rfl
        have hs : (['%'].intercalate [(⟨.v6, v, hv⟩ : Addr).str.toList, z]).splitOn '%' =
            [(⟨.v6, v, hv⟩ : Addr).str.toList, z] := by
          refine List.splitOn_intercalate '%' (fun l hl => ?_) (by simp)
          simp only [List.mem_cons, List.not_mem_nil, or_false] at hl
          rcases hl with rfl | rfl
          · exact hpercent
          · exact hno
        have hcat : ['%'].intercalate [(⟨.v6, v, hv⟩ : Addr).str.toList, z] =
            (⟨.v6, v, hv⟩ : Addr).str.toList ++ '%' :: z := by simp
        rw [splitScopeId, Option.elim_some, ← hcat, hs]
        exact if_neg hne
    rw [readAddress, hsplit]
    simp only [Option.bind_eq_bind, Option.bind_some, String.ofList_toList]
    rw [hread, Option.map_some]

/-- Where an IPv6 address is written, IPv4 reads nothing. -/
lemma readAddress_v4_of_colon {cs : List Char} (h : ':' ∈ cs) : readAddress .v4 cs = none := by
  rw [readAddress, Option.map_eq_none_iff]
  by_contra hne
  obtain ⟨b, hb⟩ := Option.ne_none_iff_exists'.1 hne
  unfold parseAddr at hb
  rw [String.toList_ofList] at hb
  cases hp : parse4 cs with
  | none => simp [hp] at hb
  | some m => exact colon_notMem_of_parse4 hp h

/-- A text that starts with an address. -/
lemma ipNetworkText_of_splitOn {s : String} {zone : Option (List Char)} {rest : List (List Char)}
    {t : NetworkText} (hs : s.toList.splitOn '/' = zonedText a zone :: rest)
    (h : readNetworkText a.fam s = some t) : ipNetworkText s = some t := by
  cases hf : a.fam with
  | v4 => rw [ipNetworkText, ← hf, h, Option.some_or]
  | v6 =>
    have hcolon : ':' ∈ zonedText a zone := List.mem_append_left _ ((colon_mem_str a).2 hf)
    have h4 : readNetworkText .v4 s = none := by
      rw [readNetworkText, splitOptionalNetmask, hs]
      rcases rest with _ | ⟨m, _ | ⟨m', rest⟩⟩
      · simp [readAddress_v4_of_colon hcolon]
      · simp [readAddress_v4_of_colon hcolon]
      · rfl
    rw [ipNetworkText, h4, Option.none_or, ← hf, h]

lemma network_of_aligned {n : Network} {t : NetworkText} (hz : t.zone = n.zone)
    (hbits : n.zone = none ∨ ¬ t.HasHostBits) (hn : t.addr.net t.len t.le = n.net) :
    t.network = n := by
  obtain ⟨net, zone⟩ := n
  rw [NetworkText.network, hn, hz]
  rcases hbits with h | h
  · obtain rfl : zone = none := h
    rw [ite_self]
  · rw [if_neg h]

/-- **The text of a network** is read back, with its zone. -/
theorem ipNetwork_network_str {n : Network} (hz : Zoned n.net.fam n.zone) :
    ipNetwork n.str = some n := by
  have hsplit : n.str.toList.splitOn '/' =
      [zonedText n.net.addr n.zone, Nat.toDigits 10 n.net.len] := by
    have hslash : '/' ∉ zonedText n.net.addr n.zone := by
      rw [zonedText, List.mem_append]
      rintro (hc | hc)
      · exact slash_notMem_str _ hc
      · cases hzone : n.zone with
        | none => simp [hzone] at hc
        | some z =>
          rw [hzone, Option.elim_some, List.mem_cons] at hc
          exact (hz z hzone).2.2.2 (hc.resolve_left (by decide))
    have hdigits : '/' ∉ Nat.toDigits 10 n.net.len :=
      notMem_toDigits (by omega) (by omega) (by decide)
    have hs : (['/'].intercalate [zonedText n.net.addr n.zone,
        Nat.toDigits 10 n.net.len]).splitOn '/' =
          [zonedText n.net.addr n.zone, Nat.toDigits 10 n.net.len] := by
      refine List.splitOn_intercalate '/' (fun l hl => ?_) (by simp)
      simp only [List.mem_cons, List.not_mem_nil, or_false] at hl
      rcases hl with rfl | rfl
      · exact hslash
      · exact hdigits
    rw [Network.str, String.toList_ofList, ← zonedText]
    simpa using hs
  have hz' : Zoned n.net.addr.fam n.zone := hz
  have haddr : readAddress n.net.fam (zonedText n.net.addr n.zone) = some (n.net.addr, n.zone) :=
    readAddress_zonedText hz'
  have hread : readNetworkText n.net.fam n.str =
      some ⟨n.net.addr, n.zone, n.net.len, n.net.len_le⟩ := by
    have hlen : n.net.len ≤ n.net.addr.fam.bits := n.net.len_le
    rw [readNetworkText, splitOptionalNetmask, hsplit]
    simp [haddr, makeNetmask_toDigits n.net.len_le, hlen]
  have haligned : ¬ NetworkText.HasHostBits ⟨n.net.addr, n.zone, n.net.len, n.net.len_le⟩ :=
    not_not_intro (Nat.mod_eq_zero_of_dvd n.net.masked)
  rw [ipNetwork, ipNetworkText_of_splitOn (a := n.net.addr) hsplit hread, Option.map_some,
    network_of_aligned rfl (.inr haligned) (net_addr n.net)]

theorem ipNetwork_str (n : Net) : ipNetwork n.str = some ⟨n, none⟩ := by
  rw [← str_zone_none]
  exact ipNetwork_network_str nofun

/-- So is the text of an address, as the network of just the address. -/
theorem ipNetwork_addr_str (a : Addr) : ipNetwork a.str = some ⟨a.host, none⟩ := by
  have hsplit : a.str.toList.splitOn '/' = [zonedText a none] := by
    rw [zonedText, Option.elim_none, List.append_nil]
    exact List.splitOn_eq_singleton (slash_notMem_str a)
  have haddr : readAddress a.fam (zonedText a none) = some (a, none) := readAddress_zonedText nofun
  have hread : readNetworkText a.fam a.str = some ⟨a, none, a.fam.bits, le_rfl⟩ := by
    rw [readNetworkText, splitOptionalNetmask, hsplit]
    simp [haddr]
  have hhost : NetworkText.network ⟨a, none, a.fam.bits, le_rfl⟩ = ⟨a.host, none⟩ :=
    network_of_aligned rfl (.inl rfl) rfl
  rw [ipNetwork, ipNetworkText_of_splitOn hsplit hread, Option.map_some, hhost]

end Text

/-! ### Clean texts -/

/-- **A clean CIDR**: hexadecimal digits, colons and dots that are an address, a slash, and a
decimal prefix length for the family of the address. -/
def CleanCidr (s : String) : Prop :=
  ∃ (addr len : List Char) (a : Addr) (l : ℕ), s.toList = addr ++ '/' :: len ∧
    (∀ c ∈ addr, isAddrChar c = true) ∧ parseAddr a.fam (String.ofList addr) = some a ∧
    (∀ c ∈ len, c.isDigit = true) ∧ readDigits 10 len = some l ∧ l ≤ a.fam.bits

lemma isDigit_of_mem_toDigits {l : ℕ} {c : Char} (h : c ∈ Nat.toDigits 10 l) :
    c.isDigit = true := by
  obtain ⟨d, hd, rfl⟩ := mem_toDigits (by omega) (by omega) h
  interval_cases d <;> rfl

lemma cleanCidr_str (n : Net) : CleanCidr n.str := by
  refine ⟨n.addr.str.toList, Nat.toDigits 10 n.len, n.addr, n.len, String.toList_ofList,
    fun c hc => isAddrChar_of_parseAddr (parseAddr_str n.addr) hc, ?_,
    fun c hc => isDigit_of_mem_toDigits hc, readDigits_toDigits (by omega) (by omega) _, n.len_le⟩
  rw [String.ofList_toList]
  exact parseAddr_str n.addr

/-- **The text of a network is clean** exactly if the network has no zone. -/
theorem cleanCidr_str_iff {n : Network} : CleanCidr n.str ↔ n.zone = none := by
  obtain ⟨n, zone⟩ := n
  cases zone with
  | none =>
    rw [str_zone_none]
    exact iff_of_true (cleanCidr_str n) rfl
  | some z =>
    refine iff_of_false ?_ (by simp)
    rintro ⟨addr, len, a, l, hs, haddr, -, hlen, -⟩
    have hmem : '%' ∈ addr ++ '/' :: len := by
      rw [← hs, Network.str, String.toList_ofList]
      simp
    rcases List.mem_append.1 hmem with hm | hm
    · exact absurd (haddr _ hm) (by decide)
    · rcases List.mem_cons.1 hm with hm | hm
      · exact absurd hm (by decide)
      · exact absurd (hlen _ hm) (by decide)

/-- The characters of such a text. -/
lemma isAddrChar_of_mem_str {n : Net} {c : Char} (h : c ∈ n.str.toList) :
    isAddrChar c = true ∨ c = '/' :=
  isAddrChar_of_parseNet (readNet_eq_some_iff.1 (readNet_str n)) h

/-- nft reads the text of a network only if the network has no zone. -/
theorem readNet_str_iff {n : Network} {m : Net} : readNet n.str = some m ↔ n = ⟨m, none⟩ := by
  obtain ⟨n, zone⟩ := n
  constructor
  · intro h
    cases zone with
    | none =>
      rw [str_zone_none, readNet_str] at h
      rw [Option.some.inj h]
    | some z =>
      have hmem : '%' ∈ (⟨n, some z⟩ : Network).str.toList := by
        rw [Network.str, String.toList_ofList]
        simp
      rcases isAddrChar_of_parseNet (readNet_eq_some_iff.1 h) hmem with hc | hc
      · exact absurd hc (by decide)
      · exact absurd hc (by decide)
  · rintro h
    rw [h, str_zone_none, readNet_str]

lemma network_str_eq_iff {n : Network} {m : Net} : n.str = m.str ↔ n = ⟨m, none⟩ := by
  constructor
  · intro h
    exact readNet_str_iff.1 (h ▸ readNet_str m)
  · rintro rfl
    exact str_zone_none m

/-- A zone stays where there are no host bits. -/
lemma zone_network {t : NetworkText} :
    t.network.zone = none ↔ (t.zone ≠ none → t.HasHostBits) := by
  unfold NetworkText.network
  by_cases h : t.HasHostBits
  · simp [h]
  · simp [h]

/-! ### What is read -/

lemma readAddress_fam {f : Family} {cs : List Char} {p : Addr × Option (List Char)}
    (h : readAddress f cs = some p) : p.1.fam = f := by
  cases f with
  | v4 =>
    obtain ⟨a, ha, rfl⟩ := Option.map_eq_some_iff.1 h
    exact parseAddr_fam ha
  | v6 =>
    obtain ⟨q, -, hq⟩ := Option.bind_eq_some_iff.1 h
    obtain ⟨a, ha, rfl⟩ := Option.map_eq_some_iff.1 hq
    exact parseAddr_fam ha

lemma zoned_of_readAddress {f : Family} {cs : List Char} {p : Addr × Option (List Char)}
    (h : readAddress f cs = some p) (hslash : '/' ∉ cs) :
    Zoned p.1.fam p.2 ∧ ∀ z ∈ p.2, z ⊆ cs := by
  have hfam := readAddress_fam h
  cases f with
  | v4 =>
    obtain ⟨a, -, rfl⟩ := Option.map_eq_some_iff.1 h
    exact ⟨nofun, nofun⟩
  | v6 =>
    obtain ⟨q, hq, hp⟩ := Option.bind_eq_some_iff.1 h
    obtain ⟨a, -, rfl⟩ := Option.map_eq_some_iff.1 hp
    unfold splitScopeId at hq
    split at hq
    · obtain rfl := Option.some.inj hq
      exact ⟨nofun, nofun⟩
    next addr zone hsplit =>
      split at hq
      · cases hq
      next hne =>
        obtain rfl := Option.some.inj hq
        have hmem : zone ∈ cs.splitOn '%' := by simp [hsplit]
        have hsub : zone ⊆ cs := fun c hc => mem_of_mem_splitOn '%' hmem hc
        constructor
        · rintro z ⟨⟩
          exact ⟨hfam, hne, List.notMem_of_mem_splitOn hmem, fun hc => hslash (hsub hc)⟩
        · rintro z ⟨⟩
          exact hsub
    · cases hq

lemma mem_of_splitOptionalNetmask {s : String} {addr : List Char} {mask : Option (List Char)}
    (h : splitOptionalNetmask s = some (addr, mask)) : addr ∈ s.toList.splitOn '/' := by
  unfold splitOptionalNetmask at h
  split at h <;> simp_all

lemma Zoned.none {f : Family} : Zoned f none := by
  simp [Zoned]

lemma zoned_of_readNetworkText {f : Family} {s : String} {t : NetworkText}
    (h : readNetworkText f s = some t) :
    Zoned t.addr.fam t.zone ∧ ∀ z ∈ t.zone, z ⊆ s.toList := by
  unfold readNetworkText at h
  obtain ⟨q, hq, h⟩ := Option.bind_eq_some_iff.1 h
  obtain ⟨p, hp, h⟩ := Option.bind_eq_some_iff.1 h
  obtain ⟨len, -, h⟩ := Option.bind_eq_some_iff.1 h
  have hmem : q.1 ∈ s.toList.splitOn '/' := mem_of_splitOptionalNetmask hq
  obtain ⟨hz, hsub⟩ := zoned_of_readAddress hp (List.notMem_of_mem_splitOn hmem)
  split at h
  · obtain rfl := Option.some.inj h
    exact ⟨hz, fun z hzone c hc => mem_of_mem_splitOn '/' hmem (hsub z hzone hc)⟩
  · cases h

/-- **A network that was read** has a zone that its text can have, from the text that was read. -/
theorem zoned_of_ipNetwork {s : String} {n : Network} (h : ipNetwork s = some n) :
    Zoned n.net.fam n.zone ∧ ∀ z ∈ n.zone, z ⊆ s.toList := by
  obtain ⟨t, ht, rfl⟩ := Option.map_eq_some_iff.1 h
  have hread : Zoned t.addr.fam t.zone ∧ ∀ z ∈ t.zone, z ⊆ s.toList := by
    rcases Option.or_eq_some_iff.1 ht with h4 | ⟨-, h6⟩
    · exact zoned_of_readNetworkText h4
    · exact zoned_of_readNetworkText h6
  unfold NetworkText.network
  by_cases hbits : t.HasHostBits
  · simp [hbits, Zoned.none]
  · rw [if_neg hbits]
    exact hread

/-! ### Families -/

lemma readNetworkText_fam {f : Family} {s : String} {t : NetworkText}
    (h : readNetworkText f s = some t) : t.addr.fam = f := by
  unfold readNetworkText at h
  obtain ⟨q, -, h⟩ := Option.bind_eq_some_iff.1 h
  obtain ⟨p, hp, h⟩ := Option.bind_eq_some_iff.1 h
  obtain ⟨len, -, h⟩ := Option.bind_eq_some_iff.1 h
  split at h
  · obtain rfl := Option.some.inj h
    exact readAddress_fam hp
  · cases h

lemma familyNetwork_fam {f : Family} {s : String} {n : Network} (h : familyNetwork f s = some n) :
    n.net.fam = f := by
  obtain ⟨t, ht, rfl⟩ := Option.map_eq_some_iff.1 h
  exact readNetworkText_fam ht

end Ip
