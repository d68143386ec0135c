import WireGui.Ip.Network
import WireGui.Lib.Text
import WireGui.Services.Firewall
import Mathlib.Data.String.Basic

/-!
# `services/wireguard.py`: the routes

`add_routes` and `remove_routes` run `ip route` for one subnet after the other and let no error
through; `sync_routes` compares the destinations that `ip route show` prints with the ones it is
given.  `mem_syncRoutes_iff` says what is routed afterwards.
-/

namespace WireGui

/-- The destinations routed over the interface. -/
abbrev Routes := Finset Ip.Net

/-- A destination, as `ip -4` or `ip -6` reads it. -/
def readDest (f : Ip.Family) (s : String) : Option Ip.Net :=
  (Ip.readStrict s).filter fun n => n.fam = f

/-- `ip route add`. -/
def routeAdd (f : Ip.Family) (subnet : String) (r : Routes) : Except String Routes :=
  match readDest f subnet with
  | none => .error "Error: any valid prefix is expected."
  | some n => if n ∈ r then .error "RTNETLINK answers: File exists" else .ok (insert n r)

/-- `ip route del`. -/
def routeDel (f : Ip.Family) (subnet : String) (r : Routes) : Except String Routes :=
  match readDest f subnet with
  | none => .error "Error: any valid prefix is expected."
  | some n => if n ∈ r then .ok (r.erase n) else .error "RTNETLINK answers: No such process"

/-- An error that is logged, or not even that. -/
def orKeepRoutes (r : Routes) : Except String Routes → Routes
  | .ok r' => r'
  | .error _ => r

def addRoutes (subnets : List String) (r : Routes) : Routes :=
  subnets.foldl (fun r subnet => orKeepRoutes r (routeAdd (family subnet) subnet r)) r

def removeRoutes (subnets : List String) (r : Routes) : Routes :=
  subnets.foldl (fun r subnet => orKeepRoutes r (routeDel (family subnet) subnet r)) r

/-- `_normalize_cidr`; `none` is a `ValueError`. -/
def normalizeCidr (value : String) : Option String := (Ip.ipNetwork value).map Ip.Network.str

/-- How `ip route show` writes a destination. -/
def destText (n : Ip.Net) : String :=
  if n.len = 0 then "default" else if n.len = n.fam.bits then n.addr.str else n.str

/-- The line of a route. -/
def routeLine (n : Ip.Net) : String := destText n ++ " scope link"

/-- What `get_interface_routes` makes of a line. -/
def readRouteLine (line : String) : Option String :=
  let line := strip line
  if line = "" ∨ "default".toList <+: line.toList then none else normalizeCidr (firstWord line)

/-- `get_interface_routes`, which goes through the lines of both families. -/
def getInterfaceRoutes (r : Routes) : Finset String :=
  r.biUnion fun n => (readRouteLine (routeLine n)).toFinset

/-- The networks that are never touched. -/
def protectedRoutes (settings : Settings) : Finset String :=
  (normalizeCidr settings.wgIpv4Network).toFinset ∪ (normalizeCidr settings.wgIpv6Network).toFinset

/-- Each of the texts in its normal form, without those that have none. -/
def normalized (subnets : Finset String) : Finset String :=
  subnets.biUnion fun subnet => (normalizeCidr subnet).toFinset

def syncRoutes (settings : Settings) (expectedSubnets : Finset String) (r : Routes) : Routes :=
  let expected := normalized expectedSubnets
  let actual := getInterfaceRoutes r
  let toAdd := (expected \ actual).sort (· ≤ ·)
  let toRemove := ((actual \ expected) \ protectedRoutes settings).sort (· ≤ ·)
  removeRoutes toRemove (addRoutes toAdd r)

/-! ### What is routed -/

section Spec

variable {r : Routes} {n : Ip.Net} {s : String}

lemma family_of_readNet (h : Ip.readNet s = some n) : family s = n.fam := by
  have h' := Ip.readNet_eq_some_iff.1 h
  unfold family
  split at h' <;> rw [Ip.parseNet_fam h'] <;> simp_all

/-- The text of a network is read as such, whichever command it is given to. -/
lemma readDest_str (n : Ip.Net) : readDest (family n.str) n.str = some n := by
  rw [readDest, Ip.readStrict_str, Option.filter_some, family_of_readNet (Ip.readNet_str n),
    if_pos (by simp)]

lemma mem_addRoutes_iff {subnets : List String} :
    n ∈ addRoutes subnets r ↔ n ∈ r ∨ ∃ s ∈ subnets, readDest (family s) s = some n := by
  induction subnets generalizing r with
  | nil => simp [addRoutes]
  | cons s subnets ih =>
    have hone : ∀ m, m ∈ orKeepRoutes r (routeAdd (family s) s r) ↔
        m ∈ r ∨ readDest (family s) s = some m := by
      intro m
      unfold routeAdd
      cases readDest (family s) s with
      | none => simp [orKeepRoutes]
      | some k =>
        by_cases hk : k ∈ r
        · simpa [hk, orKeepRoutes] using fun e => e ▸ hk
        · simp [hk, orKeepRoutes, or_comm, eq_comm]
    refine (ih (r := orKeepRoutes r (routeAdd (family s) s r))).trans ?_
    rw [hone]
    simp [or_assoc]

lemma mem_removeRoutes_iff {subnets : List String} :
    n ∈ removeRoutes subnets r ↔ n ∈ r ∧ ∀ s ∈ subnets, readDest (family s) s ≠ some n := by
  induction subnets generalizing r with
  | nil => simp [removeRoutes]
  | cons s subnets ih =>
    have hone : ∀ m, m ∈ orKeepRoutes r (routeDel (family s) s r) ↔
        m ∈ r ∧ readDest (family s) s ≠ some m := by
      intro m
      unfold routeDel
      cases readDest (family s) s with
      | none => simp [orKeepRoutes]
      | some k =>
        by_cases hk : k ∈ r
        · simp [hk, orKeepRoutes, and_comm, eq_comm]
        · simp only [if_neg hk, orKeepRoutes, ne_eq, Option.some.injEq]
          exact ⟨fun hm => ⟨hm, fun e => hk (e ▸ hm)⟩, fun h => h.1⟩
    refine (ih (r := orKeepRoutes r (routeDel (family s) s r))).trans ?_
    rw [hone]
    simp [and_assoc]

/-- If `ip` reads the text at all, then as the network whose text it is. -/
def OwnText (s : String) : Prop := ∀ n, readDest (family s) s = some n → s = n.str

lemma ownText_str (n : Ip.Net) : OwnText n.str := by
  intro m hm
  rw [readDest_str] at hm
  rw [Option.some.inj hm]

/-- Texts of networks are added as these. -/
lemma mem_addRoutes_of_str {subnets : List String} (h : ∀ s ∈ subnets, OwnText s) :
    n ∈ addRoutes subnets r ↔ n ∈ r ∨ n.str ∈ subnets := by
  rw [mem_addRoutes_iff]
  refine or_congr Iff.rfl ⟨?_, fun hn => ⟨_, hn, readDest_str n⟩⟩
  rintro ⟨s, hs, hd⟩
  exact h s hs n hd ▸ hs

lemma mem_removeRoutes_of_str {subnets : List String} (h : ∀ s ∈ subnets, OwnText s) :
    n ∈ removeRoutes subnets r ↔ n ∈ r ∧ n.str ∉ subnets := by
  rw [mem_removeRoutes_iff]
  refine and_congr Iff.rfl ⟨fun hn hs => hn _ hs (readDest_str n), ?_⟩
  intro hn s hs hd
  exact hn (h s hs n hd ▸ hs)

/-- A normal form is the text of a network without a zone exactly for such a network. -/
lemma normalizeCidr_eq_some_iff :
    normalizeCidr s = some n.str ↔ Ip.ipNetwork s = some ⟨n, none⟩ := by
  unfold normalizeCidr
  rw [Option.map_eq_some_iff]
  constructor
  · rintro ⟨m, hm, he⟩
    rw [hm, Ip.network_str_eq_iff.1 he]
  · exact fun h => ⟨_, h, Ip.str_zone_none n⟩

/-- `ip` reads no other normal form. -/
lemma ownText_of_normalizeCidr {c : String} (h : normalizeCidr s = some c) : OwnText c := by
  obtain ⟨m, -, rfl⟩ := Option.map_eq_some_iff.1 h
  intro k hk
  have hread : Ip.readNet m.str = some k :=
    (Option.filter_eq_some_iff.1 (Option.filter_eq_some_iff.1 hk).1).1
  rw [Ip.readNet_str_iff.1 hread, Ip.str_zone_none]

/-- The text of a destination other than the default one is read back, and has no blank. -/
lemma readNet_destText (h : n.len ≠ 0) :
    Ip.readNet (destText n) = some n ∧ Ip.ipNetwork (destText n) = some ⟨n, none⟩ ∧
      ∀ c ∈ (destText n).toList, isSpace c = false ∧ c ≠ 'u' := by
  have hboth : Ip.readNet (destText n) = some n ∧ Ip.ipNetwork (destText n) = some ⟨n, none⟩ := by
    unfold destText
    rw [if_neg h]
    split
    next hb => rw [Ip.readNet_addr_str, Ip.ipNetwork_addr_str, Ip.host_addr hb]; exact ⟨rfl, rfl⟩
    next => exact ⟨Ip.readNet_str n, Ip.ipNetwork_str n⟩
  obtain ⟨hread, hnetwork⟩ := hboth
  refine ⟨hread, hnetwork, fun c hc => ?_⟩
  have hrange : 0x2e ≤ c.toNat ∧ c.toNat ≤ 0x66 := by
    rcases Ip.isAddrChar_of_parseNet (Ip.readNet_eq_some_iff.1 hread) hc with hc | rfl
    · exact Ip.toNat_of_isAddrChar hc
    · decide
  refine ⟨isSpace_eq_false (by omega) (by omega), ?_⟩
  rintro rfl
  exact absurd hrange.2 (by decide)

/-- **A line of the routing table** is read as its destination, except for the default route. -/
lemma readRouteLine_routeLine (n : Ip.Net) :
    readRouteLine (routeLine n) = if n.len = 0 then none else some n.str := by
  by_cases h0 : n.len = 0
  · rw [if_pos h0, routeLine, destText, if_pos h0]
    rfl
  obtain ⟨hread, hnetwork, hchars⟩ := readNet_destText h0
  have hne : destText n ≠ "" := by
    intro he
    rw [he] at hread
    exact Ip.parseNet_ne_empty (Ip.readNet_eq_some_iff.1 hread) rfl
  obtain ⟨c, cs, hcs⟩ : ∃ c cs, (destText n).toList = c :: cs := by
    refine List.exists_cons_of_ne_nil fun he => hne ?_
    simpa using congrArg String.ofList he
  have hline : (routeLine n).toList = (destText n).toList ++ " scope link".toList :=
    String.toList_append
  have hstrip : strip (routeLine n) = routeLine n := by
    refine strip_eq_self (fun d hd => ?_) fun d hd => ?_
    · rw [hline, hcs] at hd
      obtain rfl : c = d := by simpa using hd
      exact (hchars c (by rw [hcs]; exact List.mem_cons_self)).1
    · rw [hline, List.getLast?_append] at hd
      obtain rfl : 'k' = d := by simpa using hd
      decide
  have hword : firstWord (routeLine n) = destText n :=
    firstWord_append (fun d hd => (hchars d hd).1) hne (by decide)
  -- no destination begins like `default`
  have hdefault : ¬ "default".toList <+: (routeLine n).toList := by
    rintro ⟨rest, hrest⟩
    have htake := congrArg (List.takeWhile fun c => decide ¬ isSpace c = true) hrest
    rw [hline, List.takeWhile_append_of_pos (by decide), List.takeWhile_append_of_pos] at htake
    · have hblank : " scope link".toList.takeWhile (fun c => decide ¬ isSpace c = true) = [] := by
        decide
      have hmem : 'u' ∈ "default".toList ++
          rest.takeWhile fun c => decide ¬ isSpace c = true := by simp
      rw [htake, hblank, List.append_nil] at hmem
      exact (hchars 'u' hmem).2 rfl
    · intro d hd
      simpa using (hchars d hd).1
  have hempty : routeLine n ≠ "" := by
    intro he
    rw [he] at hline
    simp [hcs] at hline
  unfold readRouteLine
  simp only [hstrip, hempty, hdefault, false_or, if_false, hword, if_neg h0]
  exact normalizeCidr_eq_some_iff.2 hnetwork

lemma mem_getInterfaceRoutes_iff : n.str ∈ getInterfaceRoutes r ↔ n ∈ r ∧ n.len ≠ 0 := by
  unfold getInterfaceRoutes
  simp only [Finset.mem_biUnion, readRouteLine_routeLine, Option.mem_toFinset]
  constructor
  · rintro ⟨m, hm, he⟩
    split at he
    · cases he
    next h0 =>
      obtain rfl := Ip.net_str_injective (Option.some.inj he)
      exact ⟨hm, h0⟩
  · rintro ⟨hn, h0⟩
    exact ⟨n, hn, by rw [if_neg h0]; rfl⟩

lemma exists_of_mem_getInterfaceRoutes {c : String} (h : c ∈ getInterfaceRoutes r) :
    ∃ m : Ip.Net, c = m.str := by
  unfold getInterfaceRoutes at h
  simp only [Finset.mem_biUnion, readRouteLine_routeLine, Option.mem_toFinset] at h
  obtain ⟨m, -, he⟩ := h
  split at he
  · cases he
  · exact ⟨m, (Option.some.inj he).symm⟩

lemma mem_normalized_iff {subnets : Finset String} :
    n.str ∈ normalized subnets ↔ ∃ s ∈ subnets, Ip.ipNetwork s = some ⟨n, none⟩ := by
  simp [normalized, normalizeCidr_eq_some_iff]

/-- The tunnel networks. -/
def Settings.IsTunnel (settings : Settings) (n : Ip.Net) : Prop :=
  Ip.ipNetwork settings.wgIpv4Network = some ⟨n, none⟩ ∨
    Ip.ipNetwork settings.wgIpv6Network = some ⟨n, none⟩

lemma mem_protectedRoutes_iff {settings : Settings} :
    n.str ∈ protectedRoutes settings ↔ settings.IsTunnel n := by
  simp [protectedRoutes, Settings.IsTunnel, normalizeCidr_eq_some_iff]

/-- **What is routed after `sync_routes`**: the subnets it is given, and of what was routed before
the tunnel networks and a default route. -/
theorem mem_syncRoutes_iff {settings : Settings} {subnets : Finset String} :
    n ∈ syncRoutes settings subnets r ↔ (∃ s ∈ subnets, Ip.ipNetwork s = some ⟨n, none⟩) ∨
      (n ∈ r ∧ (settings.IsTunnel n ∨ n.len = 0)) := by
  have hactual : ∀ c ∈ getInterfaceRoutes r, OwnText c := by
    intro c hc
    obtain ⟨m, rfl⟩ := exists_of_mem_getInterfaceRoutes hc
    exact ownText_str m
  have hexpected : ∀ c ∈ normalized subnets, OwnText c := by
    intro c hc
    obtain ⟨s, -, hs⟩ := Finset.mem_biUnion.1 hc
    exact ownText_of_normalizeCidr (Option.mem_toFinset.1 hs)
  unfold syncRoutes
  rw [mem_removeRoutes_of_str, mem_addRoutes_of_str]
  · simp only [Finset.mem_sort, Finset.mem_sdiff, mem_getInterfaceRoutes_iff, mem_normalized_iff,
      mem_protectedRoutes_iff]
    by_cases hs : ∃ s ∈ subnets, Ip.ipNetwork s = some ⟨n, none⟩
    · simp only [hs]
      tauto
    · simp only [hs]
      tauto
  · intro c hc
    simp only [Finset.mem_sort, Finset.mem_sdiff] at hc
    exact hexpected c hc.1
  · intro c hc
    simp only [Finset.mem_sort, Finset.mem_sdiff] at hc
    exact hactual c hc.1.1

end Spec

end WireGui
