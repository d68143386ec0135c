import WireGui.Services.Frame
import WireGui.Services.Routes

/-!
# Whether `sync_routes` makes the routes match exactly

`get_interface_routes` leaves default routes out, so that `sync_routes` neither removes one nor sees
that one it is given is there.  `syncRoutes_exact_iff` says when its routes are the ones it is given
and a second call has nothing to do.
-/

namespace WireGui

/-! ### Commands -/

section Commands

variable (settings : Settings) (expectedSubnets : Finset String) (r : Routes)

/-- The destinations that `sync_routes` gives to `add_routes`. -/
def routesToAdd : List String :=
  (SetOrder.sorted (normalized expectedSubnets \ getInterfaceRoutes r)).toList

/-- The destinations that `sync_routes` gives to `remove_routes`. -/
def routesToRemove : List String :=
  (SetOrder.sorted
    ((getInterfaceRoutes r \ normalized expectedSubnets) \ protectedRoutes settings)).toList

/-- One `ip` command for each subnet, up to the first that fails. -/
def runRoutes (cmd : Ip.Family → String → Routes → Except String Routes) (subnets : List String) :
    Except String Routes :=
  subnets.foldlM (fun r subnet => cmd (family subnet) subnet r) r

/-- **Every `ip` command** of `sync_routes` succeeds. -/
def SyncSucceeds : Prop :=
  ∃ r₁ r₂, runRoutes r routeAdd (routesToAdd expectedSubnets r) = .ok r₁ ∧
    runRoutes r₁ routeDel (routesToRemove settings expectedSubnets r) = .ok r₂

/-- A network that the texts name, host bits cleared. -/
def Expected (n : Ip.Net) : Prop :=
  ∃ s ∈ expectedSubnets, ∃ network, Ip.ipNetwork s = some network ∧ network.net = n

/-- **The routes are exactly** the subnets that are expected, and those of the tunnel networks that
were there before; a second call with the same argument has no command to run. -/
structure SyncExact : Prop where
  routes : ∀ n, n ∈ syncRoutes settings expectedSubnets r ↔
    Expected expectedSubnets n ∨ (n ∈ r ∧ settings.IsTunnel n)
  nothingToAdd : routesToAdd expectedSubnets (syncRoutes settings expectedSubnets r) = []
  nothingToRemove :
    routesToRemove settings expectedSubnets (syncRoutes settings expectedSubnets r) = []

end Commands

section Exact

variable {settings : Settings} {expectedSubnets : Finset String} {r : Routes} {n : Ip.Net}

/-- A command that succeeds was given something that `ip` reads. -/
lemma readDest_of_runRoutes {subnets : List String} {r r' : Routes}
    (h : runRoutes r routeAdd subnets = .ok r') :
    ∀ s ∈ subnets, ∃ n, readDest (family s) s = some n := by
  induction subnets generalizing r with
  | nil => exact fun s hs => absurd hs List.not_mem_nil
  | cons s subnets ih =>
    rw [runRoutes, List.foldlM_cons] at h
    unfold routeAdd at h
    cases hd : readDest (family s) s with
    | none =>
      rw [hd] at h
      cases h
    | some n =>
      rw [hd] at h
      refine List.forall_mem_cons.2 ⟨⟨n, hd⟩, ?_⟩
      by_cases hn : n ∈ r
      · simp only [if_pos hn] at h
        cases h
      · simp only [if_neg hn] at h
        exact ih h

/-- Where the commands succeed, no subnet that is expected keeps a zone. -/
lemma zone_of_expected (hok : SyncSucceeds settings expectedSubnets r) {s : String}
    (hs : s ∈ expectedSubnets) {network : Ip.Network} (hread : Ip.ipNetwork s = some network) :
    network = ⟨network.net, none⟩ := by
  obtain ⟨r₁, r₂, hadd, -⟩ := hok
  have hnorm : normalizeCidr s = some network.str := by
    rw [normalizeCidr, hread, Option.map_some]
  obtain ⟨m, hm⟩ : ∃ m : Ip.Net, network.str = m.str := by
    by_cases hactual : network.str ∈ getInterfaceRoutes r
    · exact exists_of_mem_getInterfaceRoutes hactual
    · have hmem : network.str ∈ routesToAdd expectedSubnets r := by
        rw [routesToAdd, SetOrder.mem_iff, Finset.mem_sdiff]
        refine ⟨Finset.mem_biUnion.2 ⟨s, hs, ?_⟩, hactual⟩
        rw [hnorm]
        exact Option.mem_toFinset.2 rfl
      obtain ⟨m, hm⟩ := readDest_of_runRoutes hadd _ hmem
      exact ⟨m, ownText_of_normalizeCidr hnorm m hm⟩
  rw [Ip.network_str_eq_iff.1 hm]

lemma expected_iff (hok : SyncSucceeds settings expectedSubnets r) :
    Expected expectedSubnets n ↔ ∃ s ∈ expectedSubnets, Ip.ipNetwork s = some ⟨n, none⟩ := by
  refine ⟨?_, fun ⟨s, hs, hread⟩ => ⟨s, hs, _, hread, rfl⟩⟩
  rintro ⟨s, hs, network, hread, rfl⟩
  exact ⟨s, hs, by rw [hread, ← zone_of_expected hok hs hread]⟩

/-- What a second call would remove: nothing, whatever the routes were. -/
lemma routesToRemove_syncRoutes :
    routesToRemove settings expectedSubnets (syncRoutes settings expectedSubnets r) = [] := by
  refine List.eq_nil_iff_forall_not_mem.2 fun c hc => ?_
  rw [routesToRemove, SetOrder.mem_iff, Finset.mem_sdiff, Finset.mem_sdiff] at hc
  obtain ⟨⟨hactual, hexpected⟩, hprotected⟩ := hc
  obtain ⟨n, rfl⟩ := exists_of_mem_getInterfaceRoutes hactual
  rw [mem_getInterfaceRoutes_iff, mem_syncRoutes_iff] at hactual
  rw [mem_normalized_iff] at hexpected
  rw [mem_protectedRoutes_iff] at hprotected
  obtain ⟨hroute, hlen⟩ := hactual
  rcases hroute with he | ⟨-, ht | h0⟩
  · exact hexpected he
  · exact hprotected ht
  · exact hlen h0

/-- What a second call would add: the default routes that are expected. -/
lemma routesToAdd_syncRoutes (hok : SyncSucceeds settings expectedSubnets r) :
    routesToAdd expectedSubnets (syncRoutes settings expectedSubnets r) = [] ↔
      ∀ n, Expected expectedSubnets n → n.len ≠ 0 := by
  rw [List.eq_nil_iff_forall_not_mem]
  constructor
  · intro h n hn h0
    have he := (expected_iff hok).1 hn
    refine h n.str ?_
    rw [routesToAdd, SetOrder.mem_iff, Finset.mem_sdiff, mem_getInterfaceRoutes_iff]
    exact ⟨mem_normalized_iff.2 he, fun hr => hr.2 h0⟩
  · intro h c hc
    rw [routesToAdd, SetOrder.mem_iff, Finset.mem_sdiff] at hc
    obtain ⟨hexpected, hactual⟩ := hc
    obtain ⟨s, hs, hnorm⟩ := Finset.mem_biUnion.1 hexpected
    obtain ⟨network, hread, rfl⟩ := Option.map_eq_some_iff.1 (Option.mem_toFinset.1 hnorm)
    have hn : Expected expectedSubnets network.net := ⟨s, hs, network, hread, rfl⟩
    rw [zone_of_expected hok hs hread, Ip.str_zone_none, mem_getInterfaceRoutes_iff,
      mem_syncRoutes_iff] at hactual
    exact hactual ⟨.inl ((expected_iff hok).1 hn), h _ hn⟩

/-- **The routes match exactly**, and a second call has nothing to do, if no default route is
expected and none was there that is not a tunnel network. -/
theorem syncRoutes_exact_iff (hok : SyncSucceeds settings expectedSubnets r) :
    SyncExact settings expectedSubnets r ↔
      (∀ n, Expected expectedSubnets n → n.len ≠ 0) ∧
        ∀ n ∈ r, n.len = 0 → settings.IsTunnel n := by
  constructor
  · intro h
    have hnone := (routesToAdd_syncRoutes hok).1 h.nothingToAdd
    refine ⟨hnone, fun n hn h0 => ?_⟩
    rcases (h.routes n).1 (mem_syncRoutes_iff.2 (.inr ⟨hn, .inr h0⟩)) with he | ⟨-, ht⟩
    · exact absurd h0 (hnone n he)
    · exact ht
  · rintro ⟨hnone, hdefault⟩
    refine ⟨fun n => ?_, (routesToAdd_syncRoutes hok).2 hnone, routesToRemove_syncRoutes⟩
    rw [mem_syncRoutes_iff, expected_iff hok]
    refine or_congr Iff.rfl (and_congr_right fun hn => ?_)
    exact or_iff_left_of_imp (hdefault n hn)

end Exact

/-! A subnet that is everything. -/

def everything : Ip.Net := laptopAddr.net 0 (by decide)

lemma routesToRemove_empty (settings : Settings) (subnets : Finset String) :
    routesToRemove settings subnets ∅ = [] := by
  have hnone : (getInterfaceRoutes ∅ \ normalized subnets) \ protectedRoutes settings = ∅ := by
    simp [getInterfaceRoutes]
  rw [routesToRemove, hnone, SetOrder.toList_eq_nil]

/-- The default route is given to `ip route add` whatever is routed. -/
lemma routesToAdd_everything (r : Routes) : routesToAdd {"0.0.0.0/0"} r = ["0.0.0.0/0"] := by
  have hread : normalized {"0.0.0.0/0"} = {everything.str} := by decide
  have hmem : everything.str ∉ getInterfaceRoutes r := fun h =>
    (mem_getInterfaceRoutes_iff.1 h).2 rfl
  rw [routesToAdd, hread, Finset.sdiff_eq_self_of_disjoint (Finset.disjoint_singleton_left.2 hmem),
    SetOrder.toList_sorted_singleton]
  decide

/-- **The default route is added again** by the second call. -/
theorem syncRoutes_default_route :
    SyncSucceeds defaultSettings {"0.0.0.0/0"} ∅ ∧ ¬ SyncExact defaultSettings {"0.0.0.0/0"} ∅ := by
  refine ⟨⟨{everything}, {everything}, ?_, ?_⟩, fun h => ?_⟩
  · rw [routesToAdd_everything]
    decide
  · rw [routesToRemove_empty]
    rfl
  · have hadd := h.nothingToAdd
    rw [routesToAdd_everything] at hadd
    cases hadd

def site : Ip.Net := Ip.Addr.net ⟨.v4, 0xc0a80705, by decide⟩ 24 (by decide)

theorem syncRoutes_exact_iff_site : SyncExact defaultSettings {"192.168.7.5/24"} ∅ := by
  have hread : normalized {"192.168.7.5/24"} = {"192.168.7.0/24"} := by decide
  have hadd : routesToAdd {"192.168.7.5/24"} ∅ = ["192.168.7.0/24"] := by
    have hall : {"192.168.7.0/24"} \ getInterfaceRoutes ∅ = {"192.168.7.0/24"} := by
      simp [getInterfaceRoutes]
    rw [routesToAdd, hread, hall, SetOrder.toList_sorted_singleton]
  have hok : SyncSucceeds defaultSettings {"192.168.7.5/24"} ∅ := by
    refine ⟨{site}, {site}, ?_, ?_⟩
    · rw [hadd]
      decide
    · rw [routesToRemove_empty]
      rfl
  refine (syncRoutes_exact_iff hok).2 ⟨?_, fun n hn => absurd hn (Finset.notMem_empty n)⟩
  rintro n ⟨s, hs, network, hnet, rfl⟩
  obtain rfl := Finset.mem_singleton.1 hs
  have hlen : ∀ m ∈ Ip.ipNetwork "192.168.7.5/24", m.net.len ≠ 0 := by decide
  exact hlen network hnet

end WireGui
