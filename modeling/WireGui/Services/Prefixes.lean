import WireGui.Lib.Run
import WireGui.Services.PeerCommands
import WireGui.Tasks.Peers

/-!
# Which peer a routed prefix is on

Several devices may list one prefix, but only one peer holds it: the one that was set last.  When
that peer is removed, or set anew without the prefix, nobody holds the prefix any more, and no other
device is set again.  `run_held_iff` says in which runs every prefix keeps a peer.
-/

namespace WireGui

/-- **Every prefix of a device** is held by the peer of a device that lists it. -/
def Held (h : Host) : Prop :=
  ∀ d ∈ h.db.devices, ∀ n, d.Lists n →
    ∃ e ∈ h.db.devices, e.Lists n ∧ h.peers.holder n = some e.publicKey

/-- A device that the event removes or writes anew gives up no prefix that its peer holds and
another device lists. -/
def HostEvent.KeepsShared (e : HostEvent) (h : Host) : Prop :=
  ∀ c ∈ h.db.devices, e.Touches c → ∀ n, h.peers.holder n = some c.publicKey →
    (∀ d ∈ e.written h, ¬ d.Lists n) → ∀ d ∈ h.db.devices, ¬ e.Touches d → ¬ d.Lists n

section Next

variable {settings : Settings} {nft : FrontEnd} {order : SetOrders} {h : Host} {e : HostEvent}

/-- **One request** keeps a peer for every prefix exactly if no other device lists what is given
up. -/
theorem held_next_iff (hwg : settings.wgEnabled = true) (hk : h.db.Keyed) (hr : e.Readable h)
    (hh : Held h) : Held (e.next settings nft order h) ↔ e.KeepsShared h := by
  constructor
  · intro h' c hc htc n hn hnew d hd htd hdn
    obtain ⟨e', -, -, he'⟩ := h' d ((mem_devices_next hk e).2 (.inr ⟨hd, htd⟩)) n hdn
    rcases (holder_next_iff hwg hk hr).1 he' with ⟨w, hw, -, hwn⟩ | ⟨-, hne, hold⟩
    · exact hnew w hw hwn
    · exact hne c hc htc (Option.some.inj (hn.symm.trans hold))
  · intro hkeep d hd n hdn
    by_cases hw : ∃ w ∈ e.written h, w.Lists n
    · -- the row that is written has taken the prefix
      obtain ⟨w, hw, hwn⟩ := hw
      exact ⟨w, (mem_devices_next hk e).2 (.inl hw), hwn,
        (holder_next_iff hwg hk hr).2 (.inl ⟨w, hw, rfl, hwn⟩)⟩
    · push Not at hw
      obtain ⟨hdm, htd⟩ := ((mem_devices_next hk e).1 hd).resolve_left fun hwd => hw d hwd hdn
      obtain ⟨c, hc, hcn, hold⟩ := hh d hdm n hdn
      have htc : ¬ e.Touches c := fun htc => hkeep c hc htc n hold hw d hdm htd hdn
      refine ⟨c, (mem_devices_next hk e).2 (.inr ⟨hc, htc⟩), hcn,
        (holder_next_iff hwg hk hr).2
          (.inr ⟨fun w hwm => ⟨?_, hw w hwm⟩, fun b hb htb he => ?_, hold⟩)⟩
      · exact (key_ne_of_written hk hwm hc htc).symm
      · exact htc (hk.eq_of_key hb hc he ▸ htb)

/-- A reconciliation that finds none of the devices among the peers gives every prefix a peer. -/
theorem held_reconcile (hk : h.db.Keyed) (hr : ∀ d ∈ h.db.devices, ∃ nets, d.nets = some nets)
    (hnew : ∀ d ∈ h.db.devices, d.publicKey ∉ h.peers.peers) :
    Held (reconcile settings nft order h) := by
  intro d hd n hn
  have hcmd : d.addCmd ∈ reconcileCmds order h.db.devices h.peers :=
    (mem_reconcileCmds_iff hk.keys).2 (.inl ⟨d, hd, hnew d hd, rfl⟩)
  obtain ⟨c, hc, hcn, hold⟩ := Wg.exists_holder_run (w := h.peers) nodup_reconcileCmds hcmd
    (nets_addCmd.2 hn)
  rw [← reconcilePeers_eq_run hr] at hold
  rcases (mem_reconcileCmds_iff hk.keys).1 hc with ⟨e, he, -, rfl⟩ | ⟨k, -, -, rfl⟩
  · exact ⟨e, he, nets_addCmd.1 hcn, hold⟩
  · exact absurd hcn List.not_mem_nil

/-- **In which runs every prefix keeps a peer**: those in which no device gives up a prefix that its
peer holds and another device lists. -/
theorem run_held_iff (hwg : settings.wgEnabled = true) (hk : h.db.Keyed) (hh : Held h)
    {events : List HostEvent}
    (hr : Run.Throughout (HostEvent.next settings nft order) HostEvent.Readable events h) :
    Run.Always (HostEvent.next settings nft order) Held events h ↔
      Run.Throughout (HostEvent.next settings nft order) HostEvent.KeepsShared events h :=
  Run.always_iff (I := fun h : Host => h.db.Keyed) (fun e _ hk => keyed_next e hk)
    (fun _ _ hk hr hh => held_next_iff hwg hk hr hh) hk hh hr

end Next

/-! Two devices that relay one network; the second one holds it. -/

def siteNet : Ip.Net := Ip.Addr.net ⟨.v4, 0xc0a80700, by decide⟩ 24 (by decide)

def laptopSite : Device := { laptop with allowedSubnets := ["192.168.7.0/24"] }

def phoneSite : Device := { phone with allowedSubnets := ["192.168.7.0/24"] }

def sitePeers : Peers :=
  (Wg.Interface.empty.set "pk1" [laptopAddr.host, siteNet] none).set "pk2"
    [phoneAddr.host, siteNet] none

def siteHost : Host where
  db := { twoUsers with users := [aliceUser, bobUser], devices := [laptopSite, phoneSite] }
  fw := twoUsersTable
  peers := sitePeers
  routes := {siteNet}

lemma laptopSite_lists {n : Ip.Net} :
    laptopSite.Lists n ↔ n = laptopAddr.host ∨ n = siteNet := by
  have hnets : laptopSite.nets = some [laptopAddr.host, siteNet] := by decide
  simp [Device.Lists, hnets]

lemma phoneSite_lists {n : Ip.Net} : phoneSite.Lists n ↔ n = phoneAddr.host ∨ n = siteNet := by
  have hnets : phoneSite.nets = some [phoneAddr.host, siteNet] := by decide
  simp [Device.Lists, hnets]

lemma siteHost_keyed : siteHost.db.Keyed := ⟨by decide, by decide⟩

lemma siteHost_held : Held siteHost := by
  have hl : laptopSite ∈ siteHost.db.devices := List.mem_cons_self
  have hp : phoneSite ∈ siteHost.db.devices := List.mem_cons_of_mem _ List.mem_cons_self
  refine List.forall_mem_cons.2 ⟨fun n hn => ?_, List.forall_mem_singleton.2 fun n hn => ?_⟩
  · rcases laptopSite_lists.1 hn with rfl | rfl
    · exact ⟨laptopSite, hl, hn, by decide⟩
    · exact ⟨phoneSite, hp, phoneSite_lists.2 (.inr rfl), by decide⟩
  · rcases phoneSite_lists.1 hn with rfl | rfl
    · exact ⟨phoneSite, hp, hn, by decide⟩
    · exact ⟨phoneSite, hp, hn, by decide⟩

/-- **The network is on no peer** once the phone is deleted, though the laptop still relays it. -/
theorem run_held_violated :
    siteHost.db.Keyed ∧ Held siteHost ∧
      ¬ Run.Always (HostEvent.next defaultSettings (.fragment tableName) ascending) Held
        [.delete phoneSite.id] siteHost := by
  refine ⟨siteHost_keyed, siteHost_held, fun h => ?_⟩
  have hwg : defaultSettings.wgEnabled = true := rfl
  have hr : (HostEvent.delete phoneSite.id).Readable siteHost := fun _ hd => by cases hd
  have hkeep := (held_next_iff hwg siteHost_keyed hr siteHost_held).1 h.2
  have hother : laptopSite.id ≠ phoneSite.id := by decide
  exact hkeep phoneSite (List.mem_cons_of_mem _ List.mem_cons_self) rfl siteNet (by decide)
    (fun _ hd => by cases hd) laptopSite List.mem_cons_self hother
    (laptopSite_lists.2 (.inr rfl))

theorem run_held_iff_laptop :
    Run.Always (HostEvent.next defaultSettings (.fragment tableName) ascending) Held
      [.delete laptopSite.id] siteHost := by
  have hwg : defaultSettings.wgEnabled = true := rfl
  have hr : (HostEvent.delete laptopSite.id).Readable siteHost := fun _ hd => by cases hd
  have hother : phoneSite.id ≠ laptopSite.id := by decide
  have hrun : Run.Throughout (HostEvent.next defaultSettings (.fragment tableName) ascending)
      HostEvent.Readable [.delete laptopSite.id] siteHost := ⟨hr, trivial⟩
  refine (run_held_iff hwg siteHost_keyed siteHost_held hrun).2 ⟨?_, trivial⟩
  intro c hc htc n hn _ d hd htd hdn
  simp only [siteHost, List.mem_cons, List.not_mem_nil, or_false] at hc hd
  rcases hc with rfl | rfl
  · rcases hd with rfl | rfl
    · exact htd rfl
    · rcases phoneSite_lists.1 hdn with rfl | rfl
      · exact absurd hn (by decide)
      · exact absurd hn (by decide)
  · exact absurd htc hother

end WireGui
