import WireGui.Services.AccessControl
import WireGui.Services.RouteSync
import WireGui.Startup
import WireGui.Tasks.Connectivity

/-!
# After a reboot

The kernel has lost the interface with its peers and routes and the firewall; all that is left are
the rows.  `start_restores`: a start that does not raise makes all of it again, so that each device
is reached at its addresses, and what comes from its peer is treated as the rules of its owner say.
A start raises only if a step of it fails.
-/

namespace WireGui

open Raise (Ends)

/-! ### Peers and packets -/

/-- The peer that packets to the address are sent to, and are let in from. -/
def Peers.Owner (w : Peers) (a : Ip.Addr) (publicKey : String) : Prop :=
  w.Owns (fun a n => a ∈ n) Ip.Net.len a publicKey

section Nets

variable {d : Device} {a : Ip.Addr} {n m : Ip.Net} {f : Ip.Family} {s t : String}

/-- An address has one network of each length. -/
lemma net_eq_of_len (ha : a ∈ n) (ha' : a ∈ m) (hlen : n.len = m.len) : n = m := by
  obtain ⟨fn, bn, ln, hltn, hlen_le, hmasked⟩ := n
  obtain ⟨fm, bm, lm, hltm, hlen_le', hmasked'⟩ := m
  obtain ⟨hf, hv⟩ := ha
  obtain ⟨hf', hv'⟩ := ha'
  dsimp only at *
  subst hlen
  obtain rfl : fn = fm := hf.symm.trans hf'
  have hbase : bn / 2 ^ (fn.bits - ln) = bm / 2 ^ (fn.bits - ln) := hv.symm.trans hv'
  obtain rfl : bn = bm := by
    rw [← Nat.div_mul_cancel hmasked, hbase, Nat.div_mul_cancel hmasked']
  rfl

/-- An address with the number of its bits is read as the address is. -/
lemma host_of_readNet (ht : t.toList = '/' :: Nat.toDigits 10 f.bits)
    (hm : Ip.parseNet f s = some m) (hn : Ip.readNet (s ++ t) = some n) :
    ∃ b : Ip.Addr, m = b.host ∧ n = b.host := by
  have hslash : '/' ∉ Nat.toDigits 10 f.bits := by cases f <;> decide
  have hsplit : (s ++ t).toList.splitOn '/' =
      s.toList.splitOn '/' ++ [Nat.toDigits 10 f.bits] := by
    rw [String.toList_append, ht, List.splitOn_append_cons_self, List.splitOn_eq_singleton hslash]
  have hcolon : ':' ∈ (s ++ t).toList ↔ f = .v6 := by
    have hnot : ':' ∉ '/' :: Nat.toDigits 10 f.bits := by cases f <;> decide
    rw [String.toList_append, List.mem_append, ht, or_iff_left hnot]
    exact Ip.colon_mem_iff_of_parseNet hm
  have hread : Ip.parseNet f (s ++ t) = some n := by
    have hn := Ip.readNet_eq_some_iff.1 hn
    cases f with
    | v4 => rwa [if_neg fun hc => by cases hcolon.1 hc] at hn
    | v6 => rwa [if_pos (hcolon.2 rfl)] at hn
  unfold Ip.parseNet at hm hread
  rw [hsplit] at hread
  split at hm
  next w hw =>
    rw [hw] at hread
    obtain ⟨b, hb, rfl⟩ := Option.map_eq_some_iff.1 hm
    obtain rfl := Ip.parseAddr_fam hb
    simp only [List.cons_append, List.nil_append, hb, Ip.parseLen_toDigits] at hread
    rw [dif_pos le_rfl] at hread
    exact ⟨b, rfl, (Option.some.inj hread).symm⟩
  next w l hw =>
    rw [hw] at hread
    cases hread
  next => cases hm

/-- What `wg` is told of a device is among what nft is told of it. -/
lemma sendsFrom_of_lists (he : ∃ nets, d.entry.nets = some nets) (hn : d.Lists n) (ha : a ∈ n) :
    d.SendsFrom a := by
  obtain ⟨nets, hnets, hmem⟩ := hn
  obtain ⟨nets', he⟩ := he
  refine ⟨nets', he, n, ?_, ha⟩
  obtain ⟨v4, h4, he⟩ := Option.bind_eq_some_iff.1 he
  obtain ⟨v6, h6, he⟩ := Option.bind_eq_some_iff.1 he
  obtain ⟨subnets, hs, he⟩ := Option.bind_eq_some_iff.1 he
  rw [← Option.some.inj he]
  obtain ⟨s, hsmem, hread⟩ := List.exists_of_mem_mapM hnets hmem
  unfold Device.deviceAllowedIps at hsmem
  rw [List.mem_append, List.mem_append, List.mem_map, List.mem_map] at hsmem
  rcases hsmem with (⟨w, hw, rfl⟩ | ⟨w, hw, rfl⟩) | hsub
  · obtain ⟨m, hm, hp⟩ := List.exists_of_mapM h4 hw
    obtain ⟨b, rfl, rfl⟩ := host_of_readNet (f := .v4) (t := "/32") (by decide) hp hread
    exact List.mem_append_left _ (List.mem_append_left _ hm)
  · obtain ⟨m, hm, hp⟩ := List.exists_of_mapM h6 hw
    obtain ⟨b, rfl, rfl⟩ := host_of_readNet (f := .v6) (t := "/128") (by decide) hp hread
    exact List.mem_append_left _ (List.mem_append_right _ hm)
  · obtain ⟨m, hm, hp⟩ := List.exists_of_mapM hs hsub
    obtain rfl := Option.some.inj (hp.symm.trans hread)
    exact List.mem_append_right _ hm

lemma parseNet_of_parseAddr (h : Ip.parseAddr f s = some a) : Ip.parseNet f s = some a.host := by
  have hslash : '/' ∉ s.toList := by
    intro hc
    exact absurd (Ip.isAddrChar_of_parseAddr h hc) (by decide)
  unfold Ip.parseNet
  rw [List.splitOn_eq_singleton hslash]
  simp only [String.ofList_toList, h, Option.map_some]

/-- The tunnel addresses of a device are among its prefixes. -/
lemma lists_of_hasAddress (hd : ∃ nets, d.nets = some nets) (ha : d.HasAddress a) :
    d.Lists a.host := by
  obtain ⟨nets, hnets⟩ := hd
  have htext : ∀ {f : Ip.Family} {s t : String}, t.toList = '/' :: Nat.toDigits 10 f.bits →
      s ++ t ∈ d.deviceAllowedIps → Ip.parseAddr f s = some a → d.Lists a.host := by
    intro f s t ht hmem hp
    obtain ⟨n, hn, hread⟩ := List.exists_of_mapM hnets hmem
    obtain ⟨b, hb, rfl⟩ := host_of_readNet ht (parseNet_of_parseAddr hp) hread
    rw [← hb] at hn
    exact ⟨nets, hnets, hn⟩
  have htruthy : ∀ {f : Ip.Family} {s : String} {o : Option String}, Ip.parseAddr f s = some a →
      s ∈ o → s ∈ (truthy o).toList := by
    intro f s o hp hs
    have hne : s ≠ "" := by
      rintro rfl
      cases f <;> cases hp
    rw [Option.mem_def.1 hs, truthy_some hne]
    exact List.mem_cons_self
  rcases ha with ⟨s, hs, hp⟩ | ⟨s, hs, hp⟩
  · refine htext (f := .v4) (t := "/32") (by decide) ?_ hp
    exact List.mem_append_left _ (List.mem_append_left _ (List.mem_map_of_mem (htruthy hp hs)))
  · refine htext (f := .v6) (t := "/128") (by decide) ?_ hp
    exact List.mem_append_left _ (List.mem_append_right _ (List.mem_map_of_mem (htruthy hp hs)))

end Nets

/-! ### What is there after a start -/

/-- What a start needs of the rows: keys and prefixes that are read and are not shared, texts that
nft takes, and subnets in their normal form. -/
structure Database.Startable (db : Database) : Prop where
  keys : (db.devices.map Device.publicKey).Nodup
  nets : ∀ d ∈ db.devices, ∃ nets, d.nets = some nets
  separate : SeparateNets db.devices
  wellFormed : db.WellFormed
  distinct : db.DistinctChains
  oneOwner : db.OneOwner
  canonical : Canonical db.relaySubnets

/-- **The interface is up for the devices.** -/
structure Link.Serves (settings : Settings) (addresses : List String) (port : ℕ) (s : Server)
    (l : Link) : Prop where
  up : l.up = true
  addresses : ∀ a ∈ addresses, a ∈ l.addresses
  keyed : ∀ p ∈ truthy s.privateKey,
    l.tunnel.privateKey = some p ∧ l.tunnel.listenPort = some port
  peers : Mirrors s.db.devices l.tunnel.peers
  routes : l.routes.Follow settings s.db.relaySubnets

section Serve

open StartProgram

variable {settings : Settings} {addresses : List String} {port : ℕ} {nft : FrontEnd}
  {hashPassword : ℕ → String → Option String} {x25519 : RawKey → RawKey} {s : Server}
  {i : StartInput} {l : Link} {db db' : Database} {w : Peers} {a : Ip.Addr} {k : String}
  {Q : Unit → Server → Prop} {R : StartError → Server → Prop}

lemma Database.Startable.congr (h : db.Startable) (hdev : db'.devices = db.devices)
    (hrules : db'.rules = db.rules) : db'.Startable := by
  have hrows : ∀ u, db'.HasRows u → db.HasRows u := by
    intro u hu
    unfold Database.HasRows at hu ⊢
    rwa [hdev, hrules] at hu
  refine ⟨hdev ▸ h.keys, hdev ▸ h.nets, hdev ▸ h.separate, ?_, fun u v hu hv =>
    h.distinct u v (hrows u hu) (hrows v hv), ?_, ?_⟩
  · have hwf := wellFormed_iff.1 h.wellFormed
    refine wellFormed_iff.2 ⟨hdev ▸ hwf.1, fun u => ?_⟩
    have hsame : db'.userRules u = db.userRules u := by
      unfold Database.userRules
      rw [hrules]
    rw [hsame]
    exact hwf.2 u
  · unfold Database.OneOwner
    rw [hdev]
    exact h.oneOwner
  · unfold Database.relaySubnets
    rw [hdev]
    exact h.canonical

/-- **A device gets what is sent to its addresses.** -/
lemma Mirrors.owner (h : Mirrors db.devices w) {d : Device} (hd : d ∈ db.devices)
    (ha : d.Lists a.host) : w.Owner a d.publicKey := by
  refine Wg.Interface.owns_of_longest (((h.configured d hd).holds a.host).2 ha)
    (Ip.mem_host.2 rfl) fun m hm => ?_
  rw [Ip.host_len, (Ip.mem_iff.1 hm).1]
  exact m.len_le

lemma Database.Says.congr {u : Uuid} {p : Nft.Packet} {d : Nft.Decision} (h : db'.Says u p d)
    (hrules : db'.rules = db.rules) : db.Says u p d := by
  cases h with
  | rule r hr hu ha hfirst d hd =>
    rw [hrules] at hr hfirst
    exact .rule r hr hu ha hfirst d hd
  | pass h =>
    rw [hrules] at h
    exact .pass h

/-- **What comes from a peer** comes from its device, and is treated as the owner's rules say. -/
lemma Mirrors.decides (nft : FrontEnd) (h : Mirrors db.devices w) {t : Table} (he : Enforces ⟨db, t⟩)
    (howner : w.Owner a k) : ∃ d ∈ db.devices, d.publicKey = k ∧ ∀ p : Nft.Packet, p.src = a →
      db.Says d.userId p (t.chains.hookDecision (Nft.sat nft.other) .forward p) := by
  obtain ⟨n, hn, ha, -⟩ := howner
  obtain ⟨d, hd, rfl⟩ := (h.peers k).1 (w.held n k hn)
  have hnets := (wellFormed_iff.1 he.wellFormed).1 d hd
  refine ⟨d, hd, rfl, fun p hp => ?_⟩
  subst hp
  exact he.decides hd (sendsFrom_of_lists hnets (((h.configured d hd).holds n).1 hn) ha)

/-- **The interface is set up**, from none at all. -/
lemma bringUp_ends (haddr : settings.serverAddresses = some addresses) (hlink : s.link = none)
    (hup : ∀ l, l.up = true → (∀ a ∈ addresses, a ∈ l.addresses) → l.routes = ∅ →
      l.tunnel.peers = Wg.Interface.empty → (∀ p ∈ truthy s.privateKey,
        l.tunnel.privateKey = some p ∧ l.tunnel.listenPort = some port) →
      Q () { s with link := some l })
    (hraise : ∀ e link, (∃ step, i.raises step = true) ∨ (∃ cmd, i.fails cmd = true) →
      R e { s with link := link }) : Ends (bringUp settings port i) s Q R := by
  have hens := ensureInterface_ends i.fails s.link haddr
  rw [hlink] at hens
  refine .bind (onLink_ends ?_)
  rw [hlink]
  refine hens.imp ?_ fun e link h => hraise _ link (.inr h.1)
  rintro r link ⟨-, -, l, rfl, hext, hlup, haddrs⟩
  refine .bind (reach_ends (fun hr => hraise _ (some l) (.inl ⟨_, hr⟩)) (.bind (.get
    (onLink_ends (configureInterface_ends ?_ fun e h => hraise _ (some l) (.inr ?_))))))
  · have hnew : l.routes = ∅ ∧ l.tunnel = ⟨none, none, Wg.Interface.empty⟩ :=
      ⟨hext.routes, hext.tunnel⟩
    show Q () { s with link := some (l.configured s.privateKey port) }
    unfold Link.configured
    split
    next hnone =>
      exact hup l hlup haddrs hnew.1 (by rw [hnew.2]) fun p hp => by rw [hnone] at hp; cases hp
    next key hkey =>
      refine hup _ hlup haddrs hnew.1 (by rw [hnew.2]) fun p hp => ?_
      rw [hkey] at hp
      exact ⟨hp, rfl⟩
  · exact h.resolve_right nofun

/-- **Peers, routes and firewall are made**, where there are none. -/
lemma serve_ends (hs : settings.Valid) (hwg : settings.wgEnabled = true) (hdb : s.db.Startable)
    (hlink : s.link = some l) (hfw : s.fw = .empty) (hroutes : l.routes = ∅)
    (hpeers : l.tunnel.peers = Wg.Interface.empty)
    (hserved : ∀ t w r, Enforces ⟨s.db, t⟩ → Mirrors s.db.devices w →
      r.Follow settings s.db.relaySubnets →
      Q () { s with
        fw := t
        link := some { l with routes := r, tunnel := { l.tunnel with peers := w } } })
    (hraise : ∀ e t, (∃ step, i.raises step = true) → R e { s with fw := t }) :
    Ends (serve settings nft i) s Q R := by
  have hstart : startup settings nft i.order s.db .empty = .ok (reconcileFirewall nft i.order s.db
      (i.order s.db.userIds) (setupMasquerade nft settings baseTable)) := by
    unfold startup
    rw [if_pos hwg, setupBaseTables_empty]
  have henforces := enforces_startup hs hwg (.inl rfl) hdb.wellFormed hdb.distinct hdb.oneOwner
    hstart
  have hmirrors : Mirrors s.db.devices (reconcilePeers i.order s.db.devices l.tunnel.peers) := by
    refine ⟨mem_peers_reconcilePeers hdb.keys hdb.nets, fun d hd => ?_⟩
    refine configured_of_missing hdb.keys hdb.separate hdb.nets hd ?_
    rw [hpeers]
    exact Finset.notMem_empty _
  have hfollow :
      (syncRoutes settings s.db.relaySubnets l.routes).Follow settings s.db.relaySubnets := by
    have hnone : Routes.Follow settings ∅ l.routes := by
      rw [hroutes]
      exact ⟨fun n hn => absurd hn (Finset.notMem_empty _),
        fun n hn => absurd hn (Finset.notMem_empty _)⟩
    exact hnone.sync (fun s hs => absurd hs (Finset.notMem_empty _)) hdb.canonical
  refine .bind (reach_ends (fun hr => hraise _ s.fw ⟨_, hr⟩) (.bind (.get ?_)))
  rw [hfw, setupBaseTables_empty]
  refine .bind (.set (.bind (reach_ends (fun hr => hraise _ _ ⟨_, hr⟩) (.modify ?_))))
  unfold Server.reconcile
  rw [hlink]
  exact hserved _ _ _ henforces hmirrors hfollow

/-- **The service is there again**: the rows of devices and rules are as before, and the interface
and the firewall are as they say. -/
structure Server.Restored (settings : Settings) (addresses : List String) (port : ℕ)
    (x25519 : RawKey → RawKey) (i : StartInput) (s s' : Server) (l : Link) : Prop where
  prepared : ∃ s₁, s.Prepares x25519 s₁ ∧ s'.db = s₁.db ∧
    s'.serverPrivateKey = s₁.serverPrivateKey
  users : s'.db.users ≠ []
  keys : i.raw ≠ none → s'.HasKeys
  link : s'.link = some l
  serves : l.Serves settings addresses port s'
  enforces : Enforces ⟨s'.db, s'.fw⟩

lemma Server.Restored.sameRows (h : s.Restored settings addresses port x25519 i s' l) :
    s'.db.devices = s.db.devices ∧ s'.db.rules = s.db.rules := by
  obtain ⟨s₁, hs₁, hdb, -⟩ := h.prepared
  rw [hdb]
  exact ⟨hs₁.devices, hs₁.rules⟩

/-- What comes from a peer is treated as the rules of its device's owner say. -/
lemma Server.Restored.decides (nft : FrontEnd)
    (h : s.Restored settings addresses port x25519 i s' l) (howner : l.tunnel.peers.Owner a k) :
    ∃ d ∈ s.db.devices, d.publicKey = k ∧ ∀ p : Nft.Packet, p.src = a →
      s.db.Says d.userId p (s'.fw.chains.hookDecision (Nft.sat nft.other) .forward p) := by
  obtain ⟨d, hd, rfl, hruled⟩ := h.serves.peers.decides nft h.enforces howner
  rw [h.sameRows.1] at hd
  exact ⟨d, hd, rfl, fun p hp => (hruled p hp).congr h.sameRows.2⟩

/-- **A start after a reboot** makes everything again, or a step of it fails. -/
lemma start_ends (port : ℕ) (nft : FrontEnd) (hashPassword : ℕ → String → Option String)
    (x25519 : RawKey → RawKey) (i : StartInput) (hs : settings.Valid)
    (hwg : settings.wgEnabled = true) (haddr : settings.serverAddresses = some addresses)
    (hdb : s.db.Startable) :
    Ends (start settings port nft hashPassword x25519 i) s.reboot
      (fun _ s' => ∃ l, s.reboot.Restored settings addresses port x25519 i s' l)
      (fun _ s' => s'.db.devices = s.db.devices ∧ s'.db.rules = s.db.rules ∧
        i.Fails hashPassword s.db) := by
  refine .bind (prepare_ends (fun s₁ h₁ husers hkeys => ?_) fun e s₁ hfails h₁ =>
    ⟨h₁.devices, h₁.rules, hfails⟩)
  rw [if_pos hwg]
  have hdb₁ : s₁.db.Startable := hdb.congr h₁.devices h₁.rules
  refine .bind (bringUp_ends haddr h₁.link (fun l hup haddrs hroutes hpeers hkeyed => ?_)
    fun e link hfails => ⟨h₁.devices, h₁.rules, hfails.elim .inl fun h => .inr (.inl h)⟩)
  refine serve_ends hs hwg hdb₁ rfl h₁.fw hroutes hpeers (fun t w r ht hw hr => ?_)
    fun e t hfails => ⟨h₁.devices, h₁.rules, .inl hfails⟩
  exact ⟨_, ⟨s₁, h₁, rfl, rfl⟩, husers, hkeys, rfl, ⟨hup, haddrs, hkeyed, hw, hr⟩, ht⟩

/-- **A start after a reboot** makes everything again from the rows: the interface is up with the
addresses of the server, its keys and the port, the routes are those of the database, each device
gets what is sent to its addresses, and what comes from a peer is treated as the rules of its owner
say.  It raises only if a step fails, and the rows of devices and rules stay. -/
theorem start_restores (port : ℕ) (nft : FrontEnd)
    (hashPassword : ℕ → String → Option String) (x25519 : RawKey → RawKey) (i : StartInput)
    (hs : settings.Valid) (hwg : settings.wgEnabled = true)
    (haddr : settings.serverAddresses = some addresses) (hdb : s.db.Startable) :
    Ends (start settings port nft hashPassword x25519 i) s.reboot
      (fun _ s' => s'.db.devices = s.db.devices ∧ s'.db.rules = s.db.rules ∧ s'.db.users ≠ [] ∧
        (i.raw ≠ none → s'.HasKeys) ∧
        ∃ l, s'.link = some l ∧ l.Serves settings addresses port s' ∧
          (∀ d ∈ s.db.devices, ∀ a, d.HasAddress a → l.tunnel.peers.Owner a d.publicKey) ∧
          ∀ k a, l.tunnel.peers.Owner a k → ∃ d ∈ s.db.devices, d.publicKey = k ∧
            ∀ p : Nft.Packet, p.src = a →
              s.db.Says d.userId p (s'.fw.chains.hookDecision (Nft.sat nft.other) .forward p))
      (fun _ s' => s'.db.devices = s.db.devices ∧ s'.db.rules = s.db.rules ∧
        i.Fails hashPassword s.db) := by
  refine (start_ends port nft hashPassword x25519 i hs hwg haddr hdb).imp ?_ fun _ _ h => h
  rintro ⟨⟩ s' ⟨l, h⟩
  refine ⟨h.sameRows.1, h.sameRows.2, h.users, h.keys, l, h.link, h.serves, fun d hd a ha => ?_,
    fun k a hk => h.decides nft hk⟩
  exact h.serves.peers.owner (h.sameRows.1.symm ▸ hd) (lists_of_hasAddress (hdb.nets d hd) ha)

end Serve

/-! A server with one device, whose owner may not reach the tunnel. -/

def tunnellessServer : Server where
  db := tunnelless
  serverPrivateKey := none
  link := some .new
  fw := baseTable

/-- The one device may have any key. -/
lemma startable_laptop {db : Database} (publicKey : String)
    (hdev : db.devices = [{ laptop with publicKey := publicKey }])
    (hrules : db.rules = [noTunnelRule]) : db.Startable := by
  have hrows : ∀ u, db.HasRows u → u = alice := by
    rintro u (⟨d, hd, rfl⟩ | ⟨r, hr, hu⟩)
    · rw [hdev] at hd
      rw [List.mem_singleton.1 hd]
      rfl
    · rw [hrules] at hr
      rw [List.mem_singleton.1 hr] at hu
      exact (Option.some.inj hu).symm
  have hlaptop : laptop.entry.nets.isSome := by decide
  have hrule : noTunnelRule.entry.meaning.isSome := by decide
  refine ⟨?_, ?_, ?_, wellFormed_iff.2 ⟨?_, fun u r hr => ?_⟩,
    fun u v hu hv _ => by rw [hrows u hu, hrows v hv], fun d hd d' hd' _ _ _ => ?_, ?_⟩
  · rw [hdev]
    exact List.nodup_singleton _
  · rw [hdev]
    exact List.forall_mem_singleton.2 ⟨_, laptop_nets⟩
  · rw [hdev]
    exact List.pairwise_singleton _ _
  · rw [hdev]
    exact List.forall_mem_singleton.2 (Option.isSome_iff_exists.1 hlaptop)
  · have hr := (mem_userRules_iff.1 hr).1
    rw [hrules] at hr
    rw [List.mem_singleton.1 hr]
    exact Option.isSome_iff_exists.1 hrule
  · rw [hdev] at hd hd'
    rw [List.mem_singleton.1 hd, List.mem_singleton.1 hd']
  · unfold Database.relaySubnets
    rw [hdev]
    exact fun s hs => by cases hs

lemma not_fails_nextStart {db : Database} (husers : db.users = []) :
    ¬ nextStart.Fails (fun _ password => some password) db := by
  have hstorable : (newUser nextStart.adminId 0 "admin@localhost" "token" "admin").Storable := by
    decide
  have hadmin : insertAdmin (fun _ password => some password) nextStart db = some { db with
      users := db.users ++ [newUser nextStart.adminId 0 "admin@localhost" "token" "admin"] } := by
    have hnew : ∀ u ∈ db.users,
        u.id ≠ nextStart.adminId ∧ u.email ≠ "admin@localhost" := by
      rw [husers]
      exact nofun
    unfold insertAdmin
    rw [if_neg (not_not.2 husers)]
    exact if_pos ⟨hstorable, hnew⟩
  have hidp : seedIdpProviders nextStart.now nextStart.idpFile db = some db := rfl
  rintro (⟨step, h⟩ | ⟨cmd, h⟩ | h | h)
  · cases h
  · cases h
  · rw [hadmin] at h
    cases h
  · rw [hidp] at h
    cases h

theorem start_restores_tunnelless :
    ∃ s' l, (StartProgram.start defaultSettings 51820 (.fragment tableName)
        (fun _ password => some password) (fun _ => firstPublicKey) nextStart).run
          tunnellessServer.reboot = .ok () s' ∧
      s'.link = some l ∧ l.up = true ∧ l.tunnel.peers.Owner laptopAddr "pk1" := by
  have hstart : ∀ (i : StartInput) (s : Server), s.db.Startable → laptop ∈ s.db.devices →
      ¬ i.Fails (fun _ password => some password) s.db →
      ∃ s' l, (StartProgram.start defaultSettings 51820 (.fragment tableName)
          (fun _ password => some password) (fun _ => firstPublicKey) i).run s.reboot =
            .ok () s' ∧
        s'.link = some l ∧ l.up = true ∧ l.tunnel.peers.Owner laptopAddr "pk1" := by
    intro i s hdb hlaptop hno
    obtain ⟨⟨⟩, s', hrun, -, -, -, -, l, hl, hserves, howner, -⟩ :=
      (start_restores 51820 (.fragment tableName) (fun _ password => some password)
        (fun _ => firstPublicKey) i defaultSettings_valid rfl serverAddresses_default hdb).returns
          fun e s' h => hno h.2.2
    exact ⟨s', l, hrun, hl, hserves.up,
      howner laptop hlaptop laptopAddr (.inl ⟨"10.3.2.2", rfl, by decide⟩)⟩
  exact hstart nextStart tunnellessServer (startable_laptop "pk1" rfl rfl) List.mem_cons_self
    (not_fails_nextStart rfl)

end WireGui
