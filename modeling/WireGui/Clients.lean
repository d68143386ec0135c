import WireGui.Restart
import WireGui.Wg.Tunnel

/-!
# Clients

A new device comes with a file that is shown once: its private key is stored nowhere.  The file says
to whom the client talks, from which addresses and with which keys, and the row of the device is all
that the server knows of the client.

`run_connects`: whatever has happened in between, after a restart each client gets through with the
file it was given, as long as its row has the key, the preshared key and the addresses of the file.
-/

namespace WireGui

open Raise (Ends)

/-! ### What a client makes of its file -/

/-- How a client reads a list of prefixes. -/
def readIps (value : Option String) : Option (List Ip.Net) :=
  (value.elim [] splitCommas).mapM Ip.readNet

/-- The end of the tunnel that a client sets up: its only peer is the server. -/
def ClientConfig.tunnel (config : ClientConfig) (nets : List Ip.Net) :
    Wg.End String String Ip.Net String where
  privateKey := config.privateKey
  peers := Wg.Interface.empty.set config.publicKey nets config.presharedKey

/-- The row is that of the client. -/
structure Device.BelongsTo (x25519 : RawKey → RawKey) (d : Device) (config : ClientConfig) :
    Prop where
  publicKey : derivePublicKey x25519 config.privateKey = some d.publicKey
  presharedKey : truthy d.presharedKey = config.presharedKey
  address : d.addressValue = config.address

/-- A packet goes through the tunnel, with the keys of WireGuard. -/
def Passes (x25519 : RawKey → RawKey) (x y : Wg.End String String Ip.Net String)
    (src dst : Ip.Addr) : Prop :=
  x.Delivers (derivePublicKey x25519) (fun a n => a ∈ n) Ip.Net.len y src dst

/-- **The client gets through**: the server listens where the file says, packets pass in either
direction between the addresses of the client and all that the file covers, what is sent to these
addresses goes to nobody else, and what comes from them is treated as the rules of the owner say. -/
structure ClientConfig.Connects (x25519 : RawKey → RawKey) (nft : FrontEnd) (port : ℕ)
    (config : ClientConfig) (d : Device) (s : Server) (l : Link) : Prop where
  listens : l.tunnel.listenPort = some port ∧
    ∃ host, config.endpoint = host ++ ":" ++ toString (port : ℤ)
  passes : ∃ p ∈ l.tunnel.privateKey, ∃ addresses ∈ readIps config.address,
    ∀ a, (∃ n ∈ addresses, a ∈ n) →
      (∀ nets ∈ readIps config.allowedIps, ∀ b, (∃ n ∈ nets, b ∈ n) →
        Passes x25519 (config.tunnel nets) ⟨p, l.tunnel.peers⟩ a b ∧
          Passes x25519 ⟨p, l.tunnel.peers⟩ (config.tunnel nets) b a) ∧
      (∀ k, l.tunnel.peers.Owner a k → k = d.publicKey) ∧
      ∀ q : Nft.Packet, q.src = a →
        s.db.Says d.userId q (s.fw.chains.hookDecision (Nft.sat nft.other) .forward q)

/-! ### Making devices -/

/-- The server, and the files that were shown. -/
structure Clients where
  server : Server
  files : List String

/-- What may happen: to the server, or a device is made on one of the pages, with the bytes of its
keys. -/
inductive ClientEvent where
  | server (e : ServerEvent)
  | createDevice (run : CreateRun) (form : NewDeviceForm) (raw psk : RawKey)

/-- The run, with the keys that `generate_keypair` and `generate_preshared_key` make. -/
def CreateRun.withKeys (run : CreateRun) (privateKey publicKey : String) (psk : RawKey) :
    CreateRun :=
  { run with
    drawn := { run.drawn with
      publicKey := publicKey
      presharedKey := generatePresharedKey psk }
    privateKey := privateKey }

/-- The fields for the settings of a new device. -/
def NewDeviceForm.fields : NewDeviceForm → DeviceForm
  | .user form _ => form
  | .admin form => form.toDeviceForm

/-- The fields are single lines, and so is what the settings and the configuration have for the
files. -/
structure CreateRun.OneLine (run : CreateRun) (form : NewDeviceForm)
    (config : Option Configuration) : Prop where
  settings : ∀ s ∈ [run.clientSettings.wgEndpointHost, run.clientSettings.wgDns,
    run.clientSettings.wgAllowedIps], '\n' ∉ s.toList
  form : ∀ s ∈ [form.fields.endpoint, form.fields.dns, form.fields.allowedIps], '\n' ∉ s.toList
  endpoint : ∀ s ∈ config.bind Configuration.defaultClientEndpoint, '\n' ∉ s.toList
  items : ∀ s ∈ (config.bind Configuration.defaultClientDns).getD [] ++
    (config.bind Configuration.defaultClientAllowedIps).getD [], IsItem s

section Events

variable (settings : Settings) (port : ℕ) (nft : FrontEnd) (hmac : String → String)
  (hashPassword : ℕ → String → Option String) (x25519 : RawKey → RawKey)

def Clients.createDevice (run : CreateRun) (form : NewDeviceForm) (raw psk : RawKey)
    (s : Clients) : Clients :=
  match generateKeypair x25519 raw with
  | none => s
  | some (privateKey, publicKey) =>
    let left := createDeviceLeaves (run.withKeys privateKey publicKey psk) form s.server.db
    { server := s.server.setRows left.db, files := s.files ++ left.shown.map Prod.snd }

def ClientEvent.next (e : ClientEvent) (s : Clients) : Clients :=
  match e with
  | .server e =>
    { s with
      server := (e.next settings port nft hmac hashPassword x25519 ⟨s.server, []⟩).server }
  | .createDevice run form raw psk => s.createDevice x25519 run form raw psk

/-- Others do not set a private key.  What goes into the file of a new device fits its lines, and its
port is the one the server listens on. -/
def ClientEvent.Orderly (e : ClientEvent) (s : Clients) : Prop :=
  match e with
  | .server e => e.LeavesKey ⟨s.server, []⟩
  | .createDevice run form _ _ =>
    run.clientSettings.wgEndpointPort = port ∧ run.OneLine form s.server.db.configuration

end Events

/-- The file is for a client of this server. -/
def Server.Made (port : ℕ) (s : Server) (file : String) : Prop :=
  ∃ config, decodeClientConfig file = some config ∧
    s.serverPublicKey = some config.publicKey ∧
    ∃ host, config.endpoint = host ++ ":" ++ toString (port : ℤ)

/-- The keys are a pair, and the files name the public one. -/
structure Clients.Paired (x25519 : RawKey → RawKey) (port : ℕ) (s : Clients) : Prop where
  server : s.server.Paired x25519
  files : ∀ file ∈ s.files, s.server.Made port file

section Steps

variable {settings : Settings} {port : ℕ} {nft : FrontEnd} {hmac : String → String}
  {hashPassword : ℕ → String → Option String} {x25519 : RawKey → RawKey} {s : Clients}
  {run : CreateRun} {form : NewDeviceForm} {raw psk : RawKey} {db : Database} {file : String}
  {server server' : Server}

/-- **What is shown** is the file of the row that is made. -/
def CreateState.ShowsOnly (run : CreateRun) (form : NewDeviceForm) (db : Database)
    (s : CreateState) : Prop :=
  ∀ f ∈ s.shown, ∃ d serverPublicKey,
    form.device run.settings run.now run.drawn db = some d ∧
      truthy (db.configuration.bind Configuration.serverPublicKey) = some serverPublicKey ∧
      f = (d.name, buildClientConfig d db.configuration run.clientSettings run.privateKey
        serverPublicKey)

lemma notify_shows {message : String} {c : CreateState} (h : c.ShowsOnly run form db) :
    Ends (notify run message) c (fun _ => CreateState.ShowsOnly run form db)
      fun _ => CreateState.ShowsOnly run form db :=
  .bind (.point (fun _ _ => h) fun _ => .modify h)

lemma reportError_shows {e : Raised} {c : CreateState} (h : c.ShowsOnly run form db) :
    Ends (reportError run e) c (fun _ => CreateState.ShowsOnly run form db)
      fun _ => CreateState.ShowsOnly run form db := by
  unfold reportError
  cases e.message with
  | none => exact .throw h
  | some message =>
    have hlogged : CreateState.ShowsOnly run form db
        { c with logged := c.logged ++ ["Failed to create device: " ++ message] } := h
    refine .bind (.modify (.tryCatch ((notify_shows hlogged).imp (fun _ _ h => h)
      fun e s' h => ?_)))
    cases e with
    | runtimeError m => exact .pure h
    | exception m => exact .throw h
    | base => exact .throw h

lemma announceDevice_shows {d : Device} {c : CreateState}
    (hd : form.device run.settings run.now run.drawn db = some d)
    (hconfig : c.db.configuration = db.configuration) (hshown : c.shown = []) :
    Ends (announceDevice run d) c (fun _ => CreateState.ShowsOnly run form db)
      fun _ => CreateState.ShowsOnly run form db := by
  have hnone : c.ShowsOnly run form db := fun f hf => by
    rw [hshown] at hf
    cases hf
  refine .bind (.points (fun _ _ _ _ => hnone) fun _ => .bind (.get ?_))
  unfold getServerPublicKey
  rw [hconfig]
  cases hkey : truthy (db.configuration.bind Configuration.serverPublicKey) with
  | none => exact .throw hnone
  | some serverPublicKey =>
    have hone : ∀ f ∈ c.shown ++ [(d.name, buildClientConfig d db.configuration
        run.clientSettings run.privateKey serverPublicKey)], ∃ d' serverPublicKey',
          form.device run.settings run.now run.drawn db = some d' ∧
          truthy (db.configuration.bind Configuration.serverPublicKey) = some serverPublicKey' ∧
          f = (d'.name, buildClientConfig d' db.configuration run.clientSettings run.privateKey
            serverPublicKey') := by
      intro f hf
      rw [hshown, List.nil_append, List.mem_singleton] at hf
      exact ⟨d, serverPublicKey, hd, hkey, hf⟩
    exact .bind (.points (fun _ _ _ _ => hnone) fun _ => .bind (.modify (.bind
      (.point (fun _ _ => hone) fun _ => .modify hone))))

lemma createDevice_shows : (createDeviceLeaves run form db).ShowsOnly run form db := by
  refine Ends.left (P := CreateState.ShowsOnly run form db) ?_
  have hnone : CreateState.ShowsOnly run form db { db := db } := fun _ hf => by cases hf
  unfold createDeviceHandler
  cases form.missing with
  | some message => exact notify_shows hnone
  | none =>
    refine .tryCatch (.bind (ends_insertDevice.imp ?_ ?_))
    · rintro d c ⟨-, hd, rfl⟩
      have hd : form.device run.settings run.now run.drawn db = some d := hd
      exact (announceDevice_shows hd rfl rfl).imp (fun _ _ h => h) fun _ _ h =>
        reportError_shows h
    · rintro e _ ⟨-, rfl⟩
      exact reportError_shows hnone

/-- Making a device leaves the configuration alone. -/
lemma configuration_createDeviceLeaves :
    (createDeviceLeaves run form db).db.configuration = db.configuration := by
  have hend : Outcome run form db (createDeviceLeaves run form db) := outcome_createDevice
  generalize createDeviceLeaves run form db = left at hend ⊢
  cases hend with
  | nothing _ hdb => rw [hdb]
  | whole => rfl
  | row _ _ _ hdb => rw [hdb]

lemma Server.Made.continues (h : server.Made port file) (hc : server.Continues x25519 server') :
    server'.Made port file := by
  obtain ⟨config, hdecode, hkey, hport⟩ := h
  exact ⟨config, hdecode, hc.publicKey _ hkey, hport⟩

lemma Clients.Paired.of_continues (h : s.Paired x25519 port) (hc : s.server.Continues x25519 server') :
    Clients.Paired x25519 port { s with server := server' } :=
  ⟨hc.paired, fun file hfile => (h.files file hfile).continues hc⟩

/-- The row of a new device: what was drawn for it, and what the form says of its settings. -/
structure Device.MadeBy (d : Device) (form : NewDeviceForm) (drawn : Drawn) : Prop where
  presharedKey : d.presharedKey = some drawn.presharedKey
  addresses : ∃ a b : Ip.Addr, d.ipv4 = some a.str ∧ d.ipv6 = some b.str
  endpoint : ∀ s ∈ d.endpoint, s ∈ orNone (strip form.fields.endpoint)
  dns : ∀ s ∈ d.dns.getD [], s ∈ splitList form.fields.dns
  allowedIps : ∀ s ∈ d.allowedIps.getD [], s ∈ splitList form.fields.allowedIps

lemma mem_of_mem_ite {α : Type} {c : Prop} [Decidable c] {a : α} {o : Option α}
    (h : a ∈ if c then none else o) : a ∈ o := by
  split at h
  · cases h
  · exact h

lemma mem_of_mem_getD_ite {α : Type} {c : Prop} [Decidable c] {a : α} {l : List α}
    (h : a ∈ (some (if c then [] else l)).getD []) : a ∈ l := by
  rw [Option.getD_some] at h
  split at h
  · cases h
  · exact h

lemma NewDeviceForm.madeBy {settings : Settings} {now : ℕ} {drawn : Drawn} {d : Device}
    (h : form.device settings now drawn db = some d) : d.MadeBy form drawn := by
  have hbase : ∀ {body : DeviceCreate} {base : Device},
      newDevice settings db drawn.draws body = some base →
      base.presharedKey = body.presharedKey ∧
        ∃ a b : Ip.Addr, base.ipv4 = some a.str ∧ base.ipv6 = some b.str := by
    intro body base hbase
    obtain ⟨a, b, -, -, ha, hb, -⟩ := newDevice_spec hbase
    obtain ⟨ipv4, ipv6, subnets, -, rfl⟩ := newDevice_eq_some hbase
    exact ⟨rfl, a, b, ha, hb⟩
  cases form with
  | user form userId =>
    have h : form.device settings now drawn userId db = some d := h
    unfold DeviceForm.device at h
    dsimp only at h
    split at h
    · cases h
    · obtain ⟨base, hnew, h⟩ := Option.bind_eq_some_iff.1 h
      obtain ⟨mtu, -, h⟩ := Option.bind_eq_some_iff.1 h
      obtain ⟨keepalive, -, h⟩ := Option.bind_eq_some_iff.1 h
      obtain ⟨rfl, -, -⟩ := taken_eq_some_iff.1 h
      exact ⟨(hbase hnew).1, (hbase hnew).2, fun _ => mem_of_mem_ite,
        fun _ => mem_of_mem_getD_ite, fun _ => mem_of_mem_getD_ite⟩
  | admin form =>
    obtain ⟨ownerId, -, h⟩ := Option.bind_eq_some_iff.1 h
    unfold AdminDeviceForm.device at h
    obtain ⟨base, hnew, h⟩ := Option.bind_eq_some_iff.1 h
    obtain ⟨mtu, -, h⟩ := Option.bind_eq_some_iff.1 h
    obtain ⟨keepalive, -, h⟩ := Option.bind_eq_some_iff.1 h
    obtain ⟨rfl, -, -⟩ := taken_eq_some_iff.1 h
    exact ⟨(hbase hnew).1, (hbase hnew).2, fun _ => mem_of_mem_ite,
      fun _ => mem_of_mem_getD_ite, fun _ => mem_of_mem_getD_ite⟩

lemma newline_notMem_str (a : Ip.Addr) : '\n' ∉ a.str.toList := fun hn =>
  absurd (Ip.isAddrChar_of_parseAddr (Ip.parseAddr_str a) hn) (by decide)

/-- **A new file fits its lines.** -/
lemma CreateRun.OneLine.fitsLines {config : Option Configuration} {d : Device} {drawn : Drawn}
    {privateKey serverPublicKey : String} (h : run.OneLine form config) (hd : d.MadeBy form drawn)
    (hpsk : '\n' ∉ drawn.presharedKey.toList) (hprivate : '\n' ∉ privateKey.toList)
    (hpublic : '\n' ∉ serverPublicKey.toList) :
    FitsLines d config run.clientSettings privateKey serverPublicKey := by
  obtain ⟨a, b, ha, hb⟩ := hd.addresses
  have hform := h.form
  have hsettings := h.settings
  simp only [List.forall_mem_cons] at hform hsettings
  obtain ⟨hendpoint, hdns, hips, -⟩ := hform
  obtain ⟨hhost, hdns', hips', -⟩ := hsettings
  constructor
  · unfold configStrings
    rw [ha, hb, hd.presharedKey]
    simp only [List.forall_mem_append, List.forall_mem_cons, Option.toList_some,
      List.not_mem_nil, false_imp_iff, implies_true, and_true]
    refine ⟨⟨⟨⟨⟨⟨hprivate, hpublic, hhost, hdns', hips'⟩, hpsk⟩, newline_notMem_str a⟩,
      newline_notMem_str b⟩, fun s hs => ?_⟩, fun s hs => h.endpoint s (Option.mem_toList.1 hs)⟩
    exact newline_notMem_orNone hendpoint (hd.endpoint s (Option.mem_toList.1 hs))
  · have hitems := h.items
    unfold configItems
    rw [List.forall_mem_append] at hitems
    simp only [List.forall_mem_append]
    exact ⟨⟨⟨fun s hs => isItem_of_mem_splitList hdns (hd.dns s hs), fun s hs =>
      isItem_of_mem_splitList hips (hd.allowedIps s hs)⟩, hitems.1⟩, hitems.2⟩

/-- The public key of the server is a single line. -/
lemma Server.Paired.newline_notMem {k : String} (h : server.Paired x25519)
    (hk : server.serverPublicKey = some k) : '\n' ∉ k.toList := by
  obtain ⟨p, k', -, hk', hderive⟩ := h.keys.resolve_left fun hno => by
    rw [hno.2] at hk
    cases hk
  obtain rfl := Option.some.inj (hk.symm.trans hk')
  obtain ⟨raw, -, hderive⟩ := Option.bind_eq_some_iff.1 hderive
  obtain ⟨key, -, hderive⟩ := Option.bind_eq_some_iff.1 hderive
  rw [← Option.some.inj hderive]
  exact newline_notMem_text _

/-- **A new file** names the key of the server. -/
lemma Clients.Paired.createDevice (h : s.Paired x25519 port)
    (he : (ClientEvent.createDevice run form raw psk).Orderly port s) :
    (s.createDevice x25519 run form raw psk).Paired x25519 port := by
  unfold Clients.createDevice
  obtain ⟨hport, hline⟩ := he
  rw [generateKeypair_eq]
  dsimp only
  have hconfig : (createDeviceLeaves (run.withKeys raw.text (x25519 raw).text psk) form
      s.server.db).db.configuration = s.server.db.configuration := configuration_createDeviceLeaves
  have hc := h.server.continues.setRows (.of_eq hconfig)
  refine ⟨hc.paired, fun file hfile => ?_⟩
  rcases List.mem_append.1 hfile with hfile | hfile
  · exact (h.files file hfile).continues hc
  · obtain ⟨f, hf, rfl⟩ := List.mem_map.1 hfile
    obtain ⟨d, serverPublicKey, hd, hkey, rfl⟩ := createDevice_shows f hf
    have hpub : s.server.serverPublicKey = some serverPublicKey :=
      s.server.serverPublicKey_eq.trans hkey
    have hfits : FitsLines d s.server.db.configuration run.clientSettings raw.text
        serverPublicKey :=
      hline.fitsLines (NewDeviceForm.madeBy hd) (newline_notMem_text psk)
        (newline_notMem_text raw) (h.server.newline_notMem hpub)
    refine Server.Made.continues ⟨_, decodeClientConfig_of_printable hfits.interfaceSection
      hfits.peerSection, hpub, ?_⟩ hc
    refine ⟨(resolveEndpointHost d s.server.db.configuration run.clientSettings).getD "None", ?_⟩
    rw [← hport]
    rfl

/-- **One event** keeps it so. -/
theorem Clients.Paired.next {e : ClientEvent} (h : s.Paired x25519 port)
    (he : e.Orderly port s) :
    (e.next settings port nft hmac hashPassword x25519 s).Paired x25519 port := by
  cases e with
  | createDevice run form raw psk => exact h.createDevice he
  | server e => exact h.of_continues (continues_next h.server he)

end Steps

/-! ### After a restart -/

section Restarts

variable {settings : Settings} {addresses : List String} {port : ℕ} {x25519 : RawKey → RawKey}
  {i : StartInput} {s s' : Server} {l : Link} {d : Device} {n : Ip.Net} {t : String} {a : Ip.Addr}
  {config : ClientConfig} {file : String}

lemma strip_of_readNet (h : Ip.readNet t = some n) : strip t = t := by
  have hspace : ∀ c ∈ t.toList, isSpace c = false := by
    intro c hc
    have hrange : 0x2e ≤ c.toNat ∧ c.toNat ≤ 0x66 := by
      rcases Ip.isAddrChar_of_parseNet (Ip.readNet_eq_some_iff.1 h) hc with hc | rfl
      · exact Ip.toNat_of_isAddrChar hc
      · decide
    exact isSpace_eq_false (by omega) (by omega)
  exact strip_eq_self (fun c hc => hspace c (List.mem_of_mem_head? hc)) fun c hc =>
    hspace c (List.mem_of_mem_getLast? hc)

/-- The addresses in the file are those of the row. -/
lemma readIps_addressValue (hd : ∃ nets, d.nets = some nets) :
    ∃ addresses, readIps d.addressValue = some addresses ∧
      ∀ n ∈ addresses, ∃ t ∈ d.tunnelAddresses, Ip.readNet t = some n := by
  obtain ⟨nets, hnets⟩ := hd
  have hread : ∀ t ∈ d.tunnelAddresses, ∃ n, Ip.readNet t = some n := by
    intro t ht
    obtain ⟨n, -, hn⟩ := List.exists_of_mapM hnets (List.mem_append_left _ ht)
    exact ⟨n, hn⟩
  obtain ⟨addresses, haddresses⟩ := List.exists_mapM_iff.2 hread
  refine ⟨addresses, ?_, fun n hn => List.exists_of_mem_mapM haddresses hn⟩
  unfold readIps Device.addressValue
  split
  next hnone =>
    rw [hnone] at haddresses
    exact haddresses
  next hne =>
    have hsplit : splitCommas (", ".intercalate d.tunnelAddresses) = d.tunnelAddresses := by
      refine splitCommas_join hne (fun t ht => ?_) fun t ht => ?_
      · obtain ⟨n, hn⟩ := hread t ht
        exact comma_notMem_of_readNet hn
      · obtain ⟨n, hn⟩ := hread t ht
        exact strip_of_readNet hn
    rw [Option.elim_some, hsplit]
    exact haddresses

/-- A tunnel address is a single one. -/
lemma host_of_tunnelAddress (he : ∃ nets, d.entry.nets = some nets) (ht : t ∈ d.tunnelAddresses)
    (hn : Ip.readNet t = some n) : ∃ b : Ip.Addr, n = b.host := by
  obtain ⟨nets, he⟩ := he
  obtain ⟨v4, h4, he⟩ := Option.bind_eq_some_iff.1 he
  obtain ⟨v6, h6, -⟩ := Option.bind_eq_some_iff.1 he
  unfold Device.tunnelAddresses at ht
  rw [List.mem_append, List.mem_map, List.mem_map] at ht
  rcases ht with ⟨w, hw, rfl⟩ | ⟨w, hw, rfl⟩
  · obtain ⟨m, -, hm⟩ := List.exists_of_mapM h4 hw
    obtain ⟨b, -, hb⟩ := host_of_readNet (f := .v4) (t := "/32") (by decide) hm hn
    exact ⟨b, hb⟩
  · obtain ⟨m, -, hm⟩ := List.exists_of_mapM h6 hw
    obtain ⟨b, -, hb⟩ := host_of_readNet (f := .v6) (t := "/128") (by decide) hm hn
    exact ⟨b, hb⟩

/-- An address has one owner. -/
lemma Peers.Owner.unique {w : Peers} {k k' : String} (h : w.Owner a k) (h' : w.Owner a k') :
    k = k' :=
  Wg.Interface.Owns.unique (fun _ _ hm hn hlen => net_eq_of_len hm hn hlen) h h'

/-- **A client gets through** once everything is there again, with the keys of before. -/
lemma Server.Restored.connects (nft : FrontEnd) {s₁ : Server}
    (h : s.Restored settings addresses port x25519 i s' l) (hdb : s.db.Startable)
    (hsame : s'.db = s₁.db ∧ s'.serverPrivateKey = s₁.serverPrivateKey)
    (hpaired : s₁.Paired x25519) (hkey : s₁.serverPublicKey = some config.publicKey)
    (hendpoint : ∃ host, config.endpoint = host ++ ":" ++ toString (port : ℤ))
    (hd : d ∈ s.db.devices) (hbelongs : d.BelongsTo x25519 config) :
    config.Connects x25519 nft port d s' l := by
  obtain ⟨p, k, hp, hk, hderive⟩ := hpaired.keys.resolve_left fun hno => by
    rw [hno.2] at hkey
    cases hkey
  obtain rfl := Option.some.inj (hk.symm.trans hkey)
  have hprivate : s'.privateKey = s₁.privateKey := by
    rw [Server.privateKey, Server.privateKey, hsame.1, hsame.2]
  rw [← hprivate] at hp
  obtain ⟨hlp, hlport⟩ := h.serves.keyed p hp
  have hd' : d ∈ s'.db.devices := h.sameRows.1.symm ▸ hd
  obtain ⟨addrs, haddrs, hmem⟩ := readIps_addressValue (hdb.nets d hd)
  rw [hbelongs.address] at haddrs
  refine ⟨⟨hlport, hendpoint⟩, p, hlp, addrs, haddrs, ?_⟩
  rintro a ⟨n, hn, ha⟩
  obtain ⟨t, ht, hread⟩ := hmem n hn
  obtain ⟨b, rfl⟩ := host_of_tunnelAddress ((wellFormed_iff.1 hdb.wellFormed).1 d hd) ht hread
  obtain rfl := Ip.mem_host.1 ha
  have howner : l.tunnel.peers.Owner a d.publicKey := by
    refine h.serves.peers.owner hd' ?_
    obtain ⟨nets, hnets⟩ := hdb.nets d hd
    obtain ⟨m, hm, hread'⟩ := List.exists_of_mapM hnets (List.mem_append_left _ ht)
    obtain rfl := Option.some.inj (hread.symm.trans hread')
    exact ⟨nets, hnets, hm⟩
  refine ⟨fun nets _ b hb => ?_, fun k hk => hk.unique howner, fun q hq => ?_⟩
  · refine Wg.delivers_of_single hbelongs.publicKey hderive ?_ howner hb
    rw [(h.serves.peers.configured d hd').psk, hbelongs.presharedKey]
  · obtain ⟨d', hd₁, hkey', hruled⟩ := h.decides nft howner
    obtain rfl := List.inj_on_of_nodup_map hdb.keys hd₁ hd hkey'
    exact (hruled q hq).congr h.sameRows.2.symm

/-- **Clients get through after a restart**: in whatever order the server was started and stopped,
its configuration, its rows, its interface and its firewall were changed and devices were made, once
a start after a reboot has not failed each file that was ever shown connects the client of each row
that still has its key, its preshared key and its addresses. -/
theorem run_connects (nft : FrontEnd) (hmac : String → String)
    (hashPassword : ℕ → String → Option String) (hs : settings.Valid)
    (hwg : settings.wgEnabled = true) (haddr : settings.serverAddresses = some addresses)
    {n : Clients} (hn : n.Paired x25519 port) {events : List ClientEvent}
    (horderly : Run.Throughout (ClientEvent.next settings port nft hmac hashPassword x25519)
      (ClientEvent.Orderly port) events n)
    (hdb : (Run.final (ClientEvent.next settings port nft hmac hashPassword x25519) events
      n).server.db.Startable) (i : StartInput) :
    let n' := Run.final (ClientEvent.next settings port nft hmac hashPassword x25519) events n
    Ends (StartProgram.start settings port nft hashPassword x25519 i) n'.server.reboot
      (fun _ s' => ∃ l, s'.link = some l ∧ ∀ file ∈ n'.files, ∃ config,
        decodeClientConfig file = some config ∧ ∀ d ∈ n'.server.db.devices,
          d.BelongsTo x25519 config → config.Connects x25519 nft port d s' l)
      (fun _ _ => i.Fails hashPassword n'.server.db) := by
  intro n'
  have hpaired : n'.Paired x25519 port :=
    (Run.always_of_step (fun e _ hs he => Clients.Paired.next hs he) hn horderly).final
  have hreboot : n'.server.Continues x25519 n'.server.reboot :=
    hpaired.server.continues.of_link none .empty nofun
  refine (start_ends port nft hashPassword x25519 i hs hwg haddr hdb).imp ?_ fun _ _ h => h.2.2
  rintro ⟨⟩ s' ⟨l, h⟩
  obtain ⟨s₁, hs₁, hsame⟩ := h.prepared
  have hgoes := hs₁.keys n'.server hreboot
  refine ⟨l, h.link, fun file hfile => ?_⟩
  obtain ⟨config, hdecode, hkey, hendpoint⟩ := (hpaired.files file hfile).continues hgoes
  exact ⟨config, hdecode, fun d hd hbelongs =>
    h.connects nft hdb hsame hgoes.paired hkey hendpoint hd hbelongs⟩

end Restarts

/-! A server with one client, which is rebooted. -/

/-- The bytes of a key of the server. -/
def serverKey : RawKey := ⟨List.replicate 32 7, by decide, by decide⟩

/-- The public keys of `firstKey` and of all others. -/
def samplePublic (raw : RawKey) : RawKey :=
  if raw.bytes = firstKey.bytes then firstPublicKey else serverKey

def clientLaptop : Device := { laptop with publicKey := firstPublicKey.text }

def clientServer : Server where
  db := { tunnelless with
    devices := [clientLaptop]
    configuration := some { serverPublicKey := some serverKey.text, updatedAt := 0 } }
  serverPrivateKey := some serverKey.text
  link := none
  fw := .empty

def clientFile : String :=
  buildClientConfig clientLaptop clientServer.db.configuration {} firstKey.text serverKey.text

lemma clientFile_decoded : decodeClientConfig clientFile =
    some (layeredConfig clientLaptop clientServer.db.configuration {} firstKey.text
      serverKey.text) := by
  have hfits : FitsLines clientLaptop clientServer.db.configuration {} firstKey.text
      serverKey.text := by
    constructor
    · have hkeys : '\n' ∉ firstKey.text.toList ∧ '\n' ∉ serverKey.text.toList :=
        ⟨newline_notMem_text _, newline_notMem_text _⟩
      have hrest : ∀ s ∈ ["localhost", "1.1.1.1, 1.0.0.1", "0.0.0.0/0, ::/0", "10.3.2.2"],
          '\n' ∉ s.toList := by decide
      exact List.forall_mem_cons.2 ⟨hkeys.1, List.forall_mem_cons.2 ⟨hkeys.2, hrest⟩⟩
    · decide
  exact decodeClientConfig_of_printable hfits.interfaceSection hfits.peerSection

lemma samplePublic_firstKey : samplePublic firstKey = firstPublicKey := if_pos rfl

lemma samplePublic_serverKey : samplePublic serverKey = serverKey := by
  have hne : serverKey.bytes ≠ firstKey.bytes := by decide
  exact if_neg hne

lemma clientServer_paired :
    Clients.Paired samplePublic 51820 ⟨clientServer, [clientFile]⟩ := by
  have hpublic : clientServer.serverPublicKey = some serverKey.text :=
    clientServer.serverPublicKey_eq.trans (truthy_some (text_ne_empty _))
  refine ⟨⟨.inr ⟨serverKey.text, serverKey.text, truthy_some (text_ne_empty _), hpublic, ?_⟩,
    nofun⟩, List.forall_mem_singleton.2 ⟨_, clientFile_decoded, hpublic, "localhost", rfl⟩⟩
  exact derivePublicKey_generatePrivateKey.trans (by rw [samplePublic_serverKey])

lemma clientLaptop_belongsTo : clientLaptop.BelongsTo samplePublic
    (layeredConfig clientLaptop clientServer.db.configuration {} firstKey.text serverKey.text) :=
  ⟨derivePublicKey_generatePrivateKey.trans (by rw [samplePublic_firstKey]; rfl), rfl, rfl⟩

theorem run_connects_reboot :
    ∃ s' l config, (StartProgram.start defaultSettings 51820 (.fragment tableName)
        (fun _ password => some password) samplePublic nextStart).run clientServer.reboot =
          .ok () s' ∧
      decodeClientConfig clientFile = some config ∧
      config.Connects samplePublic (.fragment tableName) 51820 clientLaptop s' l := by
  have hrun : ∀ (i : StartInput) (n : Clients), n.Paired samplePublic 51820 →
      n.server.db.Startable → ¬ i.Fails (fun _ password => some password) n.server.db →
      ∀ file ∈ n.files, ∀ d ∈ n.server.db.devices, ∀ config,
        decodeClientConfig file = some config → d.BelongsTo samplePublic config →
        ∃ s' l config, (StartProgram.start defaultSettings 51820 (.fragment tableName)
            (fun _ password => some password) samplePublic i).run n.server.reboot = .ok () s' ∧
          decodeClientConfig file = some config ∧
          config.Connects samplePublic (.fragment tableName) 51820 d s' l := by
    intro i n hn hdb hno file hfile d hd config hdecode hbelongs
    have horderly : Run.Throughout (ClientEvent.next defaultSettings 51820 (.fragment tableName) id
        (fun _ password => some password) samplePublic) (ClientEvent.Orderly 51820)
        [.server .reboot] n := ⟨trivial, trivial⟩
    obtain ⟨⟨⟩, s', hok, l, -, hconnects⟩ :=
      (run_connects (.fragment tableName) id (fun _ password => some password)
        defaultSettings_valid rfl serverAddresses_default hn horderly hdb i).returns
          fun _ _ h => hno h
    obtain ⟨config', hdecode', hall⟩ := hconnects file hfile
    obtain rfl := Option.some.inj (hdecode.symm.trans hdecode')
    exact ⟨s', l, config, hok, hdecode, hall d hd hbelongs⟩
  exact hrun nextStart ⟨clientServer, [clientFile]⟩ clientServer_paired
    (startable_laptop firstPublicKey.text rfl rfl) (not_fails_nextStart rfl) clientFile
    List.mem_cons_self clientLaptop List.mem_cons_self _ clientFile_decoded clientLaptop_belongsTo

end WireGui
