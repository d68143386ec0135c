import WireGui.Auth.Seed
import WireGui.Main
import WireGui.Pages.AdminRules
import WireGui.Pages.CreateDevice
import WireGui.Pages.EditForms
import WireGui.Pages.LastAdmin
import WireGui.Services.Interface
import WireGui.Tasks.Peers
import WireGui.Utils.Crypto

/-!
# `main.py`: starting the service

`startup` goes through its steps, any of which may raise; what was done before stays.  The service
starts again and again, on a host that keeps the interface and the firewall or has lost them, and
its configuration is changed in the meantime.

`run_serverKey`: in all of this the key pair that is stored first stays.  A public key that once
went into the file of a client is that of the private key on the interface, whenever there is one.
-/

namespace WireGui

open Raise (Ends)

/-! ### The server -/

/-- The service on its host.  `serverPrivateKey` is a column of the configuration row. -/
structure Server where
  db : Database
  serverPrivateKey : Option String
  link : Option Link
  fw : Table

namespace Server

/-- The private key as it is read; without a row there is none. -/
def privateKey (s : Server) : Option String := s.db.configuration.bind fun _ => s.serverPrivateKey

def publicKey (s : Server) : Option String := s.db.configuration.bind (·.serverPublicKey)

/-- Writes rows.  A configuration row that is new has no private key. -/
def setRows (db : Database) (s : Server) : Server :=
  { s with db := db, serverPrivateKey := s.privateKey }

/-- What `get_server_public_key` returns, if it does not raise. -/
def serverPublicKey (s : Server) : Option String :=
  match getServerPublicKey s.db.configuration with
  | .ok key => some key
  | .error _ => none

lemma serverPublicKey_eq (s : Server) : s.serverPublicKey = truthy s.publicKey := by
  unfold serverPublicKey getServerPublicKey publicKey
  cases truthy (s.db.configuration.bind Configuration.serverPublicKey) <;> rfl

end Server

/-! ### The steps of `startup` -/

/-- Where it may raise because of the database or of a program it calls. -/
inductive StartStep where
  | initDb | seedAdmin | ensureServerKeypair | seedIdpProviders | registerProviders
  | configureInterface | setupBaseTables | reconcile
  deriving DecidableEq

/-- What it raises. -/
inductive StartError where
  | step (step : StartStep)
  | link (error : LinkError)
  | nft (error : String)

abbrev StartProgram := EStateM StartError Server

/-- What a start reads and draws, and what fails.  `raw` are the bytes of a key pair, if one can be
made and stored; `idpFile` has no providers if there is no file. -/
structure StartInput where
  now : ℕ
  salt : ℕ
  adminId : Uuid
  adminEmail : String
  adminPassword : Option String
  token : String
  raw : Option RawKey
  idpFile : IdpFile
  order : SetOrders
  raises : StartStep → Bool
  fails : LinkCmd → Bool

/-- `seed_admin`, if it does not raise. -/
def insertAdmin (hashPassword : ℕ → String → Option String) (i : StartInput) (db : Database) :
    Option Database :=
  if db.users ≠ [] then some db
  else
    (hashPassword i.salt ((truthy i.adminPassword).getD i.token)).bind fun hash =>
      db.insertUser (newUser i.adminId i.now i.adminEmail hash "admin")

/-- The rest of `ensure_server_keypair` after the query; what fails is logged. -/
def Server.ensureKeypair (x25519 : RawKey → RawKey) (i : StartInput) (s : Server) : Server :=
  let config := s.db.configuration.getD { insertedAt := i.now, updatedAt := i.now }
  if (truthy config.serverPublicKey).isSome ∧ (truthy s.privateKey).isSome then s
  else
    match i.raw.bind (generateKeypair x25519) with
    | none => s
    | some (privateKey, publicKey) =>
      { s with
        db := { s.db with configuration := some { config with serverPublicKey := some publicKey } }
        serverPrivateKey := some privateKey }

/-- The service with an interface, as `reconcile` finds it. -/
def Server.host (s : Server) (l : Link) : Host where
  db := s.db
  fw := s.fw
  peers := l.tunnel.peers
  routes := l.routes

/-- `reconcile`; without an interface nothing comes of the commands for it. -/
def Server.reconcile (settings : Settings) (nft : FrontEnd) (order : SetOrders) (s : Server) :
    Server :=
  match s.link with
  | none => { s with fw := reconcileFirewall nft order s.db (order s.db.userIds) s.fw }
  | some l =>
    let h := WireGui.reconcile settings nft order (s.host l)
    { s with
      fw := h.fw
      link := some { l with routes := h.routes, tunnel := { l.tunnel with peers := h.peers } } }

section Programs

variable (settings : Settings) (port : ℕ) (nft : FrontEnd)
  (hashPassword : ℕ → String → Option String) (x25519 : RawKey → RawKey) (i : StartInput)

namespace StartProgram

/-- The step raises, or does nothing. -/
def reach (step : StartStep) : StartProgram Unit :=
  Raise.point (if i.raises step then some (.step step) else none)

/-- A step that changes rows, unless it raises. -/
def writeRows (step : StartStep) (write : Database → Option Database) : StartProgram Unit := do
  reach i step
  let s ← get
  match write s.db with
  | none => throw (.step step)
  | some db => set (s.setRows db)

/-- A program for the interface. -/
def onLink {α : Type} (x : LinkProgram α) : StartProgram α :=
  Raise.zoom Server.link (fun link s => { s with link := link }) .link x

/-- `startup` as far as it is about the database. -/
def prepare : StartProgram Unit := do
  reach i .initDb
  writeRows i .seedAdmin (insertAdmin hashPassword i)
  reach i .ensureServerKeypair
  modify (Server.ensureKeypair x25519 i)
  writeRows i .seedIdpProviders (seedIdpProviders i.now i.idpFile)
  reach i .registerProviders

/-- `ensure_interface` and `configure_interface`. -/
def bringUp : StartProgram Unit := do
  let _ ← onLink (ensureInterface i.fails settings)
  reach i .configureInterface
  let s ← get
  onLink (configureInterface i.fails s.privateKey port)

/-- `setup_base_tables`, `setup_masquerade` and `reconcile`. -/
def serve : StartProgram Unit := do
  reach i .setupBaseTables
  let s ← get
  match setupBaseTables nft s.fw with
  | .error e => throw (.nft e)
  | .ok t => do
    set { s with fw := setupMasquerade nft settings t }
    reach i .reconcile
    modify (Server.reconcile settings nft i.order)

/-- `startup`. -/
def start : StartProgram Unit := do
  prepare hashPassword x25519 i
  if settings.wgEnabled then do
    bringUp settings port i
    serve settings nft i

end StartProgram

end Programs

/-! ### What happens to the server -/

/-- What is written into the configuration row: the switches for the policies, the tabs of the
settings, the providers, the default row, an update over the API. -/
inductive ConfigurationWrite where
  | togglePeerToPeer (now : ℕ) (value : Bool)
  | toggleLanToPeers (now : ℕ) (value : Bool)
  | saveDefaults (now : ℕ) (form : DefaultsForm)
  | saveSecurity (now : ℕ) (form : SecurityForm)
  | saveProvider (now : ℕ) (list : ProviderList) (edit : ProviderEdit)
  | getOrCreate (now : ℕ)
  | put (now : ℕ) (authorization : String) (body : ConfigurationUpdate)

/-- What may happen.  Devices, users, rules and so on are rows; others work on the interface and on
the firewall as they like. -/
inductive ServerEvent where
  | start (i : StartInput)
  | reboot
  | configuration (write : ConfigurationWrite)
  | rows (db : Database)
  | clientFile
  | link (link : Option Link)
  | firewall (t : Table)

/-- The server, and the public keys of the server in the files that clients were given. -/
structure Deployment where
  server : Server
  issued : List String

section Events

variable (settings : Settings) (port : ℕ) (nft : FrontEnd) (hmac : String → String)
  (hashPassword : ℕ → String → Option String) (x25519 : RawKey → RawKey)

def ConfigurationWrite.applyTo (db : Database) : ConfigurationWrite → Database
  | .togglePeerToPeer now value => (WireGui.togglePeerToPeer settings nft now value ⟨db, .empty⟩).db
  | .toggleLanToPeers now value => (WireGui.toggleLanToPeers settings nft now value ⟨db, .empty⟩).db
  | .saveDefaults now form => WireGui.saveDefaults now form db
  | .saveSecurity now form => WireGui.saveSecurity now form db
  | .saveProvider now list edit =>
    { db with
      configuration := db.configuration.map fun config =>
        { config.setProviders list (some (edit.applyTo (config.providers list))) with
          updatedAt := now } }
  | .getOrCreate now => (Api.getConfig now db).2
  | .put now authorization body => (Api.updateConfiguration hmac now authorization body db).2

/-- The server loses the interface and the firewall. -/
def Server.reboot (s : Server) : Server := { s with link := none, fw := .empty }

/-- **One event.**  A start may raise. -/
def ServerEvent.next (e : ServerEvent) (d : Deployment) : Deployment :=
  match e with
  | .start i =>
    { d with
      server := Raise.left (StartProgram.start settings port nft hashPassword x25519 i) d.server }
  | .reboot => { d with server := d.server.reboot }
  | .configuration write =>
    { d with server := d.server.setRows (write.applyTo settings nft hmac d.server.db) }
  | .rows db =>
    { d with server := d.server.setRows { db with configuration := d.server.db.configuration } }
  | .clientFile => { d with issued := d.issued ++ d.server.serverPublicKey.toList }
  | .link there => { d with server := { d.server with link := there } }
  | .firewall t => { d with server := { d.server with fw := t } }

end Events

/-- Others do not set a private key. -/
def ServerEvent.LeavesKey (e : ServerEvent) (d : Deployment) : Prop :=
  match e with
  | .link there => ∀ l ∈ there, ∀ p ∈ l.tunnel.privateKey,
      ∃ l₀ ∈ d.server.link, l₀.tunnel.privateKey = some p
  | _ => True

/-! ### The key pair -/

/-- The private key, and the public key that is computed from it; on the interface there is no other
private key. -/
structure Server.Paired (x25519 : RawKey → RawKey) (s : Server) : Prop where
  keys : (truthy s.privateKey = none ∧ s.serverPublicKey = none) ∨
    ∃ p k, truthy s.privateKey = some p ∧ s.serverPublicKey = some k ∧
      derivePublicKey x25519 p = some k
  link : ∀ l ∈ s.link, ∀ p ∈ l.tunnel.privateKey, truthy s.privateKey = some p

/-- **The keys go on**: they are a pair, and where there was a pair it is the same. -/
structure Server.Continues (x25519 : RawKey → RawKey) (s s' : Server) : Prop where
  paired : s'.Paired x25519
  publicKey : ∀ k ∈ s.serverPublicKey, s'.serverPublicKey = some k

/-- The columns of the keys are as they were; a row that is new has no keys. -/
structure Database.KeepsKey (db db' : Database) : Prop where
  row : ∀ c ∈ db.configuration, ∃ c' ∈ db'.configuration, c'.serverPublicKey = c.serverPublicKey
  new : db.configuration = none → ∀ c' ∈ db'.configuration, c'.serverPublicKey = none

section Rows

variable {settings : Settings} {nft : FrontEnd} {hmac : String → String}
  {hashPassword : ℕ → String → Option String} {x25519 : RawKey → RawKey} {s s' s₀ : Server}
  {i : StartInput} {db db' : Database}

lemma Database.KeepsKey.of_eq (h : db'.configuration = db.configuration) : db.KeepsKey db' where
  row c hc := ⟨c, h ▸ hc, rfl⟩
  new hn c' hc' := by
    rw [h, hn] at hc'
    cases hc'

/-- A row that was there is written, with the key it has. -/
lemma Database.KeepsKey.of_map {f : Configuration → Configuration}
    (hf : ∀ c, (f c).serverPublicKey = c.serverPublicKey) :
    db.KeepsKey { db with configuration := db.configuration.map f } where
  row c hc := ⟨f c, Option.mem_map_of_mem f hc, hf c⟩
  new hn c' hc' := by
    rw [Option.mem_def, hn] at hc'
    cases hc'

/-- A row is written if it was there and the new one can be stored. -/
lemma Database.KeepsKey.of_save {write : Configuration → Option Configuration}
    (hw : ∀ c c', write c = some c' → c'.serverPublicKey = c.serverPublicKey) :
    db.KeepsKey (match db.configuration.bind write with
      | none => db
      | some config => { db with configuration := some config }) := by
  split
  · exact .of_eq rfl
  next c' h =>
    obtain ⟨c, hc, hc'⟩ := Option.bind_eq_some_iff.1 h
    refine ⟨fun c₀ hc₀ => ⟨c', rfl, ?_⟩, fun hn => ?_⟩
    · obtain rfl := Option.some.inj (hc.symm.trans hc₀)
      exact hw c c' hc'
    · rw [hn] at hc
      cases hc

/-- The row, or the default row, is written with the key it has. -/
lemma Database.KeepsKey.of_some (now : ℕ) {c c' : Configuration}
    (hc : db.configuration.getD { insertedAt := now, updatedAt := now } = c)
    (hc' : c'.serverPublicKey = c.serverPublicKey) :
    db.KeepsKey { db with configuration := some c' } where
  row c₀ hc₀ := by
    rw [Option.mem_def.1 hc₀] at hc
    exact ⟨c', rfl, hc'.trans (congrArg Configuration.serverPublicKey hc.symm)⟩
  new hn c₀ hc₀ := by
    obtain rfl := Option.some.inj hc₀
    rw [hc', ← hc, hn]
    rfl

lemma publicKey_setRows (h : s.db.KeepsKey db') : (s.setRows db').publicKey = s.publicKey := by
  show db'.configuration.bind _ = s.db.configuration.bind _
  cases hc : s.db.configuration with
  | none =>
    cases hc' : db'.configuration with
    | none => rfl
    | some c' => exact h.new hc c' hc'
  | some c =>
    obtain ⟨c', hc', hk⟩ := h.row c hc
    rw [hc']
    exact hk

lemma serverPublicKey_setRows (h : s.db.KeepsKey db') :
    (s.setRows db').serverPublicKey = s.serverPublicKey := by
  rw [Server.serverPublicKey_eq, Server.serverPublicKey_eq, publicKey_setRows h]

lemma privateKey_setRows (h : s.db.KeepsKey db') : (s.setRows db').privateKey = s.privateKey := by
  show (db'.configuration.bind fun _ => s.privateKey) = s.privateKey
  cases hc : s.db.configuration with
  | none =>
    have hnone : s.privateKey = none := by
      rw [Server.privateKey, hc]
      rfl
    rw [hnone]
    cases db'.configuration <;> rfl
  | some c =>
    obtain ⟨c', hc', -⟩ := h.row c hc
    rw [hc']
    rfl

/-- Rows without the keys. -/
lemma Server.Continues.setRows (h : s₀.Continues x25519 s) (hdb : s.db.KeepsKey db') :
    s₀.Continues x25519 (s.setRows db') := by
  have hpub := serverPublicKey_setRows hdb
  have hpriv := privateKey_setRows hdb
  refine ⟨⟨?_, ?_⟩, fun k hk => hpub.trans (h.publicKey k hk)⟩
  · rw [hpub, hpriv]
    exact h.paired.keys
  · rw [hpriv]
    exact h.paired.link

/-- What is done to the firewall and the interface, without the private key. -/
lemma Server.Continues.of_link (h : s₀.Continues x25519 s) (link : Option Link) (t : Table)
    (hlink : ∀ l ∈ link, ∀ p ∈ l.tunnel.privateKey, truthy s.privateKey = some p) :
    s₀.Continues x25519 { s with link := link, fw := t } :=
  ⟨⟨h.paired.keys, hlink⟩, h.publicKey⟩

lemma keepsKey_insertAdmin (h : insertAdmin hashPassword i db = some db') : db.KeepsKey db' := by
  unfold insertAdmin at h
  split at h
  · obtain rfl := Option.some.inj h
    exact .of_eq rfl
  · obtain ⟨hash, -, h⟩ := Option.bind_eq_some_iff.1 h
    rw [(insertUser_eq_some h).2]
    exact .of_eq rfl

lemma keepsKey_seedIdpProviders {now : ℕ} {file : IdpFile}
    (h : seedIdpProviders now file db = some db') : db.KeepsKey db' := by
  unfold seedIdpProviders at h
  split at h
  · obtain rfl := Option.some.inj h
    exact .of_eq rfl
  · obtain ⟨config, hseed, rfl⟩ := Option.map_eq_some_iff.1 h
    refine .of_some now rfl ?_
    obtain ⟨oidc, -, hseed⟩ := Option.bind_eq_some_iff.1 hseed
    obtain ⟨saml, -, hseed⟩ := Option.bind_eq_some_iff.1 hseed
    rw [← Option.some.inj hseed]

lemma fst_getConfig (now : ℕ) :
    db.configuration.getD { insertedAt := now, updatedAt := now } = (Api.getConfig now db).1 := by
  unfold Api.getConfig
  cases db.configuration <;> rfl

lemma snd_getConfig (now : ℕ) (c : Option Configuration) :
    { (Api.getConfig now db).2 with configuration := c } = { db with configuration := c } := by
  unfold Api.getConfig
  cases db.configuration <;> rfl

/-- Whoever reads the configuration over the API may make the row. -/
lemma keepsKey_getConfig (now : ℕ) : db.KeepsKey (Api.getConfig now db).2 := by
  unfold Api.getConfig
  split
  · exact .of_eq rfl
  next hn => exact .of_some now (by rw [hn]; rfl) rfl

lemma serverPublicKey_applyTo {body : ConfigurationUpdate} {c c' : Configuration}
    (h : body.applyTo c = some c') : c'.serverPublicKey = c.serverPublicKey := by
  unfold ConfigurationUpdate.applyTo at h
  simp only [Option.bind_eq_bind, Option.bind_eq_some_iff, Option.pure_def, Option.some_inj] at h
  obtain ⟨_, -, _, -, _, -, _, -, _, -, _, -, _, -, rfl⟩ := h
  rfl

lemma keepsKey_applyTo (write : ConfigurationWrite) :
    db.KeepsKey (write.applyTo settings nft hmac db) := by
  cases write with
  | togglePeerToPeer now value => exact .of_map fun c => rfl
  | toggleLanToPeers now value => exact .of_map fun c => rfl
  | saveDefaults now form =>
    refine .of_save fun c c' h => ?_
    obtain ⟨_, -, _, -, -, rfl⟩ := DefaultsForm.write_eq_some_iff.1 h
    rfl
  | saveSecurity now form =>
    refine .of_save fun c c' h => ?_
    unfold SecurityForm.write at h
    dsimp only at h
    split at h
    · rw [← Option.some.inj h]
    · cases h
  | saveProvider now list edit =>
    refine .of_map fun c => ?_
    cases list <;> rfl
  | getOrCreate now =>
    exact keepsKey_getConfig now
  | put now authorization body =>
    show db.KeepsKey (Api.updateConfiguration hmac now authorization body db).2
    unfold Api.updateConfiguration
    split
    · exact .of_eq rfl
    · dsimp only
      split
      · exact keepsKey_getConfig now
      next config' hc =>
        obtain ⟨hc, -⟩ := Option.filter_eq_some_iff.1 hc
        rw [Api.snd_respond, snd_getConfig]
        exact .of_some now (fst_getConfig now) (serverPublicKey_applyTo hc)

/-! ### A start -/

/-- A pair is made if one of the keys is missing. -/
lemma Server.Continues.ensureKeypair (h : s₀.Continues x25519 s) :
    s₀.Continues x25519 (s.ensureKeypair x25519 i) := by
  unfold Server.ensureKeypair
  dsimp only
  split
  · exact h
  next hmissing =>
    -- the keys are stored together, so both are missing
    obtain ⟨hpriv, hpub⟩ : truthy s.privateKey = none ∧ s.serverPublicKey = none := by
      refine h.paired.keys.resolve_right ?_
      rintro ⟨p, k, hp, hk, -⟩
      refine hmissing ⟨?_, by rw [hp]; rfl⟩
      have hrow : s.publicKey =
          (s.db.configuration.getD
            { insertedAt := i.now, updatedAt := i.now }).serverPublicKey := by
        unfold Server.publicKey
        cases s.db.configuration <;> rfl
      have hk : truthy s.publicKey = some k := s.serverPublicKey_eq ▸ hk
      rw [← hrow, hk]
      rfl
    split
    · exact h
    next p k hpair =>
      obtain ⟨raw, -, hpair⟩ := Option.bind_eq_some_iff.1 hpair
      rw [generateKeypair_eq, Option.some.injEq, Prod.mk.injEq] at hpair
      obtain ⟨rfl, rfl⟩ := hpair
      refine ⟨⟨.inr ⟨raw.text, (x25519 raw).text, truthy_some (text_ne_empty raw),
        (Server.serverPublicKey_eq _).trans (truthy_some (text_ne_empty _)),
        derivePublicKey_generatePrivateKey⟩, fun l hl q hq => ?_⟩, fun k hk => ?_⟩
      · have hq := h.paired.link l hl q hq
        rw [hpriv] at hq
        cases hq
      · have hk := h.publicKey k hk
        rw [hpub] at hk
        cases hk

end Rows

/-- What `startup` does before it comes to the interface: rows of devices and rules, the interface
and the firewall stay, and the keys go on. -/
structure Server.Prepares (x25519 : RawKey → RawKey) (s s' : Server) : Prop where
  devices : s'.db.devices = s.db.devices
  rules : s'.db.rules = s.db.rules
  link : s'.link = s.link
  fw : s'.fw = s.fw
  keys : ∀ s₀ : Server, s₀.Continues x25519 s → s₀.Continues x25519 s'

lemma Server.Prepares.refl (x25519 : RawKey → RawKey) (s : Server) : s.Prepares x25519 s :=
  ⟨rfl, rfl, rfl, rfl, fun _ h => h⟩

lemma Server.Prepares.trans {x25519 : RawKey → RawKey} {s s' s'' : Server}
    (h : s.Prepares x25519 s') (h' : s'.Prepares x25519 s'') : s.Prepares x25519 s'' :=
  ⟨h'.devices.trans h.devices, h'.rules.trans h.rules, h'.link.trans h.link, h'.fw.trans h.fw,
    fun s₀ hs => h'.keys s₀ (h.keys s₀ hs)⟩

/-- The lists of the configuration, or of the default row, are the same. -/
structure Database.SameProviders (now : ℕ) (db db' : Database) : Prop where
  oidc : (db'.configuration.getD { insertedAt := now, updatedAt := now }).openidConnectProviders =
    (db.configuration.getD { insertedAt := now, updatedAt := now }).openidConnectProviders
  saml : (db'.configuration.getD { insertedAt := now, updatedAt := now }).samlIdentityProviders =
    (db.configuration.getD { insertedAt := now, updatedAt := now }).samlIdentityProviders

section Programs

open StartProgram

variable {settings : Settings} {port : ℕ} {nft : FrontEnd}
  {hashPassword : ℕ → String → Option String} {x25519 : RawKey → RawKey} {s s₀ : Server}
  {i : StartInput} {step : StartStep} {write : Database → Option Database}
  {Q : Unit → Server → Prop} {R : StartError → Server → Prop}

lemma reach_ends (hraise : i.raises step = true → R (.step step) s) (h : Q () s) :
    Ends (reach i step) s Q R := by
  refine .point (fun e he => ?_) fun _ => h
  split at he
  next hr =>
    obtain rfl := Option.some.inj he
    exact hraise hr
  next => cases he

lemma writeRows_ends (hfail : i.raises step = true ∨ write s.db = none → R (.step step) s)
    (hok : ∀ db, write s.db = some db → Q () (s.setRows db)) :
    Ends (writeRows i step write) s Q R := by
  refine .bind (reach_ends (fun hr => hfail (.inl hr)) (.bind (.get ?_)))
  cases hw : write s.db with
  | none => exact .throw (hfail (.inr hw))
  | some db => exact .set (hok db hw)

lemma onLink_ends {α : Type} {x : LinkProgram α} {Q : α → Server → Prop}
    (h : Ends x s.link (fun a l => Q a { s with link := l })
      fun e l => R (.link e) { s with link := l }) : Ends (onLink x) s Q R :=
  .zoom h

lemma Server.Prepares.setRows {db : Database} (hdev : db.devices = s.db.devices)
    (hrules : db.rules = s.db.rules) (h : s.db.KeepsKey db) : s.Prepares x25519 (s.setRows db) :=
  ⟨hdev, hrules, rfl, rfl, fun _ hs => hs.setRows h⟩

lemma insertAdmin_eq_some {db db' : Database} (h : insertAdmin hashPassword i db = some db') :
    db'.devices = db.devices ∧ db'.rules = db.rules ∧ db'.users ≠ [] ∧
      db'.configuration = db.configuration := by
  unfold insertAdmin at h
  split at h
  next hne =>
    obtain rfl := Option.some.inj h
    exact ⟨rfl, rfl, hne, rfl⟩
  next =>
    obtain ⟨hash, -, h⟩ := Option.bind_eq_some_iff.1 h
    rw [(insertUser_eq_some h).2]
    exact ⟨rfl, rfl, by simp, rfl⟩

lemma seedIdpProviders_eq_some {now : ℕ} {file : IdpFile} {db db' : Database}
    (h : seedIdpProviders now file db = some db') :
    db'.devices = db.devices ∧ db'.rules = db.rules ∧ db'.users = db.users := by
  unfold seedIdpProviders at h
  split at h
  · obtain rfl := Option.some.inj h
    exact ⟨rfl, rfl, rfl⟩
  · obtain ⟨config, -, rfl⟩ := Option.map_eq_some_iff.1 h
    exact ⟨rfl, rfl, rfl⟩

/-- Only the configuration row is written, and of the users and the providers nothing. -/
lemma ensureKeypair_cases : s.ensureKeypair x25519 i = s ∨ ∃ config p, s.ensureKeypair x25519 i =
    { s with db := { s.db with configuration := some config }, serverPrivateKey := p } ∧
      s.db.SameProviders i.now { s.db with configuration := some config } := by
  unfold Server.ensureKeypair
  dsimp only
  split
  · exact .inl rfl
  · split
    · exact .inl rfl
    · exact .inr ⟨_, _, rfl, rfl, rfl⟩

lemma prepares_ensureKeypair : s.Prepares x25519 (s.ensureKeypair x25519 i) := by
  have hkeys : ∀ s₀ : Server, s₀.Continues x25519 s → s₀.Continues x25519
      (s.ensureKeypair x25519 i) := fun _ h => h.ensureKeypair
  have hcases : s.ensureKeypair x25519 i = s ∨ _ := ensureKeypair_cases
  rcases hcases with h | ⟨config, p, h, -⟩
  · rw [h]
    exact .refl x25519 s
  · rw [h] at hkeys ⊢
    exact ⟨rfl, rfl, rfl, rfl, hkeys⟩

/-- Both keys are there. -/
def Server.HasKeys (s : Server) : Prop :=
  (truthy s.privateKey).isSome = true ∧ s.serverPublicKey.isSome = true

lemma Server.HasKeys.setRows {db : Database} (h : s.HasKeys) (hdb : s.db.KeepsKey db) :
    (s.setRows db).HasKeys := by
  have hpub := serverPublicKey_setRows hdb
  unfold Server.HasKeys
  rw [hpub, privateKey_setRows hdb]
  exact h

/-- If a pair can be made, there is one afterwards. -/
lemma hasKeys_ensureKeypair {raw : RawKey} (h : i.raw = some raw) :
    (s.ensureKeypair x25519 i).HasKeys := by
  unfold Server.ensureKeypair
  rw [h, Option.bind_some, generateKeypair_eq]
  dsimp only
  split
  next hthere =>
    refine ⟨hthere.2, ?_⟩
    have hpub := hthere.1
    cases hc : s.db.configuration with
    | none =>
      rw [hc] at hpub
      cases hpub
    | some config =>
      rw [hc] at hpub
      rw [Server.serverPublicKey_eq, Server.publicKey, hc]
      exact hpub
  next =>
    refine ⟨?_, ?_⟩
    · show (truthy (some raw.text)).isSome = true
      rw [truthy_some (text_ne_empty raw)]
      rfl
    · rw [Server.serverPublicKey_eq]
      show (truthy (some (x25519 raw).text)).isSome = true
      rw [truthy_some (text_ne_empty _)]
      rfl

/-- The providers can be merged or not, whatever else is in the row. -/
lemma seedIdpProviders_eq_none {now : ℕ} {file : IdpFile} {db db' : Database}
    (hsame : db.SameProviders now db') (h : seedIdpProviders now file db' = none) :
    seedIdpProviders now file db = none := by
  unfold seedIdpProviders at h ⊢
  split at h
  · cases h
  next hne =>
    rw [if_neg hne]
    rw [Option.map_eq_none_iff] at h ⊢
    unfold seedConfiguration at h ⊢
    rw [hsame.oidc, hsame.saml] at h
    simpa using h

/-- A step fails, or the admin or the providers cannot be written. -/
def StartInput.Fails (hashPassword : ℕ → String → Option String) (i : StartInput) (db : Database) :
    Prop :=
  (∃ step, i.raises step = true) ∨ (∃ cmd, i.fails cmd = true) ∨
    insertAdmin hashPassword i db = none ∨ seedIdpProviders i.now i.idpFile db = none

/-- **The first steps** end with an admin and, if they can be made, with keys, or raise with what
has been done until then. -/
lemma prepare_ends
    (hprepared : ∀ s', s.Prepares x25519 s' → s'.db.users ≠ [] →
      (i.raw ≠ none → s'.HasKeys) → Q () s')
    (hraise : ∀ e s', i.Fails hashPassword s.db → s.Prepares x25519 s' → R e s') :
    Ends (prepare hashPassword x25519 i) s Q R := by
  have hstep : ∀ {step}, i.raises step = true → i.Fails hashPassword s.db := fun h => .inl ⟨_, h⟩
  refine .bind (reach_ends (fun hr => hraise _ s (hstep hr) (.refl _ s)) (.bind (writeRows_ends
    (fun hr => hraise _ s (hr.elim hstep fun hn => .inr (.inr (.inl hn))) (.refl _ s))
    fun db hdb => ?_)))
  obtain ⟨hdev, hrules, husers, hconfig⟩ := insertAdmin_eq_some hdb
  have h₁ : s.Prepares x25519 (s.setRows db) := .setRows hdev hrules (keepsKey_insertAdmin hdb)
  refine .bind (reach_ends (fun hr => hraise _ _ (hstep hr) h₁) (.bind (.modify ?_)))
  have hcases : (s.setRows db).ensureKeypair x25519 i = s.setRows db ∨ _ := ensureKeypair_cases
  have h₂ := h₁.trans (prepares_ensureKeypair (i := i))
  have hkeys : i.raw ≠ none → ((s.setRows db).ensureKeypair x25519 i).HasKeys := by
    intro hraw
    obtain ⟨raw, hraw⟩ := Option.ne_none_iff_exists'.1 hraw
    exact hasKeys_ensureKeypair hraw
  generalize (s.setRows db).ensureKeypair x25519 i = s₂ at h₂ hcases hkeys
  obtain ⟨husers₂, hsame⟩ : s₂.db.users = db.users ∧ s.db.SameProviders i.now s₂.db := by
    have hdb : s.db.SameProviders i.now db := ⟨by rw [hconfig], by rw [hconfig]⟩
    rcases hcases with rfl | ⟨config, p, rfl, hsame⟩
    · exact ⟨rfl, hdb⟩
    · exact ⟨rfl, hsame.oidc.trans hdb.oidc, hsame.saml.trans hdb.saml⟩
  refine .bind (writeRows_ends (fun hr => hraise _ _ (hr.elim hstep fun hn => ?_) h₂)
    fun db' hdb' => ?_)
  · exact .inr (.inr (.inr (seedIdpProviders_eq_none hsame hn)))
  obtain ⟨hdev', hrules', husers'⟩ := seedIdpProviders_eq_some hdb'
  have hkeep := keepsKey_seedIdpProviders hdb'
  have h₃ := h₂.trans (.setRows hdev' hrules' hkeep)
  refine reach_ends (fun hr => hraise _ _ (hstep hr) h₃) (hprepared _ h₃ ?_
    fun hraw => (hkeys hraw).setRows hkeep)
  show db'.users ≠ []
  rw [husers', husers₂]
  exact husers

/-! The interface -/

/-- Nothing is there still, or a link that has lost nothing. -/
def LinkExtends (link link' : Option Link) : Prop :=
  link' = link ∨ ∃ l', link' = some l' ∧ (link.getD .new).Extends l'

/-- Whatever the settings are, the tunnel is not touched. -/
lemma ensureInterface_extends (fails : LinkCmd → Bool) (link : Option Link) :
    Ends (ensureInterface fails settings) link (fun _ => LinkExtends link)
      (fun _ => LinkExtends link) := by
  cases hs : settings.serverAddresses with
  | some addresses =>
    refine (ensureInterface_ends fails link hs).imp ?_ ?_
    · rintro _ _ ⟨-, -, l', rfl, hl, -⟩
      exact .inr ⟨l', rfl, hl⟩
    · rintro _ _ ⟨-, h⟩
      exact h
  | none =>
    unfold ensureInterface
    rw [hs]
    have hnew : link = none → LinkExtends link (some .new) := by
      rintro rfl
      exact .inr ⟨.new, rfl, .refl .new⟩
    refine .bind (linkThere_ends (fun l _ _ => ?_) (fun hn _ => ?_) fun _ => .inl rfl)
    · exact .bind (interfaceAddresses_ends (fun _ _ _ => .throw (.inl rfl)) fun _ =>
        .throw (.inl rfl))
    · exact .bind (.pure (.throw (hnew hn)))

/-- The link after `configure_interface`. -/
def Link.configured (privateKey : Option String) (port : ℕ) (l : Link) : Link :=
  match truthy privateKey with
  | none => l
  | some key =>
    { l with tunnel := { l.tunnel with privateKey := some key, listenPort := some port } }

lemma configureInterface_ends {fails : LinkCmd → Bool} {privateKey : Option String}
    {link : Option Link} {Q : Unit → Option Link → Prop} {R : LinkError → Option Link → Prop}
    (hok : Q () (link.map (Link.configured privateKey port)))
    (hfail : ∀ e, (∃ cmd, fails cmd = true) ∨ link = none → R e link) :
    Ends (configureInterface fails privateKey port) link Q R := by
  unfold configureInterface
  unfold Link.configured at hok
  split
  next hk =>
    rw [hk] at hok
    cases link with
    | none => exact .pure hok
    | some l => exact .pure hok
  next key hk =>
    rw [hk] at hok
    cases link with
    | none => exact runLink_ends (fun _ l hl => by cases hl) fun _ => hfail _ (.inr rfl)
    | some l =>
      refine runLink_ends (fun _ l' hl => ?_) fun h => hfail _ ?_
      · obtain rfl := Option.some.inj hl
        exact hok
      · exact .inl ⟨_, h.resolve_right nofun⟩

/-! All of it -/

lemma Server.Continues.of_extends (h : s₀.Continues x25519 s) {link : Option Link}
    (hlink : LinkExtends s.link link) : s₀.Continues x25519 { s with link := link } := by
  refine h.of_link link s.fw fun l hl p hp => ?_
  rcases hlink with rfl | ⟨l', rfl, hext⟩
  · exact h.paired.link l hl p hp
  · obtain rfl := Option.some.inj hl
    rw [hext.tunnel] at hp
    cases hs : s.link with
    | none =>
      rw [hs] at hp
      cases hp
    | some l₀ =>
      rw [hs] at hp
      exact h.paired.link l₀ hs p hp

lemma Server.Continues.configured (port : ℕ) (h : s₀.Continues x25519 s) :
    s₀.Continues x25519
      { s with link := s.link.map (Link.configured s.privateKey port) } := by
  refine h.of_link _ s.fw fun l hl p hp => ?_
  obtain ⟨l₀, hl₀, rfl⟩ := Option.map_eq_some_iff.1 hl
  unfold Link.configured at hp
  split at hp
  · exact h.paired.link l₀ hl₀ p hp
  next key hk =>
    obtain rfl := Option.some.inj hp
    exact hk

lemma Server.Continues.reconcile (h : s₀.Continues x25519 s) {order : SetOrders} :
    s₀.Continues x25519 (s.reconcile settings nft order) := by
  unfold Server.reconcile
  split
  next hl => exact h.of_link s.link _ h.paired.link
  next l hl =>
    refine h.of_link _ _ fun l' hl' p hp => ?_
    obtain rfl := Option.some.inj hl'
    exact h.paired.link l hl p hp

/-- **The keys go on** in a start, however it ends. -/
theorem continues_start (h : s₀.Continues x25519 s) :
    s₀.Continues x25519 (Raise.left (start settings port nft hashPassword x25519 i) s) := by
  refine Ends.left (P := s₀.Continues x25519) (.bind (prepare_ends (fun s₁ h₁ _ _ => ?_)
    fun e s₁ _ h₁ => h₁.keys s₀ h))
  have h₁ := h₁.keys s₀ h
  by_cases hwg : settings.wgEnabled = true
  · rw [if_pos hwg]
    refine .bind (.bind (onLink_ends ((ensureInterface_extends i.fails s₁.link).imp
      (fun _ link hlink => ?_) fun _ link hlink => h₁.of_extends hlink)))
    have h₂ := h₁.of_extends hlink
    refine .bind (reach_ends (fun _ => h₂) (.bind (.get (onLink_ends (configureInterface_ends ?_
      fun _ _ => h₂)))))
    have h₃ := h₂.configured port
    refine .bind (reach_ends (fun _ => h₃) (.bind (.get ?_)))
    split
    · exact .throw h₃
    next t _ =>
      have h₄ := h₃.of_link _ (setupMasquerade nft settings t) h₃.paired.link
      exact .bind (.set (.bind (reach_ends (fun _ => h₄) (.modify h₄.reconcile))))
  · rw [if_neg hwg]
    exact .pure h₁

end Programs

/-! ### The runs -/

section Runs

variable {settings : Settings} {port : ℕ} {nft : FrontEnd} {hmac : String → String}
  {hashPassword : ℕ → String → Option String} {x25519 : RawKey → RawKey} {d : Deployment}
  {e : ServerEvent}

/-- The keys that clients have are those of the server. -/
structure Deployment.Paired (x25519 : RawKey → RawKey) (d : Deployment) : Prop where
  server : d.server.Paired x25519
  issued : ∀ k ∈ d.issued, d.server.serverPublicKey = some k

lemma Server.Paired.continues {s : Server} (h : s.Paired x25519) : s.Continues x25519 s :=
  ⟨h, fun _ hk => hk⟩

/-- **The keys go on** in one event. -/
lemma continues_next (h : d.server.Paired x25519) (he : e.LeavesKey d) :
    d.server.Continues x25519
      (e.next settings port nft hmac hashPassword x25519 d).server := by
  have hc := h.continues
  cases e with
  | start i => exact continues_start hc
  | reboot => exact hc.of_link none .empty nofun
  | configuration write => exact hc.setRows (keepsKey_applyTo write)
  | rows db => exact hc.setRows (.of_eq rfl)
  | clientFile => exact hc
  | link there =>
    refine hc.of_link there d.server.fw fun l hl p hp => ?_
    obtain ⟨l₀, hl₀, hp₀⟩ := he l hl p hp
    exact h.link l₀ hl₀ p hp₀
  | firewall t => exact hc.of_link d.server.link t h.link

/-- **One event** keeps the key pair. -/
theorem Deployment.Paired.next (h : d.Paired x25519) (he : e.LeavesKey d) :
    (e.next settings port nft hmac hashPassword x25519 d).Paired x25519 := by
  have hc : d.server.Continues x25519
      (e.next settings port nft hmac hashPassword x25519 d).server := continues_next h.server he
  refine ⟨hc.paired, fun k hk => ?_⟩
  cases e with
  | clientFile =>
    rcases List.mem_append.1 hk with hk | hk
    · exact h.issued k hk
    · exact Option.mem_toList.1 hk
  | start i | reboot | configuration write | rows db | link there | firewall t =>
    exact hc.publicKey k (h.issued k hk)

/-- **The key of the server stays**: in every state of every run each public key that a client was
given belongs to the private key that is stored, and to the one on the interface if there is one. -/
theorem run_serverKey (settings : Settings) (port : ℕ) (nft : FrontEnd) (hmac : String → String)
    (hashPassword : ℕ → String → Option String) (x25519 : RawKey → RawKey) (h : d.Paired x25519)
    (events : List ServerEvent)
    (hkey : Run.Throughout (ServerEvent.next settings port nft hmac hashPassword x25519)
      ServerEvent.LeavesKey events d) :
    Run.Always (ServerEvent.next settings port nft hmac hashPassword x25519)
      (fun d => ∀ k ∈ d.issued,
        (∃ p ∈ truthy d.server.privateKey, derivePublicKey x25519 p = some k) ∧
        ∀ l ∈ d.server.link, ∀ p ∈ l.tunnel.privateKey, derivePublicKey x25519 p = some k)
      events d := by
  refine (Run.always_of_step (fun e d hd he => hd.next he) h hkey).imp fun d hd k hk => ?_
  have hpub := hd.issued k hk
  rcases hd.server.keys with ⟨-, hnone⟩ | ⟨p, k', hp, hk', hderive⟩
  · rw [hpub] at hnone
    cases hnone
  · obtain rfl := Option.some.inj (hpub.symm.trans hk')
    refine ⟨⟨p, hp, hderive⟩, fun l hl q hq => ?_⟩
    obtain rfl := Option.some.inj ((hd.server.link l hl q hq).symm.trans hp)
    exact hderive

end Runs

/-! The first start raises after the keys are stored; the next one draws other bytes. -/

def firstKey : RawKey := ⟨(List.range 32).map (· + 1), by decide, by decide⟩

/-- The public key of `firstKey`. -/
def firstPublicKey : RawKey where
  bytes := [7, 163, 124, 188, 20, 32, 147, 200, 183, 85, 220, 27, 16, 232, 108, 180,
    38, 55, 74, 209, 106, 168, 83, 237, 11, 223, 192, 178, 184, 109, 28, 124]
  byte_lt := by decide
  length := by decide

def failingStart : StartInput where
  now := 0
  salt := 0
  adminId := alice
  adminEmail := "admin@localhost"
  adminPassword := none
  token := "token"
  raw := some firstKey
  idpFile := ⟨[], []⟩
  order := ascending
  raises := fun step => step = .registerProviders
  fails := fun _ => false

def nextStart : StartInput :=
  { failingStart with raw := some firstPublicKey, raises := fun _ => false }

def newDeployment : Deployment where
  server := {
    db := { users := [], devices := [], rules := [], mfaMethods := [], configuration := none }
    serverPrivateKey := none
    link := none
    fw := .empty }
  issued := []

def restarts : List ServerEvent := [.start failingStart, .clientFile, .reboot, .start nextStart]

theorem run_serverKey_restarts :
    let d := Run.final (ServerEvent.next defaultSettings 51820 (.fragment tableName) id
      (fun _ password => some password) fun _ => firstPublicKey) restarts newDeployment
    ∃ k, d.issued = [k] ∧
      ∃ p ∈ truthy d.server.privateKey, derivePublicKey (fun _ => firstPublicKey) p = some k := by
  have hpaired : newDeployment.Paired fun _ => firstPublicKey :=
    ⟨⟨.inl ⟨rfl, rfl⟩, nofun⟩, nofun⟩
  have hstored : (ServerEvent.next defaultSettings 51820 (.fragment tableName) id
      (fun _ password => some password) (fun _ => firstPublicKey) (.start failingStart)
      newDeployment).server.serverPublicKey = some firstPublicKey.text :=
    (Server.serverPublicKey_eq _).trans (truthy_some (text_ne_empty _))
  have hrun := run_serverKey defaultSettings 51820 (.fragment tableName) id
    (fun _ password => some password) (fun _ => firstPublicKey) hpaired restarts
    ⟨trivial, trivial, trivial, trivial, trivial⟩
  have hissued : (Run.final (ServerEvent.next defaultSettings 51820 (.fragment tableName) id
      (fun _ password => some password) fun _ => firstPublicKey) restarts newDeployment).issued =
        [firstPublicKey.text] := by
    show [] ++ (Server.serverPublicKey _).toList = _
    rw [hstored]
    rfl
  refine ⟨firstPublicKey.text, hissued, (hrun.final _ ?_).1⟩
  rw [hissued]
  exact List.mem_cons_self

end WireGui
