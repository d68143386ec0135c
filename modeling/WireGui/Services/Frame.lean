import WireGui.Services.Events

/-!
# A rebuild for one user and the other users

`_rebuild_user_chain` hands `rebuild_all_rules` a single entry.  So every other user's chain is an
orphan to it, and `forward` is left with the jumps of the one user.  `rebuildUserChain_frame_iff`
says exactly when the other users are left alone all the same.
-/

namespace WireGui

open Nft (IsName)

/-- The user has devices or rules. -/
def Database.HasRows (db : Database) (v : Uuid) : Prop :=
  (∃ d ∈ db.devices, d.userId = v) ∨ ∃ r ∈ db.rules, r.userId = some v

/-- The rule is a jump to the chain of `v` from a tunnel address or a relay subnet of `v`. -/
def Database.IsJumpOf (db : Database) (v : Uuid) (r : NftRule) : Prop :=
  ∃ d ∈ db.devices, d.userId = v ∧ ∃ src ∈ d.entry.sources, ∃ n,
    Ip.parseNet src.1 src.2 = some n ∧ r = jumpRule (chainOf v) n

/-- **The firewall of `v` is in `t'` what it was in `t`.** -/
structure SameFor (db : Database) (v : Uuid) (t t' : Table) : Prop where
  chain : ∀ ch, t.chains.lookup (chainOf v) = some ch →
    ∃ ch', t'.chains.lookup (chainOf v) = some ch' ∧ ch'.rules = ch.rules
  jumps : ∀ r ∈ t.chains.rules "forward", db.IsJumpOf v r → r ∈ t'.chains.rules "forward"

/-- The rules that lines leave in a chain that was empty. -/
def rulesLeft (nft : FrontEnd) (c : String) (lines : List String) : Option (List NftRule) :=
  (nft.batch lines).bind fun cmds => (Nft.effectOn c cmds (some ⟨none, []⟩)).map Nft.Chain.rules

/-- The user chains of a table have names that nft can read. -/
def Named (t : Table) : Prop := ∀ c ∈ t.chains, IsUserChain c → IsName c

lemma isName_of_orphaned {t : Table} (ht : Named t) {es : List Entry}
    (orphaned : SetOrder (orphanedChains t es)) : ∀ c ∈ orphaned.toList, IsName c := by
  intro c hc
  have hm := (mem_orphanedChains.1 ((orphaned.mem_iff c).1 hc)).1
  exact ht c hm.1 hm.2

section Batch

variable {nft : FrontEnd} {e : Entry} {orphaned : List String}
  {cmds : List (Nft.Cmd String Nft.Match)}

/-- The commands of a rebuild with one entry, whatever its rules and addresses are read as. -/
lemma batch_singleton (hc : IsName e.chain) (ho : ∀ c ∈ orphaned, IsName c)
    (h : nft.batch (rebuildCommands [e] orphaned) = some cmds) :
    ∃ rc jc, nft.batch e.ruleLines = some rc ∧ nft.batch e.jumpLines = some jc ∧
      cmds = [.addChain e.chain none, .flushChain e.chain] ++ rc ++ [.flushChain "forward"] ++ jc ++
        Nft.removal orphaned := by
  have hl : rebuildCommands [e] orphaned =
      [addChainLine e.chain, flushChainLine e.chain] ++ e.ruleLines ++ [flushChainLine "forward"] ++
        e.jumpLines ++ orphaned.flatMap fun c => [flushChainLine c, deleteChainLine c] := by
    simp [rebuildCommands, Entry.chainLines]
  rw [hl] at h
  obtain ⟨c₄, c₅, h₄, h₅, rfl⟩ := (Nft.batch_append_eq_some_iff nft).1 h
  obtain ⟨c₃, jc, h₃, hj, rfl⟩ := (Nft.batch_append_eq_some_iff nft).1 h₄
  obtain ⟨c₂, cf, h₂, hf, rfl⟩ := (Nft.batch_append_eq_some_iff nft).1 h₃
  obtain ⟨ca, rc, ha, hr, rfl⟩ := (Nft.batch_append_eq_some_iff nft).1 h₂
  refine ⟨rc, jc, hr, hj, ?_⟩
  have ha' : ca = [.addChain e.chain none, .flushChain e.chain] := by
    simpa [Nft.FrontEnd.batch, read_addChainLine nft hc, read_flushChainLine nft hc] using ha.symm
  have hf' : cf = [.flushChain "forward"] := by
    simpa [Nft.FrontEnd.batch, read_flushChainLine nft (c := "forward") (by decide)] using hf.symm
  have hr' : c₅ = Nft.removal orphaned := by
    have hb : nft.batch (orphaned.flatMap fun c => [flushChainLine c, deleteChainLine c]) =
        some (Nft.removal orphaned) := by
      refine batch_flatMap nft fun c hc => ?_
      simp [Nft.FrontEnd.batch, read_flushChainLine nft (ho c hc),
        read_deleteChainLine nft (ho c hc)]
    exact Option.some.inj (h₅.symm.trans hb)
  rw [ha', hf', hr']

end Batch

section Accepted

variable {nft : FrontEnd} {e : Entry} {t t' : Table} {orphaned : SetOrder (orphanedChains t [e])}

/-- An accepted rebuild with one entry removes every other user chain. -/
lemma lookup_other (ht : Named t) (hc : IsName e.chain)
    (h : rebuildAllRules nft [e] t orphaned = .ok t') {c : String} (hm : c ∈ t.chains)
    (hu : IsUserChain c) (hne : e.chain ≠ c) : t'.chains.lookup c = none := by
  obtain ⟨cmds, hb, hl⟩ := nftBatch_eq_ok_iff.1 h
  obtain ⟨rc, jc, -, -, rfl⟩ := batch_singleton hc (isName_of_orphaned ht orphaned) hb
  have ho : c ∈ orphaned.toList :=
    (orphaned.mem_iff c).2 (mem_orphanedChains.2 ⟨⟨hm, hu⟩, by simpa using hne⟩)
  rw [Nft.load_lookup hl, Nft.effectOn_append, Nft.effectOn_removal, if_pos ho]

/-- What it leaves in its own chain. -/
lemma rules_own (ht : Named t) (hc : IsName e.chain) (hu : IsUserChain e.chain)
    (h : rebuildAllRules nft [e] t orphaned = .ok t') :
    (t'.chains.lookup e.chain).map Nft.Chain.rules =
      rulesLeft nft e.chain (e.ruleLines ++ e.jumpLines) := by
  obtain ⟨cmds, hb, hl⟩ := nftBatch_eq_ok_iff.1 h
  obtain ⟨rc, jc, hr, hj, rfl⟩ := batch_singleton hc (isName_of_orphaned ht orphaned) hb
  have ho : e.chain ∉ orphaned.toList := by
    intro ho
    exact (mem_orphanedChains.1 ((orphaned.mem_iff _).1 ho)).2 e List.mem_cons_self rfl
  have hf := hu.ne_forward
  rw [rulesLeft, Nft.batch_append nft hr hj, Option.bind_some, Nft.load_lookup hl,
    Nft.effectOn_append, Nft.effectOn_removal, if_neg ho, Nft.effectOn_append, Nft.effectOn_append,
    Nft.effectOn_append, Nft.effectOn_append, Nft.effectOn_cons, Nft.effectOn_nil,
    if_neg (by simpa [Nft.Cmd.chain] using Ne.symm hf)]
  apply Nft.effectOn_rules_congr
  apply Nft.effectOn_rules_congr
  rw [Nft.effectOn_cons, Nft.effectOn_cons, Nft.effectOn_nil]
  cases t.chains.lookup e.chain <;> simp [Nft.Cmd.chain, Nft.Cmd.effect]

/-- What it leaves in `forward`. -/
lemma rules_forward (ht : Named t) (hc : IsName e.chain)
    (h : rebuildAllRules nft [e] t orphaned = .ok t') :
    (t'.chains.lookup "forward").map Nft.Chain.rules = rulesLeft nft "forward" e.jumpLines := by
  obtain ⟨cmds, hb, hl⟩ := nftBatch_eq_ok_iff.1 h
  obtain ⟨rc, jc, hr, hj, rfl⟩ := batch_singleton hc (isName_of_orphaned ht orphaned) hb
  have ho := forward_notMem_orphaned orphaned
  -- the chain is there when it is emptied, or nft would refuse
  have hmem : ∃ ch, Nft.effectOn "forward"
      ([.addChain e.chain none, .flushChain e.chain] ++ rc) (t.chains.lookup "forward") =
        some ch := by
    have hrun := Nft.load_eq_some_iff.1 hl
    rw [List.append_assoc, List.append_assoc, Nft.run_append] at hrun
    obtain ⟨u, hu, hrun⟩ := Option.bind_eq_some_iff.1 hrun
    rw [List.singleton_append, Nft.run_cons] at hrun
    obtain ⟨w, hw, -⟩ := Option.bind_eq_some_iff.1 hrun
    have hlegal : "forward" ∈ u := (Nft.exec_eq_some_iff.1 hw).1
    rw [← Nft.run_lookup hu]
    exact Nft.mem_iff_lookup.1 hlegal
  obtain ⟨ch, hch⟩ := hmem
  rw [rulesLeft, hj, Option.bind_some, Nft.load_lookup hl, Nft.effectOn_append,
    Nft.effectOn_removal, if_neg ho, Nft.effectOn_append, Nft.effectOn_append, hch,
    Nft.effectOn_cons, Nft.effectOn_nil, if_pos (by rfl)]
  exact Nft.effectOn_rules_congr _ _ rfl

end Accepted

/-- A jump to a chain in a table: the chain is there. -/
lemma mem_of_jump {t : Table} {c d : String} {n : Ip.Net} (h : jumpRule c n ∈ t.chains.rules d) :
    c ∈ t.chains := by
  obtain ⟨ch, hch, -⟩ := t.grounded c (Nft.refs_iff.2 ⟨d, _, h, rfl⟩)
  exact Nft.mem_iff_lookup.2 ⟨ch, hch⟩

/-- **When a rebuild for `u` leaves the other users alone.**  Either nft refuses the batch, or no
other user with devices or rules has a chain in the table; one whose chain has the name of `u`'s
chain may have, if that chain already holds the rules of `u` and the other's jumps are jumps of
`u`. -/
theorem rebuildUserChain_frame_iff (nft : FrontEnd) (order : SetOrders) (db : Database) (u : Uuid)
    {t : Table} (ht : Named t) :
    (∀ v, v ≠ u → db.HasRows v → SameFor db v t (rebuildUserChain nft order db u t)) ↔
      ((∃ t', rebuildAllRules nft [db.userEntry u] t (order _) = .ok t') →
        ∀ v, v ≠ u → db.HasRows v → chainOf v ∈ t.chains →
          chainOf v = chainOf u ∧
          rulesLeft nft (chainOf u) ((db.userEntry u).ruleLines ++ (db.userEntry u).jumpLines) =
            some (t.chains.rules (chainOf u)) ∧
          ∀ r ∈ t.chains.rules "forward", db.IsJumpOf v r →
            ∃ js, rulesLeft nft "forward" (db.userEntry u).jumpLines = some js ∧ r ∈ js) := by
  have hc : IsName (db.userEntry u).chain := isName_chainOf u
  constructor
  · rintro hsame ⟨t', ht'⟩ v hv hrows hmem
    have hs := hsame v hv hrows
    rw [rebuildUserChain_of_ok ht'] at hs
    obtain ⟨ch, hch⟩ := Nft.mem_iff_lookup.1 hmem
    obtain ⟨ch', hch', hrules⟩ := hs.chain ch hch
    have hchain : chainOf v = chainOf u := by
      by_contra hne
      have hgone := lookup_other ht hc ht' hmem (isUserChain_chainOf v) (Ne.symm hne)
      cases hch'.symm.trans hgone
    refine ⟨hchain, ?_, fun r hr hj => ?_⟩
    · have hown := rules_own ht hc (isUserChain_chainOf u) ht'
      rw [userEntry_chain, ← hchain] at hown
      have hch' : t'.chains.lookup (chainOf v) = some ch' := hch'
      rw [← hchain, ← hown, hch', Nft.rules_of_lookup hch, Option.map_some, hrules]
    · have hr' : r ∈ t'.chains.rules "forward" := hs.jumps r hr hj
      obtain ⟨fw, hfw⟩ := Nft.mem_iff_lookup.1 (Nft.mem_of_mem_rules hr')
      refine ⟨fw.rules, ?_, by rwa [Nft.rules_of_lookup hfw] at hr'⟩
      rw [← rules_forward ht hc ht', hfw]
      rfl
  · intro hcond v hv hrows
    cases hreb : rebuildAllRules nft [db.userEntry u] t (order _) with
    | error err =>
      rw [rebuildUserChain, hreb]
      exact ⟨fun ch hch => ⟨ch, hch, rfl⟩, fun r hr _ => hr⟩
    | ok t' =>
      rw [rebuildUserChain, hreb]
      have hcond := hcond ⟨t', hreb⟩ v hv hrows
      constructor
      · intro ch hch
        obtain ⟨hchain, hleft, -⟩ := hcond (Nft.mem_iff_lookup.2 ⟨ch, hch⟩)
        have hown := rules_own ht hc (isUserChain_chainOf u) hreb
        rw [userEntry_chain, hleft, ← hchain, Nft.rules_of_lookup hch] at hown
        obtain ⟨ch', hch', hr⟩ := Option.map_eq_some_iff.1 hown
        exact ⟨ch', hch', hr⟩
      · intro r hr hj
        obtain ⟨d, hd, hdv, src, hsrc, n, hn, rfl⟩ := hj
        obtain ⟨-, -, hin⟩ := hcond (mem_of_jump hr)
        obtain ⟨js, hjs, hmem⟩ := hin _ hr ⟨d, hd, hdv, src, hsrc, n, hn, rfl⟩
        have hfwd := rules_forward ht hc hreb
        rw [hjs] at hfwd
        obtain ⟨fw, hfw, rfl⟩ := Option.map_eq_some_iff.1 hfwd
        show _ ∈ t'.chains.rules "forward"
        rwa [Nft.rules_of_lookup hfw]

/-! Two users with a device each; the firewall knows both. -/

def alice : Uuid := ⟨0x0a11ce00000000000000000000000001, by decide⟩
def bob : Uuid := ⟨0x0b0b0000000000000000000000000002, by decide⟩

def aliceUser : User where
  id := alice
  email := "alice@example.com"
  passwordHash := none
  role := "unprivileged"
  disabledAt := none
  themePreference := "auto"

def bobUser : User := { aliceUser with id := bob, email := "bob@example.com" }

def laptop : Device where
  id := ⟨1, by decide⟩
  name := "laptop"
  publicKey := "pk1"
  presharedKey := none
  ipv4 := some "10.3.2.2"
  ipv6 := none
  allowedSubnets := []
  userId := alice

def phone : Device where
  id := ⟨2, by decide⟩
  name := "phone"
  publicKey := "pk2"
  presharedKey := none
  ipv4 := some "10.3.2.3"
  ipv6 := none
  allowedSubnets := []
  userId := bob

def twoUsers : Database where
  users := []
  devices := [laptop, phone]
  rules := []
  mfaMethods := []
  configuration := none

/-- Two users without devices. -/
def accounts : Database := { twoUsers with users := [aliceUser, bobUser], devices := [] }

def laptopAddr : Ip.Addr := ⟨.v4, 0x0a030202, by decide⟩
def phoneAddr : Ip.Addr := ⟨.v4, 0x0a030203, by decide⟩

def laptopJump : NftRule := jumpRule (chainOf alice) laptopAddr.host

/-- The table in step with `twoUsers`. -/
def twoUsersTable : Table where
  chains :=
    (((∅ : Nft.Chains String Nft.Match).insert (chainOf alice) ⟨none, []⟩).insert
      (chainOf bob) ⟨none, []⟩).insert
      "forward" ⟨some forwardBase, [laptopJump, jumpRule (chainOf bob) phoneAddr.host]⟩
  grounded := by decide
  fits := by decide

lemma twoUsersTable_baseSetup : BaseSetup twoUsersTable where
  toManaged := .of_keys (by decide) (by decide) (by decide)
  names := by decide

/-- The table while the laptop is the only device. -/
def laptopTable : Table where
  chains := ((∅ : Nft.Chains String Nft.Match).insert (chainOf alice) ⟨none, []⟩).insert
    "forward" ⟨some forwardBase, [laptopJump]⟩
  grounded := by decide
  fits := by decide

lemma laptopTable_baseSetup : BaseSetup laptopTable where
  toManaged := .of_keys (by decide) (by decide) (by decide)
  names := by decide

lemma wellFormed_alice : (twoUsers.userEntry alice).WellFormed where
  name := by decide
  devices := by
    have h : ∀ d ∈ (twoUsers.userEntry alice).devices, d.nets.isSome := by decide
    exact fun d hd => Option.isSome_iff_exists.1 (h d hd)
  rules := by
    have h : ∀ r ∈ (twoUsers.userEntry alice).rules, r.meaning.isSome := by decide
    exact fun r hr => Option.isSome_iff_exists.1 (h r hr)

/-- A rebuild for the one user removes the chain of the other. -/
theorem rebuildUserChain_removes_other :
    bob ≠ alice ∧ twoUsers.HasRows bob ∧
      ¬ SameFor twoUsers bob twoUsersTable
        (rebuildUserChain (.fragment tableName) ascending twoUsers alice twoUsersTable) := by
  refine ⟨by decide, .inl ⟨phone, by decide, rfl⟩, fun h => ?_⟩
  obtain ⟨t', ht', hr⟩ := exists_realises (.fragment tableName) twoUsersTable_baseSetup
    (List.forall_mem_singleton.2 wellFormed_alice) (by decide) (ascending _)
  rw [rebuildUserChain_of_ok ht'] at h
  obtain ⟨ch', hch', -⟩ := h.chain ⟨none, []⟩ (by decide)
  obtain ⟨e, he, hec⟩ := (hr.userChains (chainOf bob) (by decide)).1
    (Nft.mem_iff_lookup.2 ⟨ch', hch'⟩)
  obtain rfl := List.mem_singleton.1 he
  exact absurd hec (by decide)

theorem rebuildUserChain_frame_iff_twoUsers :
    ¬ ∀ v, v ≠ alice → twoUsers.HasRows v → SameFor twoUsers v twoUsersTable
      (rebuildUserChain (.fragment tableName) ascending twoUsers alice twoUsersTable) := by
  intro h
  obtain ⟨t', ht', -⟩ := exists_realises (.fragment tableName) twoUsersTable_baseSetup
    (List.forall_mem_singleton.2 wellFormed_alice) (by decide) (ascending _)
  have := (rebuildUserChain_frame_iff (.fragment tableName) ascending twoUsers alice
    twoUsersTable_baseSetup.names).1 h ⟨t', ht'⟩ bob (by decide) (.inl ⟨phone, by decide, rfl⟩)
    (by decide)
  exact absurd this.1 (by decide)

end WireGui
