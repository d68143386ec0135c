import WireGui.Services.Decision
import WireGui.Tasks.RuleOrder

/-!
# Rules without an owner

A rule without an owner is meant for the packets of all users.  A reconciliation makes one entry for
each user, from the rules that name the user, so these rules are in none of them.

`reconcile_globalRules_iff` says what comes of a packet that such a rule is for: what the rows of
the *other* users make of it, and no more.
-/

namespace WireGui

open Nft (IsName evalRules evalChain stackSize)

/-! ### What global rules are for -/

/-- The rules without an owner, in their order. -/
def Database.globalRules (db : Database) : List Rule :=
  orderRules (db.rules.filter (·.userId = none))

/-- The rule that nft reads a row as, in the chain `c`. -/
def Rule.reading (nft : FrontEnd) (c : String) (row : Rule) : Option NftRule :=
  nft.single c (row.entry.line c)

/-- The first of the rules that the packet matches, read in the chain `c`, has the action `dec`. -/
def FirstAction (nft : FrontEnd) (rows : List Rule) (c : String) (p : Nft.Packet)
    (dec : Nft.Decision) : Prop :=
  ∃ before row after rule, rows = before ++ row :: after ∧
    (∀ r ∈ before, ∀ s ∈ r.reading nft c, ¬ s.Hits (Nft.sat nft.other) p) ∧
    row.reading nft c = some rule ∧ rule.Hits (Nft.sat nft.other) p ∧
    rule.verdict.decision = some dec

/-- The packet matches no rule of the user. -/
def Database.MatchesNone (nft : FrontEnd) (db : Database) (u : Uuid) (p : Nft.Packet) : Prop :=
  ∀ r ∈ db.rules, r.userId = some u →
    ∃ rule, r.reading nft (chainOf u) = some rule ∧ ¬ rule.Hits (Nft.sat nft.other) p

/-- The first rule without an owner that the packet matches has the action `dec`. -/
def Database.GlobalAction (nft : FrontEnd) (db : Database) (c : String) (p : Nft.Packet)
    (dec : Nft.Decision) : Prop :=
  FirstAction nft db.globalRules c p dec

/-- **Global rules apply** to the packet: where it comes from a device and matches no rule of the
device's owner, `forward` gives it the action of the first global rule it matches. -/
def GlobalRulesApply (nft : FrontEnd) (db : Database) (t : Table) (p : Nft.Packet) : Prop :=
  ∀ d ∈ db.devices, d.HasAddress p.src → db.MatchesNone nft d.userId p →
    ∀ dec, db.GlobalAction nft (chainOf d.userId) p dec →
      evalChain (Nft.sat nft.other) t.chains.rules p stackSize "forward" = some dec

/-! ### The rows of the other users -/

/-- **Another user gives the packet the action** `dec`: of the users who send from its source, in the
order of the reconciliation, the first who has a rule for it is not `u`, and that rule says `dec`. -/
def Database.OthersAction (nft : FrontEnd) (db : Database) (uids : SetOrder db.userIds) (u : Uuid)
    (p : Nft.Packet) (dec : Nft.Decision) : Prop :=
  ∃ before v after, uids.toList = before ++ v.str :: after ∧ v ≠ u ∧
    (db.userEntry v).SendsFrom p.src ∧ FirstAction nft (db.userRules v) (chainOf v) p dec ∧
    ∀ w, w.str ∈ before → (db.userEntry w).SendsFrom p.src → db.MatchesNone nft w p

/-- nft understands the rows: devices send from networks, and each rule of a user is one rule that
accepts or drops. -/
structure Database.Understood (nft : FrontEnd) (db : Database) : Prop where
  devices : ∀ d ∈ db.devices, ∃ nets, d.entry.nets = some nets
  rules : ∀ r ∈ db.rules, ∀ u ∈ r.userId, ∃ rule, r.reading nft (chainOf u) = some rule ∧
    (rule.verdict = .accept ∨ rule.verdict = .drop)

lemma Database.Understood.readable {nft : FrontEnd} {db : Database} (h : db.Understood nft) :
    db.Readable nft := by
  refine fun u => ⟨isName_chainOf u, fun de hde => ?_, List.exists_mapM_iff.2 fun line hl => ?_⟩
  · obtain ⟨d, hd, rfl⟩ := List.mem_map.1 hde
    exact h.devices d (List.mem_filter.1 hd).1
  · obtain ⟨re, hre, rfl⟩ := List.mem_map.1 hl
    rw [orderedRules_userEntry] at hre
    obtain ⟨r, hr, rfl⟩ := List.mem_map.1 hre
    obtain ⟨hr, hu⟩ := List.mem_filter.1 ((orderRules_perm _).mem_iff.1 hr)
    obtain ⟨rule, hrule, -⟩ := h.rules r hr u (by simpa using hu)
    exact ⟨rule, hrule⟩

section FirstAction

variable {nft : FrontEnd} {c : String} {p : Nft.Packet} {call : String → Option Nft.Decision}

lemma firstAction_nil {dec : Nft.Decision} : ¬ FirstAction nft [] c p dec := by
  rintro ⟨before, row, after, rule, h, -⟩
  simp at h

lemma firstAction_cons_iff {row : Rule} {rows : List Rule} {rule : NftRule}
    (hread : row.reading nft c = some rule) {dec : Nft.Decision} :
    FirstAction nft (row :: rows) c p dec ↔
      (rule.Hits (Nft.sat nft.other) p ∧ rule.verdict.decision = some dec) ∨
        (¬ rule.Hits (Nft.sat nft.other) p ∧ FirstAction nft rows c p dec) := by
  constructor
  · rintro ⟨before, row', after, rule', hrows, hbefore, hread', hhits, hdec⟩
    cases before with
    | nil =>
      obtain ⟨rfl, -⟩ := List.cons.inj hrows
      obtain rfl := Option.some.inj (hread.symm.trans hread')
      exact .inl ⟨hhits, hdec⟩
    | cons b before =>
      obtain ⟨rfl, rfl⟩ := List.cons.inj hrows
      obtain ⟨hb, hbefore⟩ := List.forall_mem_cons.1 hbefore
      exact .inr ⟨hb rule hread, before, row', after, rule', rfl, hbefore, hread', hhits, hdec⟩
  · rintro (⟨hhits, hdec⟩ | ⟨hno, before, row', after, rule', rfl, hbefore, hrest⟩)
    · exact ⟨[], row, rows, rule, rfl, fun r hr => absurd hr List.not_mem_nil, hread, hhits, hdec⟩
    · refine ⟨row :: before, row', after, rule', rfl, List.forall_mem_cons.2 ⟨?_, hbefore⟩, hrest⟩
      intro s hs
      rwa [Option.some.inj (hs.symm.trans hread)]

/-- The rules of a chain that nft reads from the rows, each of which accepts or drops. -/
def Readings (nft : FrontEnd) (c : String) : List Rule → List NftRule → Prop :=
  List.Forall₂ fun row rule => row.reading nft c = some rule ∧
    (rule.verdict = .accept ∨ rule.verdict = .drop)

lemma evalRules_eq_some_iff {rows : List Rule} {rules : List NftRule}
    (h : Readings nft c rows rules) {dec : Nft.Decision} :
    evalRules (Nft.sat nft.other) call p rules = some dec ↔ FirstAction nft rows c p dec := by
  induction h with
  | nil => simpa [evalRules] using firstAction_nil
  | @cons row rule rows rules hr _ ih =>
    rw [firstAction_cons_iff hr.1, evalRules]
    by_cases hhits : rule.Hits (Nft.sat nft.other) p
    · rw [if_pos hhits]
      rcases hr.2 with hv | hv <;> simp [hv, hhits, Nft.Verdict.decision]
    · rw [if_neg hhits, ih]
      simp [hhits]

lemma evalRules_eq_none_iff {rows : List Rule} {rules : List NftRule}
    (h : Readings nft c rows rules) :
    evalRules (Nft.sat nft.other) call p rules = none ↔
      ∀ row ∈ rows, ∃ rule, row.reading nft c = some rule ∧ ¬ rule.Hits (Nft.sat nft.other) p := by
  induction h with
  | nil => simp [evalRules]
  | @cons row rule rows rules hr _ ih =>
    rw [List.forall_mem_cons, evalRules]
    by_cases hhits : rule.Hits (Nft.sat nft.other) p
    · rw [if_pos hhits]
      rcases hr.2 with hv | hv <;> simp [hv, hhits, hr.1]
    · rw [if_neg hhits, ih]
      simp [hhits, hr.1]

/-- The chain of a user holds the readings of the user's rows. -/
lemma readings_userEntry {db : Database} (hdb : db.Understood nft) {v : Uuid}
    {rules : List NftRule} (h : nft.rules (chainOf v) (db.userEntry v).ruleLines = some rules) :
    Readings nft (chainOf v) (db.userRules v) rules := by
  rw [Entry.ruleLines, orderedRules_userEntry, Nft.FrontEnd.rules, List.mapM_eq_some_iff,
    List.forall₂_map_left_iff, List.forall₂_map_left_iff] at h
  have hown : ∀ row ∈ db.userRules v, row ∈ db.rules ∧ row.userId = some v := by
    intro row hrow
    obtain ⟨hr, hu⟩ := List.mem_filter.1 ((orderRules_perm _).mem_iff.1 hrow)
    exact ⟨hr, by simpa using hu⟩
  refine ((List.forall₂_and_left _ _).2 ⟨hown, h⟩).imp fun row rule hr => ⟨hr.2, ?_⟩
  obtain ⟨rule', hrule', hv⟩ := hdb.rules row hr.1.1 v hr.1.2
  rwa [Option.some.inj (hr.2.symm.trans hrule')]

end FirstAction

/-! ### After a reconciliation -/

section Reconcile

variable {nft : FrontEnd} {order : SetOrders} {db : Database} {uids : SetOrder db.userIds}
  {t t' : Table} {p : Nft.Packet}

/-- `forward` asks the chains of those who send from the packet's source, one after the other. -/
lemma evalChain_of_reconcile (ht : Tidy t) (hdb : db.Readable nft) {users : List Uuid}
    (hentries : db.reconcileEntries uids = users.map db.userEntry)
    {orphaned : SetOrder (orphanedChains t (db.reconcileEntries uids))}
    (hok : rebuildAllRules nft (db.reconcileEntries uids) t orphaned = .ok t') :
    evalChain (Nft.sat nft.other) t'.chains.rules p stackSize "forward" =
      users.findSome? fun v =>
        if (db.userEntry v).SendsFrom p.src then
          evalChain (Nft.sat nft.other) t'.chains.rules p 15 (chainOf v) else none := by
  have hread : ∀ e ∈ db.reconcileEntries uids, e.Readable nft :=
    readable_of_mem_reconcileEntries hdb
  obtain ⟨ps, hps⟩ := plans_of_readable hread
  obtain ⟨ch, -, hf⟩ := forward_of_rebuild ht.named (fun e he => (hread e he).name) hps hok
  have hjumps : (db.reconcileEntries uids).mapM Entry.jumps = some (ps.map Nft.Plan.jumps) := by
    rw [List.mapM_eq_some_iff, List.forall₂_map_right_iff]
    refine ((List.forall₂_and_left _ _).2 ⟨hread, List.mapM_eq_some_iff.1 hps⟩).imp ?_
    rintro e plan ⟨he, hep⟩
    obtain ⟨rules, nets, -, hnets, hplan⟩ := plan_of_readable he
    obtain rfl := Option.some.inj (hep.symm.trans hplan)
    rw [Entry.jumps, hnets]
    rfl
  show evalRules _ (evalChain _ _ p 15) p (t'.chains.rules "forward") = _
  rw [Nft.rules_of_lookup hf, Nft.allJumps, List.flatMap_def, evalRules_jumps_entries hjumps,
    hentries, List.findSome?_map]
  rfl

/-- What a user's chain makes of the packet. -/
lemma evalChain_chainOf (ht : Tidy t) (hdb : db.Understood nft)
    (hdistinct : ∀ u v, db.HasRows u → db.HasRows v → chainOf u = chainOf v → u = v)
    {orphaned : SetOrder (orphanedChains t (db.reconcileEntries uids))}
    (hok : rebuildAllRules nft (db.reconcileEntries uids) t orphaned = .ok t') {v : Uuid}
    (hv : db.HasRows v) :
    (∀ dec, evalChain (Nft.sat nft.other) t'.chains.rules p 15 (chainOf v) = some dec ↔
      FirstAction nft (db.userRules v) (chainOf v) p dec) ∧
    (evalChain (Nft.sat nft.other) t'.chains.rules p 15 (chainOf v) = none ↔
      db.MatchesNone nft v p) := by
  obtain ⟨rules, hr, hl⟩ := lookup_chain_of_reconcile ht hdb.readable hdistinct hok hv
  have hreadings := readings_userEntry hdb hr
  have hchain : evalChain (Nft.sat nft.other) t'.chains.rules p 15 (chainOf v) =
      evalRules (Nft.sat nft.other) (evalChain (Nft.sat nft.other) t'.chains.rules p 14) p
        rules := by
    show evalRules _ (evalChain _ _ p 14) p (t'.chains.rules (chainOf v)) = _
    rw [Nft.rules_of_lookup hl]
  rw [hchain]
  refine ⟨fun dec => evalRules_eq_some_iff hreadings, (evalRules_eq_none_iff hreadings).trans ?_⟩
  constructor
  · intro h r hr hu
    exact h r ((orderRules_perm _).mem_iff.2 (List.mem_filter.2 ⟨hr, by simpa using hu⟩))
  · intro h r hr
    obtain ⟨hr, hu⟩ := List.mem_filter.1 ((orderRules_perm _).mem_iff.1 hr)
    exact h r hr (by simpa using hu)

/-- A packet that matches no rule of `u` gets its decision from the rows of the others. -/
lemma evalChain_eq_some_iff (ht : Tidy t) (hdb : db.Understood nft)
    (hdistinct : ∀ u v, db.HasRows u → db.HasRows v → chainOf u = chainOf v → u = v)
    {orphaned : SetOrder (orphanedChains t (db.reconcileEntries uids))}
    (hok : rebuildAllRules nft (db.reconcileEntries uids) t orphaned = .ok t') {u : Uuid}
    (hno : db.MatchesNone nft u p) {dec : Nft.Decision} :
    evalChain (Nft.sat nft.other) t'.chains.rules p stackSize "forward" = some dec ↔
      db.OthersAction nft uids u p dec := by
  obtain ⟨users, -, husers, hlist, hentries⟩ := reconcileEntries_eq db uids
  have hchain {v : Uuid} (hv : v ∈ users) :=
    evalChain_chainOf (p := p) ht hdb hdistinct hok ((husers v).1 hv)
  rw [evalChain_of_reconcile ht hdb.readable hentries hok, List.findSome?_eq_some_iff]
  constructor
  · rintro ⟨before, v, after, rfl, hv, hbefore⟩
    have hsends : (db.userEntry v).SendsFrom p.src := by
      by_contra h
      rw [if_neg h] at hv
      cases hv
    rw [if_pos hsends] at hv
    refine ⟨before.map Uuid.str, v, after.map Uuid.str, ?_, ?_, hsends, ?_, ?_⟩
    · rw [hlist, List.map_append, List.map_cons]
    · rintro rfl
      rw [(hchain (by simp)).2.2 hno] at hv
      cases hv
    · exact ((hchain (by simp)).1 dec).1 hv
    · intro w hw hws
      obtain ⟨w', hw', hstr⟩ := List.mem_map.1 hw
      obtain rfl := Uuid.str_injective hstr
      have hnone := hbefore w' hw'
      rw [if_pos hws] at hnone
      exact (hchain (by simp [hw'])).2.1 hnone
  · rintro ⟨before, v, after, hsplit, -, hsends, hfirst, hbefore⟩
    rw [hlist] at hsplit
    obtain ⟨bs, rest, rfl, rfl, hrest⟩ := List.map_eq_append_iff.1 hsplit
    obtain ⟨v', as, rfl, hv', rfl⟩ := List.map_eq_cons_iff.1 hrest
    obtain rfl := Uuid.str_injective hv'
    refine ⟨bs, v', as, rfl, ?_, fun w hw => ?_⟩
    · rw [if_pos hsends]
      exact ((hchain (by simp)).1 dec).2 hfirst
    · by_cases hws : (db.userEntry w).SendsFrom p.src
      · rw [if_pos hws]
        exact (hchain (by simp [hw])).2.2 (hbefore w (List.mem_map_of_mem hw) hws)
      · rw [if_neg hws]

/-- **When global rules apply** after a reconciliation: never by themselves.  A packet that the
rules of its owner do not match gets the action of the first global rule it matches just when the
rows of another user give it that action. -/
theorem reconcile_globalRules_iff (ht : Tidy t) (hdb : db.Understood nft)
    (hdistinct : ∀ u v, db.HasRows u → db.HasRows v → chainOf u = chainOf v → u = v)
    (hok : ∃ t', rebuildAllRules nft (db.reconcileEntries uids) t (order _) = .ok t')
    (p : Nft.Packet) :
    GlobalRulesApply nft db (reconcileFirewall nft order db uids t) p ↔
      ∀ d ∈ db.devices, d.HasAddress p.src → db.MatchesNone nft d.userId p →
        ∀ dec, db.GlobalAction nft (chainOf d.userId) p dec →
          db.OthersAction nft uids d.userId p dec := by
  obtain ⟨t', ht'⟩ := hok
  have hfw : reconcileFirewall nft order db uids t = t' := by
    simp only [reconcileFirewall]
    rw [ht']
    rfl
  rw [hfw]
  refine forall₂_congr fun d _ => forall₂_congr fun _ hno => forall₂_congr fun dec _ => ?_
  exact evalChain_eq_some_iff ht hdb hdistinct ht' hno

end Reconcile

/-! A rule for everyone, and a user with one device. -/

def everyone : Rule where
  id := ⟨7, by decide⟩
  action := "drop"
  destination := "0.0.0.0/0"
  portType := none
  portRange := none
  priority := 10
  userId := none
  insertedAt := 0
  updatedAt := 0

def guarded : Database where
  users := []
  devices := [laptop]
  rules := [everyone]
  mfaMethods := []
  configuration := none

/-- The table as it is set up before the first reconciliation. -/
def startTable : Table where
  chains := (∅ : Nft.Chains String Nft.Match).insert "forward" ⟨some forwardBase, []⟩
  grounded := by decide
  fits := by decide

lemma startTable_baseSetup : BaseSetup startTable where
  toManaged := .of_keys (by decide) (by decide) (by decide)
  names := by decide

def guardedOrder : SetOrder guarded.userIds := .singleton (a := alice.str) (by decide)

def fromLaptop : Nft.Packet where
  src := laptopAddr
  dst := ⟨.v4, 0x08080808, by decide⟩
  transport := .tcp 443
  oif := "eth0"

def everyoneRule : NftRule :=
  ⟨[.daddr false ⟨.v4, 0, 0, by decide, by decide, by decide⟩], .drop⟩

lemma guarded_wellFormed : ∀ e ∈ guarded.reconcileEntries guardedOrder, e.WellFormed := by
  refine List.forall_mem_singleton.2 ⟨?_, ?_, fun r hr => absurd hr List.not_mem_nil⟩
  · exact isName_chainOf alice
  · have h : ∀ d ∈ (guarded.entryOf alice.str).devices, d.nets.isSome := by decide
    exact fun d hd => Option.isSome_iff_exists.1 (h d hd)

lemma guarded_matchesNone : guarded.MatchesNone (.fragment tableName) alice fromLaptop := by
  intro r hr hu
  obtain rfl := List.mem_singleton.1 hr
  cases hu

lemma everyone_reading {c : String} (hc : IsName c) :
    everyone.reading (.fragment tableName) c = some everyoneRule :=
  (Nft.single_eq_some_iff _).2 (read_ruleLine _ hc (r := everyone.entry) (by decide))

lemma guarded_globalAction :
    guarded.GlobalAction (.fragment tableName) (chainOf alice) fromLaptop .drop := by
  refine ⟨[], everyone, [], everyoneRule, rfl, fun r hr => absurd hr List.not_mem_nil, ?_, ?_, rfl⟩
  · exact everyone_reading (isName_chainOf alice)
  · decide

/-- The rule is for every user, but the packet of the user's device reaches the end of `forward`. -/
theorem reconcile_globalRule_missed :
    (∃ t', rebuildAllRules (.fragment tableName) (guarded.reconcileEntries guardedOrder) startTable
        (ascending _) = .ok t') ∧
      ¬ GlobalRulesApply (.fragment tableName) guarded
        (reconcileFirewall (.fragment tableName) ascending guarded guardedOrder startTable)
        fromLaptop := by
  obtain ⟨t', ht', hr⟩ := exists_realises (.fragment tableName) startTable_baseSetup
    guarded_wellFormed (by decide) (ascending _)
  refine ⟨⟨t', ht'⟩, fun h => ?_⟩
  have hdrop := h laptop (by decide) (by decide) guarded_matchesNone .drop guarded_globalAction
  have hfw : reconcileFirewall (.fragment tableName) ascending guarded guardedOrder startTable =
      t' := by
    simp only [reconcileFirewall]
    rw [ht']
    rfl
  rw [hfw, evalChain_of_realises hr] at hdrop
  exact absurd hdrop (by decide)

/-! Another user relays the network of the tunnel addresses, and has a rule of the same kind. -/

def gateway : Device where
  id := ⟨3, by decide⟩
  name := "gateway"
  publicKey := "pk3"
  presharedKey := none
  ipv4 := none
  ipv6 := none
  allowedSubnets := ["10.3.2.0/24"]
  userId := bob

def relayed : Database where
  users := []
  devices := [laptop, gateway]
  rules := [everyone, { everyone with userId := some bob }]
  mfaMethods := []
  configuration := none

def relayedOrder : SetOrder relayed.userIds := .ofList [alice.str, bob.str] (by decide) (by decide)

lemma relayed_wellFormed : ∀ e ∈ relayed.reconcileEntries relayedOrder, e.WellFormed := by
  have hd : ∀ e ∈ relayed.reconcileEntries relayedOrder, ∀ d ∈ e.devices, d.nets.isSome := by
    decide
  have hr : ∀ e ∈ relayed.reconcileEntries relayedOrder, ∀ r ∈ e.rules, r.meaning.isSome := by
    decide
  have hn : ∀ e ∈ relayed.reconcileEntries relayedOrder, IsName e.chain := by decide
  exact fun e he => ⟨hn e he, fun d h => Option.isSome_iff_exists.1 (hd e he d h),
    fun r h => Option.isSome_iff_exists.1 (hr e he r h)⟩

lemma relayed_understood : relayed.Understood (.fragment tableName) := by
  constructor
  · have h : ∀ d ∈ relayed.devices, d.entry.nets.isSome := by decide
    exact fun d hd => Option.isSome_iff_exists.1 (h d hd)
  · refine List.forall_mem_cons.2 ⟨nofun, List.forall_mem_singleton.2 fun u _ => ?_⟩
    exact ⟨everyoneRule, everyone_reading (isName_chainOf u), .inr rfl⟩

lemma relayed_distinct (u v : Uuid) (hu : relayed.HasRows u) (hv : relayed.HasRows v)
    (h : chainOf u = chainOf v) : u = v := by
  have hrows : ∀ w, relayed.HasRows w → w = alice ∨ w = bob := by
    rintro w (⟨d, hd, rfl⟩ | ⟨r, hr, hw⟩)
    · revert d
      decide
    · have hown : ∀ r ∈ relayed.rules, ∀ w ∈ r.userId, w = bob := by decide
      exact .inr (hown r hr w hw)
  have hne : chainOf alice ≠ chainOf bob := by decide
  rcases hrows u hu with rfl | rfl <;> rcases hrows v hv with rfl | rfl
  · rfl
  · exact absurd h hne
  · exact absurd h.symm hne
  · rfl

theorem reconcile_globalRules_iff_relayed :
    GlobalRulesApply (.fragment tableName) relayed
      (reconcileFirewall (.fragment tableName) ascending relayed relayedOrder startTable)
      fromLaptop := by
  obtain ⟨t', ht', -⟩ := exists_realises (.fragment tableName) startTable_baseSetup
    relayed_wellFormed (by decide) (ascending _)
  refine (reconcile_globalRules_iff startTable_baseSetup.tidy relayed_understood relayed_distinct
    ⟨t', ht'⟩ fromLaptop).2 ?_
  rintro d hd haddr - dec ⟨before, row, after, rule, hrules, -, hread, -, hdec⟩
  have hu : ∀ d ∈ relayed.devices, d.HasAddress fromLaptop.src → d.userId = alice := by decide
  have hrow : [everyone] = before ++ row :: after := hrules
  have hmem : row ∈ [everyone] := by simp [hrow]
  obtain rfl := List.mem_singleton.1 hmem
  obtain rfl := Option.some.inj ((everyone_reading (isName_chainOf d.userId)).symm.trans hread)
  obtain rfl : Nft.Decision.drop = dec := Option.some.inj hdec
  rw [hu d hd haddr]
  -- alice has no rule, and bob sends from the laptop's address too
  refine ⟨[alice.str], bob, [], rfl, by decide, by decide, ?_, ?_⟩
  · exact ⟨[], _, [], everyoneRule, rfl, fun r hr => absurd hr List.not_mem_nil,
      everyone_reading (isName_chainOf bob), by decide, rfl⟩
  · intro w hw _ r hr hrw
    obtain rfl := Uuid.str_injective (List.mem_singleton.1 hw)
    have hown : ∀ r ∈ relayed.rules, r.userId ≠ some alice := by decide
    exact absurd hrw (hown r hr)

end WireGui
