import WireGui.Services.Policy

/-!
# What one user's rules do to another user's packets

`rebuild_all_rules` names a chain after the first twelve digits of its user's id, so two users may
have the same chain.  The chain then holds the rules of the later one, and the packets of both meet
these.  `isolated_iff` says for which two users that is so.
-/

namespace WireGui

open Nft (IsName evalRules evalChain stackSize)

/-! ### The rules a chain ends up with -/

/-- The entry whose rules the chain `c` holds after a rebuild: the last one with that chain. -/
def ruler (es : List Entry) (c : String) : Option Entry := (es.filter (·.chain = c)).getLast?

/-- The entries with the rules of the user `v` replaced. -/
def replaceRules (v : String) (rules : List RuleEntry) (es : List Entry) : List Entry :=
  es.map fun e => if e.userId = v then { e with rules := rules } else e

/-- No address is a source of two of the entries. -/
def SeparateSources (es : List Entry) : Prop :=
  es.Pairwise fun e f => ∀ a, e.SendsFrom a → ¬ f.SendsFrom a

section Ruler

variable {es : List Entry} {e : Entry} {c v : String} {rules : List RuleEntry}

lemma ruler_cons (e : Entry) (es : List Entry) (c : String) :
    ruler (e :: es) c = (ruler es c).or (if e.chain = c then some e else none) :=
  List.getLast?_filter_cons

lemma mem_of_ruler (h : ruler es c = some e) : e ∈ es ∧ e.chain = c :=
  List.mem_of_getLast?_filter h

/-- A chain of an entry has a ruler. -/
lemma exists_ruler (he : e ∈ es) : ∃ f, ruler es e.chain = some f := by
  refine Option.ne_none_iff_exists'.1 fun h => ?_
  exact List.getLast?_filter_eq_none_iff.1 h e he rfl

lemma plannedRules_eq_ruler {nft : FrontEnd} {ps : List (Nft.Plan String Nft.Match)}
    (hps : es.mapM (Entry.plan nft) = some ps) (hes : ∀ e ∈ es, e.WellFormed) :
    Nft.plannedRules c ps = (ruler es c).bind Entry.rulesMeant := by
  rw [List.mapM_eq_some_iff] at hps
  induction hps with
  | nil => rfl
  | @cons e p es ps hp _ ih =>
    obtain ⟨rules, jumps, hr, -, hp'⟩ := plan_of_wellFormed nft (hes e List.mem_cons_self)
    obtain rfl := Option.some.inj (hp.symm.trans hp')
    have ih := ih fun f hf => hes f (List.mem_cons_of_mem _ hf)
    rw [Nft.plannedRules_cons, ruler_cons, ih]
    cases hf : ruler es c with
    | none =>
      simp only [Option.bind_none, Option.none_or]
      split
      · exact hr.symm
      · rfl
    | some f =>
      obtain ⟨rules', -, hr', -⟩ :=
        plan_of_wellFormed nft (hes f (List.mem_cons_of_mem _ (mem_of_ruler hf).1))
      simp [hr']

end Ruler

/-! ### What a packet meets -/

/-- The table as the service keeps it: `forward` hangs on its hook and accepts at its end, and
nothing else decides about forwarded packets. -/
structure Served (t : Table) : Prop extends BaseSetup t where
  forwarding : Forwarding t
  hooked : ∃ ch ∈ t.chains.lookup "forward", ch.base = some forwardBase

section Verdict

variable {nft : FrontEnd} {es : List Entry} {t t' : Table} {p : Nft.Packet} {e : Entry}

lemma Entry.WellFormed.readable (he : e.WellFormed) : e.Readable nft := by
  obtain ⟨rules, jumps, -, -, hp⟩ := plan_of_wellFormed nft he
  exact ⟨he.name, he.devices, rules, ((plan_eq_some_iff nft).1 hp).2.1⟩

/-- **A rebuild of well-formed entries** is accepted, whatever chains they share. -/
theorem exists_rebuild (nft : FrontEnd) (ht : BaseSetup t) (hes : ∀ e ∈ es, e.WellFormed)
    (orphaned : SetOrder (orphanedChains t es)) :
    ∃ t', rebuildAllRules nft es t orphaned = .ok t' := by
  obtain ⟨ps, hps, hplans⟩ := plans_of_wellFormed nft hes
  obtain ⟨t', ht', -⟩ := exists_load_of_plans ht (fun e he => (hes e he).name) hps hplans orphaned
  exact ⟨t', ht'⟩

/-- The table stays as the service keeps it. -/
theorem Served.rebuild (ht : Served t) (hes : ∀ e ∈ es, e.WellFormed)
    {orphaned : SetOrder (orphanedChains t es)}
    (h : rebuildAllRules nft es t orphaned = .ok t') : Served t' := by
  obtain ⟨ps, hps, hplans⟩ := plans_of_wellFormed nft hes
  have hname : ∀ e ∈ es, IsName e.chain := fun e he => (hes e he).name
  have hrem := removable_orphaned hps orphaned
  have hforward := forward_notMem_orphaned orphaned
  obtain ⟨cmds, hb, hl⟩ := nftBatch_eq_ok_iff.1 h
  obtain rfl := Option.some.inj (hb.symm.trans
    (batch_rebuildCommands nft hps hname (isName_of_orphaned ht.names orphaned)))
  have hplanname : ∀ p ∈ ps, IsName p.chain := by
    intro p hp
    obtain ⟨e, he, hep⟩ := List.exists_of_mem_mapM hps hp
    rw [plan_chain hep]
    exact hname e he
  refine ⟨ht.toBaseSetup.rebuild hplans hplanname hforward (Nft.load_eq_some_iff.1 hl), ?_, ?_⟩
  · have hkeep : Forwarding (orKeep t (rebuildAllRules nft es t orphaned)) :=
      ht.forwarding.rebuildAllRules (fun e he => (hes e he).readable) orphaned
    rw [h] at hkeep
    exact hkeep
  · obtain ⟨ch, hch, hf⟩ := forward_of_rebuild ht.names hname hps h
    obtain ⟨ch', hch', hbase⟩ := ht.hooked
    obtain rfl := Option.some.inj (hch.symm.trans hch')
    exact ⟨_, hf, hbase⟩

/-- The chain `forward` decides, and what it does not decide is accepted. -/
lemma Served.hookDecision_eq (ht : Served t) (p : Nft.Packet) :
    t.chains.hookDecision (Nft.sat nft.other) .forward p =
      (evalChain (Nft.sat nft.other) t.chains.rules p stackSize "forward").getD .accept := by
  obtain ⟨ch, hch, hb⟩ := ht.hooked
  refine Nft.hookDecision_eq (b := forwardBase) _ hch hb rfl (fun d dh b hd hb hh => ?_) p
  exact ((ht.forwarding d dh hd).hooked b hb hh).1

/-- After a rebuild the jumps lead to the rules of the rulers. -/
lemma evalChain_of_rebuild (ht : BaseSetup t) (hes : ∀ e ∈ es, e.WellFormed)
    {orphaned : SetOrder (orphanedChains t es)}
    (h : rebuildAllRules nft es t orphaned = .ok t') :
    evalChain (Nft.sat nft.other) t'.chains.rules p stackSize "forward" =
      es.findSome? fun e => if e.SendsFrom p.src then
        (ruler es e.chain).bind (Entry.ruling nft.other p) else none := by
  obtain ⟨ps, hps, hplans⟩ := plans_of_wellFormed nft hes
  have hname : ∀ e ∈ es, IsName e.chain := fun e he => (hes e he).name
  obtain ⟨cmds, hb, hl⟩ := nftBatch_eq_ok_iff.1 h
  obtain rfl := Option.some.inj (hb.symm.trans
    (batch_rebuildCommands nft hps hname (isName_of_orphaned ht.names orphaned)))
  have hlook := Nft.lookup_rebuild ht.toManaged hplans (Nft.load_eq_some_iff.1 hl)
  have hrem := removable_orphaned hps orphaned
  have hjumps : es.mapM Entry.jumps = some (ps.map Nft.Plan.jumps) := by
    refine List.mapM_of_mapM hps fun e he p hep => ?_
    obtain ⟨rules, jumps, -, hj, hp⟩ := plan_of_wellFormed nft (hes e he)
    obtain rfl := Option.some.inj (hep.symm.trans hp)
    exact hj
  -- the chain of each entry holds the rules of its ruler
  have hchain : ∀ e ∈ es, evalChain (Nft.sat nft.other) t'.chains.rules p 15 e.chain =
      (ruler es e.chain).bind (Entry.ruling nft.other p) := by
    intro e he
    obtain ⟨f, hf⟩ := exists_ruler he
    obtain ⟨rules, -, hr, -⟩ := plan_of_wellFormed nft (hes f (mem_of_ruler hf).1)
    have hne := e.isUserChain_chain.ne_forward
    have ho : e.chain ∉ orphaned.toList := by
      intro ho
      obtain ⟨p, hp, hep⟩ := List.exists_of_mapM hps he
      exact hrem.unplanned _ ho p hp (plan_chain hep)
    have hl := hlook e.chain
    rw [if_neg ho, if_neg hne, plannedRules_eq_ruler hps hes, hf, Option.bind_some, hr] at hl
    show evalRules _ (evalChain _ _ p 14) p (t'.chains.rules e.chain) = _
    rw [Nft.rules_of_lookup hl, hf]
    exact evalRules_rulesMeant hr
  obtain ⟨ch, -, hfwd⟩ := forward_of_rebuild ht.names hname hps h
  show evalRules _ (evalChain _ _ p 15) p (t'.chains.rules "forward") = _
  rw [Nft.rules_of_lookup hfwd]
  show evalRules _ _ p (ps.flatMap Nft.Plan.jumps) = _
  rw [List.flatMap_def, evalRules_jumps_entries hjumps]
  refine List.findSome?_congr fun e he => ?_
  rw [hchain e he]

/-- **The packets of an entry** meet the rules of the ruler of its chain. -/
theorem hookDecision_of_rebuild (ht : Served t) (hes : ∀ e ∈ es, e.WellFormed)
    (hsep : SeparateSources es) {orphaned : SetOrder (orphanedChains t es)}
    (h : rebuildAllRules nft es t orphaned = .ok t') (he : e ∈ es) (hp : e.SendsFrom p.src) :
    t'.chains.hookDecision (Nft.sat nft.other) .forward p =
      ((ruler es e.chain).bind (Entry.ruling nft.other p)).getD .accept := by
  have hsole : ∀ f ∈ es, f ≠ e → ¬ f.SendsFrom p.src := by
    intro f hf hne
    have : Std.Symm fun e f : Entry => ∀ a, e.SendsFrom a → ¬ f.SendsFrom a :=
      ⟨fun e f h a hf he => h a he hf⟩
    exact fun hfp => hsep.forall hf he hne p.src hfp hp
  rw [(ht.rebuild hes h).hookDecision_eq, evalChain_of_rebuild ht.toBaseSetup hes h,
    List.findSome?_eq_of_unique he fun f hf hne => if_neg (hsole f hf hne), if_pos hp]

end Verdict

/-! ### Replacing rules -/

/-- **What `v` may do to the packets of `u`**: nothing.  Whatever well-formed rules `v` is given, a
packet from a source of `u` is treated by the rebuilt state as before. -/
def Isolated (nft : FrontEnd) (es : List Entry) (t : Table) (u v : String) : Prop :=
  ∀ rules : List RuleEntry, (∀ r ∈ rules, ∃ rule, r.meaning = some rule) →
    ∀ (orphaned : SetOrder (orphanedChains t es))
      (orphaned' : SetOrder (orphanedChains t (replaceRules v rules es))) (t₁ t₂ : Table),
      rebuildAllRules nft es t orphaned = .ok t₁ →
      rebuildAllRules nft (replaceRules v rules es) t orphaned' = .ok t₂ →
      ∀ e ∈ es, e.userId = u → ∀ p : Nft.Packet, e.SendsFrom p.src →
        t₂.chains.hookDecision (Nft.sat nft.other) .forward p =
          t₁.chains.hookDecision (Nft.sat nft.other) .forward p

section Replace

variable {nft : FrontEnd} {es : List Entry} {t t₁ t₂ : Table} {p : Nft.Packet} {e f : Entry}
  {u v c : String} {rules : List RuleEntry}

lemma ruler_replaceRules :
    ruler (replaceRules v rules es) c = (ruler es c).map fun e =>
      if e.userId = v then { e with rules := rules } else e := by
  induction es with
  | nil => rfl
  | cons e es ih =>
    rw [replaceRules, List.map_cons, ruler_cons, ruler_cons, ← replaceRules, ih]
    have hchain : (if e.userId = v then { e with rules := rules } else e).chain = e.chain := by
      split <;> rfl
    rw [hchain]
    cases ruler es c with
    | none =>
      simp only [Option.map_none, Option.none_or]
      split <;> rfl
    | some f => rfl

lemma separate_replaceRules (h : SeparateSources es) :
    SeparateSources (replaceRules v rules es) := by
  have hsends : ∀ (e : Entry) (a : Ip.Addr),
      (if e.userId = v then { e with rules := rules } else e).SendsFrom a ↔ e.SendsFrom a := by
    intro e a
    split <;> rfl
  refine List.pairwise_map.2 (List.Pairwise.imp (fun {e f} hef a he hf => ?_) h)
  exact hef a ((hsends e a).1 he) ((hsends f a).1 hf)

lemma wellFormed_replaceRules (hes : ∀ e ∈ es, e.WellFormed)
    (hrules : ∀ r ∈ rules, ∃ rule, r.meaning = some rule) :
    ∀ e ∈ replaceRules v rules es, e.WellFormed := by
  intro e he
  obtain ⟨f, hf, rfl⟩ := List.mem_map.1 he
  split
  · exact ⟨(hes f hf).name, (hes f hf).devices, hrules⟩
  · exact hes f hf

/-- Another user's entry stays. -/
lemma mem_replaceRules (he : e ∈ es) (hev : e.userId ≠ v) : e ∈ replaceRules v rules es :=
  List.mem_map.2 ⟨e, he, if_neg hev⟩

/-- The packets of another user once the rules of `v` are replaced. -/
lemma hookDecision_replaced (ht : Served t) (hes : ∀ e ∈ es, e.WellFormed)
    (hsep : SeparateSources es) (hrules : ∀ r ∈ rules, ∃ rule, r.meaning = some rule)
    {orphaned : SetOrder (orphanedChains t (replaceRules v rules es))}
    (h : rebuildAllRules nft (replaceRules v rules es) t orphaned = .ok t₂) (he : e ∈ es)
    (hev : e.userId ≠ v) (hp : e.SendsFrom p.src) :
    t₂.chains.hookDecision (Nft.sat nft.other) .forward p =
      ((ruler es e.chain).bind fun f =>
        (if f.userId = v then { f with rules := rules } else f).ruling nft.other p).getD
          .accept := by
  rw [hookDecision_of_rebuild ht (wellFormed_replaceRules hes hrules) (separate_replaceRules hsep)
    h (mem_replaceRules he hev) hp, ruler_replaceRules, Option.bind_map]
  rfl

/-- A chain with another ruler does not ask the rules of `v`. -/
lemma isolated_of_ruler (ht : Served t) (hes : ∀ e ∈ es, e.WellFormed) (hsep : SeparateSources es)
    (huv : u ≠ v) (hu : ∀ e ∈ es, e.userId = u → (∃ a, e.SendsFrom a) →
      ∀ f, ruler es e.chain = some f → f.userId ≠ v) : Isolated nft es t u v := by
  intro rules hrules orphaned orphaned' t₁ t₂ h₁ h₂ e he heu p hp
  rw [hookDecision_replaced ht hes hsep hrules h₂ he (heu ▸ huv) hp,
    hookDecision_of_rebuild ht hes hsep h₁ he hp]
  obtain ⟨f, hf⟩ := exists_ruler he
  rw [hf, Option.bind_some, Option.bind_some, if_neg (hu e he heu ⟨p.src, hp⟩ f hf)]

/-- A rule for the one destination `a`. -/
def hostRule (a : Ip.Addr) (action : String) : RuleEntry := ⟨a.host.str, action, none, none, none⟩

lemma meaning_hostRule (a : Ip.Addr) {action : String} {v : Nft.Verdict String}
    (hv : readAction action = some v) :
    (hostRule a action).meaning = some ⟨[.daddr false a.host], v⟩ :=
  meaning_eq_some_iff.2 ⟨_, _, _, Ip.readNet_str a.host, rfl, hv, rfl⟩

lemma ruling_hostRule {other : String → Nft.Packet → Bool} {action : String}
    {v : Nft.Verdict String} {d : Nft.Decision} (hv : readAction action = some v)
    (hd : v.decision = some d) (f : Entry) :
    Entry.ruling other p { f with rules := [hostRule p.dst action] } = some d := by
  have hmeant : Entry.rulesMeant { f with rules := [hostRule p.dst action] } =
      some [⟨[.daddr false p.dst.host], v⟩] := by
    show List.mapM RuleEntry.meaning [hostRule p.dst action] = _
    rw [List.mapM_eq_some_iff]
    exact .cons (meaning_hostRule p.dst hv) .nil
  have hhits : Nft.Rule.Hits (Nft.sat other)
      (⟨[.daddr false p.dst.host], v⟩ : NftRule) p := by
    simpa [Nft.Rule.Hits] using Ip.mem_host.2 rfl
  rw [Entry.ruling, hmeant, Option.getD_some, evalRules, if_pos hhits]
  cases v <;> simp_all [Nft.Verdict.decision]

/-- If `v` rules the chain of `u`, some rules of `v` turn a verdict on `u` around. -/
lemma not_isolated_of_ruler (ht : Served t) (hes : ∀ e ∈ es, e.WellFormed)
    (hsep : SeparateSources es) (he : e ∈ es) (hev : e.userId ≠ v) {a : Ip.Addr}
    (ha : e.SendsFrom a) (hf : ruler es e.chain = some f) (hfv : f.userId = v) :
    ¬ Isolated nft es t e.userId v := by
  let p : Nft.Packet := ⟨a, a, .tcp 0, ""⟩
  obtain ⟨t₁, h₁⟩ := exists_rebuild nft ht.toBaseSetup hes (.sorted _)
  -- the opposite of what the packet meets now
  obtain ⟨action, w, hw, hne⟩ : ∃ action w, readAction action = some w ∧
      ∃ d, w.decision = some d ∧
        d ≠ t₁.chains.hookDecision (Nft.sat nft.other) .forward p := by
    cases t₁.chains.hookDecision (Nft.sat nft.other) .forward p with
    | accept => exact ⟨"drop", .drop, rfl, .drop, rfl, by decide⟩
    | drop => exact ⟨"accept", .accept, rfl, .accept, rfl, by decide⟩
  obtain ⟨d, hd, hne⟩ := hne
  have hrules : ∀ r ∈ [hostRule a action], ∃ rule, r.meaning = some rule :=
    List.forall_mem_singleton.2 ⟨_, meaning_hostRule a hw⟩
  obtain ⟨t₂, h₂⟩ := exists_rebuild nft ht.toBaseSetup (wellFormed_replaceRules (v := v) hes hrules)
    (.sorted _)
  intro h
  have hsame := h _ hrules _ _ t₁ t₂ h₁ h₂ e he rfl p ha
  rw [hookDecision_replaced ht hes hsep hrules h₂ he hev (p := p) ha, hf, Option.bind_some,
    if_pos hfv, show a = p.dst from rfl, ruling_hostRule hw hd] at hsame
  exact hne hsame

/-- **When `v` can do nothing to the packets of `u`**: if and only if `u` sends none, or some entry
other than that of `v` is the last one with the chain of `u`.  Distinct ids whose first twelve
digits are the same make one chain. -/
theorem isolated_iff (nft : FrontEnd) (ht : Served t) (hes : ∀ e ∈ es, e.WellFormed)
    (hids : (es.map Entry.userId).Nodup) (hsep : SeparateSources es) (he : e ∈ es) (hf : f ∈ es)
    (hef : e.userId ≠ f.userId) :
    Isolated nft es t e.userId f.userId ↔
      (∃ a, e.SendsFrom a) → (es.filter (·.chain = e.chain)).getLast? ≠ some f := by
  have hinj := List.inj_on_of_nodup_map hids
  constructor
  · rintro h ⟨a, ha⟩ hlast
    exact not_isolated_of_ruler ht hes hsep he hef ha hlast rfl h
  · intro h
    refine isolated_of_ruler ht hes hsep hef fun e' he' hid ha g hg hgf => ?_
    obtain rfl := hinj he' he hid
    obtain rfl := hinj (mem_of_ruler hg).1 hf hgf
    exact h ha hg

end Replace

/-! Two users whose ids begin alike, and two whose ids do not. -/

/-- A user whose id has the first twelve digits of the id of `alice`. -/
def namesake : Uuid := ⟨0x0a11ce00000000000000000000000099, by decide⟩

/-- `alice` with the laptop and another user with the phone. -/
def laptopAndPhone (v : Uuid) : List Entry :=
  [⟨alice.str, [laptop.entry], []⟩, ⟨v.str, [phone.entry], []⟩]

lemma servedTable_served : Served servedTable where
  toManaged := .of_keys (by decide) (by decide) (by decide)
  names := by decide
  forwarding := (PolicyRun.start ascending (switches true) servedTable
    (readable_of_rules_nil rfl rfl)
    (startup_switches (.fragment tableName) true)).forwarding defaultSettings_valid
  hooked := ⟨_, rfl, rfl⟩

lemma sendsFrom_iff_of_host {u : String} {d : DeviceEntry} {a b : Ip.Addr}
    (hd : d.nets = some [b.host]) : Entry.SendsFrom ⟨u, [d], []⟩ a ↔ a = b := by
  simp [Entry.SendsFrom, hd, Ip.mem_host]

lemma laptopAndPhone_wellFormed (v : Uuid) : ∀ e ∈ laptopAndPhone v, e.WellFormed := by
  have hl : laptop.entry.nets.isSome ∧ phone.entry.nets.isSome := by decide
  refine List.forall_mem_cons.2 ⟨⟨isName_chainOf alice, ?_, nofun⟩,
    List.forall_mem_singleton.2 ⟨isName_chainOf v, ?_, nofun⟩⟩
  · exact List.forall_mem_singleton.2 (Option.isSome_iff_exists.1 hl.1)
  · exact List.forall_mem_singleton.2 (Option.isSome_iff_exists.1 hl.2)

lemma laptopAndPhone_separate (v : Uuid) : SeparateSources (laptopAndPhone v) := by
  have hl : laptop.entry.nets = some [laptopAddr.host] := by decide
  have hp : phone.entry.nets = some [phoneAddr.host] := by decide
  refine List.pairwise_pair.2 fun a ha hb => ?_
  rw [sendsFrom_iff_of_host hl] at ha
  rw [sendsFrom_iff_of_host hp, ha] at hb
  exact absurd hb (by decide)

/-- **The later of two users with one chain** decides about the packets of the other. -/
theorem namesakes_not_isolated :
    ((laptopAndPhone namesake).map Entry.userId).Nodup ∧
      (∀ e ∈ laptopAndPhone namesake, e.WellFormed) ∧ SeparateSources (laptopAndPhone namesake) ∧
      Served servedTable ∧
      ¬ Isolated (.fragment tableName) (laptopAndPhone namesake) servedTable alice.str
        namesake.str := by
  refine ⟨by decide, laptopAndPhone_wellFormed _, laptopAndPhone_separate _, servedTable_served, ?_⟩
  exact not_isolated_of_ruler (e := ⟨alice.str, [laptop.entry], []⟩) (a := laptopAddr)
    (f := ⟨namesake.str, [phone.entry], []⟩) servedTable_served (laptopAndPhone_wellFormed _)
    (laptopAndPhone_separate _) List.mem_cons_self (by decide) (by decide) (by decide) rfl

theorem isolated_iff_bob :
    Isolated (.fragment tableName) (laptopAndPhone bob) servedTable alice.str bob.str := by
  refine (isolated_iff _ servedTable_served (laptopAndPhone_wellFormed bob) (by decide)
    (laptopAndPhone_separate bob) (e := ⟨alice.str, [laptop.entry], []⟩)
    (f := ⟨bob.str, [phone.entry], []⟩) List.mem_cons_self
    (List.mem_cons_of_mem _ List.mem_cons_self) (by decide)).2 fun _ => by decide

end WireGui
