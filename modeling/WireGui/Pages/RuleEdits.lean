import WireGui.Pages.AdminRules
import WireGui.Services.InSync

/-!
# Edits of a rule, over the API and on the page

An edit writes the row and is then to reach the firewall.  From a firewall in step with the
database:

* `updateRule_saveEdit_iff`: when the two ways to edit a rule come to the same;
* `saveEdit_owner_iff`: when the chain of the previous owner is right after a rule has moved.
-/

namespace WireGui

open Nft (IsName)

lemma mem_of_rule {db : Database} {id : Uuid} {r : Rule} (h : db.rule id = some r) :
    r ∈ db.rules ∧ r.id = id :=
  List.mem_of_find?_key h

/-- Two rows written to the same place make a difference. -/
lemma setRule_injective {db : Database} {r r₁ r₂ : Rule} (hr : r ∈ db.rules) (h₁ : r₁.id = r.id)
    (h₂ : r₂.id = r.id) (h : db.setRule r₁ = db.setRule r₂) : r₁ = r₂ := by
  have hm := congrArg Database.rules h
  have hpt := List.map_inj_left.1 hm r hr
  rwa [if_pos h₁.symm, if_pos h₂.symm] at hpt

lemma hasRows_of_rule {db : Database} {r : Rule} {u : Uuid} (hr : r ∈ db.rules)
    (hu : r.userId = some u) : db.HasRows u := .inr ⟨r, hr, hu⟩

lemma applyTo_keeps {body : RuleUpdate} {r r' : Rule} (h : body.applyTo r = some r') :
    r'.id = r.id ∧ r'.insertedAt = r.insertedAt ∧ r'.updatedAt = r.updatedAt := by
  unfold RuleUpdate.applyTo at h
  obtain ⟨a, -, h⟩ := Option.bind_eq_some_iff.1 h
  obtain ⟨d, -, h⟩ := Option.bind_eq_some_iff.1 h
  obtain ⟨p, -, h⟩ := Option.bind_eq_some_iff.1 h
  cases h
  exact ⟨rfl, rfl, rfl⟩

/-! A user with one rule and a firewall in step with it. -/

def webRule : Rule where
  id := ⟨0x21, by decide⟩
  action := "accept"
  destination := "10.0.0.0/8"
  portType := none
  portRange := none
  priority := 10
  userId := some alice
  insertedAt := 0
  updatedAt := 0

def oneRule : Database where
  users := []
  devices := []
  rules := [webRule]
  mfaMethods := []
  configuration := none

def netRule (verdict : Nft.Verdict String) : NftRule :=
  ⟨[.daddr false ⟨.v4, 0x0a000000, 8, by decide, by decide, by decide⟩], verdict⟩

def oneRuleTable : Table where
  chains :=
    ((∅ : Nft.Chains String Nft.Match).insert (chainOf alice) ⟨none, [netRule .accept]⟩).insert
      "forward" ⟨some forwardBase, []⟩
  grounded := by decide
  fits := by decide

def oneRuleState : State := ⟨oneRule, oneRuleTable⟩

lemma oneRule_hasRows {v : Uuid} : oneRule.HasRows v ↔ v = alice := by
  constructor
  · rintro (⟨d, hd, -⟩ | ⟨r, hr, hv⟩)
    · exact absurd hd List.not_mem_nil
    · obtain rfl := List.mem_singleton.1 hr
      exact (Option.some.inj hv).symm
  · rintro rfl
    exact .inr ⟨webRule, List.mem_cons_self, rfl⟩

lemma oneRule_baseSetup : BaseSetup oneRuleTable where
  toManaged := .of_keys (by decide) (by decide) (by decide)
  names := by decide

lemma oneRule_lines (nft : FrontEnd) :
    nft.rules (chainOf alice) (oneRule.userEntry alice).ruleLines = some [netRule .accept] :=
  rules_of_meaning nft (isName_chainOf alice) (l := (oneRule.userEntry alice).orderedRules)
    (by decide)

lemma oneRule_inSync : InSync (.fragment tableName) oneRule oneRuleTable where
  userChains := by
    have hkeys : ∀ c ∈ oneRuleTable.chains.keys, c = "forward" ∨ c = chainOf alice := by decide
    intro c hc
    constructor
    · intro hm
      rcases hkeys c (Finmap.mem_keys.2 hm) with rfl | rfl
      · exact absurd hc (by decide)
      · exact ⟨alice, oneRule_hasRows.2 rfl, rfl⟩
    · rintro ⟨v, hv, rfl⟩
      rw [oneRule_hasRows.1 hv]
      exact Finmap.mem_keys.1 (by decide)
  rules := by
    intro v hv
    rw [oneRule_hasRows.1 hv]
    exact ⟨_, oneRule_lines _, by decide⟩
  forward := by
    refine ⟨[alice], by decide, fun v => ?_, by decide⟩
    rw [oneRule_hasRows, List.mem_singleton]

lemma wellFormed_of_decide {e : Entry} (hn : IsName e.chain)
    (hd : ∀ d ∈ e.devices, d.nets.isSome) (hr : ∀ r ∈ e.rules, r.meaning.isSome) :
    e.WellFormed where
  name := hn
  devices := fun d h => Option.isSome_iff_exists.1 (hd d h)
  rules := fun r h => Option.isSome_iff_exists.1 (hr r h)

def pageSettings : Settings := ⟨true, "wg0", "10.3.2.0/24", "fd00::/120"⟩

/-! ### The same edit over the API and on the page -/

section Agree

variable {settings : Settings} {nft : FrontEnd} {order : SetOrders} {s : State}

lemma saveEdit_of_rule {id : Uuid} {form : EditForm} {r : Rule} {u : Uuid}
    (hwg : settings.wgEnabled = true) (hr : s.db.rule id = some r) (hu : form.user = some u) :
    saveEdit settings nft order id form s =
      ⟨s.db.setRule (form.write r),
        rebuildUserChain nft order (s.db.setRule (form.write r)) u s.fw⟩ := by
  have hw : (form.write r).userId = some u := hu
  simp only [saveEdit, hr, onRuleChanged, hwg, if_true, hw]

/-- **When an edit over the API and the same edit on the page agree** on the row and the firewall
and leave the owner's chain right: the row is one the dialog can store, nft reads the owner's rules
as before, and no other user has a chain or a jump that the rebuild would take away. -/
theorem updateRule_saveEdit_iff (hwg : settings.wgEnabled = true) (hs : InSync nft s.db s.fw)
    {id : Uuid} {r r' : Rule} {u : Uuid} (hr : s.db.rule id = some r) (hu : r.userId = some u)
    {body : RuleUpdate} (hbody : body.applyTo r = some r') (hkeep : r'.userId = some u)
    (hok : ∃ t', rebuildAllRules nft
      [(s.db.setRule ((EditForm.ofRule r').write r)).userEntry u] s.fw (order _) = .ok t') :
    (∃ api page : State, updateRule id body s = .ok api ∧
        saveEdit settings nft order id (.ofRule r') s = page ∧
        api.db = page.db ∧ api.fw = page.fw ∧
        ChainHolds nft api.db u api.fw ∧ ChainHolds nft page.db u page.fw) ↔
      r'.Normal ∧
        nft.rules (chainOf u) ((s.db.setRule r').userEntry u).ruleLines =
          nft.rules (chainOf u) (s.db.userEntry u).ruleLines ∧
        ∀ v, v ≠ u → s.db.HasRows v →
          chainOf v = chainOf u ∧ (s.db.userEntry v).jumpLines = [] := by
  obtain ⟨hmem, hid⟩ := mem_of_rule hr
  obtain ⟨hid', hins, hupd⟩ := applyTo_keeps hbody
  have hrows := hasRows_of_rule hmem hu
  have hapi : updateRule id body s = .ok { s with db := s.db.setRule r' } := by
    simp only [updateRule, hr, hbody]
  have hpage := @saveEdit_of_rule settings nft order s id (.ofRule r') r u hwg hr hkeep
  obtain ⟨t', ht'⟩ := hok
  obtain ⟨old, hold, hchain⟩ := hs.rules u hrows
  obtain ⟨jumps, hjumps⟩ := hs.exists_jumps hrows
  constructor
  · rintro ⟨api, page, ha, hp, hdb, hfw, hha, -⟩
    obtain rfl := Except.ok.inj (hapi.symm.trans ha)
    rw [← hp, hpage] at hdb hfw
    have hw : (EditForm.ofRule r').write r = r' :=
      (setRule_injective hmem hid' (show ((EditForm.ofRule r').write r).id = r.id from rfl)
        hdb).symm
    rw [hw] at ht' hfw
    rw [rebuildUserChain_of_ok ht'] at hfw
    obtain rfl : s.fw = t' := hfw
    refine ⟨(write_ofRule_eq_iff hid' hins hupd).1 hw, ?_, fun v hv hvrows => ?_⟩
    · obtain ⟨new, hnew, hchain'⟩ := hha
      have he : (⟨none, old⟩ : Nft.Chain String Nft.Match) = ⟨none, new⟩ :=
        Option.some.inj (hchain.symm.trans hchain')
      rw [hold, hnew, (Nft.Chain.mk.inj he).2]
    · exact alone_of_rebuild_eq_self (e := (s.db.setRule r').userEntry u) hs hrows
        (userEntry_chain _ u) rfl ht' hv hvrows
  · rintro ⟨hnormal, hread, halone⟩
    have hw : (EditForm.ofRule r').write r = r' := (write_ofRule_eq_iff hid' hins hupd).2 hnormal
    rw [hw] at ht' hpage
    have hnew : nft.rules (chainOf u) ((s.db.setRule r').userEntry u).ruleLines = some old :=
      hread.trans hold
    have hplan : ((s.db.setRule r').userEntry u).plan nft = some ⟨chainOf u, old, jumps⟩ :=
      (plan_eq_some_iff nft).2 ⟨rfl, hnew, hjumps⟩
    -- the rebuild finds the table as it would leave it
    have hsame : t' = s.fw := rebuild_eq_self (e := (s.db.setRule r').userEntry u) hs hrows
      (userEntry_chain _ u) hplan hchain hjumps halone ht'
    rw [rebuildUserChain_of_ok ht', hsame] at hpage
    have hholds : ChainHolds nft (s.db.setRule r') u s.fw := ⟨old, hnew, hchain⟩
    exact ⟨⟨s.db.setRule r', s.fw⟩, ⟨s.db.setRule r', s.fw⟩, hapi, hpage, rfl, rfl, hholds, hholds⟩

end Agree

/-- An edit of the destination over the API is not carried over to the firewall. -/
theorem updateRule_leaves_chain :
    InSync (.fragment tableName) oneRuleState.db oneRuleState.fw ∧
      ¬ ∃ api page : State,
        updateRule webRule.id { destination := some (some "192.168.0.0/16") } oneRuleState =
          .ok api ∧
        saveEdit pageSettings (.fragment tableName) ascending webRule.id
          (.ofRule { webRule with destination := "192.168.0.0/16" }) oneRuleState = page ∧
        api.db = page.db ∧ api.fw = page.fw ∧
        ChainHolds (.fragment tableName) api.db alice api.fw ∧
        ChainHolds (.fragment tableName) page.db alice page.fw := by
  refine ⟨oneRule_inSync, ?_⟩
  rintro ⟨api, page, ha, -, -, -, ⟨rules, hread, hchain⟩, -⟩
  obtain rfl := Except.ok.inj ha
  have hmeaning : ((oneRule.setRule { webRule with destination := "192.168.0.0/16" }).userEntry
      alice).orderedRules.mapM RuleEntry.meaning = some [⟨[.daddr false ⟨.v4, 0xc0a80000, 16,
        by decide, by decide, by decide⟩], .accept⟩] := by decide
  have hnew := rules_of_meaning (.fragment tableName) (isName_chainOf alice) hmeaning
  obtain rfl := Option.some.inj (hnew.symm.trans hread)
  exact absurd hchain (by decide)

/-- A change of the priority of the only rule of the only user comes to the same on both ways. -/
theorem updateRule_saveEdit_iff_priority :
    ∃ api page : State,
      updateRule webRule.id { priority := some (some 20) } oneRuleState = .ok api ∧
      saveEdit pageSettings (.fragment tableName) ascending webRule.id
        (.ofRule { webRule with priority := 20 }) oneRuleState = page ∧
      api.db = page.db ∧ api.fw = page.fw ∧
      ChainHolds (.fragment tableName) api.db alice api.fw ∧
      ChainHolds (.fragment tableName) page.db alice page.fw := by
  have hwf : ((oneRule.setRule ((EditForm.ofRule { webRule with priority := 20 }).write
      webRule)).userEntry alice).WellFormed :=
    wellFormed_of_decide (by decide) (by decide) (by decide)
  obtain ⟨t', ht', -⟩ := exists_realises (.fragment tableName) oneRule_baseSetup
    (List.forall_mem_singleton.2 hwf) (List.nodup_singleton _) (ascending _)
  have hbody : RuleUpdate.applyTo { priority := some (some 20) } webRule =
      some { webRule with priority := 20 } := rfl
  refine (@updateRule_saveEdit_iff pageSettings (.fragment tableName) ascending oneRuleState rfl
    oneRule_inSync webRule.id webRule { webRule with priority := 20 } alice (by decide) rfl _ hbody
    rfl ⟨t', ht'⟩).2 ⟨?_, ?_, ?_⟩
  · exact ⟨by decide, by simp [webRule], by simp [webRule]⟩
  · exact (rules_of_meaning _ (isName_chainOf alice) (l := ((oneRule.setRule
      { webRule with priority := 20 }).userEntry alice).orderedRules) (by decide)).trans
        (oneRule_lines _).symm
  · exact fun v hv hrows => absurd (oneRule_hasRows.1 hrows) hv

/-! ### A rule that moves to another owner -/

section Owner

variable {settings : Settings} {nft : FrontEnd} {order : SetOrders} {s : State}

lemma length_userRules (db : Database) (u : Uuid) :
    (db.userRules u).length = db.rules.countP (·.userId = some u) := by
  rw [Database.userRules, orderRules, List.length_insertionSort, List.countP_eq_length_filter]

/-- A rule given away is one rule less. -/
lemma length_userRules_lt {db : Database} {r w : Rule} {u : Uuid} (hr : r ∈ db.rules)
    (hu : r.userId = some u) (hid : w.id = r.id) (hw : w.userId ≠ some u) :
    ((db.setRule w).userRules u).length < (db.userRules u).length := by
  have hle : ∀ rules : List Rule, (rules.map fun x => if x.id = w.id then w else x).countP
      (·.userId = some u) ≤ rules.countP (·.userId = some u) := by
    intro rules
    rw [List.countP_map]
    refine List.countP_mono_left fun x _ hx => ?_
    simp only [Function.comp] at hx
    split at hx
    · exact absurd (by simpa using hx) hw
    · exact hx
  rw [length_userRules, length_userRules]
  show (db.rules.map fun x => if x.id = w.id then w else x).countP (·.userId = some u) < _
  obtain ⟨l₁, l₂, hl⟩ := List.append_of_mem hr
  rw [hl, List.map_append, List.map_cons, if_pos hid.symm, List.countP_append, List.countP_append,
    List.countP_cons_of_neg (by simpa using hw), List.countP_cons_of_pos (by simpa using hu)]
  have h₁ := hle l₁
  have h₂ := hle l₂
  omega

lemma length_of_rules {db : Database} {u : Uuid} {rules : List NftRule}
    (h : nft.rules (chainOf u) (db.userEntry u).ruleLines = some rules) :
    rules.length = (db.userRules u).length := by
  have hlen := (List.mapM_eq_some_iff.1 h).length_eq
  rw [← hlen, Entry.ruleLines, List.length_map, Entry.orderedRules, List.length_insertionSort,
    Database.userEntry, List.length_map]

/-- Only a user without rules is right to have an empty chain. -/
lemma rules_eq_nil_iff {db : Database} {u : Uuid} :
    nft.rules (chainOf u) (db.userEntry u).ruleLines = some [] ↔ db.userRules u = [] := by
  constructor
  · intro h
    exact List.length_eq_zero_iff.1 (length_of_rules h).symm
  · intro h
    have hlines : (db.userEntry u).ruleLines = [] := by
      simp [Entry.ruleLines, Entry.orderedRules, Database.userEntry, h]
    rw [hlines]
    rfl

/-- A rebuild for `B` leaves the rules of `B` in the chain of `A`, if it is the same chain. -/
lemma rules_rebuilt_of_eq {db : Database} {A B : Uuid} {t t' : Table} (ht : Named t)
    (h : rebuildAllRules nft [db.userEntry B] t (order _) = .ok t') (hc : chainOf B = chainOf A) :
    t'.chains.rules (chainOf A) = (rulesLeft nft (chainOf A)
      ((db.userEntry B).ruleLines ++ (db.userEntry B).jumpLines)).getD [] := by
  have hname : IsName (db.userEntry B).chain := isName_chainOf B
  have hown := rules_own ht hname (isUserChain_chainOf B) h
  rw [userEntry_chain, hc] at hown
  rw [← hown]
  rfl

/-- It removes any other chain of `A`. -/
lemma rules_rebuilt_of_ne {db : Database} {A B : Uuid} {t t' : Table} (ht : Named t)
    (h : rebuildAllRules nft [db.userEntry B] t (order _) = .ok t') (hm : chainOf A ∈ t.chains)
    (hc : chainOf B ≠ chainOf A) : t'.chains.rules (chainOf A) = [] := by
  have hname : IsName (db.userEntry B).chain := isName_chainOf B
  have hgone : t'.chains.lookup (chainOf A) = none :=
    lookup_other ht hname h hm (isUserChain_chainOf A) hc
  simp [Nft.Chains.rules, hgone]

/-- **When a rule's previous owner is left with the right chain.**  Not when the rule becomes
global, for then nothing is rebuilt.  When it moves to another user, whose chain alone is rebuilt,
the chain of `A` is removed, which is right if `A` has no rules left.  If the two users' chains have
the same name, the rules now in it have to be those of `A`. -/
theorem saveEdit_owner_iff (hwg : settings.wgEnabled = true) (hs : InSync nft s.db s.fw)
    {id : Uuid} {r : Rule} {A : Uuid} (hr : s.db.rule id = some r) (hA : r.userId = some A)
    {form : EditForm} (hmove : form.user ≠ some A)
    (hok : ∀ B, form.user = some B → ∃ t', rebuildAllRules nft
      [(s.db.setRule (form.write r)).userEntry B] s.fw (order _) = .ok t') :
    (∃ rules, nft.rules (chainOf A)
          ((saveEdit settings nft order id form s).db.userEntry A).ruleLines = some rules ∧
        (saveEdit settings nft order id form s).fw.chains.rules (chainOf A) = rules) ↔
      ∃ B, form.user = some B ∧
        ((chainOf B ≠ chainOf A ∧ (s.db.setRule (form.write r)).userRules A = []) ∨
          (chainOf B = chainOf A ∧ ∃ rules,
            nft.rules (chainOf A) ((s.db.setRule (form.write r)).userEntry A).ruleLines =
              some rules ∧
            (rulesLeft nft (chainOf A) (((s.db.setRule (form.write r)).userEntry B).ruleLines ++
              ((s.db.setRule (form.write r)).userEntry B).jumpLines)).getD [] = rules)) := by
  obtain ⟨hmem, -⟩ := mem_of_rule hr
  have hrows := hasRows_of_rule hmem hA
  cases hB : form.user with
  | none =>
    -- to `Global`: the chain still holds the rule
    have hsave : saveEdit settings nft order id form s =
        ⟨s.db.setRule (form.write r), s.fw⟩ := by
      have hw : (form.write r).userId = none := hB
      simp only [saveEdit, hr, onRuleChanged, hwg, if_true, hw]
    rw [hsave]
    refine iff_of_false ?_ (by simp)
    rintro ⟨rules, hread, hchain⟩
    obtain ⟨old, hold, hl⟩ := hs.rules A hrows
    rw [Nft.rules_of_lookup hl] at hchain
    have hlt := length_userRules_lt (w := form.write r) hmem hA rfl hmove
    rw [← length_of_rules hread, ← length_of_rules hold, ← hchain] at hlt
    exact absurd hlt (lt_irrefl _)
  | some B =>
    have hsave := @saveEdit_of_rule settings nft order s id form r B hwg hr hB
    obtain ⟨t', ht'⟩ := hok B hB
    rw [hsave, rebuildUserChain_of_ok ht']
    by_cases hc : chainOf B = chainOf A
    · -- one chain for both
      have hrules := rules_rebuilt_of_eq hs.named ht' hc
      constructor
      · rintro ⟨rules, hread, hch⟩
        exact ⟨B, rfl, .inr ⟨hc, rules, hread, hrules.symm.trans hch⟩⟩
      · rintro ⟨C, hC, hcase⟩
        obtain rfl := Option.some.inj hC
        rcases hcase with ⟨hne, -⟩ | ⟨-, rules, hread, hleft⟩
        · exact absurd hc hne
        · exact ⟨rules, hread, hrules.trans hleft⟩
    · have hempty := rules_rebuilt_of_ne hs.named ht' (hs.mem_chain hrows) hc
      constructor
      · rintro ⟨rules, hread, hch⟩
        obtain rfl : [] = rules := hempty.symm.trans hch
        exact ⟨B, rfl, .inl ⟨hc, rules_eq_nil_iff.1 hread⟩⟩
      · rintro ⟨C, hC, hcase⟩
        obtain rfl := Option.some.inj hC
        rcases hcase with ⟨-, hnil⟩ | ⟨heq, -⟩
        · exact ⟨[], rules_eq_nil_iff.2 hnil, hempty⟩
        · exact absurd heq hc

end Owner

/-- A rule that becomes global stays in the chain of its owner. -/
theorem saveEdit_global_keeps_rule :
    InSync (.fragment tableName) oneRuleState.db oneRuleState.fw ∧
      ¬ ∃ rules, (Nft.FrontEnd.fragment tableName).rules (chainOf alice)
          ((saveEdit pageSettings (.fragment tableName) ascending webRule.id
            { EditForm.ofRule webRule with user := none } oneRuleState).db.userEntry
              alice).ruleLines = some rules ∧
        (saveEdit pageSettings (.fragment tableName) ascending webRule.id
          { EditForm.ofRule webRule with user := none } oneRuleState).fw.chains.rules
            (chainOf alice) = rules := by
  refine ⟨oneRule_inSync, ?_⟩
  rintro ⟨rules, hread, hchain⟩
  have hnone : rules = [] := by
    have hlen := length_of_rules hread
    exact List.length_eq_zero_iff.1 (hlen.trans (by decide))
  have hkept : oneRuleTable.chains.rules (chainOf alice) = [netRule .accept] := by decide
  rw [hnone] at hchain
  exact absurd (hkept.symm.trans hchain) (by decide)

/-- The only rule of a user moves to another one. -/
theorem saveEdit_owner_iff_onlyRule :
    ∃ rules, (Nft.FrontEnd.fragment tableName).rules (chainOf alice)
        ((saveEdit pageSettings (.fragment tableName) ascending webRule.id
          { EditForm.ofRule webRule with user := some bob } oneRuleState).db.userEntry
            alice).ruleLines = some rules ∧
      (saveEdit pageSettings (.fragment tableName) ascending webRule.id
        { EditForm.ofRule webRule with user := some bob } oneRuleState).fw.chains.rules
          (chainOf alice) = rules := by
  have hwf : ((oneRule.setRule (({ EditForm.ofRule webRule with user := some bob } :
      EditForm).write webRule)).userEntry bob).WellFormed :=
    wellFormed_of_decide (by decide) (by decide) (by decide)
  obtain ⟨t', ht', -⟩ := exists_realises (.fragment tableName) oneRule_baseSetup
    (List.forall_mem_singleton.2 hwf) (List.nodup_singleton _) (ascending _)
  refine (@saveEdit_owner_iff pageSettings (.fragment tableName) ascending oneRuleState rfl
    oneRule_inSync webRule.id webRule alice (by decide) rfl _ (by decide) ?_).2
      ⟨bob, rfl, .inl ⟨by decide, by decide⟩⟩
  intro B hB
  obtain rfl := Option.some.inj hB
  exact ⟨t', ht'⟩

end WireGui
