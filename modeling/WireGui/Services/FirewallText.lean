import WireGui.Services.Firewall

/-!
# How nft reads the lines
-/

namespace WireGui

open Nft (IsName IsWord tokens)

/-! ### Names of chains -/

lemma isNameChar_digitChar {d : ℕ} (h : d < 16) : Nft.isNameChar d.digitChar = true := by
  interval_cases d <;> decide

lemma userChainName_str (u : Uuid) :
    userChainName u.str = "user_" ++ String.ofList (u.digits.take 12) := by
  unfold userChainName
  rw [u.filter_str]
  rfl

lemma isName_userChainName (u : Uuid) : IsName (userChainName u.str) := by
  rw [userChainName_str]
  unfold IsName
  rw [String.toList_append, String.toList_ofList, String.toList_ofList]
  refine ⟨.inr (.inr (List.mem_append_left _ (by decide))), ⟨'u', by simp, by decide⟩, ?_⟩
  intro c hc
  rcases List.mem_append.1 hc with hc | hc
  · have hall : ∀ c ∈ ['u', 's', 'e', 'r', '_'], Nft.isNameChar c = true := by decide
    exact hall c hc
  · obtain ⟨d, hd, rfl⟩ := List.mem_map.1 (List.mem_of_mem_take hc)
    exact isNameChar_digitChar (Ip.lt_of_mem_groups (by omega) hd)

/-- A name of the service's form for a user's chain. -/
def IsUserChain (c : String) : Prop := "user_".toList <+: c.toList

instance : DecidablePred IsUserChain := fun c => by unfold IsUserChain; infer_instance

lemma IsUserChain.ne_forward {c : String} (h : IsUserChain c) : c ≠ "forward" := by
  rintro rfl
  exact absurd h (by decide)

lemma isUserChain_userChainName (userId : String) : IsUserChain (userChainName userId) := by
  unfold IsUserChain userChainName
  exact ⟨_, (String.toList_append ..).symm⟩

/-! ### Lines -/

lemma tokens_lit {s : String} {l : List String} (hs : tokens s = l)
    (h : ∃ b ∈ s.toList.getLast?, Nft.isBlank b = true) (t : String) :
    tokens (s ++ t) = l ++ tokens t := by
  rw [Nft.tokens_append_of_getLast h, hs]

lemma tokens_word_append {w t : String} (hw : IsWord w)
    (h : ∃ b ∈ t.toList.head?, Nft.isBlank b = true) (u : String) :
    tokens (w ++ (t ++ u)) = w :: tokens (t ++ u) := by
  rw [Nft.tokens_append_of_head h, Nft.tokens_word hw, List.singleton_append]

lemma ne_separator_of_words {ws : List String} (h : ∀ w ∈ ws, IsWord w) :
    ∀ w ∈ ws, w ≠ ";" ∧ w ≠ "\x7b" := fun w hw => (h w hw).ne_separator

variable (nft : FrontEnd) {c : String}

/-- A line of one statement, read by its words. -/
lemma read_of_tokens {s : String} {ws : List String} {cmd : Nft.Cmd String Nft.Match}
    (h : tokens s = ws) (hs : ∀ w ∈ ws, IsWord w)
    (hr : Nft.readStatement tableName ws = some [cmd]) : nft.read s = some [cmd] := by
  have hl : Nft.readLine tableName s = some [cmd] := by
    rw [Nft.readLine_of_tokens h (ne_separator_of_words hs), hr]
  exact nft.read_of_readLine hl

/-- The lines that make, empty and remove a chain. -/
lemma tokens_chainLine {s : String} {verb : String}
    (hs : tokens s = [verb, "chain", "inet", "wiregui"])
    (hb : ∃ b ∈ s.toList.getLast?, Nft.isBlank b = true) (hc : IsWord c) :
    tokens (s ++ c) = [verb, "chain", "inet", "wiregui", c] := by
  rw [tokens_lit hs hb, Nft.tokens_word hc]
  rfl

lemma words_chainLine {verb : String} (hv : IsWord verb) (hc : IsWord c) :
    ∀ w ∈ [verb, "chain", "inet", "wiregui", c], IsWord w := by
  simp only [List.forall_mem_cons]
  exact ⟨hv, by decide, by decide, by decide, hc, by simp⟩

lemma read_addChainLine (hc : IsName c) :
    nft.read (addChainLine c) = some [.addChain c none] := by
  have ht : tokens (addChainLine c) = ["add", "chain", "inet", "wiregui", c] :=
    tokens_chainLine (s := "add chain inet wiregui ") (by decide) (by decide) hc.isWord
  refine read_of_tokens nft ht (words_chainLine (by decide) hc.isWord) ?_
  simp [Nft.readStatement, Nft.readChainCmd, hc, tableName]

lemma read_flushChainLine (hc : IsName c) :
    nft.read (flushChainLine c) = some [.flushChain c] := by
  have ht : tokens (flushChainLine c) = ["flush", "chain", "inet", "wiregui", c] :=
    tokens_chainLine (s := "flush chain inet wiregui ") (by decide) (by decide) hc.isWord
  refine read_of_tokens nft ht (words_chainLine (by decide) hc.isWord) ?_
  simp [Nft.readStatement, Nft.readChainCmd, hc, tableName]

lemma read_deleteChainLine (hc : IsName c) :
    nft.read (deleteChainLine c) = some [.deleteChain c] := by
  have ht : tokens (deleteChainLine c) = ["delete", "chain", "inet", "wiregui", c] :=
    tokens_chainLine (s := "delete chain inet wiregui ") (by decide) (by decide) hc.isWord
  refine read_of_tokens nft ht (words_chainLine (by decide) hc.isWord) ?_
  simp [Nft.readStatement, Nft.readChainCmd, hc, tableName]

/-- **A line that adds a rule** is read by the words of the rule. -/
theorem read_addRuleLine (hc : IsName c) {expr : String} {ws : List String} {r : NftRule}
    (ht : tokens expr = ws) (hw : ∀ w ∈ ws, IsWord w) (hr : Nft.readMatches ws = some r)
    (hctx : r.InContext) (hplaced : r.Placed c) :
    nft.read (addRuleLine c expr) = some [.addRule c r] := by
  have e : addRuleLine c expr = "add rule inet wiregui " ++ (c ++ (" " ++ expr)) := by
    have h : addRuleLine c expr = "add rule inet wiregui " ++ c ++ " " ++ expr := rfl
    rw [h, String.append_assoc, String.append_assoc]
  have htl : tokens (addRuleLine c expr) = ["add", "rule", "inet", "wiregui", c] ++ ws := by
    rw [e, tokens_lit (l := ["add", "rule", "inet", "wiregui"]) (by decide) (by decide),
      tokens_word_append hc.isWord (by decide), tokens_lit (l := []) (by decide) (by decide), ht]
    rfl
  have hpre : ∀ w ∈ ["add", "rule", "inet", "wiregui", c], IsWord w := by
    simp only [List.forall_mem_cons]
    exact ⟨by decide, by decide, by decide, by decide, hc.isWord, by simp⟩
  refine read_of_tokens nft htl ?_ ?_
  · intro w hm
    exact (List.mem_append.1 hm).elim (hpre w) (hw w)
  · have hne : ws ≠ [] := by
      rintro rfl
      cases hr
    have hrule : Nft.readRule c ws = some r := Nft.readRule_eq_some_iff.2 ⟨hr, hctx, hplaced⟩
    simp [Nft.readStatement, Nft.readChainCmd, hc, tableName, hrule]

/-! ### Jumps -/

/-- The jump to `chain` for packets from the network `n`. -/
def jumpRule (chain : String) (n : Ip.Net) : NftRule := ⟨[.saddr false n], .jump chain⟩

/-- The word that names the protocol of a family. -/
def ipWord : Ip.Family → String
  | .v4 => "ip"
  | .v6 => "ip6"

/-- A network is not the word for a negation. -/
lemma ne_neg_of_parseNet {f : Ip.Family} {s : String} {n : Ip.Net} (h : Ip.parseNet f s = some n) :
    s ≠ "!=" := by
  rintro rfl
  have hnone : Ip.parseNet f "!=" = none := by cases f <;> decide
  cases hnone.symm.trans h

lemma ipWord_ne (f : Ip.Family) : ipWord f ≠ "oifname" := by cases f <;> decide

lemma field_saddr (f : Ip.Family) : Nft.field (ipWord f) "saddr" = some (.saddr f) := by
  cases f <;> rfl

lemma field_daddr (f : Ip.Family) : Nft.field (ipWord f) "daddr" = some (.daddr f) := by
  cases f <;> rfl

/-! Matches of a rule that is on one network. -/

section InContext

variable (n : Ip.Net) (neg : Bool) (v : Nft.Verdict String)

lemma inContext_saddr : Nft.Rule.InContext ⟨[.saddr neg n], v⟩ :=
  ⟨List.pairwise_singleton _ _, by simp [Nft.maxMatches]⟩

lemma inContext_daddr : Nft.Rule.InContext ⟨[.daddr neg n], v⟩ :=
  ⟨List.pairwise_singleton _ _, by simp [Nft.maxMatches]⟩

lemma inContext_daddr_dport (p : Nft.Proto) (lo hi : ℕ) :
    Nft.Rule.InContext ⟨[.daddr neg n, .dport p lo hi], v⟩ := by
  refine ⟨List.pairwise_pair.2 ⟨?_, ?_⟩, by simp [Nft.maxMatches]⟩ <;>
    simp [Nft.Match.family, Nft.Match.proto]

end InContext

/-- A match on the source, and the rest of the rule. -/
lemma readMatches_saddr {f : Ip.Family} {w : String} {n : Ip.Net} (h : Ip.parseNet f w = some n)
    (ws : List String) :
    Nft.readMatches (ipWord f :: "saddr" :: w :: ws) =
      (Nft.readMatches ws).map (Nft.Rule.when (.saddr false n)) :=
  Nft.readMatches_field (ipWord_ne f) (field_saddr f) (ne_neg_of_parseNet h)
    (by rw [Nft.Field.read, h]; rfl) ws

/-- A match on the destination, and the rest of the rule. -/
lemma readMatches_daddr {f : Ip.Family} {w : String} {n : Ip.Net} (h : Ip.parseNet f w = some n)
    (ws : List String) :
    Nft.readMatches (ipWord f :: "daddr" :: w :: ws) =
      (Nft.readMatches ws).map (Nft.Rule.when (.daddr false n)) :=
  Nft.readMatches_field (ipWord_ne f) (field_daddr f) (ne_neg_of_parseNet h)
    (by rw [Nft.Field.read, h]; rfl) ws

lemma jumpLine_eq (chain src : String) (f : Ip.Family) :
    jumpLine chain (f, src) =
      addRuleLine "forward" (ipWord f ++ (" saddr " ++ (src ++ (" jump " ++ chain)))) := by
  cases f with
  | v4 =>
    have h : jumpLine chain (.v4, src) =
        "add rule inet wiregui forward " ++ "ip saddr " ++ src ++ " jump " ++ chain := rfl
    rw [h]
    simp only [String.append_assoc]
    rfl
  | v6 =>
    have h : jumpLine chain (.v6, src) =
        "add rule inet wiregui forward " ++ "ip6 saddr " ++ src ++ " jump " ++ chain := rfl
    rw [h]
    simp only [String.append_assoc]
    rfl

/-- **A jump line** whose source is a network is read as the jump from that network. -/
theorem read_jumpLine (hc : IsName c) {src : Ip.Family × String} {n : Ip.Net}
    (hn : Ip.parseNet src.1 src.2 = some n) :
    nft.read (jumpLine c src) = some [.addRule "forward" (jumpRule c n)] := by
  obtain ⟨f, s⟩ := src
  have hs := Nft.isWord_of_parseNet hn
  have hf : IsWord (ipWord f) := by cases f <;> decide
  have ht : tokens (ipWord f ++ (" saddr " ++ (s ++ (" jump " ++ c)))) =
      [ipWord f, "saddr", s, "jump", c] := by
    rw [tokens_word_append hf (by decide), tokens_lit (l := ["saddr"]) (by decide) (by decide),
      tokens_word_append hs (by decide), tokens_lit (l := ["jump"]) (by decide) (by decide),
      Nft.tokens_word hc.isWord]
    rfl
  rw [jumpLine_eq]
  have hplaced : (jumpRule c n).Placed "forward" := nofun
  refine read_addRuleLine nft (by decide) ht ?_ ?_ (inContext_saddr n false _) hplaced
  · simp only [List.forall_mem_cons]
    exact ⟨hf, by decide, hs, by decide, hc.isWord, by simp⟩
  · have hjump : Nft.readMatches ["jump", c] = some ⟨[], .jump c⟩ := by
      rw [Nft.readMatches, if_pos ⟨rfl, hc⟩]
    rw [readMatches_saddr hn, hjump]
    rfl

/-! ### Rules -/

def readProto : String → Option Nft.Proto
  | "tcp" => some .tcp
  | "udp" => some .udp
  | _ => none

def readAction : String → Option (Nft.Verdict String)
  | "accept" => some .accept
  | "drop" => some .drop
  | _ => none

/-- The match on ports; without a type or without a range there is none. -/
def portMatch (portType portRange : Option String) : Option (List Nft.Match) :=
  match truthy portType, truthy portRange with
  | some pt, some pr => do
    let p ← readProto pt
    let r ← Nft.readPorts pr
    return [.dport p r.1 r.2]
  | _, _ => some []

/-- **The rule that a row stands for**, if it is well formed: its destination is a network, its port
type `tcp` or `udp`, its port range a port or a range, its action `accept` or `drop`. -/
def RuleEntry.meaning (r : RuleEntry) : Option NftRule := do
  let n ← Ip.readNet r.destination
  let ports ← portMatch r.portType r.portRange
  let v ← readAction r.action
  return ⟨.daddr false n :: ports, v⟩

/-- The words of the ports. -/
def portWords (portType portRange : Option String) : List String :=
  match truthy portType, truthy portRange with
  | some pt, some pr => [pt, "dport", pr]
  | _, _ => []

lemma readProto_cases {w : String} {p : Nft.Proto} (h : readProto w = some p) :
    (w = "tcp" ∧ p = .tcp) ∨ (w = "udp" ∧ p = .udp) := by
  unfold readProto at h
  split at h
  · exact .inl ⟨rfl, (Option.some.inj h).symm⟩
  · exact .inr ⟨rfl, (Option.some.inj h).symm⟩
  · cases h

lemma readAction_cases {w : String} {v : Nft.Verdict String} (h : readAction w = some v) :
    (w = "accept" ∧ v = .accept) ∨ (w = "drop" ∧ v = .drop) := by
  unfold readAction at h
  split at h
  · exact .inl ⟨rfl, (Option.some.inj h).symm⟩
  · exact .inr ⟨rfl, (Option.some.inj h).symm⟩
  · cases h

lemma addrMatch_eq (d : String) :
    (if ':' ∈ d.toList then s!"ip6 daddr {d}" else s!"ip daddr {d}") =
      ipWord (family d) ++ (" daddr " ++ d) := by
  unfold family
  by_cases h : ':' ∈ d.toList
  · have e : s!"ip6 daddr {d}" = "ip6 daddr " ++ d := rfl
    rw [if_pos h, if_pos h, e, ← String.append_assoc]
    rfl
  · have e : s!"ip daddr {d}" = "ip daddr " ++ d := rfl
    rw [if_neg h, if_neg h, e, ← String.append_assoc]
    rfl

lemma buildRuleExpr_ports {d a pt pr : String} {portType portRange : Option String}
    (ht : truthy portType = some pt) (hr : truthy portRange = some pr) :
    buildRuleExpr d a portType portRange = ipWord (family d) ++ (" daddr " ++ (d ++ (" " ++
      (pt ++ (" dport " ++ (pr ++ (" " ++ a))))))) := by
  have three : ∀ x y z : String, " ".intercalate [x, y, z] = x ++ " " ++ y ++ " " ++ z :=
    fun x y z => rfl
  have h : s!"{pt} dport {pr}" = pt ++ " dport " ++ pr := rfl
  simp only [buildRuleExpr, ht, hr]
  rw [three, addrMatch_eq, h]
  simp only [String.append_assoc]

lemma buildRuleExpr_noPorts {d a : String} {portType portRange : Option String}
    (h : truthy portType = none ∨ truthy portRange = none) :
    buildRuleExpr d a portType portRange =
      ipWord (family d) ++ (" daddr " ++ (d ++ (" " ++ a))) := by
  have two : ∀ x y : String, " ".intercalate [x, y] = x ++ " " ++ y := fun x y => rfl
  have hb : buildRuleExpr d a portType portRange = " ".intercalate
      [if ':' ∈ d.toList then s!"ip6 daddr {d}" else s!"ip daddr {d}", a] := by
    unfold buildRuleExpr
    rcases h with h | h
    · simp only [h]
    · simp only [h]
      cases truthy portType <;> rfl
  rw [hb, two, addrMatch_eq]
  simp only [String.append_assoc]

/-- The words of a rule are those of its parts. -/
lemma tokens_buildRuleExpr {d a : String} {pt pr : Option String} (hd : IsWord d) (ha : IsWord a)
    (hp : ∀ w ∈ portWords pt pr, IsWord w) :
    tokens (buildRuleExpr d a pt pr) =
      [ipWord (family d), "daddr", d] ++ (portWords pt pr ++ [a]) := by
  have hf : IsWord (ipWord (family d)) := by cases family d <;> decide
  have head : ∀ s, tokens (ipWord (family d) ++ (" daddr " ++ (d ++ (" " ++ s)))) =
      [ipWord (family d), "daddr", d] ++ tokens s := by
    intro s
    rw [tokens_word_append hf (by decide), tokens_lit (l := ["daddr"]) (by decide) (by decide),
      tokens_word_append hd (by decide), tokens_lit (l := []) (by decide) (by decide)]
    rfl
  unfold portWords at hp ⊢
  cases ht : truthy pt with
  | none =>
    rw [buildRuleExpr_noPorts (.inl ht), head, Nft.tokens_word ha]
    rfl
  | some t =>
    cases hr : truthy pr with
    | none =>
      rw [buildRuleExpr_noPorts (.inr hr), head, Nft.tokens_word ha]
      rfl
    | some r =>
      simp only [ht, hr, List.forall_mem_cons] at hp
      rw [buildRuleExpr_ports ht hr, head, tokens_word_append hp.1 (by decide),
        tokens_lit (l := ["dport"]) (by decide) (by decide),
        tokens_word_append hp.2.2.1 (by decide), tokens_lit (l := []) (by decide) (by decide),
        Nft.tokens_word ha]
      rfl

/-- The parts of a well-formed rule. -/
lemma meaning_eq_some_iff {r : RuleEntry} {rule : NftRule} :
    r.meaning = some rule ↔ ∃ n ports v,
      Ip.readNet r.destination = some n ∧
      portMatch r.portType r.portRange = some ports ∧ readAction r.action = some v ∧
      rule = ⟨.daddr false n :: ports, v⟩ := by
  unfold RuleEntry.meaning
  constructor
  · intro h
    obtain ⟨n, hn, h⟩ := Option.bind_eq_some_iff.1 h
    obtain ⟨ports, hp, h⟩ := Option.bind_eq_some_iff.1 h
    obtain ⟨v, hv, h⟩ := Option.bind_eq_some_iff.1 h
    exact ⟨n, ports, v, hn, hp, hv, (Option.some.inj h).symm⟩
  · rintro ⟨n, ports, v, hn, hp, hv, rfl⟩
    rw [hn, hp, hv]
    rfl

lemma portMatch_eq_some {pt pr : Option String} {ports : List Nft.Match}
    (h : portMatch pt pr = some ports) :
    (portWords pt pr = [] ∧ ports = []) ∨ ∃ w r p lo hi, portWords pt pr = [w, "dport", r] ∧
      readProto w = some p ∧ Nft.readPorts r = some (lo, hi) ∧ ports = [.dport p lo hi] := by
  unfold portMatch at h
  unfold portWords
  split at h
  next w r _ _ =>
    obtain ⟨p, hp, h⟩ := Option.bind_eq_some_iff.1 h
    obtain ⟨q, hq, h⟩ := Option.bind_eq_some_iff.1 h
    exact .inr ⟨w, r, p, q.1, q.2, rfl, hp, hq, (Option.some.inj h).symm⟩
  next => exact .inl ⟨rfl, (Option.some.inj h).symm⟩

/-- A match on ports, and the rest of the rule. -/
lemma readMatches_dport {w pr : String} {p : Nft.Proto} {lo hi : ℕ} (hw : readProto w = some p)
    (hr : Nft.readPorts pr = some (lo, hi)) (ws : List String) :
    Nft.readMatches (w :: "dport" :: pr :: ws) =
      (Nft.readMatches ws).map (Nft.Rule.when (.dport p lo hi)) := by
  have hneg : pr ≠ "!=" := by
    rintro rfl
    have hnone : Nft.readPorts "!=" = none := by decide
    cases hnone.symm.trans hr
  have hfield : Nft.field w "dport" = some (.dport p) := by
    rcases readProto_cases hw with ⟨rfl, rfl⟩ | ⟨rfl, rfl⟩ <;> rfl
  have hoif : w ≠ "oifname" := by
    rcases readProto_cases hw with ⟨rfl, -⟩ | ⟨rfl, -⟩ <;> decide
  refine Nft.readMatches_field hoif hfield hneg ?_ ws
  simp [Nft.Field.read, hr]

lemma placed_action {a : String} {v : Nft.Verdict String} (h : readAction a = some v)
    (guard : List Nft.Match) : Nft.Rule.Placed c ⟨guard, v⟩ := by
  rcases readAction_cases h with ⟨-, rfl⟩ | ⟨-, rfl⟩ <;> exact nofun

lemma readMatches_action {a : String} {v : Nft.Verdict String} (h : readAction a = some v) :
    Nft.readMatches [a] = some ⟨[], v⟩ := by
  rcases readAction_cases h with ⟨rfl, rfl⟩ | ⟨rfl, rfl⟩ <;> rfl

/-- **A well-formed rule's line** is read as the rule. -/
theorem read_ruleLine (hc : IsName c) {r : RuleEntry} {rule : NftRule}
    (h : r.meaning = some rule) : nft.read (r.line c) = some [.addRule c rule] := by
  obtain ⟨n, ports, v, hn, hp, hv, rfl⟩ := meaning_eq_some_iff.1 h
  have hn : Ip.parseNet (family r.destination) r.destination = some n :=
    Ip.readNet_eq_some_iff.1 hn
  have hd := Nft.isWord_of_parseNet hn
  have ha : IsWord r.action := by
    rcases readAction_cases hv with ⟨e, -⟩ | ⟨e, -⟩ <;> rw [e] <;> decide
  have hf : IsWord (ipWord (family r.destination)) := by
    cases family r.destination <;> decide
  rcases portMatch_eq_some hp with ⟨hw, rfl⟩ | ⟨w, pr, p, lo, hi, hw, hproto, hports, rfl⟩
  · refine read_addRuleLine nft hc (tokens_buildRuleExpr hd ha (by simp [hw])) ?_ ?_
      (inContext_daddr n false v) (placed_action hv _)
    · rw [hw]
      simp only [List.nil_append, List.cons_append, List.forall_mem_cons]
      exact ⟨hf, by decide, hd, ha, by simp⟩
    · rw [hw, List.nil_append]
      refine (readMatches_daddr hn [r.action]).trans ?_
      rw [readMatches_action hv]
      rfl
  · have hww : IsWord w := by
      rcases readProto_cases hproto with ⟨e, -⟩ | ⟨e, -⟩ <;> rw [e] <;> decide
    have hrw := Nft.isWord_of_readPorts hports
    refine read_addRuleLine nft hc (tokens_buildRuleExpr hd ha ?_) ?_ ?_
      (inContext_daddr_dport n false v p lo hi) (placed_action hv _)
    · rw [hw]
      simp only [List.forall_mem_cons]
      exact ⟨hww, by decide, hrw, by simp⟩
    · rw [hw]
      simp only [List.nil_append, List.cons_append, List.forall_mem_cons]
      exact ⟨hf, by decide, hd, hww, by decide, hrw, ha, by simp⟩
    · rw [hw]
      refine (readMatches_daddr hn [w, "dport", pr, r.action]).trans ?_
      rw [readMatches_dport hproto hports, readMatches_action hv]
      rfl

end WireGui
