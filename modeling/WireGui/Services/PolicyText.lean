import WireGui.Services.FirewallSpec

/-!
# How nft reads the batches of the base chains and of the network policies
-/

namespace WireGui

open Nft (IsName IsWord tokens)

/-- The settings name the two networks and the interface of WireGuard. -/
structure Settings.Valid (settings : Settings) : Prop where
  v4 : ∃ n, Ip.parseNet .v4 settings.wgIpv4Network = some n
  v6 : ∃ n, Ip.parseNet .v6 settings.wgIpv6Network = some n
  iface : Nft.IsInterface settings.wgInterface

/-- The address lies in the WireGuard network. -/
def Settings.Inside (settings : Settings) (a : Ip.Addr) : Prop :=
  (∃ n ∈ Ip.parseNet .v4 settings.wgIpv4Network, a ∈ n) ∨
    ∃ n ∈ Ip.parseNet .v6 settings.wgIpv6Network, a ∈ n

instance (settings : Settings) (a : Ip.Addr) : Decidable (settings.Inside a) := by
  unfold Settings.Inside; infer_instance

variable (nft : FrontEnd)

/-! ### Base chains -/

/-- The commands of `setup_base_tables`. -/
def baseCmds : List (Nft.Cmd String Nft.Match) :=
  [.addTable, .addChain "forward" (some forwardBase),
    .addChain "postrouting" (some postroutingBase)]

lemma batch_baseTables : nft.batch
    [s!"add table inet {tableName}",
     s!"add chain inet {tableName} forward " ++
       "\x7b type filter hook forward priority 0; policy accept; \x7d",
     s!"add chain inet {tableName} postrouting " ++
       "\x7b type nat hook postrouting priority 100; policy accept; \x7d"] = some baseCmds := by
  have h₁ : nft.read s!"add table inet {tableName}" = some [.addTable] :=
    nft.read_of_readLine (by decide)
  have h₂ : nft.read (s!"add chain inet {tableName} forward " ++
      "\x7b type filter hook forward priority 0; policy accept; \x7d") =
        some [.addChain "forward" (some forwardBase)] := nft.read_of_readLine (by decide)
  have h₃ : nft.read (s!"add chain inet {tableName} postrouting " ++
      "\x7b type nat hook postrouting priority 100; policy accept; \x7d") =
        some [.addChain "postrouting" (some postroutingBase)] := nft.read_of_readLine (by decide)
  simp only [Nft.FrontEnd.batch, List.mapM_cons, List.mapM_nil, h₁, h₂, h₃]
  rfl

/-! ### Names of interfaces -/

/-- A name between double quotes. -/
def quote (name : String) : String := "\"" ++ (name ++ "\"")

lemma toList_quote (name : String) : (quote name).toList = '"' :: (name.toList ++ ['"']) := by
  rw [quote, String.toList_append, String.toList_append]
  rfl

lemma unquote_quote {name : String} (h : Nft.IsInterface name) :
    Nft.unquote (quote name) = some name := by
  have hlast : (name.toList ++ ['"']).getLast? = some '"' := List.getLast?_concat
  simp only [Nft.unquote, toList_quote, hlast, List.dropLast_concat, String.ofList_toList, true_and]
  exact if_pos h

lemma isWord_quote {name : String} (h : Nft.IsInterface name) : IsWord (quote name) := by
  unfold IsWord
  rw [toList_quote]
  refine ⟨List.cons_ne_nil _ _, fun c hc => ?_⟩
  rcases List.mem_cons.1 hc with rfl | hc
  · decide
  rcases List.mem_append.1 hc with hc | hc
  · exact Nft.word_of_class (by decide) (h.2.2 c hc)
  · obtain rfl := List.mem_singleton.1 hc
    decide

/-! ### Rules of the base chains and of the policies -/

/-- The masquerade of packets from the network `n` that leave by another interface. -/
def masqueradeRule (n : Ip.Net) (iface : String) : NftRule :=
  ⟨[.saddr false n, .oifname true iface], .masquerade⟩

/-- The text of the masquerade of the network `net`. -/
def masqueradeExpr (f : Ip.Family) (net iface : String) : String :=
  ipWord f ++ (" saddr " ++ (net ++ (" oifname != " ++ (quote iface ++ (" " ++ "masquerade")))))

lemma inContext_masqueradeRule (n : Ip.Net) (iface : String) :
    (masqueradeRule n iface).InContext := by
  refine ⟨List.pairwise_pair.2 ⟨?_, ?_⟩, by simp [masqueradeRule, Nft.maxMatches]⟩ <;>
    simp [Nft.Match.family, Nft.Match.proto]

lemma oifname_quote (s : String) : " oifname != \"" ++ s = " oifname != " ++ ("\"" ++ s) := by
  rw [← String.append_assoc]
  rfl

lemma read_masqueradeLine {f : Ip.Family} {net iface : String} {n : Ip.Net}
    (hn : Ip.parseNet f net = some n) (hi : Nft.IsInterface iface) :
    nft.read (addRuleLine "postrouting" (masqueradeExpr f net iface)) =
      some [.addRule "postrouting" (masqueradeRule n iface)] := by
  have hw := Nft.isWord_of_parseNet hn
  have hf : IsWord (ipWord f) := by cases f <;> decide
  have hq := isWord_quote hi
  have ht : tokens (masqueradeExpr f net iface) =
      [ipWord f, "saddr", net, "oifname", "!=", quote iface, "masquerade"] := by
    rw [masqueradeExpr, tokens_word_append hf (by decide),
      tokens_lit (l := ["saddr"]) (by decide) (by decide), tokens_word_append hw (by decide),
      tokens_lit (l := ["oifname", "!="]) (by decide) (by decide),
      tokens_word_append hq (by decide), tokens_lit (l := []) (by decide) (by decide),
      Nft.tokens_word (by decide)]
    rfl
  have hplaced : (masqueradeRule n iface).Placed "postrouting" := fun _ => rfl
  refine read_addRuleLine nft (by decide) ht ?_ ?_ (inContext_masqueradeRule n iface) hplaced
  · simp only [List.forall_mem_cons]
    exact ⟨hf, by decide, hw, by decide, by decide, hq, by decide, by simp⟩
  · have hrest : Nft.readMatches ["oifname", "!=", quote iface, "masquerade"] =
        some ⟨[.oifname true iface], .masquerade⟩ := by
      simp [Nft.readMatches, unquote_quote hi, Nft.readVerdict, Nft.Rule.when]
    rw [readMatches_saddr hn, hrest]
    rfl

/-- A rule of a policy chain: packets to the network `n` from inside of it, or from outside. -/
def policyRule (neg : Bool) (n : Ip.Net) (v : Nft.Verdict String) : NftRule :=
  ⟨[.saddr neg n, .daddr false n], v⟩

lemma inContext_policyRule (neg : Bool) (n : Ip.Net) (v : Nft.Verdict String) :
    (policyRule neg n v).InContext := by
  refine ⟨List.pairwise_pair.2 ⟨?_, ?_⟩, by simp [policyRule, Nft.maxMatches]⟩ <;>
    simp [Nft.Match.family, Nft.Match.proto]

/-- A negation, as `apply_lan_to_peers_policy` writes it. -/
def negText : Bool → String
  | true => "!= "
  | false => ""

/-- The text of a rule of a policy chain. -/
def policyExpr (f : Ip.Family) (neg : Bool) (net verdict : String) : String :=
  ipWord f ++ (" saddr " ++ (negText neg ++ (net ++ (" " ++ (ipWord f ++ (" daddr " ++
    (net ++ (" " ++ verdict))))))))

lemma tokens_policyExpr (f : Ip.Family) (neg : Bool) {net verdict : String} (hw : IsWord net)
    (hv : IsWord verdict) : tokens (policyExpr f neg net verdict) =
      [ipWord f, "saddr"] ++ (if neg then ["!="] else []) ++
        [net, ipWord f, "daddr", net, verdict] := by
  have hf : IsWord (ipWord f) := by cases f <;> decide
  have htail : tokens (net ++ (" " ++ (ipWord f ++ (" daddr " ++ (net ++ (" " ++ verdict)))))) =
      [net, ipWord f, "daddr", net, verdict] := by
    rw [tokens_word_append hw (by decide), tokens_lit (l := []) (by decide) (by decide),
      tokens_word_append hf (by decide), tokens_lit (l := ["daddr"]) (by decide) (by decide),
      tokens_word_append hw (by decide), tokens_lit (l := []) (by decide) (by decide),
      Nft.tokens_word hv]
    rfl
  rw [policyExpr, tokens_word_append hf (by decide),
    tokens_lit (l := ["saddr"]) (by decide) (by decide)]
  cases neg with
  | true =>
    rw [negText, tokens_lit (l := ["!="]) (by decide) (by decide), htail]
    rfl
  | false =>
    rw [negText, String.empty_append, htail]
    rfl

lemma read_policyLine {c : String} (hc : IsName c) {f : Ip.Family} {net verdict : String}
    {n : Ip.Net} {v : Nft.Verdict String} (hn : Ip.parseNet f net = some n)
    (hv : readAction verdict = some v) (neg : Bool) :
    nft.read (addRuleLine c (policyExpr f neg net verdict)) =
      some [.addRule c (policyRule neg n v)] := by
  have hw := Nft.isWord_of_parseNet hn
  have hf : IsWord (ipWord f) := by cases f <;> decide
  have hvw : IsWord verdict := by
    rcases readAction_cases hv with ⟨rfl, -⟩ | ⟨rfl, -⟩ <;> decide
  have hread : Nft.readMatches [ipWord f, "daddr", net, verdict] = some ⟨[.daddr false n], v⟩ := by
    rw [readMatches_daddr hn, readMatches_action hv]
    rfl
  refine read_addRuleLine nft hc (tokens_policyExpr f neg hw hvw) ?_ ?_
    (inContext_policyRule neg n v) (placed_action hv _)
  · intro w hm
    cases neg <;>
      simp only [if_true, if_false, Bool.false_eq_true, List.append_nil, List.cons_append,
        List.nil_append, List.mem_cons, List.not_mem_nil, or_false] at hm <;>
      rcases hm with rfl | rfl | rfl | rfl | rfl | rfl | rfl | rfl <;> first | assumption | decide
  · cases neg with
    | true =>
      refine (Nft.readMatches_field_neg (ipWord_ne f) (field_saddr f) (by rw [Nft.Field.read, hn]; rfl)
        [ipWord f, "daddr", net, verdict]).trans ?_
      rw [hread]
      rfl
    | false =>
      refine (readMatches_saddr hn [ipWord f, "daddr", net, verdict]).trans ?_
      rw [hread]
      rfl

/-- The commands of a policy, for the networks of the two families. -/
def policyCmds (c : String) (neg : Bool) (n₄ n₆ : Ip.Net) (v : Nft.Verdict String) :
    List (Nft.Cmd String Nft.Match) :=
  [.addChain c none, .flushChain c, .addRule c (policyRule neg n₄ v),
    .addRule c (policyRule neg n₆ v)]

lemma policyExpr_eq (f : Ip.Family) (neg : Bool) (net verdict : String) :
    ipWord f ++ " saddr " ++ negText neg ++ net ++ (" " ++ ipWord f ++ " daddr ") ++ net ++ " " ++
      verdict = policyExpr f neg net verdict := by
  simp only [policyExpr, String.append_assoc]

lemma policyExpr_v4 (neg : Bool) (net verdict : String) :
    s!"ip saddr {negText neg}{net} ip daddr {net} {verdict}" = policyExpr .v4 neg net verdict :=
  policyExpr_eq .v4 neg net verdict

lemma policyExpr_v6 (neg : Bool) (net verdict : String) :
    s!"ip6 saddr {negText neg}{net} ip6 daddr {net} {verdict}" = policyExpr .v6 neg net verdict :=
  policyExpr_eq .v6 neg net verdict

/-- **The batch of a policy** writes its chain and no other. -/
theorem batch_policyLines {settings : Settings} {n₄ n₆ : Ip.Net}
    (h₄ : Ip.parseNet .v4 settings.wgIpv4Network = some n₄)
    (h₆ : Ip.parseNet .v6 settings.wgIpv6Network = some n₆) {c : String} (hc : IsName c)
    (neg : Bool) {verdict : String} {v : Nft.Verdict String} (hv : readAction verdict = some v) :
    nft.batch (policyLines settings c (negText neg) verdict) = some (policyCmds c neg n₄ n₆ v) := by
  simp only [policyLines, policyExpr_v4, policyExpr_v6, Nft.FrontEnd.batch, List.mapM_cons,
    List.mapM_nil, read_addChainLine nft hc, read_flushChainLine nft hc,
    read_policyLine nft hc h₄ hv neg, read_policyLine nft hc h₆ hv neg]
  rfl

lemma masqueradeExpr_eq (f : Ip.Family) (net iface : String) :
    ipWord f ++ " saddr " ++ net ++ " oifname != \"" ++ iface ++ "\" masquerade" =
      masqueradeExpr f net iface := by
  have hend : "\" masquerade" = "\"" ++ (" " ++ "masquerade") := rfl
  rw [hend, masqueradeExpr, quote]
  simp only [String.append_assoc, oifname_quote]

lemma masqueradeExpr_v4 (net iface : String) :
    s!"ip saddr {net} oifname != \"{iface}\" masquerade" = masqueradeExpr .v4 net iface :=
  masqueradeExpr_eq .v4 net iface

lemma masqueradeExpr_v6 (net iface : String) :
    s!"ip6 saddr {net} oifname != \"{iface}\" masquerade" = masqueradeExpr .v6 net iface :=
  masqueradeExpr_eq .v6 net iface

/-- The commands of `setup_masquerade`. -/
def masqueradeCmds (n₄ n₆ : Ip.Net) (iface : String) : List (Nft.Cmd String Nft.Match) :=
  [.flushChain "postrouting", .addRule "postrouting" (masqueradeRule n₄ iface),
    .addRule "postrouting" (masqueradeRule n₆ iface)]

/-- **The batch of `setup_masquerade`** writes `postrouting` and no other chain. -/
theorem batch_masqueradeLines {settings : Settings} {n₄ n₆ : Ip.Net}
    (h₄ : Ip.parseNet .v4 settings.wgIpv4Network = some n₄)
    (h₆ : Ip.parseNet .v6 settings.wgIpv6Network = some n₆) {iface : String}
    (hi : Nft.IsInterface iface) :
    nft.batch
      [flushChainLine "postrouting",
       addRuleLine "postrouting"
         s!"ip saddr {settings.wgIpv4Network} oifname != \"{iface}\" masquerade",
       addRuleLine "postrouting"
         s!"ip6 saddr {settings.wgIpv6Network} oifname != \"{iface}\" masquerade"] =
      some (masqueradeCmds n₄ n₆ iface) := by
  simp only [masqueradeExpr_v4, masqueradeExpr_v6, Nft.FrontEnd.batch, List.mapM_cons,
    List.mapM_nil, read_flushChainLine nft (c := "postrouting") (by decide),
    read_masqueradeLine nft h₄ hi, read_masqueradeLine nft h₆ hi]
  rfl

end WireGui
