import WireGui.Nft.Packet
import WireGui.Nft.Table
import WireGui.Ip.Text

/-!
# The text of a batch

nft reads a batch line by line.  A line is cut into words and the separators `;`, `{`, `}`, and the
statements between semicolons are read one after the other, so that one line can hold several
commands.

`readLine` reads a fragment of the language: tables and chains of the family `inet`, rules whose
matches are on addresses, ports and the outgoing interface.  What nft itself makes of a line is a
`FrontEnd`: it agrees with `readLine` wherever that reads anything, and is free elsewhere.
-/

namespace Nft

/-! ### Words -/

def isBlank (c : Char) : Bool := c = ' ' ∨ c = '\t'

/-- A character that is a token by itself. -/
def isSeparator (c : Char) : Bool := c = ';' ∨ c = '\n' ∨ c = '{' ∨ c = '}'

/-- The characters of a class that leaves out blanks and separators belong to words. -/
lemma word_of_class {p : Char → Bool} (h : ∀ d ∈ [' ', '\t', ';', '\n', '{', '}'], p d = false)
    {c : Char} (hc : p c = true) : isBlank c = false ∧ isSeparator c = false := by
  have hne : ∀ d ∈ [' ', '\t', ';', '\n', '{', '}'], c ≠ d := by
    rintro d hd rfl
    rw [h c hd] at hc
    cases hc
  simp only [List.forall_mem_cons] at hne
  obtain ⟨h₁, h₂, h₃, h₄, h₅, h₆, -⟩ := hne
  simp [isBlank, isSeparator, h₁, h₂, h₃, h₄, h₅, h₆]

/-- The token of a separator; a line break ends a statement as a semicolon does. -/
def separator (c : Char) : String := if c = '\n' then ";" else String.singleton c

/-- The word read so far, if there is one. -/
def closeWord (w : List Char) : List String := if w = [] then [] else [String.ofList w]

/-- The tokens of a text; `w` is the part of a word already read. -/
def lex (w : List Char) : List Char → List String
  | [] => closeWord w
  | c :: cs =>
    if isBlank c then closeWord w ++ lex [] cs
    else if isSeparator c then closeWord w ++ separator c :: lex [] cs
    else lex (w ++ [c]) cs

def tokens (s : String) : List String := lex [] s.toList

/-- A text that is one token. -/
def IsWord (s : String) : Prop :=
  s.toList ≠ [] ∧ ∀ c ∈ s.toList, isBlank c = false ∧ isSeparator c = false

instance (s : String) : Decidable (IsWord s) := by unfold IsWord; infer_instance

lemma lex_append_of_plain {cs : List Char} (h : ∀ c ∈ cs, isBlank c = false ∧ isSeparator c = false)
    (w ds : List Char) : lex w (cs ++ ds) = lex (w ++ cs) ds := by
  induction cs generalizing w with
  | nil => simp
  | cons c cs ih =>
    obtain ⟨hb, hs⟩ := h c List.mem_cons_self
    rw [List.cons_append, lex, hb, hs]
    simpa using ih (fun d hd => h d (List.mem_cons_of_mem _ hd)) (w ++ [c])

theorem tokens_word {s : String} (h : IsWord s) : tokens s = [s] := by
  have hl := lex_append_of_plain h.2 [] []
  rw [List.append_nil] at hl
  rw [tokens, hl, List.nil_append, lex, closeWord, if_neg h.1, String.ofList_toList]

lemma lex_blank {b : Char} (hb : isBlank b = true) (w cs : List Char) :
    lex w (b :: cs) = closeWord w ++ lex [] cs := by
  rw [lex, if_pos hb]

/-- A blank ends a word, whatever follows. -/
lemma lex_append_blank {b : Char} (hb : isBlank b = true) (cs ds w : List Char) :
    lex w (cs ++ b :: ds) = lex w cs ++ lex [] ds := by
  induction cs generalizing w with
  | nil => exact lex_blank hb w ds
  | cons c cs ih =>
    rw [List.cons_append, lex, lex]
    by_cases hc : isBlank c = true
    · rw [if_pos hc, if_pos hc, ih, List.append_assoc]
    · rw [if_neg hc, if_neg hc]
      by_cases hs : isSeparator c = true
      · rw [if_pos hs, if_pos hs, ih, List.append_assoc, List.cons_append]
      · rw [if_neg hs, if_neg hs, ih]

/-- A text that ends in a blank is read apart from what follows. -/
theorem tokens_append_of_getLast {s : String} (h : ∃ b ∈ s.toList.getLast?, isBlank b = true)
    (t : String) : tokens (s ++ t) = tokens s ++ tokens t := by
  obtain ⟨b, hb, hbb⟩ := h
  obtain ⟨cs, hcs⟩ := List.getLast?_eq_some_iff.1 hb
  have e : ∀ ds, lex [] (s.toList ++ ds) = lex [] cs ++ lex [] ds := by
    intro ds
    rw [hcs, List.append_assoc, List.singleton_append, lex_append_blank hbb]
  have h0 : lex [] s.toList = lex [] cs := by
    have h0 := e []
    rwa [List.append_nil, show lex [] [] = [] from rfl, List.append_nil] at h0
  rw [tokens, tokens, tokens, String.toList_append, e, h0]

/-- A text that starts with a blank is read apart from what precedes. -/
theorem tokens_append_of_head {t : String} (h : ∃ b ∈ t.toList.head?, isBlank b = true)
    (s u : String) : tokens (s ++ (t ++ u)) = tokens s ++ tokens (t ++ u) := by
  obtain ⟨b, hb, hbb⟩ := h
  obtain ⟨ds, hds⟩ := List.head?_eq_some_iff.1 hb
  rw [tokens, tokens, tokens, String.toList_append, String.toList_append, hds, List.cons_append,
    lex_append_blank hbb, lex_blank hbb]
  rfl

/-- A blank between two texts keeps them apart. -/
lemma tokens_append_blank (s t : String) : tokens (s ++ (" " ++ t)) = tokens s ++ tokens t := by
  have hb : isBlank ' ' = true := by decide
  rw [tokens, tokens, tokens, String.toList_append, String.toList_append]
  exact lex_append_blank hb s.toList t.toList []

/-- A text without separators. -/
def Plain (s : String) : Prop := ∀ c ∈ s.toList, isSeparator c = false

instance : DecidablePred Plain := fun s => by unfold Plain; infer_instance

lemma plain_append {s t : String} : Plain (s ++ t) ↔ Plain s ∧ Plain t := by
  unfold Plain
  simp only [String.toList_append, List.forall_mem_append]

lemma closeWord_plain {w : List Char} (hw : ∀ c ∈ w, isSeparator c = false) :
    ∀ x ∈ closeWord w, Plain x := by
  intro x hx
  unfold closeWord at hx
  split at hx
  · cases hx
  · obtain rfl := List.mem_singleton.1 hx
    unfold Plain
    rwa [String.toList_ofList]

lemma lex_plain {w cs : List Char} (hw : ∀ c ∈ w, isSeparator c = false)
    (hcs : ∀ c ∈ cs, isSeparator c = false) : ∀ x ∈ lex w cs, Plain x := by
  induction cs generalizing w with
  | nil => exact closeWord_plain hw
  | cons c cs ih =>
    obtain ⟨hc, hcs⟩ := List.forall_mem_cons.1 hcs
    rw [lex, hc]
    split
    · rw [List.forall_mem_append]
      exact ⟨closeWord_plain hw, ih (by simp) hcs⟩
    · refine ih (fun d hd => ?_) hcs
      rcases List.mem_append.1 hd with hd | hd
      · exact hw d hd
      · rwa [List.mem_singleton.1 hd]

/-- None of the words of such a text is a separator. -/
lemma Plain.ne_separator {s : String} (h : Plain s) : ∀ w ∈ tokens s, w ≠ ";" ∧ w ≠ "\x7b" := by
  intro w hw
  have hp : Plain w := lex_plain (by simp) h w hw
  constructor <;> rintro rfl <;> exact absurd hp (by decide)

lemma isWord_of_parseNet {f : Ip.Family} {s : String} {n : Ip.Net} (h : Ip.parseNet f s = some n) :
    IsWord s := by
  refine ⟨Ip.parseNet_ne_empty h, fun c hc => ?_⟩
  rcases Ip.isAddrChar_of_parseNet h hc with hc | rfl
  · exact word_of_class (by decide) hc
  · decide

/-! ### Statements -/

/-- A character of an identifier. -/
def isNameChar (c : Char) : Bool := c.isAlphanum ∨ c = '_' ∨ c = '-' ∨ c = '.' ∨ c = '/'

/-- The name of a chain.  None of nft's keywords holds an underscore. -/
def IsName (w : String) : Prop :=
  (w = "forward" ∨ w = "postrouting" ∨ '_' ∈ w.toList) ∧
    (∃ c ∈ w.toList.head?, c.isAlpha) ∧ ∀ c ∈ w.toList, isNameChar c = true

instance (w : String) : Decidable (IsName w) := by unfold IsName; infer_instance

lemma IsName.isWord {w : String} (h : IsName w) : IsWord w := by
  obtain ⟨-, ⟨d, hd, -⟩, h⟩ := h
  refine ⟨?_, fun c hc => word_of_class (by decide) (h c hc)⟩
  intro he
  rw [he] at hd
  cases hd

/-- A port, or a range of ports that is not empty. -/
def readPorts (w : String) : Option (ℕ × ℕ) :=
  match w.toList.splitOn '-' with
  | [a] => ((Ip.parseLen a).filter (· ≤ 65535)).map fun n => (n, n)
  | [a, b] =>
    match Ip.parseLen a, Ip.parseLen b with
    | some lo, some hi => if lo ≤ hi ∧ hi ≤ 65535 then some (lo, hi) else none
    | _, _ => none
  | _ => none

lemma ne_of_digit {c : Char} (h : (Ip.digitVal c).isSome = true) :
    isBlank c = false ∧ isSeparator c = false :=
  word_of_class (p := fun c => (Ip.digitVal c).isSome) (by decide) h

lemma digitVal_of_parseLen {cs : List Char} {n : ℕ} (h : Ip.parseLen cs = some n) {c : Char}
    (hc : c ∈ cs) : (Ip.digitVal c).isSome = true := by
  unfold Ip.parseLen at h
  split at h
  · cases h
  · exact Ip.digitVal_of_readDigits h hc

lemma isWord_of_readPorts {w : String} {r : ℕ × ℕ} (h : readPorts w = some r) : IsWord w := by
  have key : ∀ p ∈ w.toList.splitOn '-', ∃ n, Ip.parseLen p = some n := by
    intro p hp
    unfold readPorts at h
    split at h
    next a he =>
      rw [he, List.mem_singleton] at hp
      obtain ⟨n, hn, -⟩ := Option.map_eq_some_iff.1 h
      exact ⟨n, hp ▸ (Option.filter_eq_some_iff.1 hn).1⟩
    next a b he =>
      rw [he, List.mem_cons, List.mem_singleton] at hp
      split at h
      next lo hi hlo hhi => exact hp.elim (fun e => ⟨lo, e ▸ hlo⟩) fun e => ⟨hi, e ▸ hhi⟩
      · cases h
    · cases h
  refine ⟨?_, fun c hc => ?_⟩
  · intro he
    rw [readPorts, he] at h
    exact absurd h (by simp [Ip.parseLen, Ip.readDigits])
  · rcases Ip.mem_splitOn '-' hc with rfl | ⟨p, hp, hcp⟩
    · decide
    · obtain ⟨n, hn⟩ := key p hp
      exact ne_of_digit (digitVal_of_parseLen hn hcp)

/-- The name of an interface: at most 15 characters, and no wildcard among them. -/
def IsInterface (name : String) : Prop :=
  name.toList ≠ [] ∧ name.toList.length < 16 ∧ ∀ c ∈ name.toList, isNameChar c = true

instance (name : String) : Decidable (IsInterface name) := by unfold IsInterface; infer_instance

/-- The name of an interface between double quotes. -/
def unquote (w : String) : Option String :=
  match w.toList with
  | '"' :: cs =>
    if cs.getLast? = some '"' ∧ IsInterface (String.ofList cs.dropLast) then
      some (String.ofList cs.dropLast)
    else none
  | _ => none

/-- A header field, named by two words. -/
inductive Field where
  | saddr (f : Ip.Family) | daddr (f : Ip.Family) | dport (p : Proto)
  deriving DecidableEq, Repr

def field : String → String → Option Field
  | "ip", "saddr" => some (.saddr .v4)
  | "ip6", "saddr" => some (.saddr .v6)
  | "ip", "daddr" => some (.daddr .v4)
  | "ip6", "daddr" => some (.daddr .v6)
  | "tcp", "dport" => some (.dport .tcp)
  | "udp", "dport" => some (.dport .udp)
  | _, _ => none

/-- The match of a field against the value `w`. -/
def Field.read (neg : Bool) (w : String) : Field → Option Match
  | .saddr f => (Ip.parseNet f w).map (.saddr neg)
  | .daddr f => (Ip.parseNet f w).map (.daddr neg)
  | .dport p => if neg then none else (readPorts w).map fun (lo, hi) => .dport p lo hi

def readVerdict : String → Option (Verdict String)
  | "accept" => some .accept
  | "drop" => some .drop
  | "masquerade" => some .masquerade
  | "return" => some .ret
  | "continue" => some .next
  | _ => none

/-- Puts a match in front of a rule. -/
def Rule.when {κ μ : Type} (m : μ) (r : Rule κ μ) : Rule κ μ := { r with guard := m :: r.guard }

/-- The matches and the verdict of a rule, from the words that follow the name of its chain. -/
def readMatches : List String → Option (Rule String Match)
  | [w] => (readVerdict w).map (Rule.mk [])
  | [w, c] => if w = "jump" ∧ IsName c then some ⟨[], .jump c⟩ else none
  | a :: b :: w :: x :: ws =>
    if a = "oifname" then
      if b = "!=" then
        (unquote w).bind fun n => (readMatches (x :: ws)).map (Rule.when (.oifname true n))
      else none
    else
      (field a b).bind fun f =>
        if w = "!=" then (f.read true x).bind fun m => (readMatches ws).map (Rule.when m)
        else (f.read false w).bind fun m => (readMatches (x :: ws)).map (Rule.when m)
  | _ => none

/-- A match on a field, and the rest of the rule. -/
lemma readMatches_field {a b w : String} {fld : Field} {m : Match} (ha : a ≠ "oifname")
    (hf : field a b = some fld) (hw : w ≠ "!=") (hm : fld.read false w = some m)
    (ws : List String) :
    readMatches (a :: b :: w :: ws) = (readMatches ws).map (Rule.when m) := by
  cases ws with
  | nil => rfl
  | cons x ws =>
    rw [readMatches, if_neg ha, hf, Option.bind_some, if_neg hw, hm, Option.bind_some]

/-- The same for a negated match. -/
lemma readMatches_field_neg {a b w : String} {fld : Field} {m : Match} (ha : a ≠ "oifname")
    (hf : field a b = some fld) (hm : fld.read true w = some m) (ws : List String) :
    readMatches (a :: b :: "!=" :: w :: ws) = (readMatches ws).map (Rule.when m) := by
  rw [readMatches, if_neg ha, hf, Option.bind_some, if_pos rfl, hm, Option.bind_some]

/-- The kernel keeps 128 expressions of a rule.  A match takes three, and each of the two protocols
two more. -/
def maxMatches : ℕ := 40

/-- **The protocol context** of a rule: its matches agree on the protocols, and the kernel can keep
them. -/
structure Rule.InContext (r : Rule String Match) : Prop where
  compatible : r.guard.Pairwise Match.Compatible
  length : r.guard.length ≤ maxMatches

lemma inContext_iff {r : Rule String Match} :
    r.InContext ↔ r.guard.Pairwise Match.Compatible ∧ r.guard.length ≤ maxMatches :=
  ⟨fun h => ⟨h.compatible, h.length⟩, fun h => ⟨h.1, h.2⟩⟩

instance (r : Rule String Match) : Decidable r.InContext := decidable_of_iff' _ inContext_iff

/-- A rule, from the words that follow the name of its chain.  One that is on two protocols, as
`ip` with `ip6` or `tcp` with `udp`, is refused. -/
def readBody (ws : List String) : Option (Rule String Match) :=
  (readMatches ws).filter fun r => r.InContext

lemma readBody_eq_some_iff {ws : List String} {r : Rule String Match} :
    readBody ws = some r ↔ readMatches ws = some r ∧ r.InContext := by
  rw [readBody, Option.filter_eq_some_iff, decide_eq_true_iff]

example : readBody ["ip", "daddr", "10.0.0.0/8", "ip6", "saddr", "fd00::/8", "accept"] = none := by
  decide

/-- Address translation is for the chain that packets leave through. -/
def Rule.Placed (c : String) (r : Rule String Match) : Prop :=
  r.verdict = .masquerade → c = "postrouting"

instance (c : String) (r : Rule String Match) : Decidable (r.Placed c) := by
  unfold Rule.Placed; infer_instance

/-- The rule that the words add to the chain `c`. -/
def readRule (c : String) (ws : List String) : Option (Rule String Match) :=
  (readBody ws).filter fun r => r.Placed c

lemma readRule_eq_some_iff {c : String} {ws : List String} {r : Rule String Match} :
    readRule c ws = some r ↔ readMatches ws = some r ∧ r.InContext ∧ r.Placed c := by
  rw [readRule, Option.filter_eq_some_iff, decide_eq_true_iff, readBody_eq_some_iff, and_assoc]

def readType : String → Option ChainType
  | "filter" => some .filter
  | "nat" => some .nat
  | "route" => some .route
  | _ => none

def readHook : String → Option Hook
  | "prerouting" => some .prerouting
  | "input" => some .input
  | "forward" => some .forward
  | "output" => some .output
  | "postrouting" => some .postrouting
  | _ => none

def readPolicy : String → Option Policy
  | "accept" => some .accept
  | "drop" => some .drop
  | _ => none

/-- The block that makes a chain a base chain. -/
def readBase : List String → Option Base
  | ["\x7b", "type", ty, "hook", h, "priority", p, ";", "policy", pol, ";", "\x7d"] => do
    return ⟨← readType ty, ← readHook h, ← Ip.parseLen p.toList, ← readPolicy pol⟩
  | _ => none

/-- What is done to the chain `c`, from the verb and the words after its name. -/
def readChainCmd (verb obj c : String) (ws : List String) : Option (Cmd String Match) :=
  match verb, obj with
  | "add", "chain" =>
    if ws = [] then some (.addChain c none) else (readBase ws).map fun b => .addChain c (some b)
  | "flush", "chain" => if ws = [] then some (.flushChain c) else none
  | "delete", "chain" => if ws = [] then some (.deleteChain c) else none
  | "add", "rule" => (readRule c ws).map (.addRule c)
  | _, _ => none

/-- One statement; an empty one is no command. -/
def readStatement (table : String) : List String → Option (List (Cmd String Match))
  | [] => some []
  | [verb, obj, fam, t] =>
    if verb = "add" ∧ obj = "table" ∧ fam = "inet" ∧ t = table then some [.addTable] else none
  | verb :: obj :: fam :: t :: c :: ws =>
    if fam = "inet" ∧ t = table ∧ IsName c then (readChainCmd verb obj c ws).map ([·]) else none
  | _ => none

/-- One line.  A block holds semicolons of its own and has to be the only statement. -/
def readLine (table : String) (s : String) : Option (List (Cmd String Match)) :=
  let ws := tokens s
  if "\x7b" ∈ ws then readStatement table ws
  else ((ws.splitOn ";").mapM (readStatement table)).map List.flatten

/-! ### Front ends -/

/-- **What nft makes of texts.**  `read` is what it makes of a line of a batch, `none` if it refuses
it; `other` is what a match does that is kept as text; `stderr` is what it says when it refuses a
batch. -/
structure FrontEnd (table : String) where
  read : String → Option (List (Cmd String Match))
  other : String → Packet → Bool
  stderr : List String → Table String Match → String
  read_of_readLine : ∀ {s cmds}, readLine table s = some cmds → read s = some cmds

/-- The front end that reads nothing but the fragment. -/
def FrontEnd.fragment (table : String) : FrontEnd table where
  read := readLine table
  other := fun _ _ => false
  stderr := fun _ _ => ""
  read_of_readLine := id

/-- A line that is a single statement. -/
lemma readLine_of_tokens {table s : String} {ws : List String} (h : tokens s = ws)
    (hs : ∀ w ∈ ws, w ≠ ";" ∧ w ≠ "\x7b") :
    readLine table s = readStatement table ws := by
  have hb : "\x7b" ∉ ws := fun hw => (hs _ hw).2 rfl
  have hsp : ws.splitOn ";" = [ws] := by
    exact List.splitOn_eq_singleton fun hw => (hs _ hw).1 rfl
  simp only [readLine, h]
  rw [if_neg hb, hsp]
  cases hst : readStatement table ws <;> simp [hst]

lemma IsWord.ne_separator {w : String} (h : IsWord w) : w ≠ ";" ∧ w ≠ "\x7b" := by
  constructor <;> rintro rfl <;> exact absurd h (by decide)

/-- The commands of a batch. -/
def FrontEnd.batch {table : String} (nft : FrontEnd table) (lines : List String) :
    Option (List (Cmd String Match)) :=
  (lines.mapM nft.read).map List.flatten

/-- **`nft -f -`**: the whole batch, or nothing. -/
def FrontEnd.apply {table : String} (nft : FrontEnd table) (lines : List String)
    (t : Table String Match) : Option (Table String Match) :=
  (nft.batch lines).bind fun cmds => load cmds t

/-! ### Batches -/

section Batch

variable {table : String} (nft : FrontEnd table)

lemma batch_append_eq_some_iff {ls ls' : List String} {cmds : List (Cmd String Match)} :
    nft.batch (ls ++ ls') = some cmds ↔
      ∃ cs cs', nft.batch ls = some cs ∧ nft.batch ls' = some cs' ∧ cmds = cs ++ cs' := by
  unfold FrontEnd.batch
  constructor
  · intro h
    obtain ⟨yss, hy, rfl⟩ := Option.map_eq_some_iff.1 h
    obtain ⟨zs, zs', hz, hz', rfl⟩ := List.mapM_append_eq_some_iff.1 hy
    exact ⟨zs.flatten, zs'.flatten, by rw [hz]; rfl, by rw [hz']; rfl, List.flatten_append⟩
  · rintro ⟨cs, cs', h, h', rfl⟩
    obtain ⟨zs, hz, rfl⟩ := Option.map_eq_some_iff.1 h
    obtain ⟨zs', hz', rfl⟩ := Option.map_eq_some_iff.1 h'
    rw [List.mapM_append_eq_some_iff.2 ⟨zs, zs', hz, hz', rfl⟩, Option.map_some,
      List.flatten_append]

lemma batch_append {ls ls' : List String} {cs cs' : List (Cmd String Match)}
    (h : nft.batch ls = some cs) (h' : nft.batch ls' = some cs') :
    nft.batch (ls ++ ls') = some (cs ++ cs') :=
  (batch_append_eq_some_iff nft).2 ⟨cs, cs', h, h', rfl⟩

/-- The rule that a line adds to the chain `c`, if that is all it does. -/
def FrontEnd.single (c line : String) : Option (Rule String Match) :=
  match nft.read line with
  | some [.addRule d r] => if d = c then some r else none
  | _ => none

/-- The rules that lines add to the chain `c`, if that is all they do. -/
def FrontEnd.rules (c : String) (lines : List String) : Option (List (Rule String Match)) :=
  lines.mapM (nft.single c)

lemma single_eq_some_iff {c line : String} {r : Rule String Match} :
    nft.single c line = some r ↔ nft.read line = some [.addRule c r] := by
  unfold FrontEnd.single
  constructor
  · intro h
    split at h
    next d s hs =>
      split at h
      next hd =>
        cases h
        rw [hs, hd]
      · cases h
    · cases h
  · intro h
    rw [h]
    exact if_pos rfl

/-- Lines that only add rules to a chain. -/
theorem batch_of_rules {c : String} {lines : List String} {rs : List (Rule String Match)}
    (h : nft.rules c lines = some rs) : nft.batch lines = some (rs.map (Cmd.addRule c)) := by
  have hm : lines.mapM nft.read = some (rs.map fun r => [Cmd.addRule c r]) := by
    rw [List.mapM_eq_some_iff, List.forall₂_map_right_iff]
    exact (List.mapM_eq_some_iff.1 h).imp fun _ _ hs => (single_eq_some_iff nft).1 hs
  rw [FrontEnd.batch, hm, Option.map_some, ← List.flatMap_def, ← List.map_eq_flatMap]

end Batch

end Nft
