import WireGui.Lib.Lines

/-!
# What `wg show <iface> dump` prints

A line for the interface and one for each peer, with tabs between the fields.  A missing key, endpoint
or list is `(none)`, no handshake is `0` and no keepalive is `off`.
-/

namespace Wg

/-- A field: a word without blanks. -/
structure Word where
  text : String
  ne : text ≠ ""
  noBlank : ∀ c ∈ text.toList, isSpace c = false

def Word.none : Word := ⟨"(none)", by decide, by decide⟩

def Word.off : Word := ⟨"off", by decide, by decide⟩

def Word.nat (n : ℕ) : Word := ⟨n.repr, Nat.repr_ne_empty, fun _ hc => isSpace_of_mem_repr hc⟩

/-- An address with a port. -/
structure Endpoint extends Word where
  colon : ':' ∈ text.toList

/-- An address with a prefix length. -/
structure AllowedIp extends Word where
  slash : '/' ∈ text.toList
  noComma : ',' ∉ text.toList

/-- When the last handshake was, in seconds since 1970, before the year 10000. -/
structure Handshake where
  seconds : ℕ
  pos : 0 < seconds
  lt : seconds < 253402300800

/-- The time, in microseconds since the year 1. -/
def Handshake.time (h : Handshake) : ℕ := (h.seconds + 62135596800) * 1000000

/-- A number of bytes; `int` takes up to 4300 digits, and `wg` has 64 bits. -/
structure Counter where
  val : ℕ
  lt : val < 10 ^ 4300

structure DumpPeer where
  publicKey : Word
  presharedKey : Option Word
  endpoint : Option Endpoint
  allowedIps : List AllowedIp
  latestHandshake : Option Handshake
  rxBytes : Counter
  txBytes : Counter
  persistentKeepalive : Option ℕ

/-- The line of the interface: not blank, and a single one. -/
structure InterfaceLine where
  text : String
  notBlank : ∃ c ∈ text.toList, isSpace c = false
  noBreak : ∀ c ∈ text.toList, isLineBreak c = false

/-- Two words with a comma between them. -/
def Word.comma (v w : Word) : Word where
  text := v.text ++ "," ++ w.text
  ne := by simp
  noBlank c hc := by
    rw [String.toList_append, String.toList_append, List.mem_append, List.mem_append] at hc
    rcases hc with (hc | hc) | hc
    · exact v.noBlank c hc
    · rw [List.mem_singleton.1 hc]
      decide
    · exact w.noBlank c hc

@[simp] lemma text_comma (v w : Word) : (v.comma w).text = v.text ++ "," ++ w.text := rfl

def allowedIpsWord : List AllowedIp → Word
  | [] => .none
  | [ip] => ip.toWord
  | ip :: ips => ip.toWord.comma (allowedIpsWord ips)

def DumpPeer.fields (p : DumpPeer) : List Word :=
  [p.publicKey, p.presharedKey.getD .none, (p.endpoint.map Endpoint.toWord).getD .none,
    allowedIpsWord p.allowedIps, .nat ((p.latestHandshake.map Handshake.seconds).getD 0),
    .nat p.rxBytes.val, .nat p.txBytes.val, (p.persistentKeepalive.map .nat).getD .off]

def DumpPeer.line (p : DumpPeer) : String := "\t".intercalate (p.fields.map Word.text)

/-- **The output** of `wg show <iface> dump`. -/
def dump (i : InterfaceLine) (peers : List DumpPeer) : String :=
  String.join ((i.text :: peers.map DumpPeer.line).map fun line => line ++ "\n")

/-! ### Reading the fields -/

section Fields

variable {ws : List Word} {ips : List AllowedIp}

lemma Word.notMem_of_isSpace (w : Word) {c : Char} (hc : isSpace c = true) : c ∉ w.text.toList :=
  fun hmem => by simp [w.noBlank c hmem] at hc

/-- The fields between the tabs. -/
lemma splitOn_tab (h : ws ≠ []) :
    ("\t".intercalate (ws.map Word.text)).toList.splitOn '\t' = ws.map (·.text.toList) := by
  rw [String.toList_intercalate, List.map_map]
  refine List.splitOn_intercalate '\t' (fun l hl => ?_) (by simpa using h)
  obtain ⟨w, -, rfl⟩ := List.mem_map.1 hl
  exact w.notMem_of_isSpace (by decide)

lemma Word.isLine (w : Word) : IsLine w.text.toList where
  last := by
    have hne : w.text.toList ≠ [] := by simpa using w.ne
    exact ⟨_, List.getLast?_eq_some_getLast hne, w.noBlank _ (List.getLast_mem hne)⟩
  noBreak c hc := isLineBreak_of_isSpace (w.noBlank c hc)

/-- Fields make up a line. -/
lemma isLine_intercalate (h : ws ≠ []) : IsLine ("\t".intercalate (ws.map Word.text)).toList := by
  induction ws with
  | nil => exact absurd rfl h
  | cons w ws ih =>
    cases ws with
    | nil => exact w.isLine
    | cons v ws =>
      have hrest := ih (List.cons_ne_nil v ws)
      rw [List.map_cons] at hrest
      rw [List.map_cons, List.map_cons, String.intercalate_cons_cons, String.toList_append]
      refine ⟨?_, fun c hc => ?_⟩
      · obtain ⟨c, hc, hs⟩ := hrest.last
        exact ⟨c, by rw [List.getLast?_append, hc]; rfl, hs⟩
      · rw [String.toList_append, List.mem_append, List.mem_append] at hc
        rcases hc with (hc | hc) | hc
        · exact w.isLine.noBreak c hc
        · rw [List.mem_singleton.1 hc]
          decide
        · exact hrest.noBreak c hc

lemma dump_eq (i : InterfaceLine) (peers : List DumpPeer) : dump i peers =
    String.ofList ((i.text.toList :: peers.map (·.line.toList)).flatMap (· ++ ['\n'])) := by
  have hpeers : (peers.map DumpPeer.line).flatMap (fun line => (line ++ "\n").toList) =
      (peers.map (·.line.toList)).flatMap (· ++ ['\n']) := by
    rw [List.flatMap_map, List.flatMap_map]
    exact List.flatMap_congr fun p _ => String.toList_append
  rw [← String.toList_inj, String.toList_ofList, dump, String.toList_join, List.flatMap_map,
    List.flatMap_cons, List.flatMap_cons, hpeers, String.toList_append]
  rfl

lemma text_allowedIpsWord (h : ips ≠ []) :
    (allowedIpsWord ips).text = ",".intercalate (ips.map fun ip => ip.text) := by
  induction ips with
  | nil => exact absurd rfl h
  | cons ip ips ih =>
    cases ips with
    | nil => rw [List.map_singleton, String.intercalate_singleton]; rfl
    | cons ip' ips =>
      rw [allowedIpsWord, text_comma, ih (List.cons_ne_nil _ _)]
      · simp only [List.map_cons, String.intercalate_cons_cons]
      · exact List.cons_ne_nil _ _

/-- The allowed IPs between the commas. -/
lemma splitOn_comma (h : ips ≠ []) :
    (allowedIpsWord ips).text.toList.splitOn ',' = ips.map fun ip => ip.text.toList := by
  rw [text_allowedIpsWord h, String.toList_intercalate, List.map_map]
  refine List.splitOn_intercalate ',' (fun l hl => ?_) (by simpa using h)
  obtain ⟨ip, -, rfl⟩ := List.mem_map.1 hl
  exact ip.noComma

/-- A list of addresses is not `(none)`. -/
lemma allowedIpsWord_ne (h : ips ≠ []) : (allowedIpsWord ips).text ≠ "(none)" := by
  have hslash : '/' ∈ (allowedIpsWord ips).text.toList := by
    match ips, h with
    | [ip], _ => exact ip.slash
    | ip :: _ :: _, _ =>
      rw [allowedIpsWord, text_comma, String.toList_append, String.toList_append]
      · exact List.mem_append_left _ (List.mem_append_left _ ip.slash)
      · exact List.cons_ne_nil _ _
  intro hnone
  rw [hnone] at hslash
  exact absurd hslash (by decide)

lemma Endpoint.text_ne (e : Endpoint) : e.text ≠ "(none)" := by
  intro hnone
  have hcolon := e.colon
  rw [hnone] at hcolon
  exact absurd hcolon (by decide)

end Fields

end Wg
