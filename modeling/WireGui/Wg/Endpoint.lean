import WireGui.Lib.Lines

/-!
# Endpoints

A host and a port, as WireGuard reads them: a colon in front of the port, and brackets around an IPv6
address.  `readEndpoint_eq_some_iff`: what is read of a host that is written without brackets.
-/

namespace Wg

def isHostChar (c : Char) : Bool := c.isAlphanum || c = '-' || c = '.' || c = '_'

def IsHostName (s : String) : Prop := s ≠ "" ∧ ∀ c ∈ s.toList, isHostChar c = true

instance (s : String) : Decidable (IsHostName s) := by
  unfold IsHostName; infer_instance

def IsIpv6 (s : String) : Prop := Ip.parseAddr .v6 s ≠ none

instance (s : String) : Decidable (IsIpv6 s) := by
  unfold IsIpv6; infer_instance

/-- A host name, an IPv4 address or an IPv6 address. -/
def IsHost (s : String) : Prop := IsHostName s ∨ Ip.parseAddr .v4 s ≠ none ∨ IsIpv6 s

instance (s : String) : Decidable (IsHost s) := by
  unfold IsHost; infer_instance

def readPort (cs : List Char) : Option ℤ :=
  ((Ip.readDigits 10 cs).filter (· ≤ 65535)).map Nat.cast

/-- The host and the port of an endpoint. -/
def readEndpoint (s : String) : Option (String × ℤ) :=
  match s.toList with
  | '[' :: cs =>
    match cs.splitOn ']' with
    | [host, ':' :: port] =>
      if IsIpv6 (String.ofList host) then (readPort port).map (String.ofList host, ·) else none
    | _ => none
  | cs =>
    match cs.splitOn ':' with
    | [host, port] =>
      if IsHostName (String.ofList host) then (readPort port).map (String.ofList host, ·) else none
    | _ => none

example : readEndpoint "[fd00::1]:51820" = some ("fd00::1", 51820) ∧
    readEndpoint "vpn.example.com:51820" = some ("vpn.example.com", 51820) ∧
    readEndpoint "fd00::1:51820" = none := by decide

section Endpoint

variable {host : String} {port : ℤ}

lemma isHostChar_of_digitVal {c : Char} (h : (Ip.digitVal c).isSome = true) :
    isHostChar c = true := by
  have hrange : c.isAlphanum = true := by
    unfold Ip.digitVal at h
    unfold Char.isAlphanum Char.isAlpha Char.isUpper Char.isLower Char.isDigit
    simp only [Bool.or_eq_true, Bool.and_eq_true, decide_eq_true_eq]
    split at h
    next hd => exact .inr hd
    next =>
      split at h
      next hd => exact .inl (.inr ⟨hd.1, UInt32.le_trans hd.2 (by decide)⟩)
      next =>
        split at h
        next hd => exact .inl (.inl ⟨hd.1, UInt32.le_trans hd.2 (by decide)⟩)
        next => cases h
  simp [isHostChar, hrange]

lemma isHostName_of_v4 (h : Ip.parseAddr .v4 host ≠ none) : IsHostName host := by
  obtain ⟨a, ha⟩ := Option.ne_none_iff_exists'.1 h
  unfold Ip.parseAddr at ha
  cases hn : Ip.parse4 host.toList with
  | none => simp [hn] at ha
  | some n =>
    refine ⟨?_, fun c hc => ?_⟩
    · rintro rfl
      cases hn
    · rcases Ip.digit_or_dot_of_parse4 hn hc with hd | rfl
      · exact isHostChar_of_digitVal hd
      · decide

lemma colon_mem_of_isIpv6 (h : IsIpv6 host) : ':' ∈ host.toList := by
  obtain ⟨a, ha⟩ := Option.ne_none_iff_exists'.1 h
  unfold Ip.parseAddr at ha
  cases hn : Ip.parse6 host.toList with
  | none => simp [hn] at ha
  | some n => exact Ip.colon_mem_of_parse6 hn

/-- A number is read as a port if it is one. -/
lemma readPort_toString (port : ℤ) : readPort (toString port).toList =
    if 0 ≤ port ∧ port ≤ 65535 then some port else none := by
  rw [toList_toString, readPort]
  split
  next hneg =>
    have hdash : Ip.readDigits 10 ('-' :: Nat.toDigits 10 port.natAbs) = none := by
      simp [Ip.readDigits, Ip.digitVal]
    rw [hdash, if_neg (by omega)]
    rfl
  next hpos =>
    have hread : Ip.readDigits 10 (Nat.toDigits 10 port.natAbs) = some port.natAbs :=
      Ip.readDigits_toDigits (by decide) (by decide) _
    have habs : (port.natAbs : ℤ) = port := Int.natAbs_of_nonneg (not_lt.1 hpos)
    rw [hread, Option.filter_some]
    by_cases hport : port ≤ 65535
    · rw [if_pos (by simp; omega), if_pos ⟨not_lt.1 hpos, hport⟩, Option.map_some, habs]
    · rw [if_neg (by simp; omega), if_neg fun h => hport h.2]
      rfl

/-- Without a bracket in front, there is one colon. -/
lemma readEndpoint_eq (h : ∀ c ∈ host.toList.head?, c ≠ '[') (port : ℤ) :
    readEndpoint (host ++ ":" ++ toString port) =
      match host.toList.splitOn ':' with
      | [name] =>
        if IsHostName (String.ofList name) then
          (readPort (toString port).toList).map (String.ofList name, ·)
        else none
      | _ => none := by
  have hport : ':' ∉ (toString port).toList := notMem_toString (by decide) (by decide) port
  have htext : (host ++ ":" ++ toString port).toList =
      host.toList ++ ':' :: (toString port).toList := by simp
  have hsplit : (host.toList ++ ':' :: (toString port).toList).splitOn ':' =
      host.toList.splitOn ':' ++ [(toString port).toList] := by
    rw [List.splitOn_append_cons_self, List.splitOn_eq_singleton hport]
  rw [readEndpoint, htext]
  split
  next heq =>
    cases hcs : host.toList with
    | nil =>
      rw [hcs] at heq
      cases heq
    | cons c cs =>
      rw [hcs] at heq h
      cases heq
      exact absurd rfl (h '[' rfl)
  next =>
    rw [hsplit]
    rcases hparts : host.toList.splitOn ':' with _ | ⟨name, _ | ⟨part, parts⟩⟩
    · exact absurd hparts (List.splitOn_ne_nil _ _)
    · rfl
    · cases parts with
      | nil => rfl
      | cons part' parts => rfl

/-- The name of a host has no colons. -/
lemma readEndpoint_name (h : IsHostName host) (port : ℤ) :
    readEndpoint (host ++ ":" ++ toString port) =
      (readPort (toString port).toList).map (host, ·) := by
  have hcolon : ':' ∉ host.toList := fun hc => absurd (h.2 _ hc) (by decide)
  have hhead : ∀ c ∈ host.toList.head?, c ≠ '[' := by
    rintro c hc rfl
    exact absurd (h.2 _ (List.mem_of_head? hc)) (by decide)
  rw [readEndpoint_eq hhead, List.splitOn_eq_singleton hcolon]
  simp only [String.ofList_toList, if_pos h]

/-- An IPv6 address has some. -/
lemma readEndpoint_ipv6 (h : IsIpv6 host) (port : ℤ) :
    readEndpoint (host ++ ":" ++ toString port) = none := by
  have hhead : ∀ c ∈ host.toList.head?, c ≠ '[' := by
    rintro c hc rfl
    obtain ⟨a, ha⟩ := Option.ne_none_iff_exists'.1 h
    exact absurd (Ip.isAddrChar_of_parseAddr ha (List.mem_of_head? hc)) (by decide)
  rw [readEndpoint_eq hhead]
  split
  next name hparts =>
    obtain ⟨front, back, hsplit⟩ := List.append_of_mem (colon_mem_of_isIpv6 h)
    rw [hsplit, List.splitOn_append_cons_self] at hparts
    have hlength := congrArg List.length hparts
    have hfront := List.length_pos_iff.2 (List.splitOn_ne_nil ':' front)
    have hback := List.length_pos_iff.2 (List.splitOn_ne_nil ':' back)
    rw [List.length_append, List.length_singleton] at hlength
    omega
  next => rfl

/-- **A host without brackets** is read if it is no IPv6 address. -/
theorem readEndpoint_eq_some_iff (h : IsHost host) {result : String × ℤ} :
    readEndpoint (host ++ ":" ++ toString port) = some result ↔
      ¬ IsIpv6 host ∧ (0 ≤ port ∧ port ≤ 65535) ∧ result = (host, port) := by
  by_cases hv6 : IsIpv6 host
  · rw [readEndpoint_ipv6 hv6]
    simp [hv6]
  · have hname : IsHostName host := by
      rcases h with h | h | h
      · exact h
      · exact isHostName_of_v4 h
      · exact absurd h hv6
    rw [readEndpoint_name hname, readPort_toString, and_iff_right hv6]
    split
    next hport => simp [hport, eq_comm]
    next hport => simp [hport]

end Endpoint

end Wg
