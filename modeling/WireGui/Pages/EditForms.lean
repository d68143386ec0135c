import WireGui.Pages.DeviceSwitches
import WireGui.Utils.SubnetList
import WireGui.Utils.WgConf

/-!
# Forms that are filled in from a row

A form shows lists joined by commas, numbers as text and what is missing as nothing, and it is cut
apart again when it is saved.

* `saveUnchanged_iff`: which devices are kept when the form is saved as it was opened.
* `saveDefaults_reaches`: what is saved as the default for clients is what their configuration files
  say.
-/

namespace WireGui

/-! ### What is typed into a field -/

section Texts

variable {s : String} {items : List String} {c : Char} {n : ℤ}

/-- An item that a list in a field can show. -/
def IsEntry (s : String) : Prop := s ≠ "" ∧ ',' ∉ s.toList ∧ strip s = s

instance (s : String) : Decidable (IsEntry s) := by unfold IsEntry; infer_instance

lemma strip_strip (s : String) : strip (strip s) = strip s := by
  have hlist : (strip s).toList = (s.toList.dropWhile isSpace).rdropWhile isSpace := by
    rw [strip_eq, String.toList_ofList]
  refine strip_eq_self (fun c hc => ?_) fun c hc => ?_
  · -- the first character is the first of what is left at the front
    obtain ⟨t, ht⟩ := List.rdropWhile_prefix isSpace (s.toList.dropWhile isSpace)
    have hhead : (s.toList.dropWhile isSpace).head? = some c := by
      rw [← ht, ← hlist, List.head?_append, Option.mem_def.1 hc]
      rfl
    have hnot := List.head?_dropWhile_not isSpace s.toList
    rw [hhead] at hnot
    simpa using hnot
  · rw [hlist] at hc
    have hne : (s.toList.dropWhile isSpace).rdropWhile isSpace ≠ [] := by
      intro hnil
      rw [hnil] at hc
      cases hc
    have hlast := List.rdropWhile_last_not isSpace _ hne
    rw [List.getLast?_eq_getLast_of_ne_nil hne] at hc
    rw [Option.some.inj hc] at hlast
    simpa using hlast

lemma mem_of_mem_strip (h : c ∈ (strip s).toList) : c ∈ s.toList := by
  rw [strip_eq, String.toList_ofList] at h
  exact (List.dropWhile_sublist _).subset ((List.rdropWhile_prefix isSpace _).subset h)

/-- What a field is cut into. -/
lemma isEntry_of_mem_splitList {text : String} (h : s ∈ splitList text) : IsEntry s := by
  obtain ⟨hmem, hne⟩ := List.mem_filter.1 h
  obtain ⟨part, hpart, rfl⟩ := List.mem_map.1 hmem
  refine ⟨by simpa using hne, fun hc => ?_, strip_strip _⟩
  have hc := mem_of_mem_strip hc
  rw [String.toList_ofList] at hc
  exact List.notMem_of_mem_splitOn hpart hc

/-- **A list that is shown in a field** is read back as it is exactly if its items can be. -/
theorem splitList_join_iff :
    splitList (", ".intercalate items) = items ↔ ∀ s ∈ items, IsEntry s := by
  constructor
  · intro h s hs
    rw [← h] at hs
    exact isEntry_of_mem_splitList hs
  · intro h
    cases items with
    | nil => decide
    | cons s items =>
      have hsplit : splitCommas (", ".intercalate (s :: items)) = s :: items :=
        splitCommas_join (List.cons_ne_nil _ _) (fun t ht => (h t ht).2.1) fun t ht => (h t ht).2.2
      rw [splitList, ← splitCommas, hsplit]
      refine List.filter_eq_self.2 fun t ht => ?_
      simpa using (h t ht).1

/-- A subnet that the field can show: `ip_network` takes it, and would write it like that. -/
def ShownSubnet (s : String) : Prop := ',' ∉ s.toList ∧ (Ip.ipNetwork s).map Ip.Network.str = some s

instance (s : String) : Decidable (ShownSubnet s) := by unfold ShownSubnet; infer_instance

/-- A network as `ip_network` writes it, where its zone has no comma. -/
lemma isEntry_network_str {n : Ip.Network} (hz : ∀ z ∈ n.zone, ',' ∉ z) : IsEntry n.str := by
  have htext : n.str.toList = n.net.addr.str.toList ++
      (n.zone.elim [] ('%' :: ·) ++ '/' :: Nat.toDigits 10 n.net.len) := by
    rw [Ip.Network.str, String.toList_ofList, List.append_assoc]
  have haddr : n.net.addr.str.toList ≠ [] := by
    intro he
    have hread := Ip.parseAddr_str n.net.addr
    have hnone : ∀ f, Ip.parseAddr f "" = none := by rintro (_ | _) <;> decide
    rw [String.toList_eq_nil_iff.1 he, hnone] at hread
    cases hread
  have hplain {c : Char} (hc : c ∈ n.net.addr.str.toList) : isSpace c = false ∧ c ≠ ',' := by
    refine not_isSpace_of_mem_str (n := n.net) ?_
    rw [Ip.Net.str, String.toList_ofList]
    exact List.mem_append_left _ hc
  have hlen {c : Char} (hc : c ∈ '/' :: Nat.toDigits 10 n.net.len) :
      isSpace c = false ∧ c ≠ ',' := by
    refine not_isSpace_of_mem_str (n := n.net) ?_
    rw [Ip.Net.str, String.toList_ofList]
    exact List.mem_append_right _ hc
  refine ⟨fun he => ?_, fun hc => ?_, strip_eq_self (fun c hc => ?_) fun c hc => ?_⟩
  · rw [he] at htext
    exact haddr (List.append_eq_nil_iff.1 htext.symm).1
  · rw [htext] at hc
    rcases List.mem_append.1 hc with hc | hc
    · exact (hplain hc).2 rfl
    rcases List.mem_append.1 hc with hc | hc
    · cases hzone : n.zone with
      | none => simp [hzone] at hc
      | some z =>
        rw [hzone, Option.elim_some, List.mem_cons] at hc
        exact hz z hzone (hc.resolve_left (by decide))
    · exact (hlen hc).2 rfl
  · rw [htext, List.head?_append_of_ne_nil _ haddr] at hc
    exact (hplain (List.mem_of_head? hc)).1
  · rw [htext, ← List.append_assoc, List.getLast?_append_of_ne_nil _ (List.cons_ne_nil _ _)] at hc
    exact (hlen (List.mem_of_getLast? hc)).1

/-- What `parse_subnet_list` returns can be shown. -/
lemma shownSubnet_of_mem_parse {raw : String} (h : parseSubnetList raw = some items)
    (hs : s ∈ items) : ShownSubnet s := by
  obtain ⟨candidate, hc, hsome⟩ := List.exists_of_mem_mapM h hs
  obtain ⟨n, hn, rfl⟩ := Option.map_eq_some_iff.1 hsome
  obtain ⟨hz, hsub⟩ := Ip.zoned_of_ipNetwork hn
  have hcomma : ',' ∉ candidate.toList := (isEntry_of_mem_splitList hc).2.1
  refine ⟨(isEntry_network_str fun z hzone hm => hcomma (hsub z hzone hm)).2.1, ?_⟩
  rw [Ip.ipNetwork_network_str hz, Option.map_some]

lemma ShownSubnet.isEntry (h : ShownSubnet s) : IsEntry s := by
  obtain ⟨n, hn, hstr⟩ := Option.map_eq_some_iff.1 h.2
  obtain ⟨-, hsub⟩ := Ip.zoned_of_ipNetwork hn
  have hentry := isEntry_network_str fun z hzone hm => h.1 (hsub z hzone hm)
  rwa [hstr] at hentry

/-- **The subnets of a device**, shown in a field, are read back as they are exactly if each is
written as a network. -/
theorem parseSubnetList_join_iff :
    parseSubnetList (", ".intercalate items) = some items ↔ ∀ s ∈ items, ShownSubnet s := by
  constructor
  · exact fun h s hs => shownSubnet_of_mem_parse h hs
  · intro h
    have hcandidates : subnetCandidates (", ".intercalate items) = items :=
      splitList_join_iff.2 fun s hs => (h s hs).isEntry
    rw [parseSubnetList, hcandidates, List.mapM_eq_some_iff, List.forall₂_same]
    exact fun s hs => (h s hs).2

lemma isSpace_of_isDigit (h : c.isDigit = true) : isSpace c = false := by
  have hrange : 0x30 ≤ c.toNat ∧ c.toNat ≤ 0x39 := by
    rw [Char.isDigit, Bool.and_eq_true, decide_eq_true_eq, decide_eq_true_eq] at h
    exact h
  exact isSpace_eq_false (by omega) (by omega)

/-- A sign in front of digits. -/
lemma readInt_neg (hne : s ≠ "") (hs : ∀ c ∈ s.toList, c.isDigit = true) :
    readInt ("-" ++ s) = (readInt s).map (-·) := by
  have hlist : ("-" ++ s).toList = '-' :: s.toList := String.toList_append
  have hstrip : strip s = s :=
    strip_eq_self (fun c hc => isSpace_of_isDigit (hs c (List.mem_of_head? hc)))
      fun c hc => isSpace_of_isDigit (hs c (List.mem_of_getLast? hc))
  have hstrip' : strip ("-" ++ s) = "-" ++ s := by
    refine strip_eq_self (fun c hc => ?_) fun c hc => ?_
    · rw [hlist] at hc
      obtain rfl := Option.some.inj hc
      decide
    · rw [hlist] at hc
      rcases List.mem_cons.1 (List.mem_of_getLast? hc) with rfl | hc
      · decide
      · exact isSpace_of_isDigit (hs c hc)
  unfold readInt
  rw [hstrip, hstrip', hlist]
  cases hl : s.toList with
  | nil => exact absurd (String.toList_eq_nil_iff.1 hl) hne
  | cons c cs =>
    have hc := hs c (by rw [hl]; exact List.mem_cons_self)
    -- the first digit is no sign
    have hminus : c ≠ '-' := by
      rintro rfl
      cases hc
    have hplus : c ≠ '+' := by
      rintro rfl
      cases hc
    simp [hminus, hplus]
    refine Option.bind_congr fun groups _ => ?_
    split
    · rfl
    · rfl

/-- **A number that is shown in a field** is read back. -/
lemma readInt_toString (h : n.natAbs < 10 ^ 4300) : readInt (toString n) = some n := by
  cases n with
  | ofNat m => exact readInt_repr h
  | negSucc m =>
    have hread : readInt (m + 1).repr = some ((m + 1 : ℕ) : ℤ) := readInt_repr h
    have hdigits : ∀ c ∈ (m + 1).repr.toList, c.isDigit = true := by
      intro c hc
      rw [Nat.toList_repr] at hc
      exact isDigit_of_mem_toDigits hc
    have hne : (m + 1).repr ≠ "" := by
      intro he
      rw [he] at hread
      cases hread
    show readInt ("-" ++ (m + 1).repr) = _
    rw [readInt_neg hne hdigits, hread]
    rfl

end Texts

/-! ### The form of a device -/

/-- `", ".join(items) if items else ""` -/
def fieldList (items : Option (List String)) : String := ", ".intercalate (items.getD [])

/-- `str(n) if n else ""` -/
def fieldNumber (n : Option ℤ) : String := (n.filter (· ≠ 0)).elim "" toString

/-- The form of `device_detail_page`, and the dialog of `open_edit` on the page of the admins. -/
def DeviceForm.ofDevice (d : Device) : DeviceForm where
  name := d.name
  description := d.description.getD ""
  useDefaultAllowedIps := d.useDefaultAllowedIps
  useDefaultDns := d.useDefaultDns
  useDefaultEndpoint := d.useDefaultEndpoint
  useDefaultMtu := d.useDefaultMtu
  useDefaultPersistentKeepalive := d.useDefaultPersistentKeepalive
  endpoint := d.endpoint.getD ""
  dns := fieldList d.dns
  mtu := fieldNumber d.mtu
  persistentKeepalive := fieldNumber d.persistentKeepalive
  allowedIps := fieldList d.allowedIps

/-- The dialog of the admins, with the subnets that the device relays. -/
structure AdminEditForm extends DeviceForm where
  allowedSubnets : String

def AdminEditForm.ofDevice (d : Device) : AdminEditForm where
  toDeviceForm := .ofDevice d
  allowedSubnets := ", ".intercalate d.allowedSubnets

/-- The row after `save_edit` of the admins, before it is committed; `none` is a `ValueError`. -/
def AdminEditForm.applyTo (form : AdminEditForm) (d : Device) : Option Device := do
  let d ← form.toDeviceForm.applyTo d
  let allowedSubnets ← parseSubnetList form.allowedSubnets
  return { d with allowedSubnets := allowedSubnets }

/-- `save_edit` of the admins; a subnet that cannot be read raises before the commit. -/
def AdminDevicesPage.saveEdit (form : AdminEditForm) (deviceId : Uuid) (db : Database) : Database :=
  match db.device deviceId with
  | none => db
  | some d =>
    match (form.applyTo d).filter fun d => d.Storable with
    | none => db
    | some d' => db.setDevice d'

/-- A text that a field can show. -/
def ShownText (s : Option String) : Prop := ∀ t ∈ s, t ≠ "" ∧ strip t = t

def ShownList (items : Option (List String)) : Prop := ∃ l ∈ items, ∀ s ∈ l, IsEntry s

def ShownNumber (n : Option ℤ) : Prop := ∀ k ∈ n, k ≠ 0

/-- The form shows the row as it is.  A setting that is not used does not matter. -/
structure Device.Shown (d : Device) : Prop where
  name : strip d.name = d.name
  description : ShownText d.description
  endpoint : d.useDefaultEndpoint = false → ShownText d.endpoint
  dns : d.useDefaultDns = false → ShownList d.dns
  mtu : d.useDefaultMtu = false → ShownNumber d.mtu
  persistentKeepalive : d.useDefaultPersistentKeepalive = false →
    ShownNumber d.persistentKeepalive
  allowedIps : d.useDefaultAllowedIps = false → ShownList d.allowedIps

/-- The dialog of the admins shows the subnets too. -/
structure Device.ShownToAdmin (d : Device) : Prop extends d.Shown where
  allowedSubnets : ∀ s ∈ d.allowedSubnets, ShownSubnet s

/-- An entry that the dialog shows is no network. -/
def Device.SubnetsRefused (d : Device) : Prop :=
  ∃ s ∈ subnetCandidates (", ".intercalate d.allowedSubnets), Ip.ipNetwork s = none

section Fields

variable {s : Option String} {items : Option (List String)} {n : Option ℤ} {text : String}

lemma shownText_orNone_strip (text : String) : ShownText (orNone (strip text)) := by
  intro t ht
  unfold orNone at ht
  split at ht
  · cases ht
  next hne =>
    obtain rfl := Option.some.inj ht
    exact ⟨hne, strip_strip text⟩

lemma orNone_strip_getD_iff : orNone (strip (s.getD "")) = s ↔ ShownText s := by
  constructor
  · intro h
    rw [← h]
    exact shownText_orNone_strip _
  · intro h
    cases s with
    | none => decide
    | some t =>
      obtain ⟨hne, hstrip⟩ := h t rfl
      rw [Option.getD_some, hstrip, orNone, if_neg hne]

lemma shownList_splitList (text : String) : ShownList (some (splitList text)) :=
  ⟨_, rfl, fun _ hs => isEntry_of_mem_splitList hs⟩

lemma splitList_fieldList_iff : some (splitList (fieldList items)) = items ↔ ShownList items := by
  constructor
  · intro h
    rw [← h]
    exact shownList_splitList _
  · rintro ⟨l, hl, h⟩
    obtain rfl := Option.mem_def.1 hl
    rw [fieldList, Option.getD_some, splitList_join_iff.2 h]

/-- A number that a column holds has few digits. -/
lemma natAbs_lt_of_storableInt {k : ℤ} (h : storableInt k = true) : k.natAbs < 10 ^ 4300 := by
  have hbound : (k.natAbs : ℤ) ≤ 2 ^ 31 := by
    unfold storableInt at h
    rw [Bool.and_eq_true, decide_eq_true_eq, decide_eq_true_eq] at h
    omega
  have hle : k.natAbs ≤ 2 ^ 31 := by exact_mod_cast hbound
  exact (hle.trans_lt (by decide : 2 ^ 31 < 10 ^ 10)).trans_le
    (Nat.pow_le_pow_right (by decide) (by decide))

/-- What is read back from a number that is shown. -/
lemma intOrNone_shownNumber (h : ∀ k ∈ n, storableInt k = true) :
    intOrNone (fieldNumber n) = some (n.filter (· ≠ 0)) := by
  unfold fieldNumber
  cases hn : n.filter (· ≠ 0) with
  | none => rfl
  | some k =>
    have hread := readInt_toString
      (natAbs_lt_of_storableInt (h k (Option.filter_eq_some_iff.1 hn).1))
    have hne : toString k ≠ "" := by
      intro he
      rw [he] at hread
      cases hread
    rw [Option.elim_some, intOrNone, if_neg hne, hread, Option.map_some]

lemma shownNumber_filter (n : Option ℤ) : ShownNumber (n.filter (· ≠ 0)) := by
  intro k hk
  simpa using (Option.filter_eq_some_iff.1 hk).2

lemma filter_eq_self_iff : n.filter (· ≠ 0) = n ↔ ShownNumber n := by
  constructor
  · intro h
    rw [← h]
    exact shownNumber_filter n
  · intro h
    cases n with
    | none => rfl
    | some k => simp [h k rfl]

end Fields

section Devices

variable {d d' : Device}

lemma shown_ite {α : Type} {useDefault : Bool} {a b : α} {p : α → Prop} (ha : p a) :
    useDefault = false → p (if useDefault then b else a) := by
  rintro rfl
  exact ha

/-- An override is as before if it is not used, or else if the field has shown it. -/
lemma override_eq_iff {α : Type} {useDefault : Bool} {a b : α} {p : α → Prop} (h : a = b ↔ p b) :
    (if useDefault then b else a) = b ↔ (useDefault = false → p b) := by
  cases useDefault with
  | true => exact iff_of_true rfl fun hf => by cases hf
  | false => exact h.trans ⟨fun hp _ => hp, fun hp => hp rfl⟩

/-- A number after the form was saved as it was opened. -/
lemma intUnless_shownNumber {useDefault : Bool} {n : Option ℤ}
    (h : ∀ k ∈ n, storableInt k = true) :
    intUnless useDefault n (fieldNumber n) =
      some (if useDefault then n else n.filter (· ≠ 0)) := by
  unfold intUnless
  cases useDefault with
  | true => rfl
  | false => exact intOrNone_shownNumber h

lemma applyTo_ofDevice (hmtu : ∀ k ∈ d.mtu, storableInt k = true)
    (hkeepalive : ∀ k ∈ d.persistentKeepalive, storableInt k = true) :
    (DeviceForm.ofDevice d).applyTo d = some { d with
      name := strip d.name
      description := orNone (strip (d.description.getD ""))
      endpoint := if d.useDefaultEndpoint then d.endpoint else orNone (strip (d.endpoint.getD ""))
      dns := if d.useDefaultDns then d.dns else some (splitList (fieldList d.dns))
      mtu := if d.useDefaultMtu then d.mtu else d.mtu.filter (· ≠ 0)
      persistentKeepalive := if d.useDefaultPersistentKeepalive then d.persistentKeepalive
        else d.persistentKeepalive.filter (· ≠ 0)
      allowedIps := if d.useDefaultAllowedIps then d.allowedIps
        else some (splitList (fieldList d.allowedIps)) } := by
  unfold DeviceForm.applyTo DeviceForm.ofDevice
  simp only [intUnless_shownNumber hmtu, intUnless_shownNumber hkeepalive]
  rfl

/-- **Saving the form as it was opened** leaves a row that the form shows; it is the row from before
if and only if the form has shown that one. -/
theorem exists_applyTo_ofDevice (hs : d.Storable) :
    ∃ d', (DeviceForm.ofDevice d).applyTo d = some d' ∧ d'.Shown ∧ (d' = d ↔ d.Shown) := by
  obtain ⟨-, -, -, hmtu, hkeepalive⟩ := hs
  refine ⟨_, applyTo_ofDevice hmtu hkeepalive, ⟨strip_strip _, shownText_orNone_strip _,
    shown_ite (shownText_orNone_strip _), shown_ite (shownList_splitList _),
    shown_ite (shownNumber_filter _), shown_ite (shownNumber_filter _),
    shown_ite (shownList_splitList _)⟩, ?_⟩
  constructor
  · intro h
    exact ⟨congrArg Device.name h, orNone_strip_getD_iff.1 (congrArg Device.description h),
      (override_eq_iff orNone_strip_getD_iff).1 (congrArg Device.endpoint h),
      (override_eq_iff splitList_fieldList_iff).1 (congrArg Device.dns h),
      (override_eq_iff filter_eq_self_iff).1 (congrArg Device.mtu h),
      (override_eq_iff filter_eq_self_iff).1 (congrArg Device.persistentKeepalive h),
      (override_eq_iff splitList_fieldList_iff).1 (congrArg Device.allowedIps h)⟩
  · rintro ⟨hname, hdescription, hendpoint, hdns, hmtu, hkeepalive, hips⟩
    rw [hname, orNone_strip_getD_iff.2 hdescription,
      (override_eq_iff orNone_strip_getD_iff).2 hendpoint,
      (override_eq_iff splitList_fieldList_iff).2 hdns, (override_eq_iff filter_eq_self_iff).2 hmtu,
      (override_eq_iff filter_eq_self_iff).2 hkeepalive,
      (override_eq_iff splitList_fieldList_iff).2 hips]

lemma storableText_strip {s : String} (h : storableText s = true) :
    storableText (strip s) = true := by
  unfold storableText at h ⊢
  rw [List.all_eq_true] at h ⊢
  exact fun c hc => h c (mem_of_mem_strip hc)

lemma storableText_orNone_strip {s : Option String} (h : ∀ t ∈ s, storableText t = true) :
    ∀ t ∈ orNone (strip (s.getD "")), storableText t = true := by
  intro t ht
  unfold orNone at ht
  split at ht
  · cases ht
  next hne =>
    obtain rfl := Option.some.inj ht
    cases s with
    | none => exact absurd (by decide) hne
    | some t => exact storableText_strip (h t rfl)

/-- The database takes what the form was opened with. -/
lemma storable_of_applyTo_ofDevice (hs : d.Storable)
    (h : (DeviceForm.ofDevice d).applyTo d = some d') : d'.Storable := by
  obtain ⟨hname, hdescription, hendpoint, hmtu, hkeepalive⟩ := hs
  rw [applyTo_ofDevice hmtu hkeepalive] at h
  obtain rfl := Option.some.inj h
  have hfilter : ∀ {n : Option ℤ}, (∀ k ∈ n, storableInt k = true) →
      ∀ k ∈ n.filter (· ≠ 0), storableInt k = true :=
    fun h k hk => h k (Option.filter_eq_some_iff.1 hk).1
  refine ⟨storableText_strip hname, storableText_orNone_strip hdescription, ?_, ?_, ?_⟩
  · dsimp only
    split
    · exact hendpoint
    · exact storableText_orNone_strip hendpoint
  · dsimp only
    split
    · exact hmtu
    · exact hfilter hmtu
  · dsimp only
    split
    · exact hkeepalive
    · exact hfilter hkeepalive

lemma setDevice_self {db : Database} (hids : (db.devices.map Device.id).Nodup)
    (hd : d ∈ db.devices) : db.setDevice d = db := by
  have hmap : (db.devices.map fun e => if e.id = d.id then d else e) = db.devices := by
    refine (List.map_congr_left fun e he => ?_).trans (List.map_id _)
    split
    next hid => exact List.inj_on_of_nodup_map hids hd he hid.symm
    next => rfl
  rw [Database.setDevice, hmap]

/-- The row is written back as `f` makes it, if `f` returns and the database takes it. -/
def resave (f : Device → Option Device) (id : Uuid) (db : Database) : Database :=
  match db.device id with
  | none => db
  | some d =>
    match (f d).filter fun d => d.Storable with
    | none => db
    | some d' => db.setDevice d'

/-- **Writing back twice**: where `f` keeps its own results, the second time changes nothing, and the
first changes nothing if and only if `f` returns no other row. -/
lemma resave_iff {f : Device → Option Device} {id : Uuid} {db : Database}
    (hids : (db.devices.map Device.id).Nodup) (hd : db.device id = some d)
    (hf : ∀ d' ∈ f d, d'.id = d.id ∧ d'.Storable ∧ f d' = some d') :
    (resave f id db = db ↔ ∀ d' ∈ f d, d' = d) ∧
      resave f id (resave f id db) = resave f id db := by
  cases hfd : f d with
  | none =>
    have hsave : resave f id db = db := by
      simp only [resave, hd, hfd, Option.filter_none]
    exact ⟨iff_of_true hsave fun e he => absurd he (Option.not_mem_none e), by rw [hsave, hsave]⟩
  | some d' =>
    obtain ⟨hid, hs, hkept⟩ := hf d' hfd
    have hsave : resave f id db = db.setDevice d' := by
      simp only [resave, hd, hfd, Option.filter_some, hs, decide_true, if_true]
    obtain ⟨hmem, rfl⟩ := device_eq_some hd
    have hids' : ((db.setDevice d').devices.map Device.id).Nodup := by
      have hmap : (db.setDevice d').devices.map Device.id = db.devices.map Device.id :=
        List.map_writeBack fun c _ hc => hc.symm
      rwa [hmap]
    have hmem' : d' ∈ (db.setDevice d').devices :=
      (mem_setDevice_iff ⟨d, hmem, hid.symm⟩).2 (.inl rfl)
    rw [hsave]
    constructor
    · constructor
      · rintro h d'' ⟨⟩
        rw [h] at hmem'
        exact List.inj_on_of_nodup_map hids hmem' hmem hid
      · intro h
        obtain rfl := h d' rfl
        exact setDevice_self hids hmem
    · have hd' : (db.setDevice d').device d.id = some d' :=
        (List.find?_eq_some_of_nodup_map hids').2 ⟨hmem', hid⟩
      have hsave' : resave f d.id (db.setDevice d') = (db.setDevice d').setDevice d' := by
        simp only [resave, hd', hkept, Option.filter_some, hs, decide_true, if_true]
      rw [hsave', setDevice_self hids' hmem']

/-- The form is opened and saved without a change. -/
def DeviceDetailPage.saveUnchanged (id : Uuid) (db : Database) : Database :=
  match db.device id with
  | none => db
  | some d => DeviceDetailPage.saveEdit (.ofDevice d) id db

/-- So is the dialog of the admins. -/
def AdminDevicesPage.saveUnchanged (id : Uuid) (db : Database) : Database :=
  match db.device id with
  | none => db
  | some d => AdminDevicesPage.saveEdit (.ofDevice d) id db

lemma saveUnchanged_eq_resave (id : Uuid) (db : Database) :
    DeviceDetailPage.saveUnchanged id db =
      resave (fun d => (DeviceForm.ofDevice d).applyTo d) id db := by
  unfold DeviceDetailPage.saveUnchanged DeviceDetailPage.saveEdit resave
  cases db.device id <;> rfl

lemma adminSaveUnchanged_eq_resave (id : Uuid) (db : Database) :
    AdminDevicesPage.saveUnchanged id db =
      resave (fun d => (AdminEditForm.ofDevice d).applyTo d) id db := by
  unfold AdminDevicesPage.saveUnchanged AdminDevicesPage.saveEdit resave
  cases db.device id <;> rfl

lemma id_of_applyTo_ofDevice (hs : d.Storable) (h : (DeviceForm.ofDevice d).applyTo d = some d') :
    d'.id = d.id := by
  rw [applyTo_ofDevice hs.2.2.2.1 hs.2.2.2.2] at h
  obtain rfl := Option.some.inj h
  rfl

lemma detailPage_saveUnchanged_iff {id : Uuid} {db : Database}
    (hids : (db.devices.map Device.id).Nodup) (hd : db.device id = some d) (hs : d.Storable) :
    (DeviceDetailPage.saveUnchanged id db = db ↔ d.Shown) ∧
      DeviceDetailPage.saveUnchanged id (DeviceDetailPage.saveUnchanged id db) =
        DeviceDetailPage.saveUnchanged id db := by
  simp only [saveUnchanged_eq_resave]
  obtain ⟨d', happly, hshown, hiff⟩ := exists_applyTo_ofDevice hs
  have hs' := storable_of_applyTo_ofDevice hs happly
  obtain ⟨hsame, htwice⟩ :=
      resave_iff (f := fun d => (DeviceForm.ofDevice d).applyTo d) hids hd <| by
    intro e he
    obtain rfl := Option.some.inj (happly.symm.trans he)
    obtain ⟨d'', happly', -, hiff'⟩ := exists_applyTo_ofDevice hs'
    obtain rfl := hiff'.2 hshown
    exact ⟨id_of_applyTo_ofDevice hs happly, hs', happly'⟩
  refine ⟨hsame.trans ?_, htwice⟩
  simp only [happly, Option.mem_some_iff, forall_eq']
  exact hiff

/-- The row after the dialog of the admins was saved as it was opened. -/
lemma applyTo_adminEditForm_eq (h : (DeviceForm.ofDevice d).applyTo d = some d') :
    (AdminEditForm.ofDevice d).applyTo d =
      (parseSubnetList (", ".intercalate d.allowedSubnets)).map fun subnets =>
        { d' with allowedSubnets := subnets } := by
  unfold AdminEditForm.applyTo AdminEditForm.ofDevice
  rw [h]
  cases parseSubnetList (", ".intercalate d.allowedSubnets) <;> rfl

lemma subnetsRefused_iff :
    d.SubnetsRefused ↔ parseSubnetList (", ".intercalate d.allowedSubnets) = none := by
  rw [parseSubnetList, ← Option.not_isSome_iff_eq_none, Option.isSome_iff_exists,
    List.exists_mapM_iff]
  unfold Device.SubnetsRefused
  push Not
  refine exists_congr fun s => and_congr_right fun _ => ?_
  rw [← Option.map_eq_none_iff (f := Ip.Network.str), Option.eq_none_iff_forall_not_mem]
  rfl

lemma adminDialog_saveUnchanged_iff {id : Uuid} {db : Database}
    (hids : (db.devices.map Device.id).Nodup) (hd : db.device id = some d) (hs : d.Storable) :
    (AdminDevicesPage.saveUnchanged id db = db ↔ d.SubnetsRefused ∨ d.ShownToAdmin) ∧
      AdminDevicesPage.saveUnchanged id (AdminDevicesPage.saveUnchanged id db) =
        AdminDevicesPage.saveUnchanged id db := by
  simp only [adminSaveUnchanged_eq_resave]
  obtain ⟨d', happly, hshown, hiff⟩ := exists_applyTo_ofDevice hs
  have hs' := storable_of_applyTo_ofDevice hs happly
  have hadmin := applyTo_adminEditForm_eq happly
  have hid := id_of_applyTo_ofDevice hs happly
  have hsubnets : d'.allowedSubnets = d.allowedSubnets := by
    rw [applyTo_ofDevice hs.2.2.2.1 hs.2.2.2.2] at happly
    obtain rfl := Option.some.inj happly
    rfl
  obtain ⟨hsame, htwice⟩ :=
      resave_iff (f := fun d => (AdminEditForm.ofDevice d).applyTo d) hids hd <| by
    intro e he
    simp only [hadmin, Option.mem_def] at he
    obtain ⟨subnets, hparse, rfl⟩ := Option.map_eq_some_iff.1 he
    obtain ⟨d'', happly', -, hiff'⟩ := exists_applyTo_ofDevice (d := { d' with
      allowedSubnets := subnets }) hs'
    have hshown' : Device.Shown { d' with allowedSubnets := subnets } := ⟨hshown.name,
      hshown.description, hshown.endpoint, hshown.dns, hshown.mtu, hshown.persistentKeepalive,
      hshown.allowedIps⟩
    obtain rfl := hiff'.2 hshown'
    refine ⟨hid, hs', ?_⟩
    have hread := parseSubnetList_join_iff.2 fun s hs => shownSubnet_of_mem_parse hparse hs
    simp only [applyTo_adminEditForm_eq happly', hread, Option.map_some]
  refine ⟨hsame.trans ?_, htwice⟩
  rw [subnetsRefused_iff]
  simp only [hadmin, Option.mem_def]
  cases hparse : parseSubnetList (", ".intercalate d.allowedSubnets) with
  | none => simp
  | some subnets =>
    simp only [Option.map_some, Option.some.injEq, forall_eq', reduceCtorEq, false_or]
    constructor
    · intro h
      have hsub : subnets = d.allowedSubnets := congrArg Device.allowedSubnets h
      have hd' : d' = d := by
        rw [← h, hsub, ← hsubnets]
      refine ⟨hiff.1 hd', ?_⟩
      exact parseSubnetList_join_iff.1 (hparse.trans (congrArg some hsub))
    · rintro ⟨hshown, hsub⟩
      obtain rfl := hiff.2 hshown
      rw [Option.some.inj (hparse.symm.trans (parseSubnetList_join_iff.2 hsub))]

/-- **Saving the form without a change** changes nothing if and only if the form shows the row, and
saving it again changes nothing in any case.  So it is on the device's own page and in the dialog of
the admins, which shows the subnets too and saves nothing where one of them is no network. -/
theorem saveUnchanged_iff {id : Uuid} {db : Database} (hids : (db.devices.map Device.id).Nodup)
    (hd : db.device id = some d) (hs : d.Storable) :
    ((DeviceDetailPage.saveUnchanged id db = db ↔ d.Shown) ∧
      DeviceDetailPage.saveUnchanged id (DeviceDetailPage.saveUnchanged id db) =
        DeviceDetailPage.saveUnchanged id db) ∧
    (AdminDevicesPage.saveUnchanged id db = db ↔ d.SubnetsRefused ∨ d.ShownToAdmin) ∧
      AdminDevicesPage.saveUnchanged id (AdminDevicesPage.saveUnchanged id db) =
        AdminDevicesPage.saveUnchanged id db :=
  ⟨detailPage_saveUnchanged_iff hids hd hs, adminDialog_saveUnchanged_iff hids hd hs⟩

end Devices

/-! A device whose MTU is set to zero: the form shows no MTU. -/

def zeroMtu : Device := { heidisLaptop with mtu := some 0 }

def zeroMtuRow : Database where
  users := []
  devices := [zeroMtu]
  rules := []
  mfaMethods := []
  configuration := none

theorem saveUnchanged_iff_zeroMtu :
    DeviceDetailPage.saveUnchanged zeroMtu.id zeroMtuRow ≠ zeroMtuRow ∧
      AdminDevicesPage.saveUnchanged zeroMtu.id zeroMtuRow ≠ zeroMtuRow ∧
      AdminDevicesPage.saveUnchanged zeroMtu.id
          (AdminDevicesPage.saveUnchanged zeroMtu.id zeroMtuRow) =
        AdminDevicesPage.saveUnchanged zeroMtu.id zeroMtuRow := by
  have hids : (zeroMtuRow.devices.map Device.id).Nodup := by decide
  have hrow : zeroMtuRow.device zeroMtu.id = some zeroMtu := by decide
  obtain ⟨⟨hiff, -⟩, hadmin, htwice⟩ := saveUnchanged_iff hids hrow (by decide)
  refine ⟨fun h => (hiff.1 h).mtu rfl 0 rfl rfl, fun h => ?_, htwice⟩
  have hread : ∀ s ∈ subnetCandidates (", ".intercalate zeroMtu.allowedSubnets),
      Ip.ipNetwork s ≠ none := by decide
  rcases hadmin.1 h with ⟨s, hs, hnone⟩ | hshown
  · exact hread s hs hnone
  · exact hshown.mtu rfl 0 rfl rfl

/-! ### The defaults for clients -/

/-- The fields of the tab for the defaults. -/
structure DefaultsForm where
  endpoint : String
  dns : String
  mtu : String
  keepalive : String
  allowedIps : String

/-- The tab as `settings_page` fills it in; `none` if a list is null. -/
def DefaultsForm.ofConfig (config : Configuration) : Option DefaultsForm := do
  let dns ← config.defaultClientDns
  let allowedIps ← config.defaultClientAllowedIps
  return {
    endpoint := config.defaultClientEndpoint.getD ""
    dns := ", ".intercalate dns
    mtu := toString config.defaultClientMtu
    keepalive := toString config.defaultClientPersistentKeepalive
    allowedIps := ", ".intercalate allowedIps }

/-- `int(value) if value else default`; `none` is a `ValueError`. -/
def intOr (default : ℤ) (s : String) : Option ℤ := if s = "" then some default else readInt s

/-- The row after `save_defaults`; `none` if a number cannot be read or the database does not take
the row. -/
def DefaultsForm.write (now : ℕ) (form : DefaultsForm) (config : Configuration) :
    Option Configuration := do
  let mtu ← intOr 1280 form.mtu
  let keepalive ← intOr 25 form.keepalive
  let config' := { config with
    defaultClientEndpoint := orNone (strip form.endpoint)
    defaultClientDns := some (splitList form.dns)
    defaultClientMtu := mtu
    defaultClientPersistentKeepalive := keepalive
    defaultClientAllowedIps := some (splitList form.allowedIps)
    updatedAt := now }
  if config'.Storable then some config' else none

def saveDefaults (now : ℕ) (form : DefaultsForm) (db : Database) : Database :=
  match db.configuration.bind (form.write now) with
  | none => db
  | some config => { db with configuration := some config }

/-- The fields of the tab for the security settings. -/
structure SecurityForm where
  vpnDuration : ℤ
  localAuth : Bool
  unprivMgmt : Bool
  unprivConfig : Bool
  disableVpnOidc : Bool

/-- The row after `save_security`; `none` if the database does not take it. -/
def SecurityForm.write (now : ℕ) (form : SecurityForm) (config : Configuration) :
    Option Configuration :=
  let config' := { config with
    vpnSessionDuration := form.vpnDuration
    localAuthEnabled := form.localAuth
    allowUnprivilegedDeviceManagement := form.unprivMgmt
    allowUnprivilegedDeviceConfiguration := form.unprivConfig
    disableVpnOnOidcError := form.disableVpnOidc
    updatedAt := now }
  if config'.Storable then some config' else none

def saveSecurity (now : ℕ) (form : SecurityForm) (db : Database) : Database :=
  match db.configuration.bind (form.write now) with
  | none => db
  | some config => { db with configuration := some config }

section Defaults

variable {form : DefaultsForm} {config config' : Configuration} {now : ℕ} {n : ℤ}

/-- What `save_defaults` writes. -/
lemma DefaultsForm.write_eq_some_iff : form.write now config = some config' ↔
    ∃ mtu ∈ intOr 1280 form.mtu, ∃ keepalive ∈ intOr 25 form.keepalive,
      config'.Storable ∧ config' = { config with
        defaultClientEndpoint := orNone (strip form.endpoint)
        defaultClientDns := some (splitList form.dns)
        defaultClientMtu := mtu
        defaultClientPersistentKeepalive := keepalive
        defaultClientAllowedIps := some (splitList form.allowedIps)
        updatedAt := now } := by
  unfold DefaultsForm.write
  constructor
  · intro h
    obtain ⟨mtu, hmtu, h⟩ := Option.bind_eq_some_iff.1 h
    obtain ⟨keepalive, hkeepalive, h⟩ := Option.bind_eq_some_iff.1 h
    dsimp only at h
    split at h
    next hs =>
      obtain rfl := Option.some.inj h
      exact ⟨mtu, hmtu, keepalive, hkeepalive, hs, rfl⟩
    next => cases h
  · rintro ⟨mtu, hmtu, keepalive, hkeepalive, hs, rfl⟩
    rw [Option.mem_def.1 hmtu, Option.mem_def.1 hkeepalive]
    exact if_pos hs

lemma intOr_toString (default : ℤ) (h : storableInt n = true) :
    intOr default (toString n) = some n := by
  have hread := readInt_toString (natAbs_lt_of_storableInt h)
  have hne : toString n ≠ "" := by
    intro he
    rw [he] at hread
    cases hread
  rw [intOr, if_neg hne, hread]

/-- **What was saved** is shown by the tab, and saved again it stays as it is. -/
theorem reopen_write (h : form.write now config = some config') (now' : ℕ) :
    ((DefaultsForm.ofConfig config').bind fun form => form.write now' config') =
      some { config' with updatedAt := now' } := by
  obtain ⟨mtu, -, keepalive, -, hs, rfl⟩ := DefaultsForm.write_eq_some_iff.1 h
  have hendpoint : orNone (strip ((orNone (strip form.endpoint)).getD "")) =
      orNone (strip form.endpoint) :=
    orNone_strip_getD_iff.2 (shownText_orNone_strip form.endpoint)
  have hlist : ∀ text, splitList (", ".intercalate (splitList text)) = splitList text :=
    fun text => splitList_join_iff.2 fun s hs => isEntry_of_mem_splitList hs
  refine DefaultsForm.write_eq_some_iff.2 ⟨mtu, intOr_toString 1280 hs.2.1, keepalive,
    intOr_toString 25 hs.1, hs, ?_⟩
  rw [hendpoint, hlist, hlist]

/-- What is typed into the fields stands on one line each. -/
def DefaultsForm.OneLine (form : DefaultsForm) : Prop :=
  ∀ text ∈ [form.endpoint, form.dns, form.allowedIps], '\n' ∉ text.toList

/-- The items that are typed, which count only if there are any. -/
def typedItems (text : String) : Option TextOrList :=
  ((some (splitList text)).filter (· ≠ [])).map .list

/-- **The settings of a device** by what was typed into the tab. -/
def typedConfig (form : DefaultsForm) (d : Device) (settings : ClientSettings)
    (privateKey serverPublicKey : String) : ClientConfig where
  privateKey := privateKey
  address := d.addressValue
  dns := listValue (layered d.useDefaultDns (d.dns.map .list) (typedItems form.dns)
    (.text settings.wgDns))
  mtu := (layered d.useDefaultMtu d.mtu (intOr 1280 form.mtu) settings.wgMtu).filter (· ≠ 0)
  publicKey := serverPublicKey
  presharedKey := truthy d.presharedKey
  allowedIps := listValue (layered d.useDefaultAllowedIps (d.allowedIps.map .list)
    (typedItems form.allowedIps) (.text settings.wgAllowedIps))
  endpoint := (layered d.useDefaultEndpoint d.endpoint (orNone (strip form.endpoint))
    settings.wgEndpointHost).getD "None" ++ ":" ++ toString settings.wgEndpointPort
  persistentKeepalive := (layered d.useDefaultPersistentKeepalive d.persistentKeepalive
    (intOr 25 form.keepalive) settings.wgPersistentKeepalive).filter (· ≠ 0)

lemma isItem_of_mem_splitList {text s : String} (h : '\n' ∉ text.toList) (hs : s ∈ splitList text) :
    IsItem s := by
  obtain ⟨-, hcomma, hstrip⟩ := isEntry_of_mem_splitList hs
  refine ⟨fun hn => h ?_, hcomma, hstrip⟩
  obtain ⟨hmem, -⟩ := List.mem_filter.1 hs
  obtain ⟨part, hpart, rfl⟩ := List.mem_map.1 hmem
  have hn := mem_of_mem_strip hn
  rw [String.toList_ofList] at hn
  exact Ip.mem_of_mem_splitOn ',' hpart hn

lemma newline_notMem_orNone {text s : String} (h : '\n' ∉ text.toList)
    (hs : s ∈ orNone (strip text)) : '\n' ∉ s.toList := by
  unfold orNone at hs
  split at hs
  · cases hs
  · obtain rfl := Option.some.inj hs
    exact fun hn => h (mem_of_mem_strip hn)

section Clients

variable {d : Device} {settings : ClientSettings} {privateKey serverPublicKey : String}

/-- The saved row fits the lines of the files if the rest does. -/
lemma fitsLines_of_write (h : form.write now config = some config') (hform : form.OneLine)
    (hd : FitsLines d none settings privateKey serverPublicKey) :
    FitsLines d (some config') settings privateKey serverPublicKey := by
  obtain ⟨mtu, -, keepalive, -, -, rfl⟩ := DefaultsForm.write_eq_some_iff.1 h
  obtain ⟨hendpoint, hdns, hips, -⟩ : '\n' ∉ form.endpoint.toList ∧ '\n' ∉ form.dns.toList ∧
      '\n' ∉ form.allowedIps.toList ∧ True := by
    simpa [DefaultsForm.OneLine] using hform
  constructor
  · intro s hs
    rcases List.mem_append.1 hs with hs | hs
    · exact hd.strings s (List.mem_append_left _ hs)
    · exact newline_notMem_orNone hendpoint (Option.mem_toList.1 hs)
  · intro s hs
    rcases List.mem_append.1 hs with hs | hs
    · rcases List.mem_append.1 hs with hs | hs
      · refine hd.items s ?_
        rw [configItems, Option.bind_none, Option.bind_none, Option.getD_none, List.append_nil,
          List.append_nil]
        exact hs
      · exact isItem_of_mem_splitList hdns hs
    · exact isItem_of_mem_splitList hips hs

lemma truthy_orNone (s : String) : truthy (orNone s) = orNone s := by
  unfold orNone
  split
  · rfl
  next hne => simp [truthy, hne]

lemma decodeClientConfig_write (h : form.write now config = some config') (hform : form.OneLine)
    (hd : FitsLines d none settings privateKey serverPublicKey) :
    decodeClientConfig (buildClientConfig d (some config') settings privateKey serverPublicKey) =
      some (typedConfig form d settings privateKey serverPublicKey) := by
  have hfits := fitsLines_of_write h hform hd
  rw [decodeClientConfig_of_printable hfits.interfaceSection hfits.peerSection]
  obtain ⟨mtu, hmtu, keepalive, hkeepalive, -, heq⟩ := DefaultsForm.write_eq_some_iff.1 h
  have hstored : config'.defaultClientEndpoint = orNone (strip form.endpoint) := by rw [heq]
  have hendpoint : endpointText d (some config') settings =
      (layered d.useDefaultEndpoint d.endpoint (orNone (strip form.endpoint))
        settings.wgEndpointHost).getD "None" ++ ":" ++ toString settings.wgEndpointPort := by
    rw [endpointText, resolveEndpointHost, Option.bind_some, hstored, truthy_orNone, layered]
  rw [layeredConfig, typedConfig, hendpoint, Option.mem_def.1 hmtu, Option.mem_def.1 hkeepalive,
    layeredDns, layeredAllowedIps, layeredMtu, layeredKeepalive]
  rw [heq]
  rfl

/-- **What is saved as the default** is what the files of the clients say, and the tab shows it and
keeps it when it is saved again. -/
theorem saveDefaults_reaches (h : form.write now config = some config') (hform : form.OneLine)
    (hd : FitsLines d none settings privateKey serverPublicKey) (now' : ℕ) :
    decodeClientConfig (buildClientConfig d (some config') settings privateKey serverPublicKey) =
        some (typedConfig form d settings privateKey serverPublicKey) ∧
      ((DefaultsForm.ofConfig config').bind fun form => form.write now' config') =
        some { config' with updatedAt := now' } :=
  ⟨decodeClientConfig_write h hform hd, reopen_write h now'⟩

end Clients

end Defaults

/-! A form with blanks and with an entry that is empty. -/

def vpnDefaults : DefaultsForm where
  endpoint := " vpn.example.com "
  dns := "10.0.0.53,, fd00::53"
  mtu := "1_400"
  keepalive := ""
  allowedIps := "10.0.0.0/8"

theorem saveDefaults_reaches_heidisLaptop :
    ∃ config', vpnDefaults.write 60 { updatedAt := 0 } = some config' ∧
      decodeClientConfig (buildClientConfig heidisLaptop (some config') {} "private" "server") =
        some {
          privateKey := "private"
          address := some "10.3.2.7/32, fd00::3:2:7/128"
          dns := some "10.0.0.53, fd00::53"
          mtu := some 1420
          publicKey := "server"
          presharedKey := some "psk-laptop"
          allowedIps := some "10.0.0.0/8"
          endpoint := "vpn.example.com:51820"
          persistentKeepalive := some 25 } := by
  have hform : vpnDefaults.OneLine := by
    unfold DefaultsForm.OneLine
    decide
  obtain ⟨config', hsave⟩ : ∃ config', vpnDefaults.write 60 { updatedAt := 0 } = some config' :=
    Option.isSome_iff_exists.1 (by decide)
  have hd : FitsLines heidisLaptop none {} "private" "server" := ⟨by decide, by decide⟩
  have hreach := (saveDefaults_reaches hsave hform hd 60).1
  exact ⟨config', hsave, hreach.trans (by decide)⟩

end WireGui
