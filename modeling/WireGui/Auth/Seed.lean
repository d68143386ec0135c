import WireGui.Auth.Oidc
import WireGui.Lib.Dict
import WireGui.Pages.AdminSettings

/-!
# `auth/seed.py`: identity providers

Whenever the service starts, the providers of a file are merged into those of the configuration, which
admins edit in the meantime.

* `upsertProviders_spec`: what the merge keeps, what it replaces and in which order.
* `seedIdpProviders_twice`: a second start with the same file changes nothing.
-/

namespace WireGui

/-! ### Providers by their ids -/

section ById

variable {π ι : Type} {getId : π → Option ι} {truthy : ι → Bool} {existing incoming : List π}
  {d : Dict ι π}

/-- Each key is the id of its provider. -/
def ById (getId : π → Option ι) (d : Dict ι π) : Prop :=
  ∀ item ∈ d.items, getId item.2 = some item.1

/-- The incoming providers that have ids. -/
def named (getId : π → Option ι) (truthy : ι → Bool) (incoming : List π) : List (ι × π) :=
  incoming.filterMap fun p => ((getId p).filter truthy).map fun pid => (pid, p)

/-- There are no assignments to an empty id. -/
lemma ne_of_mem_named {pid : ι} (ht : ¬ truthy pid = true) :
    ∀ item ∈ named getId truthy incoming, item.1 ≠ pid := by
  rintro item hitem rfl
  obtain ⟨q, -, hq⟩ := List.mem_filterMap.1 hitem
  obtain ⟨qid, hqid, rfl⟩ := Option.map_eq_some_iff.1 hq
  exact ht (Option.filter_eq_some_iff.1 hqid).2

/-- Providers with ids of their own are those of a dictionary. -/
lemma exists_byId (hids : ∀ p ∈ existing, getId p ≠ none)
    (hnodup : (existing.map getId).Nodup) :
    ∃ d : Dict ι π, ById getId d ∧ d.values = existing := by
  obtain ⟨ids, hids⟩ := List.exists_mapM_iff.2 fun p hp => Option.ne_none_iff_exists'.1 (hids p hp)
  have hall := (List.mapM_eq_some_iff.1 hids).flip
  have hmap : existing.map getId = ids.map some := by
    rw [← List.forall₂_eq_eq_eq, List.forall₂_map_left_iff, List.forall₂_map_right_iff]
    exact List.mapM_eq_some_iff.1 hids
  have hkeys : (ids.zip existing).map Prod.fst = ids := List.map_fst_zip hall.length_eq.le
  refine ⟨⟨ids.zip existing, ?_⟩, fun item hitem => List.forall₂_zip hall hitem, ?_⟩
  · rw [hmap] at hnodup
    rw [hkeys]
    exact hnodup.of_map some
  · exact List.map_snd_zip hall.length_eq.ge

lemma map_fst_named :
    (named getId truthy incoming).map Prod.fst = (incoming.filterMap getId).filter truthy := by
  rw [named, List.map_filterMap, List.filter_filterMap]
  refine List.filterMap_congr fun p _ => ?_
  rw [Option.map_map, Function.comp_def, Option.map_id']

lemma ById.filterMap_values (hd : ById getId d) : d.values.filterMap getId = d.keys := by
  rw [Dict.values, Dict.keys, List.filterMap_map, ← List.filterMap_eq_map]
  exact List.filterMap_congr hd

lemma ById.nodup_values (hd : ById getId d) : (d.values.map getId).Nodup := by
  have hmap : d.values.map getId = d.keys.map some := by
    rw [Dict.values, Dict.keys, List.map_map, List.map_map]
    exact List.map_congr_left hd
  rw [hmap]
  exact d.nodup_keys.map (Option.some_injective _)

end ById

/-! ### The merge -/

section Upsert

variable {π ι : Type} [DecidableEq ι] (getId : π → Option ι) (truthy : ι → Bool)

/-- `{p["id"]: p for p in existing}`; `none` is a `KeyError`. -/
def providersById (existing : List π) : Option (Dict ι π) :=
  (existing.mapM fun p => (getId p).map fun pid => (pid, p)).map (∅ : Dict ι π).update

/-- One incoming provider; without an id it is skipped. -/
def upsertProvider (byId : Dict ι π) (p : π) : Dict ι π :=
  match getId p with
  | none => byId
  | some pid => if truthy pid then byId.insert pid p else byId

/-- `_upsert_providers`, for mappings of any kind. -/
def upsertProviders (existing incoming : List π) : Option (List π) := do
  let byId ← providersById getId existing
  return (incoming.foldl (upsertProvider getId truthy) byId).values

/-- The provider is the last one of the incoming list with an id that is not empty. -/
def IsLast (incoming : List π) (pid : ι) (p : π) : Prop :=
  truthy pid = true ∧ (incoming.filter (getId · = some pid)).getLast? = some p

/-- **The lists are merged by ids.** -/
structure Upserted (existing incoming result : List π) : Prop where
  /-- The ids from before in their order, then the new ones as they first appear. -/
  order : result.filterMap getId =
    (existing.filterMap getId ++ (incoming.filterMap getId).filter truthy).eraseDups
  ids : ∀ p ∈ result, getId p ≠ none
  distinct : (result.map getId).Nodup
  replaced : ∀ pid p, IsLast getId truthy incoming pid p → p ∈ result
  kept : ∀ p ∈ existing, (∀ pid q, IsLast getId truthy incoming pid q → getId p ≠ some pid) →
    p ∈ result
  nothingElse : ∀ p ∈ result, (∃ pid, IsLast getId truthy incoming pid p ∧ getId p = some pid) ∨
    (p ∈ existing ∧ ∀ pid q, IsLast getId truthy incoming pid q → getId p ≠ some pid)

variable {getId truthy} {existing incoming : List π} {d : Dict ι π} {pid : ι} {p : π}

lemma foldl_upsertProvider :
    incoming.foldl (upsertProvider getId truthy) d = d.update (named getId truthy incoming) := by
  induction incoming generalizing d with
  | nil => rfl
  | cons p incoming ih =>
    rw [List.foldl_cons, ih]
    unfold upsertProvider named
    cases hp : getId p with
    | none => simp [hp]
    | some pid =>
      by_cases ht : truthy pid = true
      · simp [hp, ht, Dict.update_cons, Option.filter_some]
      · simp [hp, ht, Option.filter_some]

/-- A dictionary by ids is made anew out of its providers. -/
lemma providersById_values (hd : ById getId d) : providersById getId d.values = some d := by
  have hitems : d.values.mapM (fun p => (getId p).map fun pid => (pid, p)) = some d.items := by
    rw [List.mapM_eq_some_iff, Dict.values, List.forall₂_map_left_iff, List.forall₂_same]
    intro item hitem
    rw [hd item hitem]
    rfl
  rw [providersById, hitems, Option.map_some, Dict.update_items]

/-- The assignments to an id that is not empty. -/
lemma filter_named (ht : truthy pid = true) :
    ((named getId truthy incoming).filter (·.1 = pid)).map Prod.snd =
      incoming.filter (getId · = some pid) := by
  induction incoming with
  | nil => rfl
  | cons q incoming ih =>
    rw [named] at ih ⊢
    cases hq : getId q with
    | none => simp [hq, ih]
    | some qid =>
      by_cases he : qid = pid
      · subst he
        simp [hq, ht, ih, Option.filter_some]
      · by_cases htq : truthy qid = true
        · simp [hq, htq, he, ih, Option.filter_some]
        · simp [hq, htq, he, ih, Option.filter_some]

/-- The last one of the incoming providers with an id. -/
lemma isLast_iff : IsLast getId truthy incoming pid p ↔
    ((named getId truthy incoming).filter (·.1 = pid)).getLast?.map Prod.snd = some p := by
  unfold IsLast
  by_cases ht : truthy pid = true
  · rw [← List.getLast?_map, filter_named ht, and_iff_right ht]
  · have hnil : (named getId truthy incoming).filter (·.1 = pid) = [] :=
      List.filter_eq_nil_iff.2 fun item hitem he =>
        ne_of_mem_named ht item hitem (of_decide_eq_true he)
    rw [hnil]
    exact iff_of_false (fun h => ht h.1) fun h => by cases h

lemma IsLast.getId_eq (h : IsLast getId truthy incoming pid p) : getId p = some pid :=
  of_decide_eq_true (List.mem_filter.1 (List.mem_of_getLast? h.2)).2

/-- The value after the merge: the last incoming provider with the id, or the one from before. -/
lemma get_update_named : (d.update (named getId truthy incoming)).get pid = some p ↔
    IsLast getId truthy incoming pid p ∨
      (d.get pid = some p ∧ ∀ q, ¬ IsLast getId truthy incoming pid q) := by
  simp only [isLast_iff]
  rw [Dict.get_update]
  cases ((named getId truthy incoming).filter (·.1 = pid)).getLast?.map Prod.snd with
  | none => simp
  | some q => simp

lemma ById.getId_eq (hd : ById getId d) (h : d.get pid = some p) : getId p = some pid :=
  hd _ (Dict.get_eq_some_iff.1 h)

/-- **The merge keeps providers at their ids.** -/
lemma ById.update (hd : ById getId d) (truthy : ι → Bool) (incoming : List π) :
    ById getId (d.update (named getId truthy incoming)) := by
  intro item hitem
  rcases get_update_named.1 (Dict.get_eq_some_iff.2 hitem) with h | ⟨h, -⟩
  · exact h.getId_eq
  · exact hd.getId_eq h

/-- **The merge of a dictionary**, as lists. -/
lemma ById.upserted (hd : ById getId d) (incoming : List π) :
    Upserted getId truthy d.values incoming (d.update (named getId truthy incoming)).values where
  order := by
    rw [(hd.update _ _).filterMap_values, hd.filterMap_values, Dict.keys_update, map_fst_named]
  ids p hp := by
    obtain ⟨pid, h⟩ := Dict.mem_values_iff.1 hp
    rw [(hd.update _ _).getId_eq h]
    exact Option.some_ne_none pid
  distinct := (hd.update _ _).nodup_values
  replaced pid p h := Dict.mem_values_iff.2 ⟨pid, get_update_named.2 (.inl h)⟩
  kept p hp hno := by
    obtain ⟨pid, h⟩ := Dict.mem_values_iff.1 hp
    refine Dict.mem_values_iff.2 ⟨pid, get_update_named.2 (.inr ⟨h, fun q hq => ?_⟩)⟩
    exact hno pid q hq (hd.getId_eq h)
  nothingElse p hp := by
    obtain ⟨pid, h⟩ := Dict.mem_values_iff.1 hp
    rcases get_update_named.1 h with h | ⟨h, hno⟩
    · exact .inl ⟨pid, h, h.getId_eq⟩
    · refine .inr ⟨Dict.mem_values_iff.2 ⟨pid, h⟩, fun pid' q hq hid => hno q ?_⟩
      obtain rfl := Option.some.inj ((hd.getId_eq h).symm.trans hid)
      exact hq

/-- The merge as assignments to a dictionary. -/
lemma ById.upsertProviders_values (hd : ById getId d) (truthy : ι → Bool) (incoming : List π) :
    upsertProviders getId truthy d.values incoming =
      some (d.update (named getId truthy incoming)).values := by
  rw [upsertProviders, providersById_values hd, Option.bind_eq_bind, Option.bind_some,
    foldl_upsertProvider]
  rfl

/-- **Providers are merged by their ids**: an incoming one replaces the one with its id, the others
stay, and the same merge again changes nothing. -/
theorem upsertProviders_spec (hids : ∀ p ∈ existing, getId p ≠ none)
    (hnodup : (existing.map getId).Nodup) (incoming : List π) :
    ∃ result, upsertProviders getId truthy existing incoming = some result ∧
      Upserted getId truthy existing incoming result ∧
      upsertProviders getId truthy result incoming = some result := by
  obtain ⟨d, hd, rfl⟩ := exists_byId hids hnodup
  refine ⟨_, hd.upsertProviders_values _ _, hd.upserted incoming, ?_⟩
  rw [(hd.update _ _).upsertProviders_values, Dict.update_update]

end Upsert

/-! A file with an entry that is there already, one that is new and comes twice, and one without an
id. -/

def providerNamed (id label : String) : Provider :=
  List.toFinmap [⟨"id", .str id⟩, ⟨"label", .str label⟩]

def storedProviders : List Provider := [providerNamed "manual" "Manual", providerNamed "idp" "Old"]

def fileProviders : List Provider :=
  [providerNamed "new" "First", providerNamed "" "Nameless", providerNamed "idp" "Updated",
    providerNamed "new" "Second"]

theorem upsertProviders_spec_file :
    ∃ result, upsertProviders (fun p : Provider => p.lookup "id") truthyId storedProviders
        fileProviders = some result ∧
      result.filterMap (fun p => p.lookup "id") = [.str "manual", .str "idp", .str "new"] := by
  obtain ⟨result, hmerge, hspec, -⟩ : ∃ result, upsertProviders (fun p : Provider => p.lookup "id")
      truthyId storedProviders fileProviders = some result ∧ _ ∧ _ :=
    upsertProviders_spec (by decide) (by decide) fileProviders
  exact ⟨result, hmerge, hspec.order.trans (by decide)⟩

/-! ### Starting the service -/

/-- What the file lists, if it can be read. -/
structure IdpFile where
  openidConnectProviders : List Provider
  samlIdentityProviders : List Provider

/-- A list of the configuration and its part of the file. -/
def seedProviders (existing : Option (List Provider)) (incoming : List Provider) :
    Option (Option (List Provider)) :=
  if incoming = [] then some existing
  else (upsertProviders (fun p => p.lookup "id") truthyId (existing.getD []) incoming).map some

def seedConfiguration (file : IdpFile) (config : Configuration) : Option Configuration := do
  let oidc ← seedProviders config.openidConnectProviders file.openidConnectProviders
  let saml ← seedProviders config.samlIdentityProviders file.samlIdentityProviders
  return { config with openidConnectProviders := oidc, samlIdentityProviders := saml }

/-- `seed_idp_providers`; `none` is a `KeyError`, and nothing is committed. -/
def seedIdpProviders (now : ℕ) (file : IdpFile) (db : Database) : Option Database :=
  if file.openidConnectProviders = [] ∧ file.samlIdentityProviders = [] then some db
  else
    (seedConfiguration file (db.configuration.getD { insertedAt := now, updatedAt := now })).map
      fun config => { db with configuration := some config }

/-- The entries of a list have ids of their own. -/
def DistinctIds (providers : Option (List Provider)) : Prop :=
  (∀ p ∈ providers.getD [], p.lookup "id" ≠ none) ∧
    ((providers.getD []).map fun p => p.lookup "id").Nodup

lemma distinctIds_nil : DistinctIds (some []) := ⟨fun _ hp => absurd hp List.not_mem_nil, .nil⟩

section Seed

variable {existing : Option (List Provider)} {db : Database} {config : Configuration}

/-- **One list**: it can be merged, and a second merge changes nothing. -/
lemma seedProviders_spec (h : DistinctIds existing) (incoming : List Provider) :
    ∃ result, seedProviders existing incoming = some result ∧
      seedProviders result incoming = some result := by
  unfold seedProviders
  by_cases hnil : incoming = []
  · exact ⟨existing, if_pos hnil, if_pos hnil⟩
  · obtain ⟨d, hd, hvalues⟩ := exists_byId h.1 h.2
    have hmerge := hd.upsertProviders_values truthyId incoming
    have hagain := (hd.update truthyId incoming).upsertProviders_values truthyId incoming
    rw [hvalues] at hmerge
    rw [Dict.update_update] at hagain
    refine ⟨some (d.update (named (fun p => p.lookup "id") truthyId incoming)).values, ?_, ?_⟩
    · rw [if_neg hnil, hmerge, Option.map_some]
    · rw [if_neg hnil, Option.getD_some, hagain, Option.map_some]

lemma seedConfiguration_spec (ho : DistinctIds config.openidConnectProviders)
    (hs : DistinctIds config.samlIdentityProviders) (file : IdpFile) :
    ∃ config', seedConfiguration file config = some config' ∧
      seedConfiguration file config' = some config' := by
  obtain ⟨oidc, ho, ho'⟩ := seedProviders_spec ho file.openidConnectProviders
  obtain ⟨saml, hs, hs'⟩ := seedProviders_spec hs file.samlIdentityProviders
  refine ⟨{ config with openidConnectProviders := oidc, samlIdentityProviders := saml }, ?_, ?_⟩
  · rw [seedConfiguration, ho, hs]
    rfl
  · rw [seedConfiguration, ho', hs']
    rfl

/-- **A second start** with the same file changes nothing. -/
theorem seedIdpProviders_twice (now now' : ℕ) (file : IdpFile)
    (h : ∀ config ∈ db.configuration,
      DistinctIds config.openidConnectProviders ∧ DistinctIds config.samlIdentityProviders) :
    ∃ db', seedIdpProviders now file db = some db' ∧
      seedIdpProviders now' file db' = some db' := by
  unfold seedIdpProviders
  by_cases hnil : file.openidConnectProviders = [] ∧ file.samlIdentityProviders = []
  · exact ⟨db, if_pos hnil, if_pos hnil⟩
  · obtain ⟨config, hseed, hagain⟩ : ∃ config',
        seedConfiguration file (db.configuration.getD { insertedAt := now, updatedAt := now }) =
          some config' ∧ seedConfiguration file config' = some config' := by
      cases hc : db.configuration with
      | none => exact seedConfiguration_spec distinctIds_nil distinctIds_nil file
      | some config => exact seedConfiguration_spec (h config hc).1 (h config hc).2 file
    refine ⟨{ db with configuration := some config }, ?_, ?_⟩
    · rw [if_neg hnil, hseed, Option.map_some]
    · rw [if_neg hnil, Option.getD_some, hagain, Option.map_some]

end Seed

end WireGui
