import WireGui.Lib.List
import WireGui.Lib.Text
import WireGui.Models

/-!
# `pages/admin/settings.py`: identity providers

Saving a provider takes the entries with its id out of the list and appends the new one; deleting a
provider takes them out.
-/

namespace WireGui

/-- The two lists of the configuration. -/
inductive ProviderList where
  | oidc
  | saml
  deriving DecidableEq

def Configuration.providers (l : ProviderList) (config : Configuration) : Option (List Provider) :=
  match l with
  | .oidc => config.openidConnectProviders
  | .saml => config.samlIdentityProviders

def Configuration.setProviders (l : ProviderList) (providers : Option (List Provider))
    (config : Configuration) : Configuration :=
  match l with
  | .oidc => { config with openidConnectProviders := providers }
  | .saml => { config with samlIdentityProviders := providers }

inductive ProviderEdit where
  | save (provider : Provider)
  | delete (providerId : String)
  deriving DecidableEq

/-! ### The handlers -/

/-- The fields of the dialog for an OIDC provider. -/
structure OidcForm where
  id : String
  label : String
  scope : String
  clientId : String
  clientSecret : String
  discovery : String
  autoCreate : Bool

def OidcForm.provider (form : OidcForm) : Provider :=
  List.toFinmap
    [⟨"id", .str (strip form.id)⟩, ⟨"label", .str (strip form.label)⟩,
      ⟨"scope", .str (strip form.scope)⟩, ⟨"response_type", .str "code"⟩,
      ⟨"client_id", .str (strip form.clientId)⟩, ⟨"client_secret", .str (strip form.clientSecret)⟩,
      ⟨"discovery_document_uri", .str (strip form.discovery)⟩,
      ⟨"auto_create_users", .bool form.autoCreate⟩]

/-- `save_oidc_provider`; `none` if a required field is empty. -/
def saveOidcProvider (form : OidcForm) : Option ProviderEdit :=
  if ∀ field ∈ [form.id, form.label, form.clientId, form.clientSecret, form.discovery],
      strip field ≠ "" then
    some (.save form.provider)
  else none

/-- `delete_oidc_provider`. -/
def deleteOidcProvider (providerId : String) : ProviderEdit := .delete providerId

/-- The fields of the dialog for a SAML provider. -/
structure SamlForm where
  id : String
  label : String
  metadata : String
  signRequests : Bool
  signMetadata : Bool
  signedAssertion : Bool
  signedEnvelopes : Bool
  autoCreate : Bool

def SamlForm.provider (externalUrl : String) (form : SamlForm) : Provider :=
  List.toFinmap
    [⟨"id", .str (strip form.id)⟩, ⟨"label", .str (strip form.label)⟩,
      ⟨"metadata", .str (strip form.metadata)⟩, ⟨"base_url", .str (externalUrl ++ "/auth/saml")⟩,
      ⟨"sign_requests", .bool form.signRequests⟩, ⟨"sign_metadata", .bool form.signMetadata⟩,
      ⟨"signed_assertion_in_resp", .bool form.signedAssertion⟩,
      ⟨"signed_envelopes_in_resp", .bool form.signedEnvelopes⟩,
      ⟨"auto_create_users", .bool form.autoCreate⟩]

/-- `save_saml_provider`; `none` if a required field is empty. -/
def saveSamlProvider (externalUrl : String) (form : SamlForm) : Option ProviderEdit :=
  if ∀ field ∈ [form.id, form.label, form.metadata], strip field ≠ "" then
    some (.save (form.provider externalUrl))
  else none

/-- `delete_saml_provider`. -/
def deleteSamlProvider (providerId : String) : ProviderEdit := .delete providerId

/-! ### What they do to the list -/

namespace ProviderEdit

/-- The id that an edit is about. -/
def id : ProviderEdit → Json.Value
  | .save provider => provider.get "id"
  | .delete providerId => .str providerId

/-- The new list. -/
def applyTo (e : ProviderEdit) (providers : Option (List Provider)) : List Provider :=
  let others := (providers.getD []).filter fun p => p.get "id" ≠ e.id
  match e with
  | .save provider => others ++ [provider]
  | .delete _ => others

/-- **The list is as the edit wants it**: what is saved is there and is all there is under its id;
what is deleted is not there. -/
def Applied (e : ProviderEdit) (providers : List Provider) : Prop :=
  (∀ p ∈ providers, p.get "id" = e.id → e = .save p) ∧
    match e with
    | .save provider => provider ∈ providers
    | .delete _ => True

instance (e : ProviderEdit) (providers : List Provider) : Decidable (e.Applied providers) := by
  unfold Applied; cases e <;> infer_instance

/-- The edit has nothing to do: the list is there, and what is saved is its last entry already. -/
def Idle (e : ProviderEdit) (providers : Option (List Provider)) : Prop :=
  ∃ others, (∀ p ∈ others, p.get "id" ≠ e.id) ∧
    match e with
    | .save provider => providers = some (others ++ [provider])
    | .delete _ => providers = some others

section Lists

variable {e f : ProviderEdit} {providers : Option (List Provider)} {p : Provider}

lemma mem_applyTo_iff :
    p ∈ e.applyTo providers ↔ e = .save p ∨ p ∈ providers.getD [] ∧ p.get "id" ≠ e.id := by
  unfold applyTo
  cases e with
  | save provider =>
    rw [List.mem_append, List.mem_singleton, List.mem_filter, decide_eq_true_iff, or_comm,
      ProviderEdit.save.injEq, eq_comm]
  | delete providerId =>
    rw [List.mem_filter, decide_eq_true_iff]
    simp

/-- **An edit does what it is to do.** -/
lemma applied_applyTo : e.Applied (e.applyTo providers) := by
  refine ⟨fun p hp hid => ?_, ?_⟩
  · exact (mem_applyTo_iff.1 hp).resolve_right fun h => h.2 hid
  · cases e with
    | save provider => exact mem_applyTo_iff.2 (.inl rfl)
    | delete providerId => trivial

/-- An edit leaves the entries with other ids alone. -/
lemma filter_applyTo {q : Provider → Bool} (hq : ∀ p, q p = true → p.get "id" ≠ e.id) :
    (e.applyTo providers).filter q = (providers.getD []).filter q := by
  have hothers : ((providers.getD []).filter fun p => p.get "id" ≠ e.id).filter q =
      (providers.getD []).filter q := by
    rw [List.filter_filter]
    refine List.filter_congr fun p _ => ?_
    cases hp : q p with
    | true => simp [hq p hp]
    | false => rfl
  unfold applyTo
  cases e with
  | save provider =>
    have hout : q provider = false := by
      cases hp : q provider with
      | true => exact absurd rfl (hq provider hp)
      | false => rfl
    rw [List.filter_append, hothers, List.filter_cons_of_neg (by simp [hout]), List.filter_nil,
      List.append_nil]
  | delete providerId => exact hothers

/-- The first entry with an id, after an edit of another one. -/
lemma find?_applyTo_of_ne {id : Json.Value} (hid : id ≠ e.id) :
    (e.applyTo providers).find? (fun p => p.get "id" = id) =
      (providers.getD []).find? fun p => p.get "id" = id := by
  rw [← List.head?_filter, ← List.head?_filter, filter_applyTo]
  intro p hp he
  exact hid ((of_decide_eq_true hp).symm.trans he)

/-- The first entry with the id of the edit: what is saved. -/
lemma find?_applyTo_self :
    (e.applyTo providers).find? (fun p => p.get "id" = e.id) =
      match e with
      | .save provider => some provider
      | .delete _ => none := by
  have hothers : ((providers.getD []).filter fun p => p.get "id" ≠ e.id).find?
      (fun p => p.get "id" = e.id) = none := by
    refine List.find?_eq_none.2 fun p hp => ?_
    simpa using of_decide_eq_true (List.mem_filter.1 hp).2
  unfold applyTo
  cases e with
  | save provider =>
    rw [List.find?_append, hothers, Option.none_or]
    exact List.find?_cons_of_pos (decide_eq_true rfl)
  | delete providerId => exact hothers

/-- Whether an edit is in effect is up to the entries with its id. -/
lemma applied_congr {l l' : List Provider} (h : ∀ p, p.get "id" = e.id → (p ∈ l ↔ p ∈ l')) :
    e.Applied l ↔ e.Applied l' := by
  refine and_congr ⟨fun hl p hp hid => hl p ((h p hid).2 hp) hid,
    fun hl p hp hid => hl p ((h p hid).1 hp) hid⟩ ?_
  cases e with
  | save provider => exact h provider rfl
  | delete providerId => exact Iff.rfl

/-- **An edit leaves those of other ids in effect**, or without. -/
lemma applied_applyTo_iff (hne : e.id ≠ f.id) :
    e.Applied (f.applyTo providers) ↔ e.Applied (providers.getD []) := by
  refine applied_congr fun p hid => ?_
  rw [mem_applyTo_iff]
  constructor
  · rintro (rfl | h)
    · exact absurd hid.symm hne
    · exact h.1
  · exact fun hp => .inr ⟨hp, hid ▸ hne⟩

/-- **An edit changes nothing** just if it has nothing to do. -/
lemma applyTo_eq_iff : some (e.applyTo providers) = providers ↔ e.Idle providers := by
  unfold Idle applyTo
  constructor
  · intro h
    refine ⟨(providers.getD []).filter fun p => p.get "id" ≠ e.id, fun p hp => ?_, ?_⟩
    · exact of_decide_eq_true (List.mem_filter.1 hp).2
    · cases e with
      | save provider => exact h.symm
      | delete providerId => exact h.symm
  · rintro ⟨others, hothers, hl⟩
    have hfilter : others.filter (fun p => p.get "id" ≠ e.id) = others :=
      List.filter_eq_self.2 fun p hp => decide_eq_true (hothers p hp)
    cases e with
    | save provider =>
      dsimp only at hl
      rw [hl, Option.getD_some, List.filter_append, hfilter]
      simp [ProviderEdit.id]
    | delete providerId =>
      dsimp only at hl
      rw [hl, Option.getD_some, hfilter]

instance (e : ProviderEdit) (providers : Option (List Provider)) : Decidable (e.Idle providers) :=
  decidable_of_iff _ applyTo_eq_iff

lemma Idle.applied (h : e.Idle providers) : e.Applied (providers.getD []) := by
  have happ : e.Applied (e.applyTo providers) := applied_applyTo
  rw [← applyTo_eq_iff] at h
  rwa [← h, Option.getD_some]

end Lists

end ProviderEdit

end WireGui
