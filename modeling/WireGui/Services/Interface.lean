import WireGui.Lib.Raise
import WireGui.Services.Routes
import WireGui.Services.Wireguard
import WireGui.Utils.Allocation

/-!
# `services/wireguard.py`: the interface

`ensure_interface` runs one command after the other, each of which may fail: because of what is
there, or for a reason of its own.  `ensureInterface_ends` says what it leaves, whether it gets to
its end or not.
-/

namespace WireGui

open Raise (Ends)

/-! ### The link -/

/-- What `wg` shows of the interface. -/
structure Tunnel where
  privateKey : Option String
  listenPort : Option ℕ
  peers : Peers

/-- A link as `ip` shows it; an address is written with its prefix length. -/
structure Link where
  addresses : Finset String
  up : Bool
  routes : Routes
  tunnel : Tunnel

/-- A link that has just been added. -/
def Link.new : Link := ⟨∅, false, ∅, ⟨none, none, Wg.Interface.empty⟩⟩

/-- The commands of `ensure_interface`, and the one of `configure_interface`. -/
inductive LinkCmd where
  | linkShow | linkAdd | addressShow | addressReplace (addr : String) | linkSetUp
  | configure (privateKey : String) (listenPort : ℕ)
  deriving DecidableEq

/-- What a command does to the link of its name, if there is one; `none` is a command that fails. -/
def LinkCmd.effect : LinkCmd → Option Link → Option Link
  | .linkAdd, none => some .new
  | .linkShow, some l | .addressShow, some l => some l
  | .addressReplace addr, some l => some { l with addresses := insert addr l.addresses }
  | .linkSetUp, some l => some { l with up := true }
  | .configure key port, some l =>
    some { l with tunnel := { l.tunnel with privateKey := some key, listenPort := some port } }
  | _, _ => none

/-- What the two raise. -/
inductive LinkError where
  | failed (cmd : LinkCmd)
  | badNetwork
  deriving DecidableEq

abbrev LinkProgram := EStateM LinkError (Option Link)

section Programs

variable (fails : LinkCmd → Bool)

/-- `_run`; `fails` are the commands that fail whatever there is. -/
def runLink (cmd : LinkCmd) : LinkProgram Unit := do
  let link ← get
  match if fails cmd then none else cmd.effect link with
  | none => throw (.failed cmd)
  | some l => set (some l)

/-- `_interface_addresses`. -/
def interfaceAddresses : LinkProgram (Finset String) :=
  tryCatch
    (do
      runLink fails .addressShow
      return (← get).elim ∅ Link.addresses)
    fun _ => pure ∅

/-- `ip address replace` for one address after the other. -/
def replaceAddresses : List String → LinkProgram Unit
  | [] => pure ()
  | addr :: addrs => do
    runLink fails (.addressReplace addr)
    replaceAddresses addrs

/-- `ensure_interface`: whether it made the link, and the addresses it warns about, which it finds
missing on a link that was there. -/
def ensureInterface (settings : Settings) : LinkProgram (Bool × List String) := do
  let created ← tryCatch
    (do
      runLink fails .linkShow
      return false)
    fun _ => do
      runLink fails .linkAdd
      return true
  let existing ← if created then pure ∅ else interfaceAddresses fails
  match settings.serverAddresses with
  | none => throw .badNetwork
  | some addresses => do
    replaceAddresses fails addresses
    runLink fails .linkSetUp
    return (created, if created then [] else addresses.filter (· ∉ existing))

/-- `configure_interface`; without a key it only logs an error. -/
def configureInterface (serverPrivateKey : Option String) (port : ℕ) : LinkProgram Unit :=
  match truthy serverPrivateKey with
  | none => pure ()
  | some key => runLink fails (.configure key port)

end Programs

/-! ### What it leaves -/

/-- The link with more addresses, and up or as it was. -/
structure Link.Extends (l l' : Link) : Prop where
  addresses : l.addresses ⊆ l'.addresses
  up : l.up = true → l'.up = true
  routes : l'.routes = l.routes
  tunnel : l'.tunnel = l.tunnel

lemma Link.Extends.refl (l : Link) : l.Extends l := ⟨fun _ h => h, fun h => h, rfl, rfl⟩

lemma Link.Extends.trans {l l' l'' : Link} (h : l.Extends l') (h' : l'.Extends l'') :
    l.Extends l'' :=
  ⟨h.addresses.trans h'.addresses, fun hu => h'.up (h.up hu), h'.routes.trans h.routes,
    h'.tunnel.trans h.tunnel⟩

section Ends

variable {fails : LinkCmd → Bool} {settings : Settings} {link : Option Link} {l l' : Link}

/-- How a command ends. -/
lemma runLink_ends {cmd : LinkCmd} {Q : Unit → Option Link → Prop}
    {R : LinkError → Option Link → Prop}
    (hok : fails cmd = false → ∀ l, cmd.effect link = some l → Q () (some l))
    (hfail : fails cmd = true ∨ cmd.effect link = none → R (.failed cmd) link) :
    Ends (runLink fails cmd) link Q R := by
  refine .bind (.get ?_)
  cases hf : fails cmd with
  | true => exact .throw (hfail (.inl hf))
  | false =>
    rw [if_neg Bool.false_ne_true]
    cases he : cmd.effect link with
    | none => exact .throw (hfail (.inr he))
    | some l => exact .set (hok hf l he)

/-- A link that is there is shown, or the command to add it fails. -/
lemma linkThere_ends {Q : Bool → Option Link → Prop} {R : LinkError → Option Link → Prop}
    (hthere : ∀ l, link = some l → fails .linkShow = false → Q false link)
    (hnew : link = none → fails .linkAdd = false → Q true (some .new))
    (hfail : (∃ cmd, fails cmd = true) → R (.failed .linkAdd) link) :
    Ends (tryCatch (do runLink fails .linkShow; return false)
      fun _ => do runLink fails .linkAdd; return true) link Q R := by
  refine .tryCatch (.bind (runLink_ends (fun hf l hl => .pure ?_) fun hshow => ?_))
  · cases link with
    | none => cases hl
    | some l₀ =>
      obtain rfl := Option.some.inj hl
      exact hthere l₀ rfl hf
  · refine .bind (runLink_ends (fun hf l hl => .pure ?_) fun hadd => hfail ?_)
    · cases link with
      | none =>
        obtain rfl := Option.some.inj hl
        exact hnew rfl hf
      | some l₀ => cases hl
    · -- what is there cannot be added, and is not shown only if `ip` fails
      rcases hadd with hadd | hadd
      · exact ⟨_, hadd⟩
      · rcases hshow with hshow | hshow
        · exact ⟨_, hshow⟩
        · cases link with
          | none => cases hadd
          | some l₀ => cases hshow

/-- It never raises, and reads what is there unless `ip` fails. -/
lemma interfaceAddresses_ends {Q : Finset String → Option Link → Prop}
    {R : LinkError → Option Link → Prop}
    (hread : ∀ l, link = some l → fails .addressShow = false → Q l.addresses link)
    (hnone : fails .addressShow = true ∨ link = none → Q ∅ link) :
    Ends (interfaceAddresses fails) link Q R := by
  refine .tryCatch (.bind (runLink_ends (fun hf l hl => .bind (.get (.pure ?_))) fun h => .pure ?_))
  · cases link with
    | none => cases hl
    | some l₀ =>
      obtain rfl := Option.some.inj hl
      exact hread l₀ rfl hf
  · refine hnone (h.imp id fun he => ?_)
    cases link with
    | none => rfl
    | some l₀ => cases he

lemma replaceAddresses_ends {addrs : List String} {Q : Unit → Option Link → Prop}
    {R : LinkError → Option Link → Prop}
    (hok : (∀ a ∈ addrs, fails (.addressReplace a) = false) →
      ∀ l', l.Extends l' → (∀ a ∈ addrs, a ∈ l'.addresses) → l'.up = l.up → Q () (some l'))
    (hfail : ∀ a ∈ addrs, fails (.addressReplace a) = true → ∀ e l', l.Extends l' → R e (some l')) :
    Ends (replaceAddresses fails addrs) (some l) Q R := by
  induction addrs generalizing l with
  | nil =>
    exact .pure (hok (fun a ha => absurd ha List.not_mem_nil) l (.refl l)
      (fun a ha => absurd ha List.not_mem_nil) rfl)
  | cons a addrs ih =>
    have hext : l.Extends { l with addresses := insert a l.addresses } :=
      ⟨Finset.subset_insert a _, fun h => h, rfl, rfl⟩
    refine .bind (runLink_ends (fun hf l₁ hl => ?_) fun h => ?_)
    · obtain rfl := Option.some.inj hl
      refine ih (fun hall l' hl' hmem hup => ?_) fun b hb hf e l' hl' => ?_
      · refine hok (List.forall_mem_cons.2 ⟨hf, hall⟩) l' (hext.trans hl') ?_ hup
        exact List.forall_mem_cons.2 ⟨hl'.addresses (Finset.mem_insert_self a _), hmem⟩
      · exact hfail b (List.mem_cons_of_mem _ hb) hf e l' (hext.trans hl')
    · rcases h with hf | he
      · exact hfail a List.mem_cons_self hf _ l (.refl l)
      · cases he

/-- **What `ensure_interface` leaves.**  If it returns the link is up with all server addresses, and
it has warned about those that were missing; if it raises some command has failed.  Either way the
link that was there has lost nothing, and a link that was not there is new. -/
theorem ensureInterface_ends (fails : LinkCmd → Bool) (link : Option Link)
    {addresses : List String}
    (hs : settings.serverAddresses = some addresses) :
    Ends (ensureInterface fails settings) link
      (fun r link' => r.1 = link.isNone ∧
        (fails .addressShow = false → r.2 =
          (link.elim [] fun l => addresses.filter (· ∉ l.addresses))) ∧
        ∃ l', link' = some l' ∧ (link.getD .new).Extends l' ∧ l'.up = true ∧
          ∀ a ∈ addresses, a ∈ l'.addresses)
      (fun _ link' => (∃ cmd, fails cmd = true) ∧
        (link' = link ∨ ∃ l', link' = some l' ∧ (link.getD .new).Extends l')) := by
  -- from a link on
  have hrest : ∀ {l : Link} {created : Bool} {existing : Finset String},
      (link.getD .new).Extends l → created = link.isNone →
      (fails .addressShow = false → created = false → link = some l ∧ existing = l.addresses) →
      Ends (do
          replaceAddresses fails addresses
          runLink fails .linkSetUp
          return (created, if created then [] else addresses.filter (· ∉ existing)))
        (some l)
        (fun r link' => r.1 = link.isNone ∧
          (fails .addressShow = false → r.2 =
            (link.elim [] fun l => addresses.filter (· ∉ l.addresses))) ∧
          ∃ l', link' = some l' ∧ (link.getD .new).Extends l' ∧ l'.up = true ∧
            ∀ a ∈ addresses, a ∈ l'.addresses)
        (fun _ link' => (∃ cmd, fails cmd = true) ∧
          (link' = link ∨ ∃ l', link' = some l' ∧ (link.getD .new).Extends l')) := by
    intro l created existing hl hc hex
    refine .bind (replaceAddresses_ends (fun _ l₁ h₁ hmem _ => ?_)
      fun a _ hf e l₁ h₁ => ⟨⟨_, hf⟩, .inr ⟨l₁, rfl, hl.trans h₁⟩⟩)
    refine .bind (runLink_ends (fun _ l₂ h₂ => .pure ⟨hc, fun hshow => ?_, l₂, rfl, ?_⟩) fun h => ?_)
    · cases created with
      | true =>
        have hnone : link = none := Option.isNone_iff_eq_none.1 hc.symm
        rw [hnone]
        rfl
      | false =>
        obtain ⟨rfl, rfl⟩ := hex hshow rfl
        rfl
    · obtain rfl := Option.some.inj h₂
      exact ⟨hl.trans (h₁.trans ⟨fun _ h => h, fun _ => rfl, rfl, rfl⟩), rfl, hmem⟩
    · rcases h with hf | he
      · exact ⟨⟨_, hf⟩, .inr ⟨l₁, rfl, hl.trans h₁⟩⟩
      · cases he
  unfold ensureInterface
  rw [hs]
  refine .bind (linkThere_ends (fun l hl _ => ?_) (fun hn _ => ?_) fun h => ⟨h, .inl rfl⟩)
  · subst hl
    refine .bind (interfaceAddresses_ends (fun l' hl' _ => ?_) fun h => ?_)
    · obtain rfl := Option.some.inj hl'
      exact hrest (.refl l) rfl fun _ _ => ⟨rfl, rfl⟩
    · refine hrest (.refl l) rfl fun hshow _ => ?_
      rcases h with h | h
      · exact absurd (hshow.symm.trans h) Bool.false_ne_true
      · cases h
  · subst hn
    exact .bind (.pure (hrest (.refl .new) rfl fun _ hc => absurd hc.symm Bool.false_ne_true))

end Ends

end WireGui
