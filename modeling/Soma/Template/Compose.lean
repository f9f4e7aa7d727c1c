import Soma.Template.Module
import Mathlib.Data.Finset.Card

/-! # Composition

The modules of a Template in dependency order, what they may not claim twice, the environment they seal,
the command that results, and the digest of the composed selection.

* `order_spec`: the composed modules are registered, and no identity appears twice.
* `sealedEnvironment_spec`: one seal per name, each a value some composed module declares.
-/

namespace Soma.Template

open Soma.Lib Soma.Codec Soma.Text List

/-! ## Module order -/

/-- The modules placed so far; those being visited are an argument of the walk. -/
structure Walk where
  done : List ModuleIdentity
  ordered : List ModuleSpec

def pinned (reference : ModuleRef) (requirer : Option ModuleIdentity) (field : String) :
    Except Rejection ModuleIdentity :=
  okOr reference.pinned (.unpinnedInput requirer field reference.display)

/-- The number of registered modules outside a list of identities. -/
def remaining (registry : ModuleRegistry) (visiting : List ModuleIdentity) : ℕ :=
  ((registry.modules.map ModuleSpec.identity).toFinset \ visiting.toFinset).card

variable {registry : ModuleRegistry} {visiting : List ModuleIdentity} {identity : ModuleIdentity} {spec : ModuleSpec}

theorem remaining_lt (hget : registry.get identity = some spec) (hnew : identity ∉ visiting) :
    remaining registry (visiting ++ [identity]) < remaining registry visiting := by
  obtain ⟨hmem, hidentity⟩ := ModuleRegistry.get_eq_some hget
  apply Finset.card_lt_card
  rw [Finset.ssubset_iff_of_subset]
  · refine ⟨identity, ?_, ?_⟩
    · simp only [Finset.mem_sdiff, mem_toFinset, mem_map]
      exact ⟨⟨spec, hmem, hidentity⟩, hnew⟩
    · simp
  · intro x hx
    simp only [Finset.mem_sdiff, mem_toFinset, mem_append, not_or] at hx ⊢
    exact ⟨hx.1, hx.2.1⟩

/-- The cycle an identity closes: what is being visited from it on, and the identity again. -/
def cycleOf (visiting : List ModuleIdentity) (identity : ModuleIdentity) : List ModuleIdentity :=
  visiting.dropWhile (· ≠ identity) ++ [identity]

mutual

/-- Places a module behind everything it requires. -/
def visit (registry : ModuleRegistry) (visiting : List ModuleIdentity) (identity : ModuleIdentity)
    (requirer : Option ModuleIdentity) (field : String) (walk : Walk) : Except Rejection Walk :=
  if identity ∈ walk.done then .ok walk
  else if hvisiting : identity ∈ visiting then
    .error (.moduleCycle (requirer.getD identity) field (cycleOf visiting identity))
  else
    match hget : registry.get identity with
    | none => .error (.unknownModule requirer field identity.display)
    | some spec =>
      have := remaining_lt hget hvisiting
      do
      let walk ← visitAll registry (visiting ++ [identity]) identity 0 spec.1.requires walk
      return { done := identity :: walk.done, ordered := walk.ordered ++ [spec] }
termination_by (remaining registry visiting, 0)

/-- The requirements of a module, in their declared order. -/
def visitAll (registry : ModuleRegistry) (visiting : List ModuleIdentity) (identity : ModuleIdentity) (index : ℕ)
    (requires : List ModuleRef) (walk : Walk) : Except Rejection Walk :=
  match requires with
  | [] => .ok walk
  | reference :: rest => do
    let dependency ← pinned reference (some identity) s!"requires[{index}]"
    let walk ← visit registry visiting dependency (some identity) s!"requires[{index}]" walk
    visitAll registry visiting identity (index + 1) rest walk
termination_by (remaining registry visiting, requires.length)

end

/-- The references of a Template, in authored order; `listed` are those seen before. -/
def orderFrom (registry : ModuleRegistry) :
    ℕ → List ModuleIdentity → List ModuleRef → Walk → Except Rejection Walk
  | _, _, [], walk => .ok walk
  | index, listed, reference :: rest, walk => do
    let identity ← pinned reference none s!"modules[{index}]"
    ensure (identity ∉ listed) (.duplicateModule s!"modules[{index}]" reference.display)
    let walk ← visit registry [] identity none s!"modules[{index}]" walk
    orderFrom registry (index + 1) (identity :: listed) rest walk

variable (template : Template)

def order (registry : ModuleRegistry) : Except Rejection (List ModuleSpec) := do
  let walk ← orderFrom registry 0 [] template.modules ⟨[], []⟩
  return walk.ordered

/-- What every step of the walk keeps: placed modules are registered, under the identities that are done,
each once. -/
structure Walk.Inv (registry : ModuleRegistry) (walk : Walk) : Prop where
  registered : ∀ spec ∈ walk.ordered, spec ∈ registry.modules
  done : walk.done = (walk.ordered.map ModuleSpec.identity).reverse
  distinct : walk.done.Nodup

/-- A step of the walk keeps the invariant and finishes nothing that is being visited. -/
def Walk.Grows (registry : ModuleRegistry) (visiting : List ModuleIdentity) (before after : Walk) :
    Prop :=
  before.Inv registry → after.Inv registry ∧ ∀ x ∈ after.done, x ∈ before.done ∨ x ∉ visiting

theorem Walk.Grows.refl (walk : Walk) : walk.Grows registry visiting walk :=
  fun h => ⟨h, fun _ hx => .inl hx⟩

theorem Walk.Grows.trans {a b c : Walk} (hab : a.Grows registry visiting b) (hbc : b.Grows registry visiting c) :
    a.Grows registry visiting c := by
  intro ha
  obtain ⟨hb, hdone⟩ := hab ha
  obtain ⟨hc, hdone'⟩ := hbc hb
  refine ⟨hc, fun x hx => ?_⟩
  exact (hdone' x hx).elim (hdone x) .inr

theorem Walk.Grows.place {before after : Walk} (hget : registry.get identity = some spec)
    (hdone : identity ∉ before.done) (hvisiting : identity ∉ visiting)
    (h : before.Grows registry (visiting ++ [identity]) after) :
    before.Grows registry visiting ⟨identity :: after.done, after.ordered ++ [spec]⟩ := by
  intro hbefore
  obtain ⟨hafter, hnew⟩ := h hbefore
  obtain ⟨hmem, rfl⟩ := ModuleRegistry.get_eq_some hget
  have hfresh : spec.identity ∉ after.done := by
    intro hin
    rcases hnew _ hin with hold | hout
    · exact hdone hold
    · exact hout (mem_append_right _ (mem_singleton_self _))
  refine ⟨⟨?_, ?_, ?_⟩, ?_⟩
  · exact forall_mem_append.mpr ⟨hafter.registered, forall_mem_singleton.mpr hmem⟩
  · simp [hafter.done]
  · exact nodup_cons.mpr ⟨hfresh, hafter.distinct⟩
  · refine forall_mem_cons.mpr ⟨.inr hvisiting, fun x hx => ?_⟩
    exact (hnew x hx).imp id fun hout hin => hout (mem_append_left _ hin)

mutual

theorem visit_grows {visiting : List ModuleIdentity} {identity : ModuleIdentity} {requirer : Option ModuleIdentity}
    {field : String} {walk after : Walk}
    (h : visit registry visiting identity requirer field walk = .ok after) :
    walk.Grows registry visiting after := by
  rw [visit] at h
  split_ifs at h with hdone hvisiting
  · cases h
    exact .refl walk
  · split at h
    · cases h
    · next spec hget =>
      have hlt := remaining_lt hget hvisiting
      obtain ⟨mid, hmid, h⟩ := bind_eq_ok.mp h
      cases h
      exact .place hget hdone hvisiting (visitAll_grows hmid)
termination_by (remaining registry visiting, 0)

theorem visitAll_grows {visiting : List ModuleIdentity} {identity : ModuleIdentity} {index : ℕ}
    {requires : List ModuleRef} {walk after : Walk}
    (h : visitAll registry visiting identity index requires walk = .ok after) :
    walk.Grows registry visiting after := by
  match requires with
  | [] =>
    rw [visitAll] at h
    cases h
    exact .refl walk
  | reference :: rest =>
    rw [visitAll] at h
    obtain ⟨dependency, -, h⟩ := bind_eq_ok.mp h
    obtain ⟨mid, hmid, h⟩ := bind_eq_ok.mp h
    exact (visit_grows hmid).trans (visitAll_grows h)
termination_by (remaining registry visiting, requires.length)

end

variable {index : ℕ}

theorem orderFrom_inv {listed : List ModuleIdentity} {references : List ModuleRef} {walk after : Walk}
    (h : orderFrom registry index listed references walk = .ok after) (hwalk : walk.Inv registry) :
    after.Inv registry := by
  induction references generalizing index listed walk with
  | nil =>
    cases h
    exact hwalk
  | cons reference rest ih =>
    obtain ⟨identity, -, h⟩ := bind_eq_ok.mp h
    obtain ⟨-, h⟩ := seq_eq_ok.mp h
    obtain ⟨mid, hmid, h⟩ := bind_eq_ok.mp h
    exact ih h (visit_grows hmid hwalk).1

variable {modules : List ModuleSpec}

/-- The composed modules are registered, and no identity appears twice. -/
theorem order_spec {template : Template} (h : order template registry = .ok modules) :
    (∀ spec ∈ modules, spec ∈ registry.modules) ∧ (modules.map ModuleSpec.identity).Nodup := by
  obtain ⟨walk, hwalk, h⟩ := bind_eq_ok.mp h
  cases h
  have hinv := orderFrom_inv hwalk ⟨by simp, rfl, nodup_nil⟩
  refine ⟨hinv.registered, ?_⟩
  have hdistinct := hinv.distinct
  rw [hinv.done, nodup_reverse] at hdistinct
  exact hdistinct

theorem order_length {template : Template} (h : order template registry = .ok modules) :
    modules.length ≤ MAX_REGISTRY_MODULES := by
  obtain ⟨hregistered, hdistinct⟩ := order_spec h
  have hsub : modules.map ModuleSpec.identity ⊆ registry.modules.map ModuleSpec.identity := by
    intro x hx
    obtain ⟨spec, hspec, rfl⟩ := mem_map.mp hx
    exact mem_map.mpr ⟨spec, hregistered spec hspec, rfl⟩
  have hlength := (subperm_of_subset hdistinct hsub).length_le
  rw [length_map, length_map] at hlength
  exact hlength.trans registry.bounded

/-! ## Claims of the modules -/

/-- What the modules declare in one of their lists, each with its module and its index there. -/
def declared {α : Type} (list : ModuleSpec → List α) (modules : List ModuleSpec) :
    List (ModuleSpec × ℕ × α) :=
  modules.flatMap fun spec => (list spec).zipIdx.map fun (value, index) => (spec, index, value)

theorem mem_declared {α : Type} {list : ModuleSpec → List α} {value : α}
    (h : (spec, index, value) ∈ declared list modules) : spec ∈ modules ∧ value ∈ list spec := by
  obtain ⟨s, hs, h⟩ := mem_flatMap.mp h
  obtain ⟨⟨v, i⟩, hv, heq⟩ := mem_map.mp h
  cases heq
  exact ⟨hs, fst_mem_of_mem_zipIdx hv⟩

def claimField (owners : List (String × ModuleIdentity)) :
    ModuleSpec × ℕ × String → Except Rejection (List (String × ModuleIdentity))
  | (spec, index, field) =>
    match owners.find? fun owner => owner.1 == field with
    | some (_, first) => .error (.duplicateExclusiveOwnership first spec.identity
        s!"exclusive_fields[{index}]" field)
    | none => .ok ((field, spec.identity) :: owners)

variable (modules : List ModuleSpec)

def exclusiveFields : Except Rejection Unit := do
  let _ ← (declared (fun spec => spec.1.exclusiveFields) modules).foldlM claimField []

def claimPath (owned : List (GuestPath × ModuleIdentity)) :
    ModuleSpec × ℕ × GuestPath → Except Rejection (List (GuestPath × ModuleIdentity))
  | (spec, index, path) =>
    match owned.find? fun (existing, _) => existing.contains path || path.contains existing with
    | some (_, first) => .error (.duplicateExclusiveOwnership first spec.identity
        s!"owned_paths[{index}]" path.asStr)
    | none => .ok (owned ++ [(path, spec.identity)])

def ownedPaths : Except Rejection Unit := do
  let _ ← (declared (fun spec => spec.1.ownedPaths) modules).foldlM claimPath []

/-- An environment value a module fixes. -/
structure SealedValue where
  module : ModuleIdentity
  name : EnvironmentName
  value : String
deriving DecidableEq

variable (sealed : List SealedValue)

def sealOne :
    ModuleSpec × ℕ × (EnvironmentName × String) → Except Rejection (List SealedValue)
  | (spec, index, (name, value)) =>
    match sealed.find? fun existing => existing.name == name with
    | some first =>
      if first.value = value then .ok sealed
      else .error (.conflictingSealedEnvironment spec.identity (some first.module)
        s!"sealed_environment[{index}]" name.1)
    | none => .ok (sealed ++ [⟨spec.identity, name, value⟩])

def sealedEnvironment : Except Rejection (List SealedValue) :=
  (declared (fun spec => spec.1.sealedEnvironment) modules).foldlM sealOne []

/-- What sealing one value after another keeps: one seal per name, each declared by a module. -/
structure SealsInv (modules : List ModuleSpec) (sealed : List SealedValue) : Prop where
  distinct : (sealed.map fun s => s.name.1).Nodup
  declared : ∀ s ∈ sealed, ∃ spec ∈ modules, (s.name, s.value) ∈ spec.1.sealedEnvironment

variable {modules} {sealed}

theorem SealsInv.bounded (h : SealsInv modules sealed) {s : SealedValue} (hs : s ∈ sealed) :
    s.value.utf8ByteSize ≤ MAX_STRING_BYTES ∧ hasNul s.value = false := by
  obtain ⟨spec, -, hpair⟩ := h.declared s hs
  exact spec.sealed_bounded hpair

theorem SealsInv.value_eq (h : SealsInv modules sealed) {s t : SealedValue} (hs : s ∈ sealed) (ht : t ∈ sealed)
    (hname : s.name.1 = t.name.1) : s = t :=
  inj_on_of_nodup_map h.distinct hs ht hname

theorem sealOne_inv {after : List SealedValue} {pair : EnvironmentName × String} (hspec : spec ∈ modules)
    (hpair : pair ∈ spec.1.sealedEnvironment)
    (h : sealOne sealed (spec, index, pair) = .ok after) (hinv : SealsInv modules sealed) :
    SealsInv modules after := by
  obtain ⟨name, value⟩ := pair
  simp only [sealOne] at h
  split at h
  · split_ifs at h
    cases h
    exact hinv
  · next hnone =>
    cases h
    have hfresh : name.1 ∉ sealed.map fun s => s.name.1 := by
      intro hmem
      obtain ⟨s, hs, hname⟩ := mem_map.mp hmem
      have hne := find?_eq_none.mp hnone s hs
      simp only [beq_iff_eq] at hne
      exact hne (Subtype.ext hname)
    refine ⟨?_, ?_⟩
    · rw [map_append, nodup_append]
      refine ⟨hinv.distinct, nodup_singleton _, ?_⟩
      intro a ha b hb hab
      rw [map_singleton, mem_singleton] at hb
      rw [hab, hb] at ha
      exact hfresh ha
    · exact forall_mem_append.mpr ⟨hinv.declared, forall_mem_singleton.mpr ⟨spec, hspec, hpair⟩⟩

theorem sealedEnvironment_spec (h : sealedEnvironment modules = .ok sealed) : SealsInv modules sealed := by
  have hfold : ∀ (items : List (ModuleSpec × ℕ × (EnvironmentName × String))) (before : List SealedValue),
      (∀ item ∈ items, item.1 ∈ modules ∧ item.2.2 ∈ item.1.1.sealedEnvironment) →
      items.foldlM sealOne before = .ok sealed → SealsInv modules before → SealsInv modules sealed := by
    intro items
    induction items with
    | nil =>
      intro before _ h hinv
      cases h
      exact hinv
    | cons item items ih =>
      intro before hitems h hinv
      rw [foldlM_cons] at h
      obtain ⟨mid, hmid, h⟩ := bind_eq_ok.mp h
      obtain ⟨hspec, hpair⟩ := hitems item mem_cons_self
      refine ih mid (fun x hx => hitems x (mem_cons_of_mem _ hx)) h ?_
      exact sealOne_inv hspec hpair hmid hinv
  refine hfold _ [] ?_ h ⟨nodup_nil, by simp⟩
  rintro ⟨spec, index, pair⟩ hitem
  exact mem_declared hitem

variable (modules) (sealed)

/-- A Template entry under a sealed name must restate its value. -/
def overrideRule (index : ℕ) (entry : EnvironmentEntry) : Except Rejection Unit :=
  match sealed.find? fun s => s.name.1 == entry.name with
  | none => .ok ()
  | some first =>
    if entry.value = some first.value then .ok ()
    else .error (.conflictingSealedEnvironment first.module none s!"environment[{index}].value"
      entry.name)

def templateOverrides : Except Rejection Unit :=
  forIdx template.environment (overrideRule sealed)

def selectCommand (selected : Option (ModuleIdentity × Command)) (spec : ModuleSpec) :
    Except Rejection (Option (ModuleIdentity × Command)) :=
  match spec.1.defaultCommand with
  | none => .ok selected
  | some command =>
    match selected with
    | none => .ok (some (spec.identity, command))
    | some (first, existing) =>
      if existing = command then .ok selected
      else .error (.conflictingDefaultCommands first spec.identity "default_command")

def defaultCommand : Except Rejection Command :=
  match template.command with
  | some command => .ok command
  | none => do
    let selected ← modules.foldlM selectCommand none
    okOr (selected.map Prod.snd) (.missingDefaultCommand "command")

/-- The modules and what they decide. -/
structure Composition where
  modules : List ModuleSpec
  command : Command
  sealed : List SealedValue

def compose (registry : ModuleRegistry) : Except Rejection Composition := do
  let modules ← order template registry
  exclusiveFields modules
  ownedPaths modules
  let sealed ← sealedEnvironment modules
  templateOverrides template sealed
  let command ← defaultCommand template modules
  return { modules, command, sealed }

end Soma.Template
