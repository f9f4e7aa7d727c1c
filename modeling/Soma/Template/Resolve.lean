import Soma.Template.Validate

/-! # Resolution

The digest of a composed selection, the resolved image, and the lock that results from a Template and its
external inputs.
-/

namespace Soma.Template

open Soma.Lib Soma.Codec Soma.Text Validate

/-! ## The content digest -/

def CONTENT_MAGIC : List UInt8 := bytes "SOMATMPL"
def PROJECTION_VERSION : U16 := 2

/-- Denial with explicit destinations is the same selection as an allowlist of them. -/
def logicalEgress (network : Network) : EgressIntent :=
  match network.egress with
  | .deny => if network.hasDestinations then .allowlist else .deny
  | intent => intent

/-- Adds an entry under a name that has none. -/
def orInsert {α : Type} (entries : List (String × α)) (entry : String × α) : List (String × α) :=
  if entries.any fun e => e.1 == entry.1 then entries else entries ++ [entry]

/-- Sets the entry under a name. -/
def insert {α : Type} (entries : List (String × α)) (entry : String × α) : List (String × α) :=
  (entries.filter fun e => e.1 != entry.1) ++ [entry]

/-- The Template entries and module seals under their names, in the order of the names. -/
def effectiveEnvironment (template : Template) (composition : Composition) :
    List (String × Option String) :=
  let entries := template.environment.foldl (fun m e => orInsert m (e.name, e.value)) []
  let entries := composition.sealed.foldl (fun m s => insert m (s.name.1, some s.value)) entries
  sortBy Prod.fst entries

variable (secret : SecretReference)

def digestScope : Option String :=
  match secret.delivery, secret.scope with
  | .environment, none => some secret.name
  | _, scope => scope

def digestMode : Option U32 :=
  match secret.delivery, secret.mode with
  | .file, none => some DEFAULT_SECRET_FILE_MODE
  | _, mode => mode

def putSecret : List UInt8 :=
  Writer.putString secret.name ++ Writer.putString secret.source ++ [secret.delivery.code]
    ++ Writer.putOptionalString (digestScope secret) ++ Writer.putOptional putWord (digestMode secret)

def putEntry (entry : String × Option String) : List UInt8 :=
  Writer.putString entry.1 ++ Writer.putOptionalString entry.2

section

variable [AddressText]

/-- The normalized network intent. -/
def putNetwork (network : Network) : List UInt8 :=
  [(logicalEgress network).code] ++ Writer.putStrings (sorted network.allowDomains)
    ++ Writer.putStrings (canonicalList network.allowCidrs) ++ [network.ingress.code]

/-- The canonical bytes of a composed selection, without its names and without external inputs. -/
def contentBytes (template : Template) (composition : Composition) : List UInt8 :=
  CONTENT_MAGIC ++ putWord PROJECTION_VERSION ++ putPlatform template.workload.platform
    ++ Writer.putList (fun spec => Writer.putString spec.identity.display) composition.modules
    ++ putCommand composition.command ++ template.resources.put ++ putNetwork template.network
    ++ template.lifecycle.put
    ++ Writer.putList putEntry (effectiveEnvironment template composition)
    ++ Writer.putList putSecret (sortBy SecretReference.name template.secrets)

variable [Sha256]

def contentDigest (template : Template) (composition : Composition) : Bytes 32 :=
  Sha256.digest (contentBytes template composition)

/-! ## The image -/

/-- Why an image is not resolved. -/
inductive ResolveError where
  | unresolvable
  | unavailable (detail : String)
deriving DecidableEq

/-- Resolves a reference to an exact manifest for one platform. -/
abbrev OciResolver := OciImage → OciPlatform → Except ResolveError ResolvedImage

def unresolvable (workload : Workload) : TemplateError :=
  .rejected (.unresolvableImage "workload.image" workload.image.1 (platformKey workload.platform))

def resolveError (workload : Workload) : ResolveError → TemplateError
  | .unresolvable => unresolvable workload
  | .unavailable detail => .unavailable .ociResolver detail

/-- The manifest of the workload, on its platform and behind its pin. -/
def resolveImage (template : Template) (resolver : OciResolver) : Except TemplateError ResolvedImage := do
  let image ← (resolver template.workload.image template.workload.platform).mapError
    (resolveError template.workload)
  ensure (image.platform = template.workload.platform) (unresolvable template.workload)
  forSome (splitOnce '@' template.workload.image.1.toList) fun (_, pinned) =>
    ensure (pinned = image.digest.asStr.toList) (unresolvable template.workload)
  return image

/-! ## The lock -/

def LockedModule.of (spec : ModuleSpec) : LockedModule where
  identity := spec.identity
  schemaVersion := spec.1.schemaVersion
  digest := spec.digest

def TemplateLock.assemble (template : Template) (composition : Composition) (image : ResolvedImage)
    (validated : Validated) (ceiling : PolicyCeiling) (backend : BackendCapabilities) : TemplateLock where
  templateSchema := SCHEMA
  policyVersion := POLICY_VERSION
  contentDigest := Soma.Template.contentDigest template composition
  image := image
  modules := composition.modules.map LockedModule.of
  command := validated.command
  resources := template.resources
  network := validated.network
  lifecycle := template.lifecycle
  environment := validated.environment
  secrets := validated.secrets
  ceiling := ceiling
  backend := backend

def resolveWith (registry : ModuleRegistry) (template : Template) (resolver : OciResolver)
    (ceiling : PolicyCeiling) (backend : BackendCapabilities) (oracle : FilesystemOracle) :
    Except TemplateError TemplateLock := do
  let composition ← rejecting (compose template registry)
  let image ← resolveImage template resolver
  let validated ← validateTemplate template composition image ceiling backend oracle
  return TemplateLock.assemble template composition image validated ceiling backend

end

/-! ## What resolution accepts -/

variable {template : Template} {composition : Composition} {registry : ModuleRegistry}

theorem compose_eq_ok :
    compose template registry = .ok composition ↔ order template registry = .ok composition.modules
      ∧ exclusiveFields composition.modules = .ok () ∧ ownedPaths composition.modules = .ok ()
      ∧ sealedEnvironment composition.modules = .ok composition.sealed
      ∧ templateOverrides template composition.sealed = .ok ()
      ∧ defaultCommand template composition.modules = .ok composition.command := by
  constructor
  · intro h
    obtain ⟨modules, horder, h⟩ := bind_eq_ok.mp h
    obtain ⟨hfields, h⟩ := seq_eq_ok.mp h
    obtain ⟨hpaths, h⟩ := seq_eq_ok.mp h
    obtain ⟨sealed, hsealed, h⟩ := bind_eq_ok.mp h
    obtain ⟨hoverrides, h⟩ := seq_eq_ok.mp h
    obtain ⟨command, hcommand, h⟩ := bind_eq_ok.mp h
    cases h
    exact ⟨horder, hfields, hpaths, hsealed, hoverrides, hcommand⟩
  · rintro ⟨horder, hfields, hpaths, hsealed, hoverrides, hcommand⟩
    exact bind_eq_ok.mpr ⟨_, horder, seq_eq_ok.mpr ⟨hfields, seq_eq_ok.mpr ⟨hpaths,
      bind_eq_ok.mpr ⟨_, hsealed, seq_eq_ok.mpr ⟨hoverrides, bind_eq_ok.mpr ⟨_, hcommand, rfl⟩⟩⟩⟩⟩⟩

theorem rejecting_eq_ok {α : Type} {x : Except Rejection α} {a : α} : rejecting x = .ok a ↔ x = .ok a :=
  mapError_eq_ok

/-- The checks of validation, each with its result. -/
structure Accepts [AddressText] (template : Template) (composition : Composition)
    (image : ResolvedImage) (ceiling : PolicyCeiling) (backend : BackendCapabilities)
    (oracle : FilesystemOracle) (validated : Validated) : Prop where
  platforms : platforms template composition backend = .ok ()
  resources : resources template backend = .ok ()
  lifecycle : lifecycle template backend = .ok ()
  description : description template = .ok ()
  command : command composition.command = .ok validated.command
  modules : modules composition = .ok ()
  environment : environment template composition = .ok validated.environment
  network : envelope template.network ceiling = .ok validated.network
  secrets : secrets template composition validated.network validated.environment
    = .ok validated.secrets
  required : requiredEnvironment composition validated.environment validated.secrets = .ok ()
  executable : executable validated.command composition.modules image oracle = .ok ()

variable {image : ResolvedImage} {backend : BackendCapabilities} {oracle : FilesystemOracle}

theorem validateTemplate_eq_ok [AddressText] {ceiling : PolicyCeiling} {validated : Validated} :
    validateTemplate template composition image ceiling backend oracle = .ok validated ↔
      Accepts template composition image ceiling backend oracle validated := by
  constructor
  · intro h
    obtain ⟨hplatforms, h⟩ := seq_eq_ok.mp h
    obtain ⟨hresources, h⟩ := seq_eq_ok.mp h
    obtain ⟨hlifecycle, h⟩ := seq_eq_ok.mp h
    obtain ⟨hdescription, h⟩ := seq_eq_ok.mp h
    obtain ⟨command, hcommand, h⟩ := bind_eq_ok.mp h
    obtain ⟨hmodules, h⟩ := seq_eq_ok.mp h
    obtain ⟨environment, henvironment, h⟩ := bind_eq_ok.mp h
    obtain ⟨network, hnetwork, h⟩ := bind_eq_ok.mp h
    obtain ⟨secrets, hsecrets, h⟩ := bind_eq_ok.mp h
    obtain ⟨hrequired, h⟩ := seq_eq_ok.mp h
    obtain ⟨hexecutable, h⟩ := seq_eq_ok.mp h
    cases h
    simp only [rejecting_eq_ok] at *
    exact ⟨hplatforms, hresources, hlifecycle, hdescription, hcommand, hmodules, henvironment, hnetwork,
      hsecrets, hrequired, hexecutable⟩
  · intro h
    refine seq_eq_ok.mpr ⟨rejecting_eq_ok.mpr h.platforms, ?_⟩
    refine seq_eq_ok.mpr ⟨rejecting_eq_ok.mpr h.resources, ?_⟩
    refine seq_eq_ok.mpr ⟨rejecting_eq_ok.mpr h.lifecycle, ?_⟩
    refine seq_eq_ok.mpr ⟨rejecting_eq_ok.mpr h.description, ?_⟩
    refine bind_eq_ok.mpr ⟨_, rejecting_eq_ok.mpr h.command, ?_⟩
    refine seq_eq_ok.mpr ⟨rejecting_eq_ok.mpr h.modules, ?_⟩
    refine bind_eq_ok.mpr ⟨_, rejecting_eq_ok.mpr h.environment, ?_⟩
    refine bind_eq_ok.mpr ⟨_, rejecting_eq_ok.mpr h.network, ?_⟩
    refine bind_eq_ok.mpr ⟨_, rejecting_eq_ok.mpr h.secrets, ?_⟩
    exact seq_eq_ok.mpr ⟨rejecting_eq_ok.mpr h.required, seq_eq_ok.mpr ⟨h.executable, rfl⟩⟩

variable {resolver : OciResolver}

theorem resolveImage_platform
    (h : resolveImage template resolver = .ok image) : image.platform = template.workload.platform := by
  obtain ⟨resolved, -, h⟩ := bind_eq_ok.mp h
  obtain ⟨hplatform, h⟩ := seq_eq_ok.mp h
  obtain ⟨-, h⟩ := seq_eq_ok.mp h
  cases h
  exact ensure_eq_ok.mp hplatform

theorem resolveWith_eq_ok [AddressText] [Sha256] {ceiling : PolicyCeiling} {lock : TemplateLock} :
    resolveWith registry template resolver ceiling backend oracle = .ok lock ↔
      ∃ composition image validated, compose template registry = .ok composition
        ∧ resolveImage template resolver = .ok image
        ∧ Accepts template composition image ceiling backend oracle validated
        ∧ lock = TemplateLock.assemble template composition image validated ceiling backend := by
  constructor
  · intro h
    obtain ⟨composition, hcompose, h⟩ := bind_eq_ok.mp h
    obtain ⟨image, himage, h⟩ := bind_eq_ok.mp h
    obtain ⟨validated, hvalidated, h⟩ := bind_eq_ok.mp h
    cases h
    exact ⟨composition, image, validated, rejecting_eq_ok.mp hcompose, himage,
      validateTemplate_eq_ok.mp hvalidated, rfl⟩
  · rintro ⟨composition, image, validated, hcompose, himage, haccepts, rfl⟩
    exact bind_eq_ok.mpr ⟨_, rejecting_eq_ok.mpr hcompose, bind_eq_ok.mpr ⟨_, himage,
      bind_eq_ok.mpr ⟨_, validateTemplate_eq_ok.mpr haccepts, rfl⟩⟩⟩

end Soma.Template
