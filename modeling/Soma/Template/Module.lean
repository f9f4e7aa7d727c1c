import Soma.Template.Schema

/-! # Modules

The data contract of a module version with the bounds its builder checks, its digest, and the registry
composition looks modules up in.
-/

namespace Soma.Template

open Soma.Lib Soma.Codec Soma.Text Writer

def MAX_MODULE_LIST : ℕ := 64
def MAX_FIELD_NAME_BYTES : ℕ := 128
def MAX_SEALED_VALUE_BYTES : ℕ := 4096
def MAX_REGISTRY_MODULES : ℕ := 256

/-- A network destination a module may want to reach. -/
structure Destination where
  host : String
  port : U16
deriving DecidableEq

/-- How a Backend may check that a module is alive. -/
inductive HealthProbe where
  | command (program : String) (args : List String) (timeoutSeconds : U32)
  | tcp (port : U16)
deriving DecidableEq

/-- Why a module is refused. -/
inductive ModuleError where
  | bound (error : BoundError)
  | noPlatform
  | zeroSchemaVersion
  | duplicateModule (identity : ModuleIdentity)
  | registryFull (maximum : ℕ)
deriving DecidableEq

/-- The accumulated data of a module, before its bounds were checked. -/
structure ModuleBuilder where
  identity : ModuleIdentity
  schemaVersion : U16
  requires : List ModuleRef
  exclusiveFields : List String
  ownedPaths : List GuestPath
  executables : List GuestPath
  requiredEnvironment : List EnvironmentName
  secretEnvironment : List EnvironmentName
  sealedEnvironment : List (EnvironmentName × String)
  destinations : List Destination
  healthProbe : Option HealthProbe
  platforms : List OciPlatform
  defaultCommand : Option Command
deriving DecidableEq

namespace ModuleBuilder

/-- The lists with their names, in the order they are measured. -/
def lists (b : ModuleBuilder) : List (String × ℕ) :=
  [("requires", b.requires.length), ("exclusive_fields", b.exclusiveFields.length),
   ("owned_paths", b.ownedPaths.length), ("executables", b.executables.length),
   ("required_environment", b.requiredEnvironment.length),
   ("secret_environment", b.secretEnvironment.length),
   ("sealed_environment", b.sealedEnvironment.length), ("destinations", b.destinations.length),
   ("platforms", b.platforms.length)]

def fieldNameRule (value : String) : Except ModuleError Unit :=
  if value.toList.isEmpty then .error (.bound (.empty "exclusive_fields"))
  else if MAX_FIELD_NAME_BYTES < value.utf8ByteSize || value.toList.any isAsciiControl then
    .error (.bound (.tooLong "exclusive_fields" MAX_FIELD_NAME_BYTES))
  else .ok ()

def sealedRule (sealed : EnvironmentName × String) : Except ModuleError Unit :=
  ensure (¬ (MAX_SEALED_VALUE_BYTES < sealed.2.utf8ByteSize ∨ hasNul sealed.2 = true))
    (.bound (.tooLong "sealed_environment" MAX_SEALED_VALUE_BYTES))

/-- Every list and string bound. -/
def rule (b : ModuleBuilder) : Except ModuleError Unit := do
  ensure (b.schemaVersion ≠ 0) .zeroSchemaVersion
  ensure (b.platforms ≠ []) .noPlatform
  b.lists.forM fun (field, length) =>
    ensure (length ≤ MAX_MODULE_LIST) (.bound (.tooMany field MAX_MODULE_LIST))
  b.exclusiveFields.forM fieldNameRule
  b.sealedEnvironment.forM sealedRule

end ModuleBuilder

/-- The data contract of one module version, within its bounds. -/
abbrev ModuleSpec := Valid ModuleBuilder.rule

def ModuleBuilder.build (b : ModuleBuilder) : Except ModuleError ModuleSpec :=
  validate rule b

namespace ModuleSpec

variable (spec : ModuleSpec)

abbrev identity : ModuleIdentity := spec.1.identity

theorem schemaVersion_ne_zero : spec.1.schemaVersion ≠ 0 := by
  have h := spec.2
  rw [ModuleBuilder.rule, seq_eq_ok, ensure_eq_ok] at h
  exact h.1

theorem sealed_bounded {sealed : EnvironmentName × String} (hsealed : sealed ∈ spec.1.sealedEnvironment) :
    sealed.2.utf8ByteSize ≤ MAX_STRING_BYTES ∧ hasNul sealed.2 = false := by
  have h := spec.2
  simp only [ModuleBuilder.rule, seq_eq_ok, forM_eq_ok] at h
  have hrule := h.2.2.2.2 sealed hsealed
  rw [ModuleBuilder.sealedRule, ensure_eq_ok, not_or, Nat.not_lt, Bool.not_eq_true] at hrule
  exact hrule

end ModuleSpec

/-! ## The digest -/

/-- A command with the defaults of its working directory and user. -/
def putCommand (command : Command) : List UInt8 :=
  putString command.program.1 ++ putStrings command.args.1
    ++ putString (command.workingDirectory.elim DEFAULT_WORKING_DIRECTORY Subtype.val)
    ++ putString (command.user.elim DEFAULT_USER Subtype.val)

namespace ModuleSpec

def MAGIC : List UInt8 := bytes "SOMAMODL"
def ENCODING_VERSION : U16 := 1

def putProbe : Option HealthProbe → List UInt8
  | none => [0]
  | some (.command program args timeoutSeconds) =>
    [1] ++ putString program ++ putStrings args ++ putWord timeoutSeconds
  | some (.tcp port) => [2] ++ putWord port

/-- The canonical bytes of a module contract. -/
def encode (spec : ModuleSpec) : List UInt8 :=
  MAGIC ++ putWord ENCODING_VERSION ++ [spec.identity.kind.code]
    ++ putString spec.identity.name ++ putWord spec.identity.version
    ++ putWord spec.1.schemaVersion
    ++ putList (fun reference => putString reference.display) spec.1.requires
    ++ putStrings spec.1.exclusiveFields
    ++ putList (fun path => putString path.1) spec.1.ownedPaths
    ++ putList (fun path => putString path.1) spec.1.executables
    ++ putList (fun name => putString name.1) spec.1.requiredEnvironment
    ++ putList (fun name => putString name.1) spec.1.secretEnvironment
    ++ putList (fun sealed => putString sealed.1.1 ++ putString sealed.2)
      spec.1.sealedEnvironment
    ++ putList (fun destination => putString destination.host ++ putWord destination.port)
      spec.1.destinations
    ++ putProbe spec.1.healthProbe ++ putList putPlatform spec.1.platforms
    ++ putOptional putCommand spec.1.defaultCommand

def digest [Sha256] (spec : ModuleSpec) : Bytes 32 :=
  Sha256.digest spec.encode

end ModuleSpec

/-! ## The registry -/

/-- Modules under distinct identities. -/
structure ModuleRegistry where
  modules : List ModuleSpec
  bounded : modules.length ≤ MAX_REGISTRY_MODULES
  distinct : (modules.map ModuleSpec.identity).Nodup

namespace ModuleRegistry

def empty : ModuleRegistry := ⟨[], Nat.zero_le _, List.nodup_nil⟩

variable (registry : ModuleRegistry)

def get (identity : ModuleIdentity) : Option ModuleSpec :=
  registry.modules.find? fun spec => spec.identity == identity

def register (spec : ModuleSpec) : Except ModuleError ModuleRegistry :=
  if hnew : spec.identity ∈ registry.modules.map ModuleSpec.identity then
    .error (.duplicateModule spec.identity)
  else if hfull : MAX_REGISTRY_MODULES ≤ registry.modules.length then
    .error (.registryFull MAX_REGISTRY_MODULES)
  else .ok {
    modules := spec :: registry.modules
    bounded := by
      rw [List.length_cons]
      exact Nat.not_le.mp hfull
    distinct := List.nodup_cons.mpr ⟨hnew, registry.distinct⟩ }

theorem get_eq_some {registry : ModuleRegistry} {identity : ModuleIdentity} {spec : ModuleSpec}
    (h : registry.get identity = some spec) : spec ∈ registry.modules ∧ spec.identity = identity := by
  unfold get at h
  have hfound := List.find?_some h
  exact ⟨List.mem_of_find?_eq_some h, eq_of_beq hfound⟩

end ModuleRegistry

end Soma.Template
