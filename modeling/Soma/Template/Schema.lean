import Soma.Template.Image

/-! # The Template document

Module identities and references, the command with the bounds its constructor checks, the document after
parsing, and the ways it is refused. Every refusal names the field it is about, and the module where one
is involved.
-/

namespace Soma.Template

open Soma.Lib Soma.Codec Soma.Text

/-! ## Modules by name -/

def MAX_MODULE_NAME_BYTES : ℕ := 64
def MAX_REFERENCE_BYTES : ℕ := 256

/-- Lowercase letters, digits and interior hyphens. -/
def validName (name : List Char) : Bool :=
  !name.isEmpty && len name ≤ MAX_MODULE_NAME_BYTES && name.head? != some '-'
    && name.getLast? != some '-' && name.all fun c => c.isLower || c.isDigit || c == '-'

/-- One exact pinned module. -/
structure ModuleIdentity where
  kind : ModuleKind
  name : String
  version : U32
  valid : validName name.toList = true
deriving DecidableEq

namespace ModuleIdentity

def new (kind : ModuleKind) (name : String) (version : U32) : Except BoundError ModuleIdentity :=
  if h : validName name.toList = true then .ok ⟨kind, name, version, h⟩
  else .error (.forbiddenCharacter "name")

def display (identity : ModuleIdentity) : String :=
  "soma://" ++ identity.kind.asStr ++ "/" ++ identity.name ++ "@" ++ toString identity.version.toNat

end ModuleIdentity

inductive ModuleRefError where
  | tooLong
  | scheme
  | kind
  | name
  | version
deriving DecidableEq

def ModuleRefError.display : ModuleRefError → String
  | tooLong => "module reference is too long"
  | scheme => "module reference must start with soma://"
  | kind => "module reference has an unknown kind"
  | name => "module reference has an invalid name"
  | version => "module reference has an invalid version"

/-- A module reference, pinned to a version or not. -/
structure ModuleRef where
  kind : ModuleKind
  name : String
  version : Option U32
  valid : validName name.toList = true
deriving DecidableEq

namespace ModuleRef

/-- A decimal word without leading zeros. -/
def parseVersion (text : List Char) : Except ModuleRefError U32 :=
  if text.isEmpty || 10 < len text || !text.all Char.isDigit then .error .version
  else if 1 < len text && text.head? == some '0' then .error .version
  else if 2 ^ 32 ≤ Cidr.decimal text then .error .version
  else .ok (BitVec.ofNat 32 (Cidr.decimal text))

/-- Reads `soma://<kind>/<name>` with an optional `@<version>`. -/
def parse (value : String) : Except ModuleRefError ModuleRef := do
  if MAX_REFERENCE_BYTES < value.utf8ByteSize then throw .tooLong
  let rest ← okOr (stripPrefix "soma://".toList value.toList) .scheme
  let (kindText, rest) ← okOr (splitOnce '/' rest) .kind
  let kind ← okOr (ModuleKind.parse kindText) .kind
  let (name, versionText) := match splitOnce '@' rest with
    | some (name, version) => (name, some version)
    | none => (rest, none)
  if h : validName name = true then
    let version ← match versionText with
      | some text => some <$> parseVersion text
      | none => pure none
    return ⟨kind, String.ofList name, version, by rwa [String.toList_ofList]⟩
  else throw .name

def pinned (reference : ModuleRef) : Option ModuleIdentity :=
  reference.version.map fun version => ⟨reference.kind, reference.name, version, reference.valid⟩

def display (reference : ModuleRef) : String :=
  "soma://" ++ reference.kind.asStr ++ "/" ++ reference.name
    ++ (match reference.version with
      | some version => "@" ++ toString version.toNat
      | none => "")

end ModuleRef

/-! ## The command -/

def hasNul (value : String) : Bool :=
  value.toList.contains '\x00'

/-- Nonempty, within the string bound and without a NUL. -/
def boundedText (field value : String) : Except BoundError Unit :=
  if value.toList.isEmpty then .error (.empty field)
  else if MAX_STRING_BYTES < value.utf8ByteSize then .error (.tooLong field MAX_STRING_BYTES)
  else if hasNul value then .error (.forbiddenCharacter field)
  else .ok ()

def argumentRule (argument : String) : Except BoundError Unit :=
  if MAX_STRING_BYTES < argument.utf8ByteSize then .error (.tooLong "command.args" MAX_STRING_BYTES)
  else if hasNul argument then .error (.forbiddenCharacter "command.args")
  else .ok ()

def argumentsRule (args : List String) : Except BoundError Unit :=
  if MAX_ARGUMENTS < args.length then .error (.tooMany "command.args" MAX_ARGUMENTS)
  else args.forM argumentRule

/-- The default program of an Instance. -/
structure Command where
  program : Valid (boundedText "command.program")
  args : Valid argumentsRule
  workingDirectory : Option (Valid (boundedText "command.working_directory"))
  user : Option (Valid (boundedText "command.user"))
deriving DecidableEq

namespace Command

def new (program : String) (args : List String) : Except BoundError Command := do
  let program ← validate (boundedText "command.program") program
  let args ← validate argumentsRule args
  return ⟨program, args, none, none⟩

def withWorkingDirectory (command : Command) (directory : String) : Except BoundError Command := do
  let directory ← validate (boundedText "command.working_directory") directory
  return { command with workingDirectory := some directory }

def withUser (command : Command) (user : String) : Except BoundError Command := do
  let user ← validate (boundedText "command.user") user
  return { command with user := some user }

end Command

theorem boundedText_eq_ok {field value : String} (h : boundedText field value = .ok ()) :
    value.toList.isEmpty = false ∧ value.utf8ByteSize ≤ MAX_STRING_BYTES ∧ hasNul value = false := by
  unfold boundedText at h
  split_ifs at h with hempty hlen hnul
  exact ⟨by simpa using hempty, Nat.not_lt.mp hlen, by simpa using hnul⟩

theorem argumentsRule_eq_ok {args : List String} (h : argumentsRule args = .ok ()) :
    args.length ≤ MAX_ARGUMENTS
      ∧ ∀ argument ∈ args, argument.utf8ByteSize ≤ MAX_STRING_BYTES ∧ hasNul argument = false := by
  unfold argumentsRule at h
  split_ifs at h with hcount
  refine ⟨Nat.not_lt.mp hcount, fun argument hargument => ?_⟩
  have hrule := forM_eq_ok.mp h argument hargument
  unfold argumentRule at hrule
  split_ifs at hrule with hlen hnul
  exact ⟨Nat.not_lt.mp hlen, by simpa using hnul⟩

/-! ## The document -/

/-- The image and its platform. -/
structure Workload where
  image : OciImage
  platform : OciPlatform
deriving DecidableEq

/-- The requested Machine shape. -/
structure Resources where
  vcpus : U32
  memoryMib : U64
  writableStorageMib : U64
deriving DecidableEq

/-- The shape of a Machine that states none. -/
def Resources.default : Resources := ⟨1, 1024, 10240⟩

/-- The authored network intent. -/
structure Network where
  egress : EgressIntent
  allowDomains : List String
  allowCidrs : List String
  ingress : IngressIntent
deriving DecidableEq

def Network.default : Network := ⟨.deny, [], [], .deny⟩

/-- When an Instance ends. -/
structure Lifecycle where
  idleTimeoutSeconds : U64
  maximumLifetimeSeconds : U64
  onIdle : IdleAction
deriving DecidableEq

def Lifecycle.default : Lifecycle :=
  ⟨DEFAULT_IDLE_TIMEOUT_SECONDS, DEFAULT_MAXIMUM_LIFETIME_SECONDS, .destroy⟩

/-- One declared environment slot; without a value, Launch must supply it. -/
structure EnvironmentEntry where
  name : String
  value : Option String
deriving DecidableEq

/-- A reference to a secret held outside the Template. -/
structure SecretReference where
  name : String
  source : String
  delivery : SecretDelivery
  scope : Option String
  mode : Option U32
deriving DecidableEq

set_option linter.dupNamespace false in
/-- One parsed Template document. -/
structure Template where
  name : String
  description : Option String
  workload : Workload
  modules : List ModuleRef
  command : Option Command
  resources : Resources
  network : Network
  lifecycle : Lifecycle
  environment : List EnvironmentEntry
  secrets : List SecretReference
deriving DecidableEq

/-! ## Refusals -/

/-- One rejection with the module and field responsible. -/
inductive Rejection where
  | unresolvableImage (field reference platform : String)
  | unsupportedPlatform (module : Option ModuleIdentity) (field platform : String)
  | missingRequiredEnvironment (module : ModuleIdentity) (field name : String)
  | duplicateExclusiveOwnership (first second : ModuleIdentity) (field owned : String)
  | conflictingDefaultCommands (first second : ModuleIdentity) (field : String)
  | conflictingSealedEnvironment (module : ModuleIdentity) (conflictingModule : Option ModuleIdentity)
      (field name : String)
  | missingDefaultCommand (field : String)
  | conflictingDeliveryTarget (module : Option ModuleIdentity) (field target : String)
  | secretLiteral (module : Option ModuleIdentity) (field name : String)
  | secretWithoutScope (field name : String)
  | networkExceedsCeiling (field requested ceiling : String)
  | executableAbsent (field program : String)
  | invalidValue (module : Option ModuleIdentity) (field : String) (reason : InvalidReason)
  | unsupportedLifecycleAction (field action : String)
  | moduleCycle (module : ModuleIdentity) (field : String) (cycle : List ModuleIdentity)
  | unpinnedInput (module : Option ModuleIdentity) (field reference : String)
  | unknownModule (module : Option ModuleIdentity) (field reference : String)
  | duplicateModule (field reference : String)
deriving DecidableEq

/-- What only the outside can answer. -/
inductive ExternalDependency where
  | ociResolver
  | filesystemOracle
deriving DecidableEq

/-- Why resolution produced no lock. -/
inductive TemplateError where
  | rejected (rejection : Rejection)
  | unavailable (dependency : ExternalDependency) (detail : String)
deriving DecidableEq

end Soma.Template
