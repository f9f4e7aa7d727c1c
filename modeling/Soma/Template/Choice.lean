import Soma.Template.Cidr
import Soma.Template.Wire

/-! # Choices of the document

The bounds and defaults of the Template document and its closed choices with their wire codes. A choice
is read from its code and from no other (`Coded`).
-/

namespace Soma.Template

open Soma.Lib Soma.Codec Soma.Text

def SCHEMA : String := "soma.template/v1alpha1"
def MAX_DOCUMENT_BYTES : ℕ := 256 * 1024
def MAX_STRING_BYTES : ℕ := 4096
def MAX_NAME_BYTES : ℕ := 128
def MAX_MODULES : ℕ := 64
def MAX_ARGUMENTS : ℕ := 64
def MAX_ENVIRONMENT : ℕ := 256
def MAX_SECRETS : ℕ := 64
def MAX_DOMAINS : ℕ := 256
def MAX_CIDRS : ℕ := 256
def DEFAULT_WORKING_DIRECTORY : String := "/"
def DEFAULT_USER : String := "root"
def DEFAULT_SECRET_FILE_MODE : U32 := 0o400
def DEFAULT_IDLE_TIMEOUT_SECONDS : U64 := 300
def DEFAULT_MAXIMUM_LIFETIME_SECONDS : U64 := 3600

/-- A bound or shape violation on one named field. -/
inductive BoundError where
  | empty (field : String)
  | tooLong (field : String) (maximum : ℕ)
  | tooMany (field : String) (maximum : ℕ)
  | forbiddenCharacter (field : String)
  | invalidShape (field : String)
deriving DecidableEq

/-! ## Choices -/

/-- Where a sandbox may connect to. -/
inductive EgressIntent where
  | deny
  | allowlist
  | unrestricted
deriving DecidableEq

namespace EgressIntent

def asStr : EgressIntent → String
  | deny => "deny"
  | allowlist => "allowlist"
  | unrestricted => "unrestricted"

def code : EgressIntent → UInt8
  | deny => 0
  | allowlist => 1
  | unrestricted => 2

def fromCode : UInt8 → Option EgressIntent
  | 0 => some deny
  | 1 => some allowlist
  | 2 => some unrestricted
  | _ => none

/-- From the narrowest to the widest. -/
instance : LE EgressIntent := ⟨fun a b => a.code ≤ b.code⟩
instance (a b : EgressIntent) : Decidable (a ≤ b) := inferInstanceAs (Decidable (a.code ≤ b.code))

end EgressIntent

inductive IngressIntent where
  | deny
  | unrestricted
deriving DecidableEq

namespace IngressIntent

def asStr : IngressIntent → String
  | deny => "deny"
  | unrestricted => "unrestricted"

def code : IngressIntent → UInt8
  | deny => 0
  | unrestricted => 1

def fromCode : UInt8 → Option IngressIntent
  | 0 => some deny
  | 1 => some unrestricted
  | _ => none

instance : LE IngressIntent := ⟨fun a b => a.code ≤ b.code⟩
instance (a b : IngressIntent) : Decidable (a ≤ b) := inferInstanceAs (Decidable (a.code ≤ b.code))

end IngressIntent

/-- What happens to an idle Instance. -/
inductive IdleAction where
  | destroy
  | stop
  | checkpoint
deriving DecidableEq

namespace IdleAction

def asStr : IdleAction → String
  | destroy => "destroy"
  | stop => "stop"
  | checkpoint => "checkpoint"

def code : IdleAction → UInt8
  | destroy => 0
  | stop => 1
  | checkpoint => 2

def fromCode : UInt8 → Option IdleAction
  | 0 => some destroy
  | 1 => some stop
  | 2 => some checkpoint
  | _ => none

end IdleAction

/-- How a secret reaches the workload. -/
inductive SecretDelivery where
  | environment
  | file
  | egressProxy
deriving DecidableEq

namespace SecretDelivery

def code : SecretDelivery → UInt8
  | environment => 0
  | file => 1
  | egressProxy => 2

def fromCode : UInt8 → Option SecretDelivery
  | 0 => some environment
  | 1 => some file
  | 2 => some egressProxy
  | _ => none

end SecretDelivery

inductive ModuleKind where
  | agent
  | tools
  | workspace
  | network
  | environment
  | secrets
  | lifecycle
  | resources
deriving DecidableEq

namespace ModuleKind

def ALL : List ModuleKind :=
  [agent, tools, workspace, network, environment, secrets, lifecycle, resources]

def asStr : ModuleKind → String
  | agent => "agent"
  | tools => "tools"
  | workspace => "workspace"
  | network => "network"
  | environment => "environment"
  | secrets => "secrets"
  | lifecycle => "lifecycle"
  | resources => "resources"

def parse (value : List Char) : Option ModuleKind :=
  ALL.find? fun kind => kind.asStr.toList == value

def code : ModuleKind → UInt8
  | agent => 1
  | tools => 2
  | workspace => 3
  | network => 4
  | environment => 5
  | secrets => 6
  | lifecycle => 7
  | resources => 8

def fromCode : UInt8 → Option ModuleKind
  | 1 => some agent
  | 2 => some tools
  | 3 => some workspace
  | 4 => some network
  | 5 => some environment
  | 6 => some secrets
  | 7 => some lifecycle
  | 8 => some resources
  | _ => none

end ModuleKind

def choiceOf {α : Type} (field : String) (fromCode : UInt8 → Option α) : Reader α :=
  refine Reader.u8 fun value => okOr (fromCode value) (.invalidDiscriminant field value)

/-- What the codes of a choice have in common: each is read back, and from that code only. -/
structure Coded {α : Type} (code : α → UInt8) (fromCode : UInt8 → Option α) : Prop where
  fromCode_code : ∀ a, fromCode (code a) = some a
  code_of_fromCode : ∀ c a, fromCode c = some a → code a = c

theorem Coded.format {α : Type} {code : α → UInt8} {fromCode : UInt8 → Option α}
    (h : Coded code fromCode) (field : String) :
    Exact (choiceOf field fromCode) (fun a => [code a]) :=
  u8_format.coded h.fromCode_code h.code_of_fromCode

theorem EgressIntent.coded : Coded code fromCode where
  fromCode_code a := by cases a <;> rfl
  code_of_fromCode c a h := by
    unfold fromCode at h
    split at h <;> cases h <;> rfl

theorem IngressIntent.coded : Coded code fromCode where
  fromCode_code a := by cases a <;> rfl
  code_of_fromCode c a h := by
    unfold fromCode at h
    split at h <;> cases h <;> rfl

theorem IdleAction.coded : Coded code fromCode where
  fromCode_code a := by cases a <;> rfl
  code_of_fromCode c a h := by
    unfold fromCode at h
    split at h <;> cases h <;> rfl

theorem SecretDelivery.coded : Coded code fromCode where
  fromCode_code a := by cases a <;> rfl
  code_of_fromCode c a h := by
    unfold fromCode at h
    split at h <;> cases h <;> rfl

theorem ModuleKind.coded : Coded code fromCode where
  fromCode_code a := by cases a <;> rfl
  code_of_fromCode c a h := by
    unfold fromCode at h
    split at h <;> cases h <;> rfl

end Soma.Template
