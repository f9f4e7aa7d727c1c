import Soma.Lib.Codec

/-! # Generation artifacts

The compiler's redacted errors, and the typed, content-addressed artifacts a Generation manifest binds.
-/

namespace Soma.Generation

open Soma.Codec

/-! ## Errors -/

/-- The step that failed. -/
inductive CompilePhase where
  | resolveInputs | decodeTree | streamTree | formatRoot | verifyRoot | buildOverlay | verifyOverlay
  | verifyKernel | buildInitramfs | verifyInitramfs | encodeManifest | bootAndCapture | certify | publish
  | verifyGeneration
deriving DecidableEq

/-- Why a step failed. -/
inductive CompileErrorKind where
  | invalidInput | unsupported | limitExceeded | integrity | storeConflict | io | toolchain | unimplemented
deriving DecidableEq

/-- The compatibility invariant a decoded manifest failed. -/
inductive Incompatibility where
  | policyVersion | sourcePlatform | zeroDigest | treeSize | rootUuid | rootFormat | rootSize
  | overlayProfile | overlayCapacity | overlayBounds | overlaySize | kernelContract | kernelSize
  | initramfsLayout | initramfsSize | guestAgentSize | guestAgentProvenance | guestProtocol | commandLine
  | contractStatement | memorySize | memoryAlignment | vcpuCount | memorySlotVersion | launchPageVersion
  | snapshotBinding | repairPolicy | writableStorage | networkPolicy | workloadProbe | ttl
  | artifactSizeOverflow
deriving DecidableEq

structure CompileError where
  phase : CompilePhase
  kind : CompileErrorKind
  incompatibility : Option Incompatibility
deriving DecidableEq

namespace CompileError

def new (phase : CompilePhase) (kind : CompileErrorKind) : CompileError := ⟨phase, kind, none⟩

def incompatible (reason : Incompatibility) : CompileError :=
  ⟨.verifyGeneration, .unsupported, some reason⟩

end CompileError

/-! ## Artifacts -/

/-- What an artifact is for. -/
inductive ArtifactRole where
  | kernel | initramfs | erofsRoot | overlayTemplate | guestAgent | earlyInit | memorySnapshot
  | stateManifest | generationManifest | generationCandidate | overlaySnapshot
deriving DecidableEq

namespace ArtifactRole

def mediaType : ArtifactRole → String
  | kernel => "application/vnd.soma.kernel.elf.v1"
  | initramfs => "application/vnd.soma.initramfs.newc.v1"
  | erofsRoot => "application/vnd.soma.rootfs.erofs.v1"
  | overlayTemplate => "application/vnd.soma.overlay-template.ext4.v1"
  | guestAgent => "application/vnd.soma.guest-agent.elf.v1"
  | earlyInit => "application/vnd.soma.early-init.elf.v1"
  | memorySnapshot => "application/vnd.soma.snapshot.memory.v1"
  | stateManifest => "application/vnd.soma.snapshot.state.v2"
  | generationManifest => "application/vnd.soma.generation.v2"
  | generationCandidate => "application/vnd.soma.generation-candidate.v2"
  | overlaySnapshot => "application/vnd.soma.snapshot.overlay.v1"

def code : ArtifactRole → UInt8
  | kernel => 1
  | initramfs => 2
  | erofsRoot => 3
  | overlayTemplate => 4
  | guestAgent => 5
  | earlyInit => 6
  | memorySnapshot => 7
  | stateManifest => 8
  | generationManifest => 9
  | generationCandidate => 10
  | overlaySnapshot => 11

def fromCode : UInt8 → Option ArtifactRole
  | 1 => some kernel
  | 2 => some initramfs
  | 3 => some erofsRoot
  | 4 => some overlayTemplate
  | 5 => some guestAgent
  | 6 => some earlyInit
  | 7 => some memorySnapshot
  | 8 => some stateManifest
  | 9 => some generationManifest
  | 10 => some generationCandidate
  | 11 => some overlaySnapshot
  | _ => none

theorem fromCode_code (role : ArtifactRole) : fromCode role.code = some role := by
  cases role <;> rfl

theorem code_of_fromCode {byte : UInt8} {role : ArtifactRole} (h : fromCode byte = some role) :
    role.code = byte := by
  unfold fromCode at h
  split at h <;> cases h <;> rfl

end ArtifactRole

abbrev Sha256Digest := Bytes 32

/-- One immutable artifact: its role, the digest of its bytes and their exact number. -/
structure ArtifactDescriptor where
  role : ArtifactRole
  digest : Sha256Digest
  size : U64
deriving DecidableEq

def ArtifactDescriptor.mediaType (descriptor : ArtifactDescriptor) : String :=
  descriptor.role.mediaType

/-- One versioned contract, bound by the digest of its statement. -/
structure ContractBinding where
  version : U16
  digest : Sha256Digest
deriving DecidableEq

/-! ## Tree bounds -/

/-- The bounds for decoding a tree. -/
structure TreeBounds where
  maxEntries : U32
  maxPathBytes : U32
  maxLinkBytes : U32
  maxMetadataBytes : U64
  maxFileBytes : U64
  maxContentBytes : U64
deriving DecidableEq

/-! ## Network policy classes -/

/-- The class of a network policy. -/
inductive NetworkPolicyClass where
  | isolated | runtimeDefault | explicit
deriving DecidableEq

namespace NetworkPolicyClass

def code : NetworkPolicyClass → UInt8
  | isolated => 0
  | runtimeDefault => 1
  | explicit => 2

def fromCode : UInt8 → Option NetworkPolicyClass
  | 0 => some isolated
  | 1 => some runtimeDefault
  | 2 => some explicit
  | _ => none

theorem fromCode_code (policy : NetworkPolicyClass) : fromCode policy.code = some policy := by
  cases policy <;> rfl

theorem code_of_fromCode {byte : UInt8} {policy : NetworkPolicyClass} (h : fromCode byte = some policy) :
    policy.code = byte := by
  unfold fromCode at h
  split at h <;> cases h <;> rfl

end NetworkPolicyClass

end Soma.Generation
