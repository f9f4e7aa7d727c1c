import Soma.Generation.Contracts
import Soma.Generation.ManifestFormat

/-! # Compiling a Candidate manifest

The compiler profile and the Template revision with the checks they pass, the workload they are compiled
for, and the manifest the compiler assembles from them and the artifacts it built.
-/

namespace Soma.Generation

open Soma.Codec Soma.Lib

def MIB : ℕ := 1024 * 1024

def MINIMUM_MEMORY_BYTES : ℕ := 128 * MIB
def MAXIMUM_MEMORY_BYTES : ℕ := 3 * 1024 * MIB
def MINIMUM_STORAGE_BYTES : ℕ := 64 * MIB
def MAX_TTL_SECONDS : ℕ := 30 * 24 * 3600
def MAX_TREE_MANIFEST_BYTES : ℕ := 512 * 1024 * 1024

def resolveInvalid : CompileError := .new .resolveInputs .invalidInput

def resolveUnsupported : CompileError := .new .resolveInputs .unsupported

/-! ## Network policies -/

/-- The portable network policies: the two fixed ones and the canonical serialization. -/
class NetworkPolicies (Policy : Type) where
  isolated : Policy
  runtimeDefault : Policy
  serialize : Policy → List UInt8

variable {Policy : Type} [DecidableEq Policy] [NetworkPolicies Policy]

def NetworkPolicyClass.of (policy : Policy) : NetworkPolicyClass :=
  if policy = NetworkPolicies.isolated then .isolated
  else if policy = NetworkPolicies.runtimeDefault then .runtimeDefault
  else .explicit

def networkPolicyDigest [Template.Sha256] (policy : Policy) : Sha256Digest :=
  .of (NetworkPolicies.serialize policy)

/-! ## Compiler profile -/

/-- The pinned inputs of a compiler. -/
structure CompilerProfile where
  policyVersion : U16
  epoch : U64
  tree : TreeBounds
  maxStreamBytes : U64
  maxRootBytes : U64
  maxKernelBytes : U64
  maxExecutableBytes : U64
  maxInitramfsBytes : U64
  toolDeadlineNanos : ℕ
  overlayCapacities : List U64
  guestAgentProvenance : String
  applicationProtocolVersion : U16
  handshakeProtocolVersion : U16
deriving DecidableEq

namespace CompilerProfile

variable (profile : CompilerProfile)

def hasZero : Bool :=
  profile.tree.maxEntries = 0 ∨ profile.tree.maxPathBytes = 0 ∨ profile.tree.maxLinkBytes = 0
    ∨ profile.tree.maxMetadataBytes = 0 ∨ profile.tree.maxFileBytes = 0 ∨ profile.tree.maxContentBytes = 0
    ∨ profile.maxStreamBytes = 0 ∨ profile.maxRootBytes = 0 ∨ profile.maxKernelBytes = 0
    ∨ profile.maxExecutableBytes = 0 ∨ profile.maxInitramfsBytes = 0 ∨ profile.toolDeadlineNanos = 0

def capacitiesValid : Bool :=
  profile.overlayCapacities ≠ [] ∧ profile.overlayCapacities.length ≤ 16
    ∧ profile.overlayCapacities.IsChain (· < ·)
    ∧ ∀ capacity ∈ profile.overlayCapacities, 64 * MIB ≤ capacity.toNat ∧ 4 * MIB ∣ capacity.toNat

/-- The checks of a profile. -/
def validate : Except CompileError Unit :=
  ensure (¬ profile.hasZero ∧ profile.policyVersion = 1 ∧ profile.capacitiesValid
    ∧ profile.guestAgentProvenance.utf8ByteSize ≤ 256) resolveInvalid

end CompilerProfile

/-! ## Template revision -/

/-- The pinned image and its platform. -/
structure TemplateImage where
  manifestDigest : Template.OciDigest
  platform : Template.OciPlatform
deriving DecidableEq

/-- The resources a revision asks for. -/
structure MachineShape (Policy : Type) where
  vcpuCount : U16
  memoryMib : U64
  storageMib : U64
  networkPolicy : Policy

/-- The readiness command alone, or with an explicit workload probe. -/
abbrev StartupBehavior := { probe : Option (List UInt8) // ∀ bytes ∈ probe, ProbeOk bytes }

namespace StartupBehavior

def readinessOnly : StartupBehavior := ⟨none, by simp⟩

end StartupBehavior

/-- A lifetime of at least a second and at most thirty days. -/
abbrev LifetimeLimits := { ttlSeconds : U64 // 0 < ttlSeconds.toNat ∧ ttlSeconds.toNat ≤ MAX_TTL_SECONDS }

/-- A revision before its checks. -/
structure RevisionFields (Policy : Type) where
  image : TemplateImage
  shape : MachineShape Policy
  startup : StartupBehavior
  lifetime : LifetimeLimits
  profileVersion : U16

namespace RevisionFields

/-- Zero storage is a machine without an overlay; any other size names a class. -/
def storageValid (storage : ℕ) : Bool :=
  storage = 0 ∨ (MINIMUM_STORAGE_BYTES ≤ storage ∧ 4 * MIB ∣ storage)

def check (fields : RevisionFields Policy) : Except CompileError Unit := do
  ensure (fields.image.platform.operatingSystem = "linux" ∧ fields.image.platform.architecture = "amd64"
    ∧ fields.image.platform.variant = none ∧ fields.shape.vcpuCount = 1) resolveUnsupported
  ensure (fields.shape.memoryMib.toNat * MIB < 2 ^ 64) resolveInvalid
  ensure (fields.shape.storageMib.toNat * MIB < 2 ^ 64) resolveInvalid
  ensure (MINIMUM_MEMORY_BYTES ≤ fields.shape.memoryMib.toNat * MIB
    ∧ fields.shape.memoryMib.toNat * MIB ≤ MAXIMUM_MEMORY_BYTES
    ∧ storageValid (fields.shape.storageMib.toNat * MIB)) resolveInvalid

end RevisionFields

abbrev TemplateRevision (Policy : Type) := Valid (@RevisionFields.check Policy)

namespace TemplateRevision

variable (revision : TemplateRevision Policy)

def memoryBytes : U64 :=
  revision.1.shape.memoryMib * BitVec.ofNat 64 MIB

def writableStorageBytes : U64 :=
  revision.1.shape.storageMib * BitVec.ofNat 64 MIB

def deviceSet : DeviceSet where
  overlay := 0 < revision.writableStorageBytes
  net := NetworkPolicyClass.of revision.1.shape.networkPolicy ≠ .isolated

end TemplateRevision

/-! ## Workload -/

/-- The image that was imported. -/
structure WorkloadIdentity where
  manifestDigest : Template.OciDigest
  platform : Template.OciPlatform
  generationId : Option Template.OciDigest
deriving DecidableEq

def requireX8664Workload (workload : WorkloadIdentity) : Except CompileError Unit :=
  ensure (workload.platform.operatingSystem = "linux" ∧ workload.platform.architecture = "amd64"
    ∧ workload.platform.variant = none ∧ workload.generationId = none) resolveUnsupported

/-- The import is of the pinned image. -/
def requireTemplateMatches (template : TemplateRevision Policy) (workload : WorkloadIdentity)
    (profile : CompilerProfile) : Except CompileError Unit := do
  ensure (template.1.image.manifestDigest = workload.manifestDigest
    ∧ template.1.image.platform = workload.platform) (.new .resolveInputs .integrity)
  ensure (template.1.profileVersion = profile.policyVersion
    ∧ (template.writableStorageBytes ≠ 0 → template.writableStorageBytes ∈ profile.overlayCapacities))
    resolveUnsupported

/-! ## Assembling the manifest -/

/-- One sterile template for each capacity class; `build` formats, checks and stores its image. -/
def compileOverlayTemplates (build : U64 → Except CompileError ArtifactDescriptor)
    (profile : CompilerProfile) : Except CompileError (List OverlayTemplate) :=
  profile.overlayCapacities.mapM fun capacity => do
    let descriptor ← build capacity
    ensure (descriptor.size = capacity) (.new .verifyOverlay .integrity)
    return { capacity, descriptor }

/-- What a manifest is assembled from. -/
structure ManifestParts (Policy : Type) where
  template : TemplateRevision Policy
  workload : WorkloadIdentity
  profile : CompilerProfile
  tree : TreeBinding
  root : RootBinding
  templates : List OverlayTemplate
  kernel : ArtifactDescriptor
  initramfs : ArtifactDescriptor
  guestAgent : ArtifactDescriptor
  configDigest : Sha256Digest
  earlyInitDigest : Sha256Digest

variable [Template.Sha256]

/-- The manifest of the parts. -/
def ManifestParts.build (parts : ManifestParts Policy) : GenerationManifest where
  compilerPolicyVersion := parts.profile.policyVersion
  source := ⟨Template.digestBytes parts.workload.manifestDigest, parts.workload.platform⟩
  tree := parts.tree
  root := parts.root
  overlay :=
    { uuidDerivationVersion := OVERLAY_UUID_DERIVATION_VERSION
      featureProfile := overlayFeatureProfile
      minimumCapacity := parts.templates.head?.elim 0 OverlayTemplate.capacity
      maximumCapacity := parts.templates.getLast?.elim 0 OverlayTemplate.capacity
      templates := parts.templates }
  kernel := ⟨parts.kernel, ELF_PVH_CONTRACT_VERSION, parts.configDigest, "x86_64"⟩
  initramfs := ⟨parts.initramfs, INITRAMFS_LAYOUT_VERSION, parts.earlyInitDigest⟩
  guestAgent := ⟨parts.guestAgent, parts.profile.guestAgentProvenance,
    parts.profile.applicationProtocolVersion, parts.profile.handshakeProtocolVersion⟩
  commandLine := kernelCommandLineV1 parts.template.deviceSet
  machineContract := machineContractV1
  deviceContract := deviceContractV1 parts.template.deviceSet
  cpuTemplate := cpuTemplateV1
  shape := ⟨parts.template.memoryBytes, parts.template.1.shape.vcpuCount, MEMORY_SLOT_LAYOUT_VERSION,
    LAUNCH_PAGE_LAYOUT_VERSION⟩
  snapshot := none
  repair := ⟨REPAIR_POLICY_VERSION, readinessCommandDigest⟩
  template :=
    { writableStorageBytes := parts.template.writableStorageBytes
      networkPolicyClass := .of parts.template.1.shape.networkPolicy
      networkPolicyDigest := networkPolicyDigest parts.template.1.shape.networkPolicy
      workloadProbe := parts.template.1.startup.1
      ttlSeconds := parts.template.1.lifetime.1 }

end Soma.Generation
