import Soma.Generation.Artifacts
import Soma.Lib.Keyed
import Soma.Lib.Writer
import Soma.Template.Image

/-! # Generation manifests

The sixteen groups of a manifest, its encoder and its decoder. The encoder checks roles, bounds and
the order of the overlay templates; the decoder checks the same and, beyond that, that no two descriptors
carry the same digest.
-/

namespace Soma.Generation

open Soma.Codec Soma.Lib Soma.Text

def MANIFEST_SCHEMA_VERSION : U16 := 2
def MAX_MANIFEST_BYTES : ℕ := 64 * 1024
def MAX_SHORT_STRING : ℕ := 256
def MAX_COMMAND_LINE : ℕ := 8191
def MAX_TEMPLATES : ℕ := 16
def MAX_WORKLOAD_PROBE_BYTES : ℕ := 4096

/-- `SOMAGEN\0`, of a certified Generation. -/
def MAGIC : Bytes 8 := ⟨[0x53, 0x4f, 0x4d, 0x41, 0x47, 0x45, 0x4e, 0], rfl⟩

/-- `SOMACAN\0`, of a Candidate. -/
def CANDIDATE_MAGIC : Bytes 8 := ⟨[0x53, 0x4f, 0x4d, 0x41, 0x43, 0x41, 0x4e, 0], rfl⟩

/-! ## Groups -/

/-- The imported image. -/
structure SourceBinding where
  ociManifestDigest : Sha256Digest
  platform : Template.OciPlatform
deriving DecidableEq

/-- The normalized tree. -/
structure TreeBinding where
  digest : Sha256Digest
  size : U64
deriving DecidableEq

/-- The root image and its formatter. -/
structure RootBinding where
  descriptor : ArtifactDescriptor
  uuid : Bytes 16
  formatProfile : String
  formatterDigest : Sha256Digest
  formatterRevision : String
  builderEnvironmentDigest : Sha256Digest
deriving DecidableEq

/-- An empty disk of one capacity. -/
structure OverlayTemplate where
  capacity : U64
  descriptor : ArtifactDescriptor
deriving DecidableEq

/-- The disks an Instance can have. -/
structure OverlayBinding where
  uuidDerivationVersion : U16
  featureProfile : String
  minimumCapacity : U64
  maximumCapacity : U64
  templates : List OverlayTemplate
deriving DecidableEq

/-- The kernel and its configuration. -/
structure KernelBinding where
  descriptor : ArtifactDescriptor
  elfPvhContractVersion : U16
  configDigest : Sha256Digest
  cpuArchitecture : String
deriving DecidableEq

/-- The early init archive. -/
structure InitramfsBinding where
  descriptor : ArtifactDescriptor
  layoutVersion : U16
  earlyInitDigest : Sha256Digest
deriving DecidableEq

/-- The guest agent and its protocols. -/
structure GuestAgentBinding where
  descriptor : ArtifactDescriptor
  buildProvenance : String
  applicationProtocolVersion : U16
  handshakeProtocolVersion : U16
deriving DecidableEq

/-- Memory, vCPUs and their layouts. -/
structure MachineShapeBinding where
  memoryBytes : U64
  vcpuCount : U16
  memorySlotLayoutVersion : U16
  launchPageLayoutVersion : U16
deriving DecidableEq

/-- The three images of a captured snapshot. -/
structure Snapshot where
  formatVersion : U16
  memory : ArtifactDescriptor
  overlay : ArtifactDescriptor
  state : ArtifactDescriptor
  capturePointVersion : U16
deriving DecidableEq

/-- `none` until a snapshot is captured. -/
abbrev SnapshotBinding := Option Snapshot

/-- How a restored guest is repaired. -/
structure RepairBinding where
  policyVersion : U16
  readinessCommandDigest : Sha256Digest
deriving DecidableEq

/-- What the revision decides. -/
structure TemplateBinding where
  writableStorageBytes : U64
  networkPolicyClass : NetworkPolicyClass
  networkPolicyDigest : Sha256Digest
  workloadProbe : Option (List UInt8)
  ttlSeconds : U64
deriving DecidableEq

/-- Everything a Generation is made of. -/
structure GenerationManifest where
  compilerPolicyVersion : U16
  source : SourceBinding
  tree : TreeBinding
  root : RootBinding
  overlay : OverlayBinding
  kernel : KernelBinding
  initramfs : InitramfsBinding
  guestAgent : GuestAgentBinding
  commandLine : List UInt8
  machineContract : ContractBinding
  deviceContract : ContractBinding
  cpuTemplate : ContractBinding
  shape : MachineShapeBinding
  snapshot : SnapshotBinding
  repair : RepairBinding
  template : TemplateBinding
deriving DecidableEq

namespace GenerationManifest

variable (manifest : GenerationManifest)

/-- Every artifact, in manifest order. -/
def descriptors : List ArtifactDescriptor :=
  [manifest.root.descriptor] ++ manifest.overlay.templates.map OverlayTemplate.descriptor
    ++ [manifest.kernel.descriptor, manifest.initramfs.descriptor, manifest.guestAgent.descriptor]
    ++ manifest.snapshot.elim [] fun snapshot => [snapshot.memory, snapshot.overlay, snapshot.state]

def digests : List Sha256Digest :=
  manifest.descriptors.map ArtifactDescriptor.digest

end GenerationManifest

def invalid : CompileError := .new .encodeManifest .invalidInput

def limit : CompileError := .new .encodeManifest .limitExceeded

/-! ## Encoding -/

abbrev Encoder := Codec.Writer CompileError Unit

namespace Encoder

def bytes (value : List UInt8) : Encoder := putBytes MAX_MANIFEST_BYTES limit value

def u8 (value : UInt8) : Encoder := bytes [value]

def u16 (value : U16) : Encoder := bytes (putWord value)

def u64 (value : U64) : Encoder := bytes (putWord value)

def digest (value : Sha256Digest) : Encoder := bytes value.1

/-- A length that must fit its prefix. -/
def length (n : ℕ) : Encoder := do
  check limit (n < 2 ^ 16)
  u16 (BitVec.ofNat 16 n)

def shortString (value : List UInt8) : Encoder := do
  check limit (value.length ≤ MAX_SHORT_STRING ∧ 0 ∉ value)
  length value.length
  bytes value

def optionalString (value : Option (List UInt8)) : Encoder :=
  match value with
  | some value => do
    u8 1
    shortString value
  | none => u8 0

def descriptor (value : ArtifactDescriptor) (expected : ArtifactRole) : Encoder := do
  check invalid (value.role = expected)
  u8 value.role.code
  shortString (Text.bytes value.mediaType)
  digest value.digest
  u64 value.size

def contract (tag : UInt8) (binding : ContractBinding) : Encoder := do
  u8 tag
  u16 binding.version
  digest binding.digest

def source (source : SourceBinding) : Encoder := do
  u8 2
  digest source.ociManifestDigest
  check invalid (source.platform.operatingSystem = "linux" ∧ source.platform.architecture = "amd64")
  shortString (Text.bytes source.platform.operatingSystem)
  shortString (Text.bytes source.platform.architecture)
  optionalString (source.platform.variant.map Text.bytes)

def tree (tree : TreeBinding) : Encoder := do
  u8 3
  digest tree.digest
  u64 tree.size

def root (root : RootBinding) : Encoder := do
  u8 4
  descriptor root.descriptor .erofsRoot
  bytes root.uuid.1
  shortString (Text.bytes root.formatProfile)
  digest root.formatterDigest
  shortString (Text.bytes root.formatterRevision)
  digest root.builderEnvironmentDigest

def overlay (overlay : OverlayBinding) : Encoder := do
  u8 5
  u16 overlay.uuidDerivationVersion
  shortString (Text.bytes overlay.featureProfile)
  u64 overlay.minimumCapacity
  u64 overlay.maximumCapacity
  check invalid (overlay.templates.length ≤ MAX_TEMPLATES
    ∧ overlay.templates.IsChain fun previous next => previous.capacity < next.capacity)
  length overlay.templates.length
  overlay.templates.forM fun template => do
    u64 template.capacity
    descriptor template.descriptor .overlayTemplate

def kernel (kernel : KernelBinding) : Encoder := do
  u8 6
  descriptor kernel.descriptor .kernel
  u16 kernel.elfPvhContractVersion
  digest kernel.configDigest
  shortString (Text.bytes kernel.cpuArchitecture)

def initramfs (initramfs : InitramfsBinding) : Encoder := do
  u8 7
  descriptor initramfs.descriptor .initramfs
  u16 initramfs.layoutVersion
  digest initramfs.earlyInitDigest

def guestAgent (agent : GuestAgentBinding) : Encoder := do
  u8 8
  descriptor agent.descriptor .guestAgent
  shortString (Text.bytes agent.buildProvenance)
  u16 agent.applicationProtocolVersion
  u16 agent.handshakeProtocolVersion

def commandLine (line : List UInt8) : Encoder := do
  u8 9
  check limit (line.length ≤ MAX_COMMAND_LINE ∧ 0 ∉ line)
  length line.length
  bytes line

def shape (shape : MachineShapeBinding) : Encoder := do
  u8 13
  u64 shape.memoryBytes
  u16 shape.vcpuCount
  u16 shape.memorySlotLayoutVersion
  u16 shape.launchPageLayoutVersion

def snapshot (binding : SnapshotBinding) : Encoder := do
  u8 14
  match binding with
  | none => u8 0
  | some snapshot => do
    u8 1
    u16 snapshot.formatVersion
    descriptor snapshot.memory .memorySnapshot
    descriptor snapshot.overlay .overlaySnapshot
    descriptor snapshot.state .stateManifest
    u16 snapshot.capturePointVersion

def repair (repair : RepairBinding) : Encoder := do
  u8 15
  u16 repair.policyVersion
  digest repair.readinessCommandDigest

def probe (probe : Option (List UInt8)) : Encoder :=
  match probe with
  | some probe => do
    check invalid (probe ≠ [] ∧ probe.length ≤ MAX_WORKLOAD_PROBE_BYTES ∧ 0 ∉ probe)
    u8 1
    length probe.length
    bytes probe
  | none => u8 0

def template (template : TemplateBinding) : Encoder := do
  u8 16
  u64 template.writableStorageBytes
  u8 template.networkPolicyClass.code
  digest template.networkPolicyDigest
  probe template.workloadProbe
  u64 template.ttlSeconds

def manifest (magic : Bytes 8) (manifest : GenerationManifest) : Encoder := do
  bytes magic.1
  u16 MANIFEST_SCHEMA_VERSION
  u16 manifest.compilerPolicyVersion
  source manifest.source
  tree manifest.tree
  root manifest.root
  overlay manifest.overlay
  kernel manifest.kernel
  initramfs manifest.initramfs
  guestAgent manifest.guestAgent
  commandLine manifest.commandLine
  contract 10 manifest.machineContract
  contract 11 manifest.deviceContract
  contract 12 manifest.cpuTemplate
  shape manifest.shape
  snapshot manifest.snapshot
  repair manifest.repair
  template manifest.template

end Encoder

variable (magic : Bytes 8)

/-- Encodes behind a magic. -/
def encodeWith (manifest : GenerationManifest) : Except CompileError (List UInt8) :=
  runWriter (Encoder.manifest magic manifest)

def encodeManifest : GenerationManifest → Except CompileError (List UInt8) := encodeWith MAGIC

def encodeCandidate : GenerationManifest → Except CompileError (List UInt8) := encodeWith CANDIDATE_MAGIC

/-! ## Decoding -/

/-- A decoder with the descriptor digests read so far. -/
abbrev Decoder (α : Type) := KeyedDecoder CompileError Sha256Digest α

namespace Decoder

/-- A decoder that reads no descriptor. -/
abbrev Plain (α : Type) := Codec.Decoder CompileError α

def short (_needed _available : ℕ) : CompileError := invalid

def u8 : Plain UInt8 := byte short

def u16 : Plain U16 := word short 16

def u64 : Plain U64 := word short 64

def digest : Plain Sha256Digest := array short 32

def tag (expected : UInt8) : Plain Unit :=
  refine u8 fun value => if value ≠ expected then .error invalid else .ok ()

/-- A length within its range and that many bytes, none of them zero. -/
def lengthBytes (inRange : ℕ → Bool) : Plain (List UInt8) := do
  let length ← refine u16 fun length =>
    if inRange length.toNat then .ok length.toNat else .error limit
  refine (take short length) fun value => if 0 ∈ value then .error invalid else .ok value

def shortString : Plain String :=
  refine (lengthBytes (· ≤ MAX_SHORT_STRING)) fun value => okOr (Text.ofBytes value) invalid

def presence : Plain Bool :=
  refine u8 fun
    | 0 => .ok false
    | 1 => .ok true
    | _ => .error invalid

def optionalString : Plain (Option String) := optional presence shortString

variable (expected : ArtifactRole)

/-- The role, media type, digest and size of a descriptor. -/
def descriptorParts : Plain ArtifactDescriptor := do
  let role ← refine u8 fun code => okOr (ArtifactRole.fromCode code) invalid
  let mediaType ← shortString
  if role ≠ expected ∨ mediaType ≠ role.mediaType then fail invalid
  else do
    let digest ← digest
    let size ← u64
    return { role, digest, size }

def descriptor : Decoder ArtifactDescriptor := do
  let descriptor ← descriptorParts expected
  once invalid descriptor.digest
  return descriptor

def contract (expected : UInt8) : Plain ContractBinding := do
  tag expected
  let version ← u16
  let digest ← digest
  return { version, digest }

def sourceParts : Plain (Sha256Digest × String × String × Option String) := do
  let ociManifestDigest ← digest
  let operatingSystem ← shortString
  let architecture ← shortString
  let variant ← optionalString
  return (ociManifestDigest, operatingSystem, architecture, variant)

def source : Plain SourceBinding := do
  tag 2
  refine sourceParts fun (ociManifestDigest, operatingSystem, architecture, variant) =>
    if operatingSystem ≠ "linux" ∨ architecture ≠ "amd64" then .error invalid
    else
      match Template.OciPlatform.new operatingSystem architecture variant with
      | .error _ => .error invalid
      | .ok platform => .ok { ociManifestDigest, platform }

def tree : Plain TreeBinding := do
  tag 3
  let digest ← digest
  let size ← u64
  return { digest, size }

def root : Decoder RootBinding := do
  tag 4
  let descriptor ← descriptor .erofsRoot
  let uuid ← (array short 16 : Plain _)
  let formatProfile ← shortString
  let formatterDigest ← digest
  let formatterRevision ← shortString
  let builderEnvironmentDigest ← digest
  return { descriptor, uuid, formatProfile, formatterDigest, formatterRevision, builderEnvironmentDigest }

def overlayTemplate : Decoder OverlayTemplate := do
  let capacity ← u64
  let descriptor ← descriptor .overlayTemplate
  return { capacity, descriptor }

/-- The loop over the templates; `previous` is the last one pushed. -/
def templates : ℕ → Option OverlayTemplate → Decoder (List OverlayTemplate)
  | 0, _ => return []
  | n + 1, previous => do
    let template ← overlayTemplate
    let rest ← (if previous.any fun previous => template.capacity ≤ previous.capacity
      then StateT.lift (fail invalid) else templates n (some template) : Decoder (List OverlayTemplate))
    return template :: rest

def overlay : Decoder OverlayBinding := do
  tag 5
  let uuidDerivationVersion ← u16
  let featureProfile ← shortString
  let minimumCapacity ← u64
  let maximumCapacity ← u64
  let count ← refine u16 fun count =>
    if MAX_TEMPLATES < count.toNat then .error limit else .ok count.toNat
  let templates ← templates count none
  return { uuidDerivationVersion, featureProfile, minimumCapacity, maximumCapacity, templates }

def kernel : Decoder KernelBinding := do
  tag 6
  let descriptor ← descriptor .kernel
  let elfPvhContractVersion ← u16
  let configDigest ← digest
  let cpuArchitecture ← shortString
  return { descriptor, elfPvhContractVersion, configDigest, cpuArchitecture }

def initramfs : Decoder InitramfsBinding := do
  tag 7
  let descriptor ← descriptor .initramfs
  let layoutVersion ← u16
  let earlyInitDigest ← digest
  return { descriptor, layoutVersion, earlyInitDigest }

def guestAgent : Decoder GuestAgentBinding := do
  tag 8
  let descriptor ← descriptor .guestAgent
  let buildProvenance ← shortString
  let applicationProtocolVersion ← u16
  let handshakeProtocolVersion ← u16
  return { descriptor, buildProvenance, applicationProtocolVersion, handshakeProtocolVersion }

def commandLine : Plain (List UInt8) := do
  tag 9
  lengthBytes (· ≤ MAX_COMMAND_LINE)

def shape : Plain MachineShapeBinding := do
  tag 13
  let memoryBytes ← u64
  let vcpuCount ← u16
  let memorySlotLayoutVersion ← u16
  let launchPageLayoutVersion ← u16
  return { memoryBytes, vcpuCount, memorySlotLayoutVersion, launchPageLayoutVersion }

def captured : Decoder Snapshot := do
  let formatVersion ← u16
  let memory ← descriptor .memorySnapshot
  let overlay ← descriptor .overlaySnapshot
  let state ← descriptor .stateManifest
  let capturePointVersion ← u16
  return { formatVersion, memory, overlay, state, capturePointVersion }

def snapshot : Decoder SnapshotBinding := do
  tag 14
  keyedOptional presence captured

def repair : Plain RepairBinding := do
  tag 15
  let policyVersion ← u16
  let readinessCommandDigest ← digest
  return { policyVersion, readinessCommandDigest }

def template : Plain TemplateBinding := do
  tag 16
  let writableStorageBytes ← u64
  let networkPolicyClass ← refine u8 fun code => okOr (NetworkPolicyClass.fromCode code) invalid
  let networkPolicyDigest ← digest
  let workloadProbe ← optional presence
    (lengthBytes fun length => length ≠ 0 ∧ length ≤ MAX_WORKLOAD_PROBE_BYTES)
  let ttlSeconds ← u64
  return { writableStorageBytes, networkPolicyClass, networkPolicyDigest, workloadProbe, ttlSeconds }

/-- The magic and the schema version. -/
def header : Plain Unit := do
  refine (array short 8) fun value => if value ≠ magic then .error invalid else .ok ()
  refine u16 fun version =>
    if version ≠ MANIFEST_SCHEMA_VERSION then .error (.new .encodeManifest .unsupported) else .ok ()

def manifest : Decoder GenerationManifest := do
  header magic
  let compilerPolicyVersion ← u16
  let source ← source
  let tree ← tree
  let root ← root
  let overlay ← overlay
  let kernel ← kernel
  let initramfs ← initramfs
  let guestAgent ← guestAgent
  let commandLine ← commandLine
  let machineContract ← contract 10
  let deviceContract ← contract 11
  let cpuTemplate ← contract 12
  let shape ← shape
  let snapshot ← snapshot
  let repair ← repair
  let template ← template
  return ⟨compilerPolicyVersion, source, tree, root, overlay, kernel, initramfs, guestAgent, commandLine,
    machineContract, deviceContract, cpuTemplate, shape, snapshot, repair, template⟩

end Decoder

/-- Decodes what stands behind a magic. -/
def decodeWith (bytes : List UInt8) : Except CompileError GenerationManifest := do
  ensure (bytes.length ≤ MAX_MANIFEST_BYTES) limit
  let ((manifest, _), rest) ← Decoder.manifest magic [] bytes
  ensure (rest = []) invalid
  return manifest

def decodeManifest : List UInt8 → Except CompileError GenerationManifest := decodeWith MAGIC

def decodeCandidate : List UInt8 → Except CompileError GenerationManifest := decodeWith CANDIDATE_MAGIC

end Soma.Generation
