import Soma.Generation.Compile

/-! # Verifying a manifest against a profile

The checks the verifier makes on the fields of a decoded manifest, and which of the manifests the
compiler assembles pass them.
-/

namespace Soma.Generation

open Soma.Codec Soma.Lib Template List

section Policies

variable {Policy : Type} [DecidableEq Policy] [NetworkPolicies Policy] [Sha256]

def EROFS_BLOCK_BYTES : ℕ := 4096
def MINIMUM_OVERLAY_BYTES : ℕ := 64 * 1024 * 1024
def OVERLAY_ALIGNMENT_BYTES : ℕ := 4 * 1024 * 1024
def MEMORY_PAGE_BYTES : ℕ := 4096

def require (condition : Prop) [Decidable condition] (reason : Incompatibility) : Except CompileError Unit :=
  ensure condition (.incompatible reason)

def Nonzero (digest : Sha256Digest) : Prop := ∃ byte ∈ digest.1, byte ≠ 0

instance (digest : Sha256Digest) : Decidable (Nonzero digest) :=
  inferInstanceAs (Decidable (∃ byte ∈ digest.1, byte ≠ 0))

def nonzero (digest : Sha256Digest) : Except CompileError Unit := require (Nonzero digest) .zeroDigest

def bounded (size maximum : U64) (reason : Incompatibility) : Except CompileError Unit :=
  require (0 < size.toNat ∧ size.toNat ≤ maximum.toNat) reason

variable (manifest : GenerationManifest)

/-- The pinned source and its tree. -/
def requireSource : Except CompileError Unit := do
  require (manifest.source.platform.operatingSystem = "linux"
    ∧ manifest.source.platform.architecture = "amd64" ∧ manifest.source.platform.variant = none)
    .sourcePlatform
  nonzero manifest.source.ociManifestDigest
  nonzero manifest.tree.digest
  require (0 < manifest.tree.size.toNat ∧ manifest.tree.size.toNat ≤ MAX_TREE_MANIFEST_BYTES) .treeSize

variable (profile : CompilerProfile)

def requireRoot : Except CompileError Unit := do
  require (manifest.root.uuid = deriveRootUuid manifest.tree.digest) .rootUuid
  require (manifest.root.formatProfile = EROFS_FORMAT_PROFILE
    ∧ manifest.root.formatterRevision = EROFS_UTILS_REVISION) .rootFormat
  nonzero manifest.root.formatterDigest
  nonzero manifest.root.builderEnvironmentDigest
  require (0 < manifest.root.descriptor.size.toNat
    ∧ manifest.root.descriptor.size.toNat ≤ profile.maxRootBytes.toNat
    ∧ EROFS_BLOCK_BYTES ∣ manifest.root.descriptor.size.toNat) .rootSize

local instance lawful64 : LawfulBEq U64 := inferInstance

def requireTemplateClass (template : OverlayTemplate) : Except CompileError Unit := do
  require (MINIMUM_OVERLAY_BYTES ≤ template.capacity.toNat
    ∧ OVERLAY_ALIGNMENT_BYTES ∣ template.capacity.toNat
    ∧ template.capacity ∈ profile.overlayCapacities) .overlayCapacity
  require (template.descriptor.size = template.capacity) .overlaySize

/-- The disks, by class. -/
def requireOverlay : Except CompileError Unit := do
  require (manifest.overlay.uuidDerivationVersion = OVERLAY_UUID_DERIVATION_VERSION
    ∧ manifest.overlay.featureProfile = overlayFeatureProfile) .overlayProfile
  match manifest.overlay.templates.head?, manifest.overlay.templates.getLast? with
  | some first, some last => do
    manifest.overlay.templates.forM (requireTemplateClass profile)
    require (manifest.overlay.minimumCapacity = first.capacity
      ∧ manifest.overlay.maximumCapacity = last.capacity
      ∧ manifest.overlay.minimumCapacity ≤ manifest.overlay.maximumCapacity) .overlayBounds
  | _, _ => .error (.incompatible .overlayCapacity)

def requireMachineArtifacts : Except CompileError Unit := do
  require (manifest.kernel.elfPvhContractVersion = ELF_PVH_CONTRACT_VERSION
    ∧ manifest.kernel.cpuArchitecture = "x86_64") .kernelContract
  nonzero manifest.kernel.configDigest
  bounded manifest.kernel.descriptor.size profile.maxKernelBytes .kernelSize
  require (manifest.initramfs.layoutVersion = INITRAMFS_LAYOUT_VERSION) .initramfsLayout
  nonzero manifest.initramfs.earlyInitDigest
  bounded manifest.initramfs.descriptor.size profile.maxInitramfsBytes .initramfsSize
  bounded manifest.guestAgent.descriptor.size profile.maxExecutableBytes .guestAgentSize
  require (manifest.guestAgent.buildProvenance ≠ "" ∧ manifest.guestAgent.buildProvenance.utf8ByteSize ≤ 256)
    .guestAgentProvenance
  require (manifest.guestAgent.applicationProtocolVersion = profile.applicationProtocolVersion
    ∧ manifest.guestAgent.handshakeProtocolVersion = profile.handshakeProtocolVersion) .guestProtocol

/-- The optional devices of the declared machine. -/
def GenerationManifest.deviceSet : DeviceSet where
  overlay := 0 < manifest.template.writableStorageBytes
  net := manifest.template.networkPolicyClass ≠ .isolated

def requireShape : Except CompileError Unit := do
  require (MINIMUM_MEMORY_BYTES ≤ manifest.shape.memoryBytes.toNat
    ∧ manifest.shape.memoryBytes.toNat ≤ MAXIMUM_MEMORY_BYTES) .memorySize
  require (MEMORY_PAGE_BYTES ∣ manifest.shape.memoryBytes.toNat) .memoryAlignment
  require (manifest.shape.vcpuCount = 1) .vcpuCount
  require (manifest.shape.memorySlotLayoutVersion = MEMORY_SLOT_LAYOUT_VERSION) .memorySlotVersion
  require (manifest.shape.launchPageLayoutVersion = LAUNCH_PAGE_LAYOUT_VERSION) .launchPageVersion

def descriptorNonzero (descriptor : ArtifactDescriptor) (reason : Incompatibility) :
    Except CompileError Unit := do
  nonzero descriptor.digest
  require (0 < descriptor.size.toNat) reason

def requireSnapshot : Except CompileError Unit :=
  forSome manifest.snapshot fun snapshot => do
    require (snapshot.formatVersion = SNAPSHOT_FORMAT_VERSION
      ∧ snapshot.capturePointVersion = SNAPSHOT_CAPTURE_POINT_VERSION) .snapshotBinding
    descriptorNonzero snapshot.memory .snapshotBinding
    descriptorNonzero snapshot.overlay .snapshotBinding
    descriptorNonzero snapshot.state .snapshotBinding

def storageDeclared : Bool :=
  if manifest.template.writableStorageBytes = 0 then manifest.overlay.templates = []
  else manifest.template.writableStorageBytes ∈ profile.overlayCapacities
    ∧ ∃ entry ∈ manifest.overlay.templates, entry.capacity = manifest.template.writableStorageBytes

variable (Policy) in
/-- The declared class and the policy digest name the same policy. -/
def networkAgrees : Bool :=
  let declared := manifest.template.networkPolicyDigest
  let isolated := networkPolicyDigest (NetworkPolicies.isolated : Policy)
  let runtime := networkPolicyDigest (NetworkPolicies.runtimeDefault : Policy)
  match manifest.template.networkPolicyClass with
  | .isolated => declared = isolated
  | .runtimeDefault => declared = runtime
  | .explicit => declared ≠ isolated ∧ declared ≠ runtime

def isAsciiControl (byte : UInt8) : Bool := byte < 0x20 || byte = 0x7f

/-- A bounded command line that names an absolute executable and holds no control byte. -/
def probeAbsolute (probe : List UInt8) : Bool :=
  probe ≠ [] ∧ probe.length ≤ MAX_WORKLOAD_PROBE_BYTES ∧ probe.head? = some 0x2f
    ∧ ¬ probe.any isAsciiControl

def requireProbe : Except CompileError Unit :=
  forSome manifest.template.workloadProbe fun probe => require (probeAbsolute probe) .workloadProbe

variable (Policy) in
/-- What the revision declared. -/
def requireTemplate : Except CompileError Unit := do
  require (storageDeclared manifest profile) .writableStorage
  require (networkAgrees Policy manifest) .networkPolicy
  requireProbe manifest
  require (0 < manifest.template.ttlSeconds.toNat ∧ manifest.template.ttlSeconds.toNat ≤ MAX_TTL_SECONDS)
    .ttl

variable (Policy) in
def requireMachine : Except CompileError Unit := do
  require (manifest.commandLine = kernelCommandLineV1 manifest.deviceSet) .commandLine
  require (manifest.machineContract = machineContractV1
    ∧ manifest.deviceContract = deviceContractV1 manifest.deviceSet
    ∧ manifest.cpuTemplate = cpuTemplateV1) .contractStatement
  requireShape manifest
  requireSnapshot manifest
  require (manifest.repair.policyVersion = REPAIR_POLICY_VERSION
    ∧ manifest.repair.readinessCommandDigest = readinessCommandDigest) .repairPolicy
  requireTemplate Policy manifest profile

/-- Adds up sizes without overflow. -/
def addSizes : U64 → List ArtifactDescriptor → Except CompileError U64
  | total, [] => .ok total
  | total, descriptor :: rest => do
    ensure (total.toNat + descriptor.size.toNat < 2 ^ 64) (.incompatible .artifactSizeOverflow)
    addSizes (total + descriptor.size) rest

def requireTotalSize : Except CompileError Unit := do
  let _ ← addSizes 0 manifest.descriptors
  return ()

variable (Policy) in
/-- Every check against the profile. -/
def requireProfile : Except CompileError Unit := do
  require (manifest.compilerPolicyVersion = profile.policyVersion) .policyVersion
  requireSource manifest
  requireRoot manifest profile
  requireOverlay manifest profile
  requireMachineArtifacts manifest profile
  requireMachine Policy manifest profile
  requireTotalSize manifest

/-! ## What the compiler assembles -/

/-- What holds of the parts when the compiler assembles a manifest: the request passed its checks, the
overlay templates were built where a disk is requested, the root image came from the pinned formatter,
and every artifact has a digest and a size within the profile's limits. -/
structure Assembled (build : U64 → Except CompileError ArtifactDescriptor) (parts : ManifestParts Policy) :
    Prop where
  profile : parts.profile.validate = .ok ()
  workload : requireX8664Workload parts.workload = .ok ()
  template : requireTemplateMatches parts.template parts.workload parts.profile = .ok ()
  templates : parts.template.deviceSet.overlay = true →
    compileOverlayTemplates build parts.profile = .ok parts.templates
  noTemplates : parts.template.deviceSet.overlay = false → parts.templates = []
  tree : Nonzero parts.tree.digest ∧ 0 < parts.tree.size.toNat
    ∧ parts.tree.size.toNat ≤ MAX_TREE_MANIFEST_BYTES
  root : parts.root.uuid = deriveRootUuid parts.tree.digest ∧ parts.root.formatProfile = EROFS_FORMAT_PROFILE
    ∧ parts.root.formatterRevision = EROFS_UTILS_REVISION ∧ Nonzero parts.root.formatterDigest
    ∧ Nonzero parts.root.builderEnvironmentDigest
  rootSize : 0 < parts.root.descriptor.size.toNat
    ∧ parts.root.descriptor.size.toNat ≤ parts.profile.maxRootBytes.toNat
    ∧ EROFS_BLOCK_BYTES ∣ parts.root.descriptor.size.toNat
  kernel : Nonzero parts.configDigest ∧ 0 < parts.kernel.size.toNat
    ∧ parts.kernel.size.toNat ≤ parts.profile.maxKernelBytes.toNat
  initramfs : Nonzero parts.earlyInitDigest ∧ 0 < parts.initramfs.size.toNat
    ∧ parts.initramfs.size.toNat ≤ parts.profile.maxInitramfsBytes.toNat
  guestAgent : 0 < parts.guestAgent.size.toNat
    ∧ parts.guestAgent.size.toNat ≤ parts.profile.maxExecutableBytes.toNat

namespace Assembled

variable {build : U64 → Except CompileError ArtifactDescriptor} {parts : ManifestParts Policy}

section

variable (h : Assembled build parts)
include h

theorem platform :
    parts.workload.platform.operatingSystem = "linux" ∧ parts.workload.platform.architecture = "amd64"
      ∧ parts.workload.platform.variant = none := by
  have hworkload := ensure_eq_ok.mp h.workload
  exact ⟨hworkload.1, hworkload.2.1, hworkload.2.2.1⟩

theorem capacities :
    parts.profile.overlayCapacities ≠ [] ∧ parts.profile.overlayCapacities.IsChain (· < ·)
      ∧ ∀ capacity ∈ parts.profile.overlayCapacities, 64 * MIB ≤ capacity.toNat
        ∧ 4 * MIB ∣ capacity.toNat := by
  have hcapacities := of_decide_eq_true (ensure_eq_ok.mp h.profile).2.2.1
  exact ⟨hcapacities.1, hcapacities.2.2.1, hcapacities.2.2.2⟩

theorem templates_spec (hdisk : parts.template.deviceSet.overlay = true) :
    parts.templates.map OverlayTemplate.capacity = parts.profile.overlayCapacities
      ∧ ∀ template ∈ parts.templates, template.descriptor.size = template.capacity := by
  have hbuilt := mapM_eq_ok.mp (h.templates hdisk)
  generalize parts.profile.overlayCapacities = capacities at hbuilt
  generalize parts.templates = templates at hbuilt
  induction hbuilt with
  | nil => simp
  | @cons capacity template capacities templates hone _ ih =>
    obtain ⟨descriptor, -, hrest⟩ := bind_eq_ok.mp hone
    obtain ⟨hsize, hresult⟩ := seq_eq_ok.mp hrest
    cases hresult
    simp only [map_cons, mem_cons, forall_eq_or_imp, ih.1]
    exact ⟨trivial, ensure_eq_ok.mp hsize, ih.2⟩

end

omit [Sha256] in
theorem overlay_eq (parts : ManifestParts Policy) :
    parts.template.deviceSet.overlay = true ↔ parts.template.writableStorageBytes ≠ 0 := by
  simp only [TemplateRevision.deviceSet, decide_eq_true_eq, BitVec.lt_def, ne_eq, ← BitVec.toNat_inj]
  have hzero : (0 : U64).toNat = 0 := rfl
  omega

omit [DecidableEq Policy] [NetworkPolicies Policy] [Sha256] in
theorem memoryBytes_toNat (parts : ManifestParts Policy) :
    parts.template.memoryBytes.toNat = parts.template.1.shape.memoryMib.toNat * MIB
      ∧ MINIMUM_MEMORY_BYTES ≤ parts.template.1.shape.memoryMib.toNat * MIB
      ∧ parts.template.1.shape.memoryMib.toNat * MIB ≤ MAXIMUM_MEMORY_BYTES
      ∧ parts.template.1.shape.vcpuCount = 1 := by
  have hcheck := parts.template.2
  simp only [RevisionFields.check, seq_eq_ok, ensure_eq_ok] at hcheck
  obtain ⟨⟨-, -, -, hvcpu⟩, hmemory, -, hlow, hhigh, -⟩ := hcheck
  refine ⟨?_, hlow, hhigh, hvcpu⟩
  have hmib : (BitVec.ofNat 64 MIB).toNat = MIB := rfl
  rw [TemplateRevision.memoryBytes, BitVec.toNat_mul, hmib, Nat.mod_eq_of_lt hmemory]

theorem requireSource_build (h : Assembled build parts) :
    requireSource parts.build = .ok ()
      ↔ Nonzero (digestBytes parts.workload.manifestDigest) := by
  simp only [requireSource, nonzero, require, seq_eq_ok, ensure_eq_ok]
  constructor
  · intro hsource
    exact hsource.2.1
  · intro hdigest
    exact ⟨h.platform, hdigest, h.tree⟩

theorem requireRoot_build (h : Assembled build parts) : requireRoot parts.build parts.profile = .ok () := by
  simp only [requireRoot, nonzero, require, seq_eq_ok, ensure_eq_ok]
  exact ⟨h.root.1, ⟨h.root.2.1, h.root.2.2.1⟩, h.root.2.2.2.1, h.root.2.2.2.2, h.rootSize⟩

omit [Sha256] in
theorem first_le_last {first last : OverlayTemplate} {templates : List OverlayTemplate}
    (hchain : (templates.map OverlayTemplate.capacity).IsChain (· < ·)) (hfirst : templates.head? = some first)
    (hlast : templates.getLast? = some last) : first.capacity ≤ last.capacity := by
  cases templates with
  | nil => cases hfirst
  | cons template rest =>
    cases hfirst
    have hpairs := isChain_iff_pairwise.mp hchain
    rw [map_cons, pairwise_cons] at hpairs
    have hmem : last ∈ first :: rest := mem_of_getLast? hlast
    cases hmem with
    | head => exact BitVec.le_refl _
    | tail _ hmem => exact BitVec.le_of_lt (hpairs.1 _ (mem_map_of_mem hmem))

theorem requireOverlay_build (h : Assembled build parts) :
    requireOverlay parts.build parts.profile = .ok () ↔ parts.template.writableStorageBytes ≠ 0 := by
  rw [← overlay_eq]
  simp only [requireOverlay, require, seq_eq_ok, ensure_eq_ok]
  cases hdisk : parts.template.deviceSet.overlay with
  | false =>
    have hnone : parts.build.overlay.templates = [] := h.noTemplates hdisk
    rw [hnone]
    simp
  | true =>
    obtain ⟨hcapacities, hsizes⟩ := h.templates_spec hdisk
    obtain ⟨hnonempty, hchain, haligned⟩ := h.capacities
    have hne : parts.templates ≠ [] := by
      intro hnil
      rw [hnil] at hcapacities
      exact hnonempty hcapacities.symm
    have hfirst : parts.templates.head? = some (parts.templates.head hne) := head?_eq_some_head hne
    have hlast : parts.templates.getLast? = some (parts.templates.getLast hne) :=
      getLast?_eq_some_getLast hne
    have hbuilt : parts.build.overlay.templates = parts.templates := rfl
    have hminimum : parts.build.overlay.minimumCapacity = (parts.templates.head hne).capacity := by
      simp [ManifestParts.build, hfirst]
    have hmaximum : parts.build.overlay.maximumCapacity = (parts.templates.getLast hne).capacity := by
      simp [ManifestParts.build, hlast]
    rw [hbuilt, hfirst, hlast, hminimum, hmaximum]
    simp only [seq_eq_ok, ensure_eq_ok, forM_eq_ok, requireTemplateClass, require, iff_true, true_and]
    refine ⟨⟨rfl, rfl⟩, ?_, first_le_last (hcapacities ▸ hchain) hfirst hlast⟩
    intro template htemplate
    have hclass : template.capacity ∈ parts.profile.overlayCapacities :=
      hcapacities ▸ mem_map_of_mem htemplate
    exact ⟨⟨(haligned _ hclass).1, (haligned _ hclass).2, hclass⟩, hsizes _ htemplate⟩

theorem requireMachineArtifacts_build (h : Assembled build parts) :
    requireMachineArtifacts parts.build parts.profile = .ok ()
      ↔ parts.profile.guestAgentProvenance ≠ "" := by
  simp only [requireMachineArtifacts, nonzero, bounded, require, seq_eq_ok, ensure_eq_ok]
  constructor
  · intro hartifacts
    exact hartifacts.2.2.2.2.2.2.2.1.1
  · intro hprovenance
    exact ⟨⟨rfl, rfl⟩, h.kernel.1, h.kernel.2, rfl, h.initramfs.1, h.initramfs.2, h.guestAgent,
      ⟨hprovenance, (ensure_eq_ok.mp h.profile).2.2.2⟩, rfl, rfl⟩

theorem requireShape_build (parts : ManifestParts Policy) : requireShape parts.build = .ok () := by
  obtain ⟨hmemory, hlow, hhigh, hvcpu⟩ := memoryBytes_toNat parts
  have hbytes : parts.build.shape.memoryBytes.toNat = parts.template.1.shape.memoryMib.toNat * MIB := hmemory
  simp only [requireShape, require, seq_eq_ok, ensure_eq_ok, hbytes]
  refine ⟨⟨hlow, hhigh⟩, ?_, hvcpu, rfl, rfl⟩
  exact Dvd.dvd.mul_left (by decide) _

theorem storageDeclared_build (h : Assembled build parts) : storageDeclared parts.build parts.profile = true := by
  have hstorage : parts.build.template.writableStorageBytes = parts.template.writableStorageBytes := rfl
  have hbuilt : parts.build.overlay.templates = parts.templates := rfl
  rw [storageDeclared, hstorage, hbuilt]
  split_ifs with hzero
  · rw [decide_eq_true_eq]
    apply h.noTemplates
    rw [← Bool.not_eq_true, overlay_eq, not_not]
    exact hzero
  · rw [decide_eq_true_eq]
    have hmatches := h.template
    simp only [requireTemplateMatches, seq_eq_ok, ensure_eq_ok] at hmatches
    have hclass := hmatches.2.2 hzero
    refine ⟨hclass, ?_⟩
    rw [← (h.templates_spec ((overlay_eq parts).mpr hzero)).1] at hclass
    exact mem_map.mp hclass

/-- A policy that is neither of the fixed ones has another digest than theirs. -/
def PolicyDistinct (policy : Policy) : Prop :=
  NetworkPolicyClass.of policy = .explicit →
    networkPolicyDigest policy ≠ networkPolicyDigest (NetworkPolicies.isolated : Policy)
      ∧ networkPolicyDigest policy ≠ networkPolicyDigest (NetworkPolicies.runtimeDefault : Policy)

theorem networkAgrees_build (parts : ManifestParts Policy) :
    networkAgrees Policy parts.build = true ↔ PolicyDistinct parts.template.1.shape.networkPolicy := by
  have hclass : parts.build.template.networkPolicyClass
      = .of parts.template.1.shape.networkPolicy := rfl
  have hdigest : parts.build.template.networkPolicyDigest
      = networkPolicyDigest parts.template.1.shape.networkPolicy := rfl
  simp only [networkAgrees, hclass, hdigest, PolicyDistinct, NetworkPolicyClass.of]
  split_ifs with hisolated hruntime
  · simp [hisolated]
  · simp [hruntime]
  · simp

theorem requireMachine_build (h : Assembled build parts) :
    requireMachine Policy parts.build parts.profile = .ok ()
      ↔ PolicyDistinct parts.template.1.shape.networkPolicy
        ∧ ∀ probe ∈ parts.template.1.startup.1, probeAbsolute probe := by
  have hprobe : parts.build.template.workloadProbe = parts.template.1.startup.1 := rfl
  have hsnapshot : requireSnapshot parts.build = .ok () := rfl
  have httl := parts.template.1.lifetime.2
  simp only [requireMachine, requireTemplate, requireProbe, require, seq_eq_ok, ensure_eq_ok, forSome_eq_ok,
    requireShape_build, hsnapshot, storageDeclared_build h, networkAgrees_build, hprobe, true_and]
  constructor
  · intro hmachine
    exact ⟨hmachine.2.2.2.1, hmachine.2.2.2.2.1⟩
  · intro hconditions
    exact ⟨rfl, ⟨rfl, rfl, rfl⟩, ⟨rfl, rfl⟩, hconditions.1, hconditions.2, httl⟩

end Assembled

omit [Sha256] in
theorem addSizes_isOk (total : U64) (descriptors : List ArtifactDescriptor) :
    (∃ sum, addSizes total descriptors = .ok sum)
      ↔ total.toNat + (descriptors.map fun d => d.size.toNat).sum < 2 ^ 64 := by
  induction descriptors generalizing total with
  | nil =>
    have hbound := total.isLt
    simp [addSizes, hbound]
  | cons descriptor rest ih =>
    simp only [addSizes, seq_eq_ok, ensure_eq_ok, exists_and_left, ih, map_cons, sum_cons]
    rw [BitVec.toNat_add]
    omega

omit [Sha256] in
theorem requireTotalSize_eq_ok :
    requireTotalSize manifest = .ok ()
      ↔ (manifest.descriptors.map fun d => d.size.toNat).sum < 2 ^ 64 := by
  have hsum := addSizes_isOk 0 manifest.descriptors
  rw [show (0 : U64).toNat = 0 from rfl, Nat.zero_add] at hsum
  rw [← hsum, requireTotalSize, bind_eq_ok]
  simp [pure, Except.pure]

/-- The bytes of every artifact the compiler built. -/
def ManifestParts.totalBytes (parts : ManifestParts Policy) : ℕ :=
  parts.root.descriptor.size.toNat + (parts.templates.map fun t => t.descriptor.size.toNat).sum
    + parts.kernel.size.toNat + parts.initramfs.size.toNat + parts.guestAgent.size.toNat

/-- The manifest the compiler assembles passes the verifier's profile check exactly when a disk is
requested, the profile states a provenance, the workload probe is absolute and free of control bytes, the
source digest is not zero, an explicit policy is told apart by its digest, and the sizes add up. -/
theorem compiled_manifest_verifies_iff {build : U64 → Except CompileError ArtifactDescriptor}
    {parts : ManifestParts Policy} (h : Assembled build parts) :
    requireProfile Policy parts.build parts.profile = .ok ()
      ↔ parts.template.writableStorageBytes ≠ 0 ∧ parts.profile.guestAgentProvenance ≠ ""
        ∧ (∀ probe ∈ parts.template.1.startup.1, probeAbsolute probe)
        ∧ Nonzero (digestBytes parts.workload.manifestDigest)
        ∧ Assembled.PolicyDistinct parts.template.1.shape.networkPolicy ∧ parts.totalBytes < 2 ^ 64 := by
  have hversion : parts.build.compilerPolicyVersion = parts.profile.policyVersion := rfl
  have hsizes : (parts.build.descriptors.map fun d => d.size.toNat).sum = parts.totalBytes := by
    simp [GenerationManifest.descriptors, ManifestParts.build, ManifestParts.totalBytes, Function.comp_def]
    omega
  simp only [requireProfile, require, seq_eq_ok, ensure_eq_ok, hversion, h.requireSource_build,
    h.requireRoot_build, h.requireOverlay_build, h.requireMachineArtifacts_build, h.requireMachine_build,
    requireTotalSize_eq_ok, hsizes, true_and]
  tauto

end Policies

/-! ### Sample builds -/

/-- A hash that tells lengths apart. -/
@[reducible] def lengthHash : Sha256 := ⟨fun bytes => digestOf (UInt8.ofNat (bytes.length % 255) + 1)⟩

/-- Three policies, two of them the fixed ones. -/
@[reducible] def threePolicies : NetworkPolicies (Fin 3) := ⟨0, 1, fun policy => replicate policy.1 0⟩

def sampleProfile (provenance : String) : CompilerProfile where
  policyVersion := 1
  epoch := 1700000000
  tree := ⟨1000000, 4096, 4096, 0x4000000, 0x200000000, 0x2000000000⟩
  maxStreamBytes := 0x2800000000
  maxRootBytes := 0x2800000000
  maxKernelBytes := 0x4000000
  maxExecutableBytes := 0x4000000
  maxInitramfsBytes := 0x8000000
  toolDeadlineNanos := 3600000000000
  overlayCapacities := [0x10000000, 0x40000000]
  guestAgentProvenance := provenance
  applicationProtocolVersion := 1
  handshakeProtocolVersion := 1

theorem sampleProfile_valid {provenance : String} (h : provenance.utf8ByteSize ≤ 256) :
    (sampleProfile provenance).validate = .ok () := by
  have hcapacities : (sampleProfile provenance).capacitiesValid = true := by
    apply decide_eq_true
    refine ⟨by simp [sampleProfile], by simp [sampleProfile], by simp [sampleProfile, isChain_cons_cons], ?_⟩
    intro capacity hcapacity
    simp only [sampleProfile, mem_cons, not_mem_nil, or_false] at hcapacity
    cases hcapacity with
    | inl h => rw [h]; decide
    | inr h => rw [h]; decide
  exact ensure_eq_ok.mpr ⟨by simp [CompilerProfile.hasZero, sampleProfile], rfl, hcapacities, h⟩

def sampleDigest : OciDigest := digestFromBytes (digestOf 1)

def sampleFields (storageMib : U64) (startup : StartupBehavior) : RevisionFields (Fin 3) where
  image := ⟨sampleDigest, linuxAmd64⟩
  shape := ⟨1, 1024, storageMib, 2⟩
  startup := startup
  lifetime := ⟨60, by decide⟩
  profileVersion := 1

def sampleTemplate (capacity : U64) : Except CompileError ArtifactDescriptor :=
  .ok ⟨.overlayTemplate, digestOf (UInt8.ofNat (capacity.toNat / MIB % 251)), capacity⟩

def sampleParts (template : TemplateRevision (Fin 3)) (provenance : String)
    (templates : List OverlayTemplate) : ManifestParts (Fin 3) where
  template := template
  workload := ⟨sampleDigest, linuxAmd64, none⟩
  profile := sampleProfile provenance
  tree := ⟨digestOf 2, 100⟩
  root := ⟨⟨.erofsRoot, digestOf 3, 4096⟩, @deriveRootUuid lengthHash (digestOf 2), EROFS_FORMAT_PROFILE,
    digestOf 4, EROFS_UTILS_REVISION, digestOf 5⟩
  templates := templates
  kernel := ⟨.kernel, digestOf 20, 1000⟩
  initramfs := ⟨.initramfs, digestOf 8, 2000⟩
  guestAgent := ⟨.guestAgent, digestOf 21, 1000⟩
  configDigest := digestOf 6
  earlyInitDigest := digestOf 9

def sampleTemplates : List OverlayTemplate :=
  [⟨0x10000000, .overlayTemplate, digestOf 5, 0x10000000⟩, ⟨0x40000000, .overlayTemplate, digestOf 20, 0x40000000⟩]

/-- A machine with a disk and the readiness command alone. -/
def diskParts : ManifestParts (Fin 3) :=
  sampleParts ⟨sampleFields 256 .readinessOnly, by decide +kernel⟩ "soma-guest-agent" sampleTemplates

/-- A machine with no writable storage. -/
def disklessParts : ManifestParts (Fin 3) :=
  sampleParts ⟨sampleFields 0 .readinessOnly, by decide +kernel⟩ "soma-guest-agent" []

theorem probe_ok : ∀ bytes ∈ some [0x6c, 0x73], ProbeOk bytes := by
  simp [ProbeOk, MAX_WORKLOAD_PROBE_BYTES]

/-- A workload probe that is looked up on the path. -/
def relativeProbeParts : ManifestParts (Fin 3) :=
  sampleParts ⟨sampleFields 256 ⟨some [0x6c, 0x73], probe_ok⟩,
    by decide +kernel⟩ "soma-guest-agent" sampleTemplates

/-- A profile that leaves the provenance empty. -/
def unnamedAgentParts : ManifestParts (Fin 3) :=
  sampleParts ⟨sampleFields 256 .readinessOnly, by decide +kernel⟩ "" sampleTemplates

variable (parts : ManifestParts (Fin 3))

/-- What the compiler assembles from. -/
def SampleAssembled : Prop :=
  @Assembled _ _ threePolicies lengthHash sampleTemplate parts

theorem samples_assembled : SampleAssembled diskParts ∧ SampleAssembled disklessParts
    ∧ SampleAssembled unnamedAgentParts ∧ SampleAssembled relativeProbeParts := by
  refine ⟨?_, ?_, ?_, ?_⟩
  all_goals
    refine @Assembled.mk _ _ threePolicies lengthHash _ _ (sampleProfile_valid (by decide +kernel))
      ?_ ?_ ?_ ?_ ?_ ?_ ?_ ?_ ?_ ?_
    all_goals decide +kernel

/-- The verifier's answer to what the compiler assembles. -/
def sampleVerify : Except CompileError Unit :=
  @requireProfile _ threePolicies lengthHash (@ManifestParts.build _ _ threePolicies lengthHash parts) parts.profile

/-- A Candidate with a disk, a named agent and no probe is compiled and verified. -/
theorem disk_manifest_verifies : SampleAssembled diskParts ∧ sampleVerify diskParts = .ok () := by
  obtain ⟨hassembled, -⟩ := samples_assembled
  refine ⟨hassembled, (@compiled_manifest_verifies_iff _ _ threePolicies lengthHash _ _ hassembled).mpr
    ⟨by decide +kernel, by decide +kernel, by decide +kernel, by decide +kernel, ?_, by decide +kernel⟩⟩
  exact fun _ => by decide +kernel

/-- What the compiler assembles without a disk, for a profile without a provenance, or with a relative
probe, is refused by the verifier. -/
theorem compiled_manifests_refused :
    (SampleAssembled disklessParts ∧ sampleVerify disklessParts = .error (.incompatible .overlayCapacity))
    ∧ (SampleAssembled unnamedAgentParts
      ∧ sampleVerify unnamedAgentParts = .error (.incompatible .guestAgentProvenance))
    ∧ SampleAssembled relativeProbeParts ∧ sampleVerify relativeProbeParts ≠ .ok () := by
  obtain ⟨-, hdiskless, hunnamed, hprobe⟩ := samples_assembled
  refine ⟨⟨hdiskless, by decide +kernel⟩, ⟨hunnamed, by decide +kernel⟩, hprobe, ?_⟩
  intro hok
  simp only [sampleVerify, requireProfile, seq_eq_ok] at hok
  have hmachine := (@Assembled.requireMachine_build _ _ threePolicies lengthHash _ _ hprobe).mp hok.2.2.2.2.2.1
  exact absurd (hmachine.2 [0x6c, 0x73] rfl) (by decide +kernel)

end Soma.Generation
