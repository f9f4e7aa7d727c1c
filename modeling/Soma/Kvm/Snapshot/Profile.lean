import Soma.Generation.Contracts
import Soma.Kvm.Snapshot.Compatibility
import Soma.Kvm.Snapshot.Vcpu

/-! # What a host promises

The profile a manifest is checked against is derived from the fixed machine and device tables and from the
answers of the live KVM, never from the manifest. The same tables give the requirements and the contract
digests a capture writes.
-/

namespace Soma.Kvm.Snapshot

open Soma.Lib Soma.Codec
open Soma.Generation (Slot DeviceSet composeGeneration)

/-- The step of the machine a rejection belongs to. -/
inductive Phase where
  | mapMemory
  | cpuid
deriving DecidableEq

/-- An object that a capture publishes. -/
inductive Artifact where
  | memory
  | overlay
  | state
deriving DecidableEq

/-- Why a capture stopped. -/
inductive SnapshotError where
  | machine (phase : Phase) (reason : String)
  | notQuiescent (reason : String)
  | ioctl (operation : String) (errno : ℤ)
  | xsaveTooLarge (size : ℤ)
  | featureNegotiation (slot : Slot) (negotiated : U64)
  | kvmState (error : KvmStateError)
  | deviceState (error : DeviceStateError)
  | deviceStateNotCanonical (slot : Slot)
  | manifest (error : ManifestError)
  | sections (error : SectionError)
  | memory (error : MemoryError)
  | alreadyPublished (artifact : Artifact)
  | stagingNotCanonical
  | stagingDigestMismatch (artifact : Artifact)
deriving DecidableEq

/-! ## Guest memory -/

def TSS_ADDRESS : U64 := 0xfffbd000

def MIN_RAM_BYTES : ℕ := 128 * 1024 * 1024

def MAX_RAM_BYTES : ℕ := 3 * 1024 * 1024 * 1024

namespace GuestLayout

def check (ramBytes : U64) : Except SnapshotError Unit := do
  ensure (ramBytes.toNat % 4096 = 0) (.machine .mapMemory "guest RAM size must be a multiple of 4 KiB")
  ensure (MIN_RAM_BYTES ≤ ramBytes.toNat ∧ ramBytes.toNat ≤ MAX_RAM_BYTES)
    (.machine .mapMemory "guest RAM size must be between 128 MiB and 3 GiB")
  ensure (ramBytes ≤ TSS_ADDRESS) (.machine .mapMemory "guest RAM overlaps the TSS window")

end GuestLayout

/-- A RAM size the machine accepts. -/
abbrev GuestLayout := Valid GuestLayout.check

/-! ## The CPU template -/

/-- What the KVM of a host answers. -/
structure HostKvm where
  apiVersion : ℤ
  checkExtension : HostCapability → Bool
  nrMemslots : ℕ
  xsave2 : ℤ
  supportedCpuid : Except ℤ (List CpuidEntry)

namespace Cpuid

def LEAF_FEATURES : U32 := 0x1
def LEAF_CACHE : U32 := 0x4
def LEAF_TOPOLOGY : U32 := 0xb
def LEAF_TOPOLOGY_V2 : U32 := 0x1f
def LEAF_L2_CACHE : U32 := 0x80000006
def LEAF_KVM_SIGNATURE : U32 := 0x40000000
def FEATURES_ECX_HYPERVISOR : U32 := 0x80000000
def FEATURES_EBX_APIC_ID_MASK : U32 := 0xff000000
def CACHE_EAX_KEPT : U32 := 0x3fff
def KVM_SIGNATURE : List U32 := [0x4b4d564b, 0x564b4d56, 0x4d]

/-- Pins what depends on the core that answered. -/
def pin (entry : CpuidEntry) : CpuidEntry :=
  if entry.function = LEAF_FEATURES then
    { entry with
      ebx := entry.ebx &&& ~~~FEATURES_EBX_APIC_ID_MASK
      ecx := entry.ecx ||| FEATURES_ECX_HYPERVISOR }
  else if entry.function = LEAF_CACHE then { entry with eax := entry.eax &&& CACHE_EAX_KEPT, ebx := 0, ecx := 0 }
  else if entry.function = LEAF_TOPOLOGY ∨ entry.function = LEAF_TOPOLOGY_V2 then { entry with edx := 0 }
  else if entry.function = LEAF_L2_CACHE then { entry with ecx := 0, edx := 0 }
  else entry

/-- The CPU features a guest is shown. -/
def applyTemplate (cpuid : List CpuidEntry) : Except SnapshotError (List CpuidEntry) := do
  cpuid.forM fun entry =>
    ensure (entry.function = LEAF_KVM_SIGNATURE → [entry.ebx, entry.ecx, entry.edx] = KVM_SIGNATURE)
      (.machine .cpuid "KVM paravirtual signature leaf carries an unexpected signature")
  ensure (cpuid.any fun entry => entry.function = LEAF_KVM_SIGNATURE)
    (.machine .cpuid "KVM paravirtual CPUID leaf 0x40000000 is missing")
  return cpuid.map pin

end Cpuid

/-! ## The profile -/

namespace Profile

def GUEST_PROTOCOL_VERSION : U16 := 1
def REQUIRED_MEMORY_SLOTS : U16 := 2
def VCPU_COUNT : U16 := 1
def XSAVE_LIMIT : ℤ := 4096
def KVM_API_VERSION : ℤ := 12

/-- The capabilities a restoring host must report, in the order of their codes. -/
def REQUIRED : List HostCapability :=
  [.userMemory, .irqChip, .irqFd, .ioEventFd, .immediateExit, .xsave, .xcrs, .vcpuEvents, .mpState,
    .adjustClock, .setTssAddr, .pit2]

def VIRTIO_F_VERSION_1 : U64 := 0x100000000
def VIRTIO_BLK_F_RO : U64 := 0x20
def VIRTIO_BLK_F_BLK_SIZE : U64 := 0x40
def VIRTIO_BLK_F_FLUSH : U64 := 0x200
def VIRTIO_NET_F_MAC : U64 := 0x20

/-- The features and the queue limits of a slot. -/
def expectation : Slot → DeviceExpectation
  | .root => ⟨.rootBlock, VIRTIO_F_VERSION_1 ||| VIRTIO_BLK_F_RO ||| VIRTIO_BLK_F_BLK_SIZE, ⟨[256, 0, 0], rfl⟩⟩
  | .overlay =>
    ⟨.overlayBlock, VIRTIO_F_VERSION_1 ||| VIRTIO_BLK_F_BLK_SIZE ||| VIRTIO_BLK_F_FLUSH, ⟨[256, 0, 0], rfl⟩⟩
  | .net => ⟨.net, VIRTIO_F_VERSION_1 ||| VIRTIO_NET_F_MAC, ⟨[256, 256, 0], rfl⟩⟩
  | .vsock => ⟨.vsock, VIRTIO_F_VERSION_1, ⟨[256, 256, 64], rfl⟩⟩
  | .rng => ⟨.rng, VIRTIO_F_VERSION_1, ⟨[64, 0, 0], rfl⟩⟩

theorem expectation_slot (slot : Slot) : (expectation slot).kind.slot = slot.index := by
  cases slot <;> rfl

def contractOf (slot : Slot) : List UInt8 :=
  putWord slot.base ++ putWord slot.gsi ++ putWord slot.deviceId ++ putWord slot.queueCount
    ++ putWord (expectation slot).negotiatedFeatures ++ (expectation slot).queueLimits.1.flatMap putWord

section contracts

variable [Template.Sha256]

/-- The digest of the fixed addresses and of the command line. -/
def machineContract (devices : DeviceSet) : Digest :=
  Digest.of (Text.bytes "SOMA-x86_64-machine-contract-v1\x00"
    ++ ([TSS_ADDRESS, 0x6000, 0x7000, 0x8000, 0x9000, 0x1000000, 0xd0100000, 1] : List U64).flatMap putWord
    ++ Text.bytes (composeGeneration devices))

def deviceContract (devices : DeviceSet) : Digest :=
  Digest.of (Text.bytes "SOMA-device-surface-v1\x00" ++ devices.present.flatMap contractOf)

def cpuTemplate (kvm : HostKvm) : Except SnapshotError Digest := do
  let cpuid ← kvm.supportedCpuid.mapError (.ioctl "KVM_GET_SUPPORTED_CPUID")
  let template ← Cpuid.applyTemplate cpuid
  let entries ← (validate CpuidEntries.check template).mapError .kvmState
  return Digest.of (Text.bytes "SOMA-cpu-template-v1\x00" ++ entries.1.flatMap CpuidEntry.write)

end contracts

/-- A number KVM reports, as a word where it is one. -/
def apiWord (version : ℤ) : U32 := if 0 ≤ version ∧ version < 2 ^ 32 then BitVec.ofInt 32 version else 0

def requirements : Except SnapshotError HostRequirements :=
  (HostRequirements.new (apiWord KVM_API_VERSION) REQUIRED REQUIRED_MEMORY_SLOTS).mapError
    fun error => .manifest (.hostRequirements error)

/-- The profile of a host with a CPU template. -/
def profileOf [Template.Sha256] (kvm : HostKvm) (memoryBytes : U64) (devices : DeviceSet) (cpuTemplate : Digest) :
    HostProfile where
  schemaVersion := SCHEMA_VERSION
  architecture := .x86_64
  pageSize := .FOUR_KIB
  kvmApiVersion := apiWord kvm.apiVersion
  capabilities := REQUIRED.filter kvm.checkExtension
  memorySlots := BitVec.ofNat 16 (min kvm.nrMemslots 65535)
  machineContract := machineContract devices
  deviceContract := deviceContract devices
  cpuTemplate
  vcpuCount := VCPU_COUNT
  memoryBytes
  guestProtocolVersion := GUEST_PROTOCOL_VERSION
  devices := ⟨Slot.ALL.map fun slot => if devices.has slot then some (expectation slot) else none, rfl⟩

/-- The profile of this host. -/
def hostProfile [Template.Sha256] (kvm : HostKvm) (memoryBytes : U64) (devices : DeviceSet) :
    Except SnapshotError HostProfile := do
  ensure (kvm.xsave2 ≤ XSAVE_LIMIT) (.xsaveTooLarge kvm.xsave2)
  return profileOf kvm memoryBytes devices (← cpuTemplate kvm)

/-- The requirement block is the same in every capture. -/
def required : HostRequirements := ⟨⟨12, REQUIRED, 2⟩, by decide +kernel⟩

theorem requirements_eq : requirements = .ok required := by
  decide +kernel

end Profile

/-- The KVM of a host that ran the machine. Construction probed the version and the first five capabilities
and registered two memory regions; the other capabilities are those of the calls that set up the task state
segment and the timer and that read the vCPU and the clock. -/
structure HostKvm.Served (kvm : HostKvm) : Prop where
  apiVersion : kvm.apiVersion = Profile.KVM_API_VERSION
  capabilities : ∀ capability ∈ Profile.REQUIRED, kvm.checkExtension capability = true
  memorySlots : Profile.REQUIRED_MEMORY_SLOTS.toNat ≤ kvm.nrMemslots

end Soma.Kvm.Snapshot
