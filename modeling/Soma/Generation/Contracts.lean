import Soma.Generation.Manifest

/-! # Machine contracts

Which optional devices a machine has, the kernel command line that names them, and the contract
statements a manifest binds by digest.
-/

namespace Soma.Generation

open Soma.Codec

variable [Template.Sha256]

def MEMORY_SLOT_LAYOUT_VERSION : U16 := 1
def LAUNCH_PAGE_LAYOUT_VERSION : U16 := 3
def REPAIR_POLICY_VERSION : U16 := 1
def SNAPSHOT_FORMAT_VERSION : U16 := 2
def SNAPSHOT_CAPTURE_POINT_VERSION : U16 := 1
def ELF_PVH_CONTRACT_VERSION : U16 := 1
def INITRAMFS_LAYOUT_VERSION : U16 := 3
def OVERLAY_UUID_DERIVATION_VERSION : U16 := 1

def Sha256Digest.of (bytes : List UInt8) : Sha256Digest := Template.Sha256.digest bytes

/-! ## Devices -/

/-- A device position on the bus. -/
inductive Slot where
  | root | overlay | net | vsock | rng
deriving DecidableEq

namespace Slot

def ALL : List Slot := [root, overlay, net, vsock, rng]

def commandLineEntry : Slot → String
  | root => "virtio_mmio.device=4K@0xd0000000:5:0"
  | overlay => "virtio_mmio.device=4K@0xd0001000:6:1"
  | net => "virtio_mmio.device=4K@0xd0002000:7:2"
  | vsock => "virtio_mmio.device=4K@0xd0003000:8:3"
  | rng => "virtio_mmio.device=4K@0xd0004000:9:4"

/-- The line of the slot in the device contract. -/
def contractLine : Slot → String
  | root => "slot0 mmio=0xd0000000-0xd0000fff gsi=5 device=block id=2 role=immutable-root queues=request:256\n"
  | overlay =>
    "slot1 mmio=0xd0001000-0xd0001fff gsi=6 device=block id=2 role=writable-overlay queues=request:256\n"
  | net => "slot2 mmio=0xd0002000-0xd0002fff gsi=7 device=net id=1 queues=receive:256,transmit:256\n"
  | vsock =>
    "slot3 mmio=0xd0003000-0xd0003fff gsi=8 device=vsock id=19 queues=receive:256,transmit:256,event:64\n"
  | rng => "slot4 mmio=0xd0004000-0xd0004fff gsi=9 device=entropy id=4 queues=request:64\n"

def index : Slot → UInt8
  | root => 0
  | overlay => 1
  | net => 2
  | vsock => 3
  | rng => 4

def base (slot : Slot) : U64 := 0xd0000000 + 0x1000 * BitVec.ofNat 64 slot.index.toNat

def gsi (slot : Slot) : U32 := 5 + BitVec.ofNat 32 slot.index.toNat

def deviceId : Slot → U32
  | root | overlay => 2
  | net => 1
  | vsock => 19
  | rng => 4

def queueCount : Slot → U16
  | root | overlay | rng => 1
  | net => 2
  | vsock => 3

end Slot

/-- The optional slots a machine declares. -/
structure DeviceSet where
  overlay : Bool
  net : Bool
deriving DecidableEq

namespace DeviceSet

def has (devices : DeviceSet) : Slot → Bool
  | .root | .vsock | .rng => true
  | .overlay => devices.overlay
  | .net => devices.net

def present (devices : DeviceSet) : List Slot := Slot.ALL.filter devices.has

end DeviceSet

def FIXED_ARGUMENTS : List String :=
  ["console=ttyS0", "reboot=k", "panic=1", "nomodule", "random.trust_cpu=off", "pci=off", "acpi=off",
    "noapic", "cryptomgr.notests"]

variable (devices : DeviceSet)

/-- The command line of a set of devices. -/
def kernelCommandLine : String :=
  " ".intercalate (devices.present.map Slot.commandLineEntry)

def composeGeneration : String :=
  " ".intercalate ([" ".intercalate FIXED_ARGUMENTS, kernelCommandLine devices, "rdinit=/init",
      "soma.lower=/dev/vda"]
    ++ (if devices.overlay then ["soma.upper=/dev/vdb"] else [])
    ++ (if devices.net then ["soma.net=eth0"] else []))

def kernelCommandLineV1 : List UInt8 := Text.bytes (composeGeneration devices)

/-! ## Statements -/

def MACHINE_CONTRACT_V1 : String :=
  "soma-x86_64-machine-contract-v1\n"
    ++ "boot=pvh-direct elf=ET_EXEC note=XEN_ELFNOTE_PHYS32_ENTRY\n"
    ++ "vcpu=1 ram-min=134217728 ram-max=3221225472 ram-step=4096\n"
    ++ "start-info=0x6000 memmap=0x7000 modules=0x8000 cmdline=0x9000 cmdline-max=8191\n"
    ++ "low-reserved=0x0-0x5fff workspace=0xb000-0x9ffff legacy-hole=0xa0000-0xfffff\n"
    ++ "loader-gap=0x100000-0xffffff kernel-min-paddr=0x1000000 physical-start=0x1000000\n"
    ++ "initramfs=top-down-page-aligned modules-max=1\n"
    ++ "base-cmdline=console=ttyS0 reboot=k panic=1 nomodule random.trust_cpu=off pci=off acpi=off noapic "
    ++ "cryptomgr.notests\n"

def DEVICE_CONTRACT_HEADER : String :=
  "soma-minimal-device-surface-v1\n"
    ++ "transport=virtio-mmio version=2 magic=0x74726976 features=VIRTIO_F_VERSION_1 queues=split\n"
    ++ "irqchip=in-kernel ioapic edge-triggered no-shared-gsi\n"

def DEVICE_CONTRACT_TRAILER : String :=
  "excluded=pci,pcie,msi,msix,iommu,packed-ring,vhost,console,balloon,memory,fs,scsi,hotplug\n"

/-- The text a device contract is hashed from. -/
def deviceContractStatement : List UInt8 :=
  Text.bytes (DEVICE_CONTRACT_HEADER ++ String.join (devices.present.map Slot.contractLine)
    ++ DEVICE_CONTRACT_TRAILER)

def CPU_TEMPLATE_V1 : String :=
  "soma-cpu-template-v1\n"
    ++ "source=KVM_GET_SUPPORTED_CPUID apply=KVM_SET_CPUID2 vcpu=1\n"
    ++ "masks=undefined-pending-ticket status=declaration-only\n"

def READINESS_COMMAND : String := "/proc/self/exe --soma-ready-probe-v1"

namespace ContractBinding

def of (version : U16) (statement : List UInt8) : ContractBinding := ⟨version, Sha256Digest.of statement⟩

end ContractBinding

def machineContractV1 : ContractBinding := .of 1 (Text.bytes MACHINE_CONTRACT_V1)

def deviceContractV1 : ContractBinding := .of 1 (deviceContractStatement devices)

def cpuTemplateV1 : ContractBinding := .of 1 (Text.bytes CPU_TEMPLATE_V1)

def readinessCommandDigest : Sha256Digest := .of (Text.bytes READINESS_COMMAND)

/-! ## Filesystem profiles -/

def EROFS_UTILS_REVISION : String := "1.9.4"

def EROFS_FORMAT_PROFILE : String := "erofs/v1/blk4096/uncompressed/no-xattr/tar-full/all-time"

/-- The filesystem UUID of a tree: sixteen bytes of a digest, marked as a version 4 UUID. -/
def deriveRootUuid (treeDigest : Sha256Digest) : Bytes 16 :=
  let output := Sha256Digest.of (Text.bytes "soma-erofs-root-uuid-v1\x00" ++ treeDigest.1)
  let uuid := output.1.take 16
  ⟨(uuid.modify 6 fun b => (b &&& 0x0f) ||| 0x40).modify 8 fun b => (b &&& 0x3f) ||| 0x80, by
    simp [uuid, output.2]⟩

def OVERLAY_FEATURES : List String :=
  ["has_journal", "ext_attr", "resize_inode", "dir_index", "filetype", "extent", "64bit", "flex_bg",
    "sparse_super", "large_file", "huge_file", "dir_nlink", "extra_isize", "metadata_csum"]

def overlayFeatureProfile : String :=
  "ext4/blk4096/inode256/reserved0/" ++ ",".intercalate OVERLAY_FEATURES
    ++ "/lazy-init-off/root-owner-0:0/dirs-upper-work"

end Soma.Generation
