import Soma.Kvm.Snapshot.Platform
import Soma.Kvm.Snapshot.Profile

/-! # Capture

A paused machine becomes three objects: the copy of guest memory, the copy of the overlay where there is one,
and the state manifest. Each live device record is turned into its canonical section, and the section is only
accepted when it gives the live record back.

The capture starts from the paused machine; that it is quiescent has been proved before. The reads of the
vCPU and of the platform are the values KVM returned.
-/

namespace Soma.Kvm.Snapshot

open Soma.Lib Soma.Codec
open Soma.Generation (Slot DeviceSet)

/-! ## Live devices -/

/-- A queue of a running transport. -/
structure LiveQueue where
  size : U16
  ready : Bool
  activated : Bool
  desc : U64
  avail : U64
  used : U64
  nextAvail : U16
  nextUsed : U16
deriving DecidableEq

/-- The registers of a running transport. -/
structure LiveTransport where
  status : UInt8
  deviceFeaturesSel : U32
  driverFeaturesSel : U32
  driverFeatures : U64
  queueSel : U32
  interruptStatus : U32
  configGeneration : U32
  queues : List LiveQueue
deriving DecidableEq

structure BlockDevice where
  capacitySectors : U64
  blkSize : U32
deriving DecidableEq

structure NetDevice where
  mac : Bytes 6
  linkUp : Bool
deriving DecidableEq

structure VsockDevice where
  guestCid : U64
deriving DecidableEq

/-- A transport and the device behind it. -/
structure MmioTransport (D : Type) where
  transport : LiveTransport
  device : D
deriving DecidableEq

/-- The transports of a machine. -/
structure MmioBus where
  root : MmioTransport BlockDevice
  overlay : Option (MmioTransport BlockDevice)
  net : Option (MmioTransport NetDevice)
  vsock : MmioTransport VsockDevice
  rng : MmioTransport Unit

/-- A transport with its slot. -/
structure SlotSnapshot where
  slot : Slot
  transport : LiveTransport
deriving DecidableEq

namespace MmioBus

variable (bus : MmioBus)

def deviceSet : DeviceSet := ⟨bus.overlay.isSome, bus.net.isSome⟩

def transport : Slot → Option LiveTransport
  | .root => some bus.root.transport
  | .overlay => bus.overlay.map (·.transport)
  | .net => bus.net.map (·.transport)
  | .vsock => some bus.vsock.transport
  | .rng => some bus.rng.transport

def snapshot (slot : Slot) : Option SlotSnapshot :=
  (bus.transport slot).map fun transport => { slot, transport }

def snapshotAll : List SlotSnapshot := bus.deviceSet.present.filterMap bus.snapshot

end MmioBus

/-! ## The canonical form of a device -/

namespace Device

variable (slot : Slot)

def role : Option SectionRole :=
  SectionRole.all.find? fun role => role.deviceSlot = some slot.index

def specific (bus : MmioBus) (slot : Slot) (image : Digest) : Option DeviceSpecific :=
  match slot with
  | .root => some (.block ⟨bus.root.device.capacitySectors, bus.root.device.blkSize, image⟩)
  | .overlay => bus.overlay.map fun t => .block ⟨t.device.capacitySectors, t.device.blkSize, image⟩
  | .net => bus.net.map fun t => .net t.device.mac t.device.linkUp
  | .vsock => some (.vsock bus.vsock.device.guestCid)
  | .rng => some .rng

def canonicalQueue (queue : LiveQueue) (maxSize : U16) : QueueState where
  maxSize := maxSize
  size := queue.size
  ready := queue.ready
  descriptorAddress := queue.desc
  availableAddress := queue.avail
  usedAddress := queue.used
  nextAvailable := queue.nextAvail
  nextUsed := queue.nextUsed

variable (live : SlotSnapshot)

def canonicalParts (specific : DeviceSpecific) : DeviceParts where
  kind := (Profile.expectation slot).kind
  transport := {
    deviceStatus := live.transport.status
    -- a register too wide for its field becomes the largest value of the field
    interruptStatus := UInt8.ofNat (min live.transport.interruptStatus.toNat 255)
    configGeneration := live.transport.configGeneration
    queueSelect := BitVec.ofNat 16 (min live.transport.queueSel.toNat 65535) }
  negotiatedFeatures := live.transport.driverFeatures
  queues := List.zipWith canonicalQueue live.transport.queues (Profile.expectation slot).queueLimits.1
  specific := specific

/-- The state of a device, if it was negotiated as expected. -/
def canonical (specific : DeviceSpecific) :
    Except SnapshotError DeviceState := do
  ensure (live.transport.driverFeatures = (Profile.expectation slot).negotiatedFeatures)
    (.featureNegotiation slot live.transport.driverFeatures)
  (DeviceState.new (canonicalParts slot live specific)).mapError .deviceState

def liveQueue (queue : QueueState) : LiveQueue where
  size := queue.size
  ready := queue.ready
  activated := queue.ready || queue.nextAvailable ≠ 0 || queue.nextUsed ≠ 0
  desc := queue.descriptorAddress
  avail := queue.availableAddress
  used := queue.usedAddress
  nextAvail := queue.nextAvailable
  nextUsed := queue.nextUsed

/-- The live transport record of a canonical state. -/
def transport (state : DeviceState) : LiveTransport where
  status := state.1.transport.deviceStatus
  deviceFeaturesSel := 0
  driverFeaturesSel := 0
  driverFeatures := state.1.negotiatedFeatures
  queueSel := state.1.transport.queueSelect.setWidth 32
  interruptStatus := BitVec.ofNat 32 state.1.transport.interruptStatus.toNat
  configGeneration := state.1.transport.configGeneration
  queues := state.1.queues.map liveQueue

def settleQueue (queue : LiveQueue) : LiveQueue :=
  { queue with activated := queue.ready || queue.nextAvail ≠ 0 || queue.nextUsed ≠ 0 }

/-- A live record with its selectors cleared and the activation of its queues derived. -/
def settle (live : LiveTransport) : LiveTransport :=
  { live with deviceFeaturesSel := 0, driverFeaturesSel := 0, queues := live.queues.map settleQueue }

/-- The state restores the live record. -/
def reproduces (state : DeviceState) : Bool :=
  live.slot = slot ∧ transport state = settle live.transport

/-- The canonical state of one live record. -/
def capture (bus : MmioBus) (rootDigest overlayDigest : Digest) (record : SlotSnapshot) :
    Except SnapshotError (Slot × DeviceState) := do
  let image := if record.slot = .root then rootDigest else overlayDigest
  let specific ← okOr (specific bus record.slot image) (.deviceStateNotCanonical record.slot)
  let state ← canonical record.slot record specific
  ensure (reproduces record.slot record state) (.deviceStateNotCanonical record.slot)
  return (record.slot, state)

end Device

/-! ## The manifest -/

namespace Marker

def TAG : List UInt8 := Text.bytes "SOMA-REPAIR-POINT-V1"
def PRE_LAUNCH_REPAIR_WAIT : UInt8 := 1
def MAX_LINE : ℕ := 256

def encode (line : List UInt8) : List UInt8 :=
  let line := line.take MAX_LINE
  TAG ++ [PRE_LAUNCH_REPAIR_WAIT] ++ putWord (BitVec.ofNat 16 line.length) ++ line

end Marker

/-- What a capture is asked for. -/
structure CaptureRequest where
  candidateId : Bytes 32
  root : List UInt8
  overlay : Option (List UInt8)
  repairPointLine : List UInt8

/-- What was read from the paused machine. -/
structure Parts where
  cpuTemplate : Digest
  irqchip : IrqchipState
  routing : IrqRoutingState
  clock : ClockState
  pit : PitState
  devices : List (Slot × DeviceState)
  deviceSet : DeviceSet
  memory : MemoryDescriptor

/-- A section under construction. -/
def newSection (role : SectionRole) (payload : List UInt8) : Except SnapshotError Section :=
  (Section.new role payload).mapError .sections

def deviceSection (device : Slot × DeviceState) : Except SnapshotError Section := do
  let role ← okOr (Device.role device.1) (.deviceStateNotCanonical device.1)
  newSection role (DeviceState.encode device.2)

/-- The manifest of the parts. -/
def build [Template.Sha256] (request : CaptureRequest) (vmState : VmState) (vcpuState : VcpuState)
    (parts : Parts) : Except SnapshotError Manifest := do
  let candidateId ← (validate CandidateId.check request.candidateId).mapError .manifest
  let host ← Profile.requirements
  let header : ManifestHeader := {
    architecture := .x86_64
    pageSize := .FOUR_KIB
    candidateId
    machineContract := Profile.machineContract parts.deviceSet
    deviceContract := Profile.deviceContract parts.deviceSet
    cpuTemplate := parts.cpuTemplate
    host
    memory := parts.memory
    vcpuCount := Profile.VCPU_COUNT
    guestProtocolVersion := Profile.GUEST_PROTOCOL_VERSION }
  let vm ← newSection .vmState vmState.encode
  let vcpu ← newSection .vcpu0 vcpuState.encode
  let irqchip ← newSection .irqchip parts.irqchip.encode
  let routing ← newSection .irqRouting (IrqRoutingState.encode parts.routing)
  let clock ← newSection .kvmClock parts.clock.encode
  let pit ← newSection .pit parts.pit.encode
  let devices ← parts.devices.mapM deviceSection
  let marker ← newSection .repairPointMarker (Marker.encode request.repairPointLine)
  (Manifest.new header ([vm, vcpu, irqchip, routing, clock, pit] ++ devices ++ [marker])).mapError .manifest

/-! ## Staging objects -/

def CHUNK : ℕ := 2 ^ 20

/-- An object being written: what its file holds, what was hashed on the way and how much it is. -/
structure Staging where
  file : List UInt8
  running : List UInt8
  written : ℕ
deriving DecidableEq

namespace Staging

def create (artifact : Artifact) (published : Option (List UInt8)) : Except SnapshotError Staging := do
  ensure published.isNone (.alreadyPublished artifact)
  return ⟨[], [], 0⟩

def write (staging : Staging) (bytes : List UInt8) : Staging :=
  ⟨staging.file ++ bytes, staging.running ++ bytes, satAdd staging.written bytes.length⟩

/-- Copies a whole file in chunks. -/
def writeFile (staging : Staging) (source : List UInt8) : Staging :=
  if source = [] then staging else writeFile (staging.write (source.take CHUNK)) (source.drop CHUNK)
termination_by source.length
decreasing_by
  have : 0 < source.length := List.length_pos_of_ne_nil ‹_›
  have : 0 < CHUNK := by decide
  rw [List.length_drop]
  omega

def runningDigest [Template.Sha256] (staging : Staging) : Digest := Digest.of staging.running

/-- Hashes the file again and compares it with what was hashed on the way. -/
def sealFile [Template.Sha256] (staging : Staging) (artifact : Artifact) : Except SnapshotError Digest := do
  ensure (Digest.of staging.file = staging.runningDigest) (.stagingDigestMismatch artifact)
  return Digest.of staging.file

def link (staging : Staging) (artifact : Artifact) (published : Option (List UInt8)) :
    Except SnapshotError (List UInt8) := do
  ensure published.isNone (.alreadyPublished artifact)
  return staging.file

end Staging

/-! ## The capture -/

/-- The machine as the capture reads it. -/
structure Paused where
  kvm : HostKvm
  ramBytes : U64
  memory : List UInt8
  bus : MmioBus
  vcpu : VcpuState
  irqchip : IrqchipState
  clock : ClockState
  pit : PitState

/-- The published objects of a snapshot directory. -/
structure Directory where
  memory : Option (List UInt8)
  overlay : Option (List UInt8)
  state : Option (List UInt8)
deriving DecidableEq

/-- The objects a capture published. -/
structure CaptureOutcome where
  memoryDigest : Digest
  memoryBytes : ℕ
  overlayDigest : Digest
  overlayBytes : ℕ
  stateDigest : Digest
  stateBytes : ℕ
  rootDigest : Digest
deriving DecidableEq

namespace Paused

/-- The bytes of guest memory from an address on, where memory has them. -/
def readBytes (paused : Paused) (address length : ℕ) : Option (List UInt8) :=
  if address + length ≤ paused.memory.length then some ((paused.memory.drop address).take length) else none

/-- Copies guest memory from an offset on. -/
def copyMemory (paused : Paused) (offset : ℕ) (staging : Staging) : Except SnapshotError Staging :=
  if offset < paused.ramBytes.toNat then do
    let span := min (paused.ramBytes.toNat - offset) CHUNK
    let bytes ← okOr (paused.readBytes offset span) (.notQuiescent "guest RAM shrank during capture")
    copyMemory paused (offset + span) (staging.write bytes)
  else return staging
termination_by paused.ramBytes.toNat - offset
decreasing_by
  have : 0 < CHUNK := by decide
  omega

end Paused

/-- The empty routing table the machine owns. -/
def ownedRouting : IrqRoutingState := ⟨[], by decide +kernel⟩

/-- The copy of the overlay head, where the request has one. -/
def stageOverlay (head : Option (List UInt8)) (published : Option (List UInt8)) :
    Except SnapshotError (Option Staging) :=
  match head with
  | none => return none
  | some head => do
    let staging ← Staging.create .overlay published
    return some (staging.writeFile head)

section capture

variable [Template.Sha256]

def overlayDigest (overlay : Option Staging) : Digest := overlay.elim Digest.zero Staging.runningDigest

variable (paused : Paused)

/-- The VM, the vCPU and the CPU template of a paused machine. -/
def readState : Except SnapshotError (VmState × VcpuState × Digest) := do
  let vmState ← (VmState.new [⟨0, 0, paused.ramBytes, 0⟩] TSS_ADDRESS 0).mapError .kvmState
  let vcpuState ← (VcpuState.new paused.vcpu).mapError .kvmState
  paused.clock.validate.mapError .kvmState
  let cpuTemplate ← Profile.cpuTemplate paused.kvm
  return (vmState, vcpuState, cpuTemplate)

variable (request : CaptureRequest)

/-- The manifest of a paused machine whose memory and overlay have been copied. -/
def assemble (reads : VmState × VcpuState × Digest)
    (memory : Staging) (overlay : Option Staging) : Except SnapshotError Manifest := do
  let (vmState, vcpuState, cpuTemplate) := reads
  let devices ← paused.bus.snapshotAll.mapM
    (Device.capture paused.bus (Digest.of request.root) (overlayDigest overlay))
  let descriptor ← (MemoryDescriptor.new memory.runningDigest (BitVec.ofNat 64 memory.written)
    PageSize.FOUR_KIB.1).mapError .memory
  build request vmState vcpuState {
    cpuTemplate
    irqchip := paused.irqchip
    routing := ownedRouting
    clock := paused.clock
    pit := paused.pit
    devices
    deviceSet := paused.bus.deviceSet
    memory := descriptor }

/-- Seals the objects and gives them their names, the state last. -/
def publish (directory : Directory) (memory : Staging) (overlay : Option Staging) (state : Staging)
    (rootDigest : Digest) : Except SnapshotError (CaptureOutcome × Directory) := do
  let memoryDigest ← memory.sealFile .memory
  let overlayDigest ← overlay.mapM fun staging => staging.sealFile .overlay
  let stateDigest ← state.sealFile .state
  let memoryObject ← memory.link .memory directory.memory
  let overlayObject ← overlay.mapM fun staging => staging.link .overlay directory.overlay
  let stateObject ← state.link .state directory.state
  let outcome : CaptureOutcome := {
    memoryDigest
    memoryBytes := memory.written
    overlayDigest := overlayDigest.getD Digest.zero
    overlayBytes := overlay.elim 0 Staging.written
    stateDigest
    stateBytes := state.written
    rootDigest }
  return (outcome, ⟨some memoryObject, overlayObject <|> directory.overlay, some stateObject⟩)

def capture (directory : Directory) :
    Except SnapshotError (CaptureOutcome × Directory) := do
  let reads ← readState paused
  let memory ← Staging.create .memory directory.memory
  let memory ← paused.copyMemory 0 memory
  let overlay ← stageOverlay request.overlay directory.overlay
  let manifest ← assemble paused request reads memory overlay
  let state ← Staging.create .state directory.state
  let decoded ← (Manifest.decode manifest.encode).mapError .manifest
  ensure (decoded = manifest) .stagingNotCanonical
  publish directory memory overlay (state.write manifest.encode) (Digest.of request.root)

end capture

end Soma.Kvm.Snapshot
