import Soma.Kvm.Snapshot.CaptureSpec

/-! # Inspection of a capture

Installation reads the published state back and compares it with the objects beside it before a captured
Candidate may be certified. The inspection is written for a machine with an overlay: it asks for the section
of that device whether or not the machine had one, so exactly the captures with an overlay pass.
-/

namespace Soma.Kvm.Snapshot

open Soma.Lib Soma.Codec List
open Soma.Generation (Slot DeviceSet)

/-- The digest and the length of an object. -/
structure ArtifactEvidence where
  digest : Digest
  size : U64
deriving DecidableEq

/-- The objects a capture should have. -/
structure CaptureExpectation where
  candidateId : CandidateId
  memory : ArtifactEvidence
  overlay : ArtifactEvidence
  state : ArtifactEvidence
deriving DecidableEq

/-- Why an installation refuses a capture. -/
inductive InspectionError where
  | manifest (error : ManifestError)
  | memory (error : MemoryError)
  | candidateMismatch
  | memoryBinding
  | overlayBinding
  | stateBinding
  | missingOverlayState
  | overlayState (error : DeviceStateError)
  | overlayDigest
  | overlaySize
deriving DecidableEq

def blockOf (device : DeviceState) : Except InspectionError BlockState :=
  match device.1.specific with
  | .block block => .ok block
  | _ => .error (.overlayState (.specificMismatch device.1.kind))

/-- The facts of a verified capture have the fields of the expectation. -/
def inspectCapture [Template.Sha256] (stateBytes : List UInt8) (memory overlay : ArtifactEvidence)
    (expected : CaptureExpectation) : Except InspectionError CaptureExpectation := do
  let manifest ← (Manifest.decode stateBytes).mapError .manifest
  ensure (manifest.header.candidateId = expected.candidateId) .candidateMismatch
  ensure (memory = expected.memory) .memoryBinding
  ensure (overlay = expected.overlay) .overlayBinding
  let state : ArtifactEvidence := ⟨Digest.of stateBytes, BitVec.ofNat 64 (min stateBytes.length wordMax)⟩
  ensure (state = expected.state) .stateBinding
  (manifest.header.memory.verifyGeneration memory.digest memory.size).mapError .memory
  let part ← okOr (manifest.section? .device1) .missingOverlayState
  let device ← (DeviceState.decodeForSlot 1 part.payload).mapError .overlayState
  let block ← blockOf device
  ensure (block.imageDigest = overlay.digest) .overlayDigest
  ensure (checkedMul block.capacitySectors.toNat 512 = some overlay.size.toNat) .overlaySize
  return { candidateId := manifest.header.candidateId, memory, overlay, state }

namespace CaptureOutcome

variable (outcome : CaptureOutcome)

def memory : ArtifactEvidence :=
  ⟨outcome.memoryDigest, BitVec.ofNat 64 outcome.memoryBytes⟩

def overlay : ArtifactEvidence :=
  ⟨outcome.overlayDigest, BitVec.ofNat 64 outcome.overlayBytes⟩

def state : ArtifactEvidence :=
  ⟨outcome.stateDigest, BitVec.ofNat 64 outcome.stateBytes⟩

/-- The expectation that names the published objects and a Candidate. -/
def expectation (candidateId : CandidateId) : CaptureExpectation :=
  ⟨candidateId, outcome.memory, outcome.overlay, outcome.state⟩

end CaptureOutcome

/-! ## The sections of the devices -/

section devices

variable [Template.Sha256]
  {request : CaptureRequest} {vmState : VmState} {vcpuState : VcpuState} {parts : Parts}
  {manifest : Manifest} (h : build request vmState vcpuState parts = .ok manifest)
include h

theorem section?_of_device {device : Slot × DeviceState} (hdevice : device ∈ parts.devices) :
    ∃ part, manifest.section? (Device.sectionRole device.1) = some part
      ∧ part.payload = DeviceState.encode device.2 := by
  refine Manifest.payload_of_mem ?_
  rw [(build_eq_ok h).2.2, captureContents]
  have hmem := mem_map_of_mem (f := fun d : Slot × DeviceState =>
    (Device.sectionRole d.1, DeviceState.encode d.2)) hdevice
  exact mem_append_left _ (mem_append_right _ hmem)

theorem section?_isSome_iff (hslots : parts.devices.map Prod.fst = parts.deviceSet.present) (slot : Slot) :
    (manifest.section? (Device.sectionRole slot)).isSome ↔ parts.deviceSet.has slot := by
  have hroles : ∀ devices : DeviceSet, Device.sectionRole slot ∈ captureRoles devices ↔ devices.has slot := by
    rintro ⟨overlay, net⟩
    cases slot <;> cases overlay <;> cases net <;> decide
  rw [Manifest.section?_isSome, (build_eq_ok h).2.2, map_fst_captureContents hslots, hroles]

end devices

namespace Device

variable {bus : MmioBus} {rootDigest overlayDigest : Digest} {record : SlotSnapshot}
  {device : Slot × DeviceState} (h : Captured bus rootDigest overlayDigest record device)
include h

theorem Captured.decode :
    DeviceState.decodeForSlot device.1.index (DeviceState.encode device.2) = .ok device.2 := by
  refine DeviceState.decodeForSlot_eq_ok.mpr ⟨?_, rfl⟩
  rw [h.parts, h.slot]
  exact Profile.expectation_slot record.slot

theorem Captured.overlay (hslot : record.slot = .overlay) :
    ∃ t block, bus.overlay = some t ∧ device.2.1.specific = .block block ∧ block.validate = .ok ()
      ∧ block.capacitySectors = t.device.capacitySectors ∧ block.imageDigest = overlayDigest := by
  have hspecific := h.specific
  rw [hslot, if_neg (by decide)] at hspecific
  obtain ⟨t, ht, hblock⟩ := Option.map_eq_some_iff.mp
    (show bus.overlay.map _ = some device.2.1.specific from hspecific)
  have hvalid := (DeviceState.check_eq_ok.mp device.2.2).2.2.2
  rw [h.parts, hslot] at hvalid
  rw [← hblock] at hvalid
  exact ⟨t, _, ht, hblock.symm, hvalid, rfl, rfl⟩

end Device

/-! ## The inspection of what was published -/

section inspection

variable [Template.Sha256]

theorem inspectCapture_isOk {manifest : Manifest} {memory overlay : ArtifactEvidence}
    (hadmissible : manifest.header.Admissible) (hmemory : manifest.header.memory = ⟨memory.digest, memory.size⟩) :
    (inspectCapture manifest.encode memory overlay ⟨manifest.header.candidateId, memory, overlay,
        ⟨Digest.of manifest.encode, BitVec.ofNat 64 (min manifest.encode.length wordMax)⟩⟩).isOk ↔
      ∃ part device block, manifest.section? .device1 = some part
        ∧ DeviceState.decodeForSlot 1 part.payload = .ok device ∧ device.1.specific = .block block
        ∧ block.imageDigest = overlay.digest
        ∧ checkedMul block.capacitySectors.toNat 512 = some overlay.size.toNat := by
  have hverify : manifest.header.memory.verifyGeneration memory.digest memory.size = .ok () := by
    rw [hmemory]
    simp [MemoryDescriptor.verifyGeneration, seq_eq_ok, ensure_eq_ok]
  have hblock : ∀ (device : DeviceState) block, blockOf device = .ok block ↔ device.1.specific = .block block := by
    intro device block
    unfold blockOf
    split <;> simp_all
  simp only [isOk_iff_exists, inspectCapture, bind_eq_ok, mapError_eq_ok, Manifest.decode_encode hadmissible,
    ensure_eq_ok, okOr_eq_ok, hblock]
  constructor
  · rintro ⟨_, _, hmanifest, ⟨⟩, -, ⟨⟩, -, ⟨⟩, -, ⟨⟩, -, ⟨⟩, -, part, hpart, device, hdevice, block, hspecific,
      ⟨⟩, hdigest, ⟨⟩, hsize, -⟩
    obtain rfl := Except.ok.inj hmanifest
    exact ⟨part, device, block, hpart, hdevice, hspecific, hdigest, hsize⟩
  · rintro ⟨part, device, block, hpart, hdevice, hspecific, hdigest, hsize⟩
    exact ⟨_, manifest, rfl, (), rfl, (), trivial, (), trivial, (), trivial, (), hverify, part, hpart, device,
      hdevice, block, hspecific, (), hdigest, (), hsize, rfl⟩

theorem inspectCapture_outcome {paused : Paused} {request : CaptureRequest} {directory : Directory}
    {reads : VmState × VcpuState × Digest} {manifest : Manifest}
    (hpublished : Published paused request directory reads manifest)
    (hoverlay : ∀ bytes t, request.overlay = some bytes → paused.bus.overlay = some t →
      bytes.length = t.device.capacitySectors.toNat * 512)
    {candidateId : CandidateId} (hcandidate : candidateId.1 = request.candidateId) :
    (inspectCapture manifest.encode (outcomeOf paused request manifest).memory
        (outcomeOf paused request manifest).overlay
        ((outcomeOf paused request manifest).expectation candidateId)).isOk ↔ paused.bus.deviceSet.overlay := by
  obtain ⟨devices, hdevices, hcheck, hbuild⟩ := assemble_eq_ok.mp hpublished.manifest
  have hslots : devices.map Prod.fst = paused.bus.deviceSet.present := map_fst_of_captured hdevices
  have hheader := (build_eq_ok hbuild).2.1
  have hid : candidateId = manifest.header.candidateId :=
    Subtype.ext (hcandidate.trans (build_eq_ok hbuild).1.symm)
  rw [hid]
  refine (inspectCapture_isOk (admissible_of_build hbuild hcheck) (by rw [hheader]; rfl)).trans ?_
  have hpresent := section?_isSome_iff hbuild hslots .overlay
  constructor
  · rintro ⟨part, -, -, hpart, -⟩
    exact hpresent.mp (Option.isSome_iff_exists.mpr ⟨part, hpart⟩)
  · intro hhas
    -- the record of the overlay was captured, so its section holds its geometry and the digest of its image
    obtain ⟨record, -, device, hdevice, hslot, hcaptured⟩ := exists_captured hdevices
      (show paused.bus.deviceSet.has .overlay from hhas)
    obtain ⟨part, hpart, hpayload⟩ := section?_of_device hbuild hdevice
    obtain ⟨t, block, ht, hspecific, hvalid, hcapacity, hdigest⟩ := hcaptured.overlay hslot
    have hdecode := hcaptured.decode
    rw [← hpayload, hcaptured.slot, hslot] at hdecode
    rw [hcaptured.slot, hslot] at hpart
    simp only [BlockState.validate, seq_eq_ok, ensure_eq_ok] at hvalid
    obtain ⟨bytes, hbytes⟩ : ∃ bytes, request.overlay = some bytes := by
      refine Option.ne_none_iff_exists'.mp fun hnone => hvalid.2.2 ?_
      rw [hdigest, hnone]
      rfl
    refine ⟨part, device.2, block, hpart, hdecode, hspecific, ?_, ?_⟩
    · rw [hdigest, hbytes]
      simp only [outcomeOf, CaptureOutcome.overlay, hbytes]
      rfl
    · have hlength := hoverlay bytes t hbytes ht
      rw [← hcapacity] at hlength
      simp only [outcomeOf, CaptureOutcome.overlay, hbytes, Option.elim_some]
      obtain ⟨total, htotal⟩ := Option.isSome_iff_exists.mp hvalid.2.1
      obtain ⟨hle, rfl⟩ := checkedMul_eq_some.mp htotal
      rw [htotal, hlength, min_eq_left hle, BitVec.toNat_ofNat, Nat.mod_eq_of_lt (Nat.lt_of_le_of_lt hle (by decide))]

/-- A published capture passes the inspection exactly when its machine has an overlay. -/
theorem inspectCapture_isOk_iff {paused : Paused} {request : CaptureRequest} {directory published : Directory}
    {outcome : CaptureOutcome} (h : capture paused request directory = .ok (outcome, published))
    (hoverlay : ∀ bytes t, request.overlay = some bytes → paused.bus.overlay = some t →
      bytes.length = t.device.capacitySectors.toNat * 512)
    (candidateId : CandidateId) (hcandidate : candidateId.1 = request.candidateId) :
    ∃ state, published.state = some state
      ∧ ((inspectCapture state outcome.memory outcome.overlay (outcome.expectation candidateId)).isOk ↔
        paused.bus.deviceSet.overlay) := by
  obtain ⟨reads, manifest, hpublished, rfl, rfl⟩ := capture_eq_ok.mp h
  exact ⟨manifest.encode, rfl, inspectCapture_outcome hpublished hoverlay hcandidate⟩

end inspection

/-! ## A machine at rest

A machine with 128 MiB of zeroed memory whose drivers have negotiated and have used every queue. -/

section rest

instance {α : Type} {n : ℕ} [Inhabited α] : Inhabited (Tuple α n) := ⟨⟨replicate n default, length_replicate⟩⟩

deriving instance Inhabited for Regs, Segment, Dtable, Sregs, Fpu, MpState, ExceptionEvent, InterruptEvent,
  NmiEvent, SmiEvent, VcpuEvents, PicState, IoapicState, IrqchipState, ClockState, PitChannel, PitState

def restVcpu : VcpuState where
  cpuid := ⟨[], by decide +kernel⟩
  msrs := ⟨[], by decide +kernel⟩
  regs := default
  sregs := default
  fpu := default
  xcrs := ⟨0, ⟨[], by decide +kernel⟩⟩
  xsave := ⟨replicate 4096 0, by decide +kernel⟩
  lapic := default
  mpState := .runnable
  events := default
  nested := none

def restKvm : HostKvm where
  apiVersion := 12
  checkExtension := fun _ => true
  nrMemslots := 32
  xsave2 := 4096
  supportedCpuid := .ok [⟨0x40000000, 0, 0, 0, 0x4b4d564b, 0x564b4d56, 0x4d⟩]

def restTransport (slot : Slot) : LiveTransport where
  status := 0x0f
  deviceFeaturesSel := 0
  driverFeaturesSel := 0
  driverFeatures := (Profile.expectation slot).negotiatedFeatures
  queueSel := 0
  interruptStatus := 0
  configGeneration := 0
  queues := replicate slot.queueCount.toNat ⟨16, true, true, 0x10000, 0x11000, 0x12000, 5, 5⟩

variable (overlay : Bool)

/-- The bus with or without the overlay, and no network. -/
def restBus : MmioBus where
  root := ⟨restTransport .root, ⟨8, 512⟩⟩
  overlay := if overlay then some ⟨restTransport .overlay, ⟨8, 512⟩⟩ else none
  net := none
  vsock := ⟨restTransport .vsock, ⟨3⟩⟩
  rng := ⟨restTransport .rng, ()⟩

def restPaused : Paused where
  kvm := restKvm
  ramBytes := 0x8000000
  memory := replicate 0x8000000 0
  bus := restBus overlay
  vcpu := restVcpu
  irqchip := default
  clock := default
  pit := default

def restRequest : CaptureRequest where
  candidateId := Compatibility.filledDigest 2
  root := replicate 4096 0
  overlay := if overlay then some (replicate 4096 0) else none
  repairPointLine := []

theorem rest_captured {bus : MmioBus} {rootDigest overlayDigest : Digest} (slot : Slot) {fields : DeviceSpecific}
    (hfields : Device.specific bus slot (if slot = .root then rootDigest else overlayDigest) = some fields)
    (hvalid : fields.validateFor (Profile.expectation slot).kind = .ok ()) :
    ∃ device, Device.Captured bus rootDigest overlayDigest ⟨slot, restTransport slot⟩ device := by
  let record : SlotSnapshot := ⟨slot, restTransport slot⟩
  have hqueues : forIdx (zipWith Device.canonicalQueue (restTransport slot).queues
      (Profile.expectation slot).queueLimits.1) QueueState.validate = .ok () := by
    clear hfields hvalid
    cases slot <;> decide +kernel
  have hcheck : DeviceState.check (Device.canonicalParts slot record fields) = .ok () := by
    refine DeviceState.check_eq_ok.mpr ⟨?_, forIdx_eq_ok.mp hqueues, ?_, hvalid⟩
    · cases slot <;> rfl
    · show UInt8.ofNat (min 0 255) &&& ~~~0b11 = 0
      decide
  refine ⟨(slot, ⟨Device.canonicalParts slot record fields, hcheck⟩), ⟨rfl, rfl, hfields, rfl, ?_⟩⟩
  cases slot <;> rfl

theorem rest_block_valid {digest : Digest} (h : digest ≠ Digest.zero) (kind : DeviceKind)
    (hkind : kind = .rootBlock ∨ kind = .overlayBlock) :
    (DeviceSpecific.block ⟨8, 512, digest⟩).validateFor kind = .ok () := by
  have hblock : BlockState.validate ⟨8, 512, digest⟩ = .ok () := by
    simp only [BlockState.validate, seq_eq_ok, ensure_eq_ok]
    exact ⟨by decide +kernel, by decide +kernel, h⟩
  rcases hkind with rfl | rfl <;> exact hblock

variable [Template.Sha256]

theorem rest_reads : ∃ reads, Reads (restPaused overlay) reads := by
  let vm : VmState := ⟨⟨[ramSlot 0x8000000], by decide +kernel⟩, TSS_ADDRESS, 0⟩
  have hvcpu : restVcpu.sregs.validate = .ok () := by decide +kernel
  have hclock : (default : ClockState).validate = .ok () := by decide +kernel
  exact ⟨(vm, restVcpu, _), rfl, rfl, rfl, rfl, hvcpu, hclock, rfl⟩

theorem rest_capture (hdigest : ∀ bytes, Digest.of bytes ≠ Digest.zero) (overlay : Bool) :
    ∃ outcome published,
      capture (restPaused overlay) (restRequest overlay) ⟨none, none, none⟩ = .ok (outcome, published) := by
  obtain ⟨reads, hreads⟩ := rest_reads overlay
  have hram : (restPaused overlay).ram = replicate 0x8000000 0 := take_replicate ..
  have hmemory : MemoryDescriptor.check PageSize.FOUR_KIB.1 (memoryOf (.of (restPaused overlay).ram)) = .ok () := by
    have hsize : BitVec.ofNat 64 (min (restPaused overlay).ram.length wordMax) = 0x8000000 := by
      rw [hram, length_replicate]
      decide
    unfold memoryOf Staging.of
    rw [hsize]
    exact MemoryDescriptor.check_of_layout ⟨0x8000000, by decide +kernel⟩ (hdigest _)
  obtain ⟨devices, hdevices⟩ : ∃ devices, Forall₂ (Device.Captured (restBus overlay)
      (Digest.of (restRequest overlay).root) (overlayDigest ((restRequest overlay).overlay.map .of)))
      (restBus overlay).snapshotAll devices := by
    have hcaptured := fun slot fields => @rest_captured (restBus overlay) (Digest.of (restRequest overlay).root)
      (overlayDigest ((restRequest overlay).overlay.map .of)) slot fields
    obtain ⟨root, hroot⟩ := hcaptured .root _ rfl (rest_block_valid (hdigest _) _ (.inl rfl))
    obtain ⟨vsock, hvsock⟩ := hcaptured .vsock _ rfl rfl
    obtain ⟨rng, hrng⟩ := hcaptured .rng _ rfl rfl
    cases overlay with
    | false => exact ⟨_, .cons hroot (.cons hvsock (.cons hrng .nil))⟩
    | true =>
      obtain ⟨head, hhead⟩ := hcaptured .overlay _ rfl (rest_block_valid (hdigest _) _ (.inr rfl))
      exact ⟨_, .cons hroot (.cons hhead (.cons hvsock (.cons hrng .nil)))⟩
  have hslots := map_fst_of_captured hdevices
  obtain ⟨manifest, hbuild⟩ : ∃ manifest, build (restRequest overlay) reads.1 reads.2.1 ((restPaused overlay).parts
      reads.2.2 devices (memoryOf (.of (restPaused overlay).ram))) = .ok manifest :=
    build_isOk (by cases overlay <;> decide +kernel) hslots
  refine ⟨_, _, capture_eq_ok.mpr ⟨reads, manifest, ⟨hreads, ?_, rfl, fun _ => rfl, rfl, ?_⟩, rfl, rfl⟩⟩
  · show 0x8000000 ≤ (replicate 0x8000000 (0 : UInt8)).length
    rw [length_replicate]
  · exact assemble_eq_ok.mpr ⟨devices, hdevices, hmemory, hbuild⟩

omit [Template.Sha256]

def restCandidate : CandidateId := ⟨Compatibility.filledDigest 2, Compatibility.filledDigest_check⟩

/-- A machine without an overlay is captured, and its capture is refused. -/
theorem capture_without_overlay_refused : ∃ paused request, paused.bus.deviceSet = ⟨false, false⟩
    ∧ ∀ hash : Template.Sha256, (∀ bytes, hash.digest bytes ≠ Digest.zero) → ∃ outcome published state,
      capture paused request ⟨none, none, none⟩ = .ok (outcome, published) ∧ published.state = some state
        ∧ (inspectCapture state outcome.memory outcome.overlay (outcome.expectation restCandidate)).isOk = false := by
  refine ⟨restPaused false, restRequest false, rfl, ?_⟩
  intro hash hdigest
  obtain ⟨outcome, published, hcapture⟩ := rest_capture hdigest false
  obtain ⟨reads, manifest, hpublished, rfl, rfl⟩ := capture_eq_ok.mp hcapture
  refine ⟨_, _, manifest.encode, hcapture, rfl, ?_⟩
  rw [Bool.eq_false_iff]
  intro hok
  have hhas := (inspectCapture_outcome hpublished (fun _ _ h _ => by cases h) rfl).mp hok
  cases hhas

/-- The same machine with its overlay passes. -/
theorem capture_with_overlay_passes : ∃ (_ : Template.Sha256) (outcome : CaptureOutcome) (published : Directory)
    (state : List UInt8),
    capture (restPaused true) (restRequest true) ⟨none, none, none⟩ = .ok (outcome, published)
      ∧ published.state = some state
      ∧ (inspectCapture state outcome.memory outcome.overlay (outcome.expectation restCandidate)).isOk := by
  let hash : Template.Sha256 := ⟨fun _ => Compatibility.filledDigest 7⟩
  have hdigest : Compatibility.filledDigest 7 ≠ Digest.zero := by decide
  obtain ⟨outcome, published, hcapture⟩ := rest_capture (fun _ => hdigest) true
  obtain ⟨state, hstate, hiff⟩ := inspectCapture_isOk_iff hcapture (fun bytes t hbytes ht => by
    cases hbytes
    cases ht
    exact length_replicate) restCandidate rfl
  exact ⟨hash, outcome, published, state, hcapture, hstate, hiff.mpr rfl⟩

end rest

end Soma.Kvm.Snapshot
