import Soma.Kvm.Snapshot.Inspection

/-! # Restoring where a capture was made

Two results over the whole format. Every value a capture writes is read back and has no second encoding
(`snapshot_canonical`). The manifest of a capture is accepted by the host that made it, for the device set it
had and for no other, and the live records come back from its sections (`restores_on_same_host`).
-/

namespace Soma.Kvm.Snapshot

open Soma.Lib Soma.Codec IrqRoutingState Compatibility Profile
open Soma.Generation (Slot DeviceSet)

/-! ## Canonical forms -/

/-- Every valid value fits a section and is read back, and what is read has no other encoding. -/
structure Canonical {ε α : Type} (decode : List UInt8 → Except ε α) (encode : α → List UInt8) (valid : α → Prop) :
    Prop where
  read_back : ∀ x, valid x → decode (encode x) = .ok x
  fits : ∀ x, valid x → (encode x).length ≤ MAX_SECTION_BYTES
  unique : ∀ bytes x, decode bytes = .ok x → encode x = bytes

theorem Canonical.of_iff {ε α : Type} {decode : List UInt8 → Except ε α} {encode : α → List UInt8}
    {valid : α → Prop} (hdecode : ∀ bytes x, decode bytes = .ok x ↔ valid x ∧ bytes = encode x)
    (hfits : ∀ x, (encode x).length ≤ MAX_SECTION_BYTES) : Canonical decode encode valid where
  read_back x hx := (hdecode _ x).mpr ⟨hx, rfl⟩
  fits x _ := hfits x
  unique bytes x h := ((hdecode bytes x).mp h).2.symm

theorem VmState.canonical : Canonical VmState.decode VmState.encode
    (fun state => ∃ slots tss identity, VmState.new slots tss identity = .ok state) := by
  refine .of_iff (fun bytes state => ?_) VmState.encode_fits
  have hnew : ∃ slots tss identity, VmState.new slots tss identity = .ok state :=
    ⟨_, _, _, VmState.new_eq_ok.mpr ⟨rfl, rfl, rfl⟩⟩
  rw [VmState.decode_eq_ok, and_iff_right hnew]

theorem VcpuState.canonical : Canonical VcpuState.decode VcpuState.encode
    (fun state => ∃ parts, VcpuState.new parts = .ok state) := by
  refine .of_iff (fun bytes state => ?_) VcpuState.length_encode
  rw [VcpuState.decode_eq_ok]
  simp [VcpuState.new_eq_ok, and_comm]

theorem IrqchipState.canonical : Canonical IrqchipState.decode IrqchipState.encode (fun _ => True) := by
  refine .of_iff (fun bytes state => ?_) IrqchipState.encode_fits
  rw [IrqchipState.decode_eq_ok, true_and]

theorem IrqRoutingState.canonical : Canonical decode encode
    (fun state => ∃ entries, new entries = .ok state) := by
  refine .of_iff (fun bytes state => ?_) encode_fits
  have hnew : ∃ entries, new entries = .ok state := ⟨state.1, validate_val state⟩
  rw [decode_eq_ok, and_iff_right hnew]

theorem ClockState.canonical :
    Canonical ClockState.decode ClockState.encode (fun state => state.validate = .ok ()) :=
  .of_iff (fun _ _ => ClockState.decode_eq_ok) ClockState.encode_fits

theorem PitState.canonical : Canonical PitState.decode PitState.encode (fun _ => True) := by
  refine .of_iff (fun bytes state => ?_) PitState.encode_fits
  rw [PitState.decode_eq_ok, true_and]

theorem DeviceState.canonical (slot : UInt8) : Canonical (DeviceState.decodeForSlot slot) DeviceState.encode
    (fun state => state.1.kind.slot = slot ∧ ∃ parts, DeviceState.new parts = .ok state) := by
  refine .of_iff (fun bytes state => ?_) DeviceState.encode_fits
  have hnew : ∃ parts, DeviceState.new parts = .ok state := ⟨state.1, validate_val state⟩
  rw [DeviceState.decodeForSlot_eq_ok, and_iff_left hnew]

/-- Snapshot state has one form, as a manifest and as the payload of each section. -/
theorem snapshot_canonical [Template.Sha256] :
    (∀ request vmState vcpuState parts manifest digest size,
      MemoryDescriptor.new digest size PageSize.FOUR_KIB.1 = .ok parts.memory →
      build request vmState vcpuState parts = .ok manifest → Manifest.decode manifest.encode = .ok manifest)
    ∧ (∀ bytes manifest, Manifest.decode bytes = .ok manifest → Manifest.KnownRoles bytes →
      manifest.encode = bytes)
    ∧ Canonical VmState.decode VmState.encode
      (fun state => ∃ slots tss identity, VmState.new slots tss identity = .ok state)
    ∧ Canonical VcpuState.decode VcpuState.encode (fun state => ∃ parts, VcpuState.new parts = .ok state)
    ∧ Canonical IrqchipState.decode IrqchipState.encode (fun _ => True)
    ∧ Canonical decode encode
      (fun state => ∃ entries, new entries = .ok state)
    ∧ Canonical ClockState.decode ClockState.encode (fun state => state.validate = .ok ())
    ∧ Canonical PitState.decode PitState.encode (fun _ => True)
    ∧ ∀ slot, Canonical (DeviceState.decodeForSlot slot) DeviceState.encode
      (fun state => state.1.kind.slot = slot ∧ ∃ parts, DeviceState.new parts = .ok state) := by
  refine ⟨?_, fun _ _ => Manifest.decode_canonical, VmState.canonical, VcpuState.canonical,
    IrqchipState.canonical, canonical, ClockState.canonical, PitState.canonical,
    DeviceState.canonical⟩
  intro request vmState vcpuState parts manifest digest size hmemory hbuild
  obtain ⟨⟨⟩, hcheck, h⟩ := bind_eq_ok.mp hmemory
  rw [Except.ok.inj h] at hcheck
  exact Manifest.decode_encode (admissible_of_build hbuild hcheck)

/-! ## The host that made the capture -/

section host

variable [Template.Sha256] {kvm : HostKvm} {memoryBytes : U64} {profile : HostProfile} {devices : DeviceSet}

theorem hostProfile_eq_ok (h : Profile.hostProfile kvm memoryBytes devices = .ok profile) :
    ∃ cpuTemplate, Profile.cpuTemplate kvm = .ok cpuTemplate ∧
      profile = Profile.profileOf kvm memoryBytes devices cpuTemplate := by
  obtain ⟨⟨⟩, -, h⟩ := bind_eq_ok.mp h
  obtain ⟨cpuTemplate, hcpu, h⟩ := bind_eq_ok.mp h
  exact ⟨cpuTemplate, hcpu, (Except.ok.inj h).symm⟩

theorem expectation_hostProfile (h : Profile.hostProfile kvm memoryBytes devices = .ok profile) (slot : Slot) :
    expectation profile slot.index
      = if devices.has slot then some (Profile.expectation slot) else none := by
  obtain ⟨cpuTemplate, -, rfl⟩ := hostProfile_eq_ok h
  cases slot <;> rfl

omit [Template.Sha256] in
theorem deviceRole_index (slot : Slot) : deviceRole slot.index = some (Device.sectionRole slot) :=
  Device.role_eq slot

omit [Template.Sha256] in
theorem forM_slots {f : UInt8 → Except Incompatibility Unit} :
    (List.range DEVICE_COUNT).forM (fun slot => f (UInt8.ofNat slot)) = .ok () ↔
      ∀ slot : Slot, f slot.index = .ok () := by
  have hslots : (List.range DEVICE_COUNT).map UInt8.ofNat = Slot.ALL.map Slot.index := rfl
  have hall : ∀ slot : Slot, slot ∈ Slot.ALL := by
    intro slot
    cases slot <;> decide
  rw [forM_eq_ok]
  constructor
  · intro h slot
    have hmem : slot.index ∈ (List.range DEVICE_COUNT).map UInt8.ofNat := by
      rw [hslots]
      exact List.mem_map_of_mem (hall slot)
    obtain ⟨n, hn, heq⟩ := List.mem_map.mp hmem
    rw [← heq]
    exact h n hn
  · intro h n hn
    have hmem : UInt8.ofNat n ∈ Slot.ALL.map Slot.index := by
      rw [← hslots]
      exact List.mem_map_of_mem hn
    obtain ⟨slot, -, heq⟩ := List.mem_map.mp hmem
    rw [← heq]
    exact h slot

/-- A live record with what a restore does not bring back left out. -/
def LiveTransport.certified (live : LiveTransport) : LiveTransport :=
  { live with
    deviceFeaturesSel := 0
    driverFeaturesSel := 0
    queues := live.queues.map fun queue => { queue with activated := false } }

omit [Template.Sha256] in
theorem certified_settle (live : LiveTransport) : (Device.settle live).certified = live.certified := by
  simp [Device.settle, LiveTransport.certified, Device.settleQueue, Function.comp_def]

variable {paused : Paused} {request : CaptureRequest} {reads : VmState × VcpuState × Digest}
  {overlay : Option Staging} {manifest : Manifest}

theorem size_memoryOf (hmemory : paused.ramBytes.toNat ≤ paused.memory.length) :
    (memoryOf (.of paused.ram)).size = paused.ramBytes := by
  have hlength : paused.ram.length = paused.ramBytes.toNat := by
    rw [Paused.ram, List.length_take, min_eq_left hmemory]
  have hlt := paused.ramBytes.isLt
  show BitVec.ofNat 64 (min paused.ram.length wordMax) = paused.ramBytes
  rw [hlength, min_eq_left (by unfold wordMax; omega), BitVec.ofNat_toNat, BitVec.setWidth_eq]

section

variable {devices : List (Slot × DeviceState)} (hmemory : paused.ramBytes.toNat ≤ paused.memory.length)
  (hreads : Reads paused reads)
  (hbuild : build request reads.1 reads.2.1 (paused.parts reads.2.2 devices (memoryOf (.of paused.ram))) = .ok manifest)
include hmemory hreads hbuild

theorem checkHeader_same_host (hserved : paused.kvm.Served)
    (hprofile : Profile.hostProfile paused.kvm paused.ramBytes paused.bus.deviceSet = .ok profile) :
    checkHeader profile manifest = .ok () := by
  obtain ⟨cpuTemplate, hcpu, rfl⟩ := hostProfile_eq_ok hprofile
  obtain rfl := Except.ok.inj (hcpu.symm.trans hreads.cpuTemplate)
  unfold checkHeader
  rw [(build_eq_ok hbuild).2.1]
  simp only [exactly, seq_eq_ok, ensure_eq_ok, forM_eq_ok]
  refine ⟨rfl, trivial, rfl, (size_memoryOf hmemory).symm, rfl, rfl, ?_, ?_, ?_, rfl, rfl, rfl⟩
  · exact congrArg Profile.apiWord hserved.apiVersion
  · intro capability hcapability
    exact List.mem_filter.mpr ⟨hcapability, hserved.capabilities capability hcapability⟩
  · have hslots := hserved.memorySlots
    have hbound : REQUIRED_MEMORY_SLOTS.toNat = 2 := rfl
    show (2 : U16) ≤ BitVec.ofNat 16 (min paused.kvm.nrMemslots 65535)
    rw [BitVec.le_def, BitVec.toNat_ofNat, Nat.mod_eq_of_lt (by omega)]
    show 2 ≤ min paused.kvm.nrMemslots 65535
    omega

theorem checkVmLayout_same_host : checkVmLayout manifest = .ok () := by
  obtain ⟨-, hheader, hcontents⟩ := build_eq_ok hbuild
  obtain ⟨part, hpart, hpayload⟩ := Manifest.payload_of_mem
    (show (SectionRole.vmState, reads.1.encode) ∈ manifest.contents by
      rw [hcontents]
      exact List.mem_cons_self)
  have hsize : manifest.header.memory.size = paused.ramBytes := by
    rw [hheader]
    exact size_memoryOf hmemory
  have hlt := paused.ramBytes.isLt
  refine checkVmLayout_eq_ok.mpr ⟨reads.1, ?_, ?_, ?_⟩
  · rw [vmState, hpart]
    exact mapError_eq_ok.mpr (VmState.decode_eq_ok.mpr hpayload)
  · rw [VmState.totalBytes, hreads.slots, hsize]
    show min (0 + paused.ramBytes.toNat) wordMax = paused.ramBytes.toNat
    unfold wordMax
    omega
  · intro slot hslot
    rw [hreads.slots, List.mem_singleton] at hslot
    rw [hslot, hsize]
    show 0 + paused.ramBytes.toNat ≤ paused.ramBytes.toNat
    omega

end

variable {rootDigest : Digest}

omit [Template.Sha256] in
theorem checkDevice_of_captured {overlayDigest : Digest} {record : SlotSnapshot} {device : Slot × DeviceState}
    {part : Section} (hcaptured : Device.Captured paused.bus rootDigest overlayDigest record device)
    (hexpectation : expectation profile record.slot.index = some (expectation record.slot))
    (hpart : manifest.section? (Device.sectionRole record.slot) = some part)
    (hpayload : part.payload = DeviceState.encode device.2) :
    checkDevice profile manifest record.slot.index = .ok () := by
  have hdecode := hcaptured.decode
  rw [← hpayload, hcaptured.slot] at hdecode
  have hkind := expectation_slot record.slot
  simp only [checkDevice, bind_eq_ok, okOr_eq_ok, mapError_eq_ok]
  refine ⟨expectation record.slot, ?_, Device.sectionRole record.slot, deviceRole_index record.slot,
    part, hpart, device.2, hdecode, (), forIdx_eq_ok.mpr ?_, ensure_eq_ok.mpr ?_⟩
  · rw [hexpectation, Option.filter_some, if_pos (decide_eq_true hkind)]
  · intro i queue hqueue
    rw [hcaptured.parts] at hqueue
    obtain ⟨live, limit, -, hlimit, rfl⟩ := List.getElem?_zipWith_eq_some.mp hqueue
    rw [ensure_eq_ok, List.getD_eq_getElem?_getD, hlimit]
    rfl
  · rw [hcaptured.parts]
    exact hcaptured.features.symm

theorem checkSlot_eq_ok {parts : Parts} {overlayDigest : Digest} {vmState : VmState} {vcpuState : VcpuState}
    (hdevices : List.Forall₂ (Device.Captured paused.bus rootDigest overlayDigest) paused.bus.snapshotAll
      parts.devices)
    (hset : parts.deviceSet = paused.bus.deviceSet) (hbuild : build request vmState vcpuState parts = .ok manifest)
    {set : DeviceSet}
    (hprofile : hostProfile kvm memoryBytes set = .ok profile) (slot : Slot) :
    checkSlot profile manifest slot.index = .ok () ↔
      set.has slot = paused.bus.deviceSet.has slot := by
  have hslots : parts.devices.map Prod.fst = parts.deviceSet.present := by
    rw [hset]
    exact map_fst_of_captured hdevices
  have hpresent := section?_isSome_iff hbuild hslots slot
  rw [hset] at hpresent
  have hexpectation := expectation_hostProfile hprofile slot
  unfold checkSlot
  cases hhas : set.has slot with
  | true =>
    rw [hhas, if_pos rfl] at hexpectation
    rw [hexpectation, Option.isSome_some, if_pos rfl, eq_comm (a := true)]
    constructor
    · intro hcheck
      simp only [checkDevice, bind_eq_ok, okOr_eq_ok, deviceRole_index] at hcheck
      obtain ⟨_, -, role, hrole, part, hpart, -⟩ := hcheck
      obtain rfl := Option.some.inj hrole
      exact hpresent.mp (Option.isSome_iff_exists.mpr ⟨part, hpart⟩)
    · intro hcarried
      obtain ⟨record, -, device, hdevice, rfl, hcaptured⟩ := exists_captured hdevices hcarried
      obtain ⟨part, hpart, hpayload⟩ := section?_of_device hbuild hdevice
      rw [hcaptured.slot] at hpart
      exact checkDevice_of_captured hcaptured hexpectation hpart hpayload
  | false =>
    rw [hhas, if_neg (by decide)] at hexpectation
    rw [hexpectation, Option.isSome_none, if_neg (by decide), forSome_eq_ok, deviceRole_index, eq_comm (a := false),
      Bool.eq_false_iff, Ne, ← hpresent]
    simp

omit [Template.Sha256] in
theorem eq_of_has {devices' : DeviceSet} (h : ∀ slot, devices.has slot = devices'.has slot) :
    devices = devices' := by
  obtain ⟨overlay, net⟩ := devices
  obtain ⟨overlay', net'⟩ := devices'
  obtain rfl : overlay = overlay' := h .overlay
  obtain rfl : net = net' := h .net
  rfl

/-- The manifest of a capture, written and read, is accepted by the host that made it, and every live record
comes back from its section. No other device set is accepted, on any host. -/
theorem restores_on_same_host (hserved : paused.kvm.Served) (hmemory : paused.ramBytes.toNat ≤ paused.memory.length)
    (hreads : readState paused = .ok reads)
    (hmanifest : assemble paused request reads (.of paused.ram) overlay = .ok manifest) :
    Manifest.decode manifest.encode = .ok manifest
      ∧ ((hostProfile paused.kvm paused.ramBytes paused.bus.deviceSet).isOk ↔
        paused.kvm.xsave2 ≤ XSAVE_LIMIT)
      ∧ (∀ profile, hostProfile paused.kvm paused.ramBytes paused.bus.deviceSet = .ok profile →
        Compatibility.check profile manifest = .ok ())
      ∧ (∀ record ∈ paused.bus.snapshotAll, ∃ part state, manifest.section? (Device.sectionRole record.slot) = some part
        ∧ DeviceState.decodeForSlot record.slot.index part.payload = .ok state
        ∧ (Device.transport state).certified = record.transport.certified)
      ∧ ∀ kvm memoryBytes devices profile, devices ≠ paused.bus.deviceSet →
        hostProfile kvm memoryBytes devices = .ok profile →
        Compatibility.check profile manifest ≠ .ok () := by
  have hreads := readState_eq_ok.mp hreads
  obtain ⟨devices, hdevices, hcheck, hbuild⟩ := assemble_eq_ok.mp hmanifest
  refine ⟨Manifest.decode_encode (admissible_of_build hbuild hcheck), ?_, ?_, ?_, ?_⟩
  · simp only [isOk_iff_exists, hostProfile, bind_eq_ok, ensure_eq_ok, hreads.cpuTemplate]
    constructor
    · rintro ⟨_, ⟨⟩, hxsave, -⟩
      exact hxsave
    · intro hxsave
      exact ⟨_, (), hxsave, _, rfl, rfl⟩
  · intro profile hprofile
    simp only [Compatibility.check, seq_eq_ok, forM_slots]
    refine ⟨checkHeader_same_host hmemory hreads hbuild hserved hprofile,
      checkVmLayout_same_host hmemory hreads hbuild, fun slot => ?_⟩
    exact (checkSlot_eq_ok hdevices rfl hbuild hprofile slot).mpr rfl
  · intro record hrecord
    obtain ⟨device, hdevice, hcaptured⟩ := exists_of_mem_forall₂ hdevices hrecord
    obtain ⟨part, hpart, hpayload⟩ := section?_of_device hbuild hdevice
    refine ⟨part, device.2, ?_, ?_, ?_⟩
    · rw [← hcaptured.slot]
      exact hpart
    · rw [hpayload, ← hcaptured.slot]
      exact hcaptured.decode
    · rw [hcaptured.reproduces, certified_settle]
  · intro kvm memoryBytes set profile hne hprofile haccepted
    simp only [Compatibility.check, seq_eq_ok, forM_slots] at haccepted
    exact hne (eq_of_has fun slot => (checkSlot_eq_ok hdevices rfl hbuild hprofile slot).mp (haccepted.2.2 slot))

end host

theorem restKvm_served : restKvm.Served := ⟨rfl, fun _ _ => rfl, by decide⟩

/-- The capture of a machine at rest is accepted where it was made, and the root device's queue comes back. -/
theorem rest_restores : ∃ (_ : Template.Sha256) (manifest : Manifest) (profile : HostProfile) (part : Section)
    (state : DeviceState), hostProfile restKvm 0x8000000 ⟨true, false⟩ = .ok profile
      ∧ Compatibility.check profile manifest = .ok ()
      ∧ manifest.section? (Device.sectionRole .root) = some part
      ∧ DeviceState.decodeForSlot Slot.root.index part.payload = .ok state
      ∧ (Device.transport state).certified.queues = [⟨16, true, false, 0x10000, 0x11000, 0x12000, 5, 5⟩] := by
  let hash : Template.Sha256 := ⟨fun _ => filledDigest 7⟩
  have hdigest : filledDigest 7 ≠ Digest.zero := by decide
  obtain ⟨outcome, published, hcapture⟩ := rest_capture (fun _ => hdigest) true
  obtain ⟨reads, manifest, hpublished, -, -⟩ := capture_eq_ok.mp hcapture
  have hserved : (restPaused true).kvm.Served := restKvm_served
  obtain ⟨-, hprofile, haccepted, hrecords, -⟩ := restores_on_same_host hserved hpublished.memory
    (readState_eq_ok.mpr hpublished.state) hpublished.manifest
  obtain ⟨profile, hprofile⟩ := isOk_iff_exists.mp (hprofile.mpr (by decide))
  obtain ⟨part, state, hpart, hdecode, htransport⟩ := hrecords ⟨.root, restTransport .root⟩ (List.mem_cons_self ..)
  refine ⟨hash, manifest, profile, part, state, hprofile, haccepted profile hprofile, hpart, hdecode, ?_⟩
  rw [htransport]
  rfl

end Soma.Kvm.Snapshot
