import Soma.Kvm.Snapshot.Capture

/-! # What a capture returns

The three objects in closed form. A staging object holds what was written to it, whatever the chunks were
(`Staging.of`); the sections of the manifest are a list of roles and payloads (`Manifest.contents`), and a
device section is the canonical state of the live record of its slot (`Device.Captured`).
-/

namespace Soma.Kvm.Snapshot

open Soma.Lib Soma.Codec List IrqRoutingState MemoryDescriptor Template
open Soma.Generation (Slot DeviceSet)

/-! ## Objects -/

variable {staging : Staging}

namespace Staging

variable (bytes : List UInt8)

/-- The object after some bytes were written. -/
def of : Staging := ⟨bytes, bytes, min bytes.length wordMax⟩

theorem create_eq_ok {artifact : Artifact} {published : Option (List UInt8)} :
    create artifact published = .ok staging ↔ published = none ∧ staging = of [] := by
  rw [create, seq_eq_ok, ensure_eq_ok, Option.isNone_iff_eq_none]
  refine and_congr_right fun _ => ?_
  exact ⟨fun h => (Except.ok.inj h).symm, fun h => h ▸ rfl⟩

theorem write_of (before bytes : List UInt8) : (of before).write bytes = of (before ++ bytes) := by
  simp only [of, write, satAdd, length_append, mk.injEq, true_and]
  omega

theorem writeFile_of (before source : List UInt8) : (of before).writeFile source = of (before ++ source) := by
  induction hn : source.length using Nat.strong_induction_on generalizing before source with
  | _ n ih =>
    unfold writeFile
    split_ifs with h
    · rw [h, append_nil]
    · have hpos : 0 < source.length := length_pos_of_ne_nil h
      have hchunk : 0 < CHUNK := by decide
      have hlt : (source.drop CHUNK).length < n := by
        rw [length_drop]
        omega
      rw [write_of, ih _ hlt _ _ rfl, append_assoc, take_append_drop]

theorem sealFile_of [Sha256] (artifact : Artifact) :
    (of bytes).sealFile artifact = .ok (Digest.of bytes) := by
  unfold sealFile
  rw [ensure, if_pos (show Digest.of (of bytes).file = (of bytes).runningDigest from rfl)]
  rfl

theorem link_of (artifact : Artifact) : (of bytes).link artifact none = .ok bytes := rfl

end Staging

open Staging

namespace Paused

/-- The copy of memory is the bytes of guest RAM, however it is cut into chunks. -/
theorem copyMemory_eq_ok {paused : Paused} (offset : ℕ) (hram : offset ≤ paused.ramBytes.toNat)
    (hmemory : offset ≤ paused.memory.length) :
    paused.copyMemory offset (.of (paused.memory.take offset)) = .ok staging ↔
      paused.ramBytes.toNat ≤ paused.memory.length
        ∧ staging = .of (paused.memory.take paused.ramBytes.toNat) := by
  induction hn : paused.ramBytes.toNat - offset using Nat.strong_induction_on generalizing offset with
  | _ n ih =>
    have hchunk : 0 < CHUNK := by decide
    unfold copyMemory
    split_ifs with hlt
    · -- one chunk is read and appended; the copy goes on behind it
      have hspan : offset + min (paused.ramBytes.toNat - offset) CHUNK ≤ paused.ramBytes.toNat := by omega
      rw [bind_eq_ok]
      simp only [okOr_eq_ok, readBytes, Option.ite_none_right_eq_some, Option.some.injEq]
      constructor
      · rintro ⟨_, ⟨hread, rfl⟩, hrest⟩
        rw [write_of, ← take_add] at hrest
        exact (ih _ (by omega) _ hspan hread rfl).mp hrest
      · rintro ⟨hle, rfl⟩
        refine ⟨_, ⟨by omega, rfl⟩, ?_⟩
        rw [write_of, ← take_add]
        exact (ih _ (by omega) _ hspan (by omega) rfl).mpr ⟨hle, rfl⟩
    · have heq : offset = paused.ramBytes.toNat := by omega
      subst heq
      exact ⟨fun h => ⟨hmemory, (Except.ok.inj h).symm⟩, fun h => h.2 ▸ rfl⟩

end Paused

variable {overlay : Option Staging}

theorem stageOverlay_eq_ok {head published : Option (List UInt8)} :
    stageOverlay head published = .ok overlay ↔
      (head.isSome → published = none) ∧ overlay = head.map .of := by
  cases head with
  | none =>
    simp only [stageOverlay, Option.isSome_none, Bool.false_eq_true, false_implies, true_and, Option.map_none]
    exact ⟨fun h => (Except.ok.inj h).symm, fun h => h ▸ rfl⟩
  | some bytes =>
    simp only [stageOverlay, bind_eq_ok, create_eq_ok, Option.isSome_some, true_implies,
      Option.map_some]
    constructor
    · rintro ⟨_, ⟨hnone, rfl⟩, h⟩
      rw [writeFile_of, nil_append] at h
      exact ⟨hnone, (Except.ok.inj h).symm⟩
    · rintro ⟨hnone, rfl⟩
      refine ⟨_, ⟨hnone, rfl⟩, ?_⟩
      rw [writeFile_of, nil_append]
      rfl

/-! ## Devices -/

variable {device : Slot × DeviceState}

namespace Device

def sectionRole : Slot → SectionRole
  | .root => .device0
  | .overlay => .device1
  | .net => .device2
  | .vsock => .device3
  | .rng => .device4

theorem role_eq (slot : Slot) : role slot = some (sectionRole slot) := by
  cases slot <;> rfl

/-- The canonical state of a live record, and what it gives back. -/
structure Captured (bus : MmioBus) (rootDigest overlayDigest : Digest) (record : SlotSnapshot)
    (device : Slot × DeviceState) : Prop where
  slot : device.1 = record.slot
  features : record.transport.driverFeatures = (Profile.expectation record.slot).negotiatedFeatures
  specific : specific bus record.slot (if record.slot = .root then rootDigest else overlayDigest)
    = some device.2.1.specific
  parts : device.2.1 = canonicalParts record.slot record device.2.1.specific
  reproduces : transport device.2 = settle record.transport

theorem capture_eq_ok {bus : MmioBus} {rootDigest overlayDigest : Digest} {record : SlotSnapshot} :
    capture bus rootDigest overlayDigest record = .ok device ↔ Captured bus rootDigest overlayDigest record device := by
  simp only [capture, canonical, bind_eq_ok, ensure_eq_ok, okOr_eq_ok, mapError_eq_ok,
    DeviceState.new, validate_eq_ok, reproduces, true_and, decide_eq_true_eq]
  constructor
  · rintro ⟨fields, hfields, state, ⟨-, hfeatures, hparts⟩, -, hreproduces, h⟩
    obtain rfl := Except.ok.inj h
    have hspecific : state.1.specific = fields := by rw [hparts]; rfl
    exact ⟨rfl, hfeatures, by rw [hfields, hspecific], by rw [hspecific]; exact hparts, hreproduces⟩
  · rintro ⟨hslot, hfeatures, hspecific, hparts, hreproduces⟩
    refine ⟨_, hspecific, device.2, ⟨(), hfeatures, hparts⟩, (), hreproduces, ?_⟩
    rw [← hslot]
    rfl

end Device

namespace MmioBus

theorem map_slot_snapshotAll (bus : MmioBus) : bus.snapshotAll.map (·.slot) = bus.deviceSet.present := by
  obtain ⟨root, overlay, net, vsock, rng⟩ := bus
  cases overlay <;> cases net <;> rfl

theorem mem_present {devices : DeviceSet} {slot : Slot} : slot ∈ devices.present ↔ devices.has slot := by
  cases slot <;> simp [DeviceSet.present, Slot.ALL]

end MmioBus

variable {bus : MmioBus} {devices : List (Slot × DeviceState)}

theorem map_fst_of_captured {rootDigest overlayDigest : Digest}
    (h : Forall₂ (Device.Captured bus rootDigest overlayDigest) bus.snapshotAll devices) :
    devices.map Prod.fst = bus.deviceSet.present := by
  rw [← bus.map_slot_snapshotAll]
  exact (map_eq_of_forall₂ (fun _ _ hdevice => hdevice.slot.symm) h).symm

theorem exists_captured {rootDigest overlayDigest : Digest} {slot : Slot}
    (h : Forall₂ (Device.Captured bus rootDigest overlayDigest) bus.snapshotAll devices)
    (hslot : bus.deviceSet.has slot) : ∃ record ∈ bus.snapshotAll, ∃ device ∈ devices,
      record.slot = slot ∧ Device.Captured bus rootDigest overlayDigest record device := by
  have hmem : slot ∈ bus.snapshotAll.map (·.slot) := by
    rw [bus.map_slot_snapshotAll]
    exact MmioBus.mem_present.mpr hslot
  obtain ⟨record, hrecord, heq⟩ := mem_map.mp hmem
  obtain ⟨device, hdevice, hcaptured⟩ := exists_of_mem_forall₂ h hrecord
  exact ⟨record, hrecord, device, hdevice, heq, hcaptured⟩

/-! ## Sections by role -/

variable {manifest : Manifest} {role : SectionRole}

namespace Manifest

def contents (manifest : Manifest) : List (SectionRole × List UInt8) :=
  manifest.sections.1.map fun part => (part.role, part.payload)

theorem section?_of_mem {part : Section} (h : part ∈ manifest.sections.1) :
    manifest.section? part.role = some part := by
  have hchain := (checkSections_eq_ok.mp manifest.sections.2).2.1
  have hcodes : (manifest.sections.1.map fun part => part.role.code).Pairwise (· < ·) :=
    isChain_iff_pairwise.mp ((isChain_map _).mpr hchain)
  have hnodup := hcodes.imp fun {_ _} h => BitVec.ne_of_lt h
  have hsome : (manifest.section? part.role).isSome := by
    rw [section?, find?_isSome]
    exact ⟨part, h, by simp⟩
  obtain ⟨found, hfound⟩ := Option.isSome_iff_exists.mp hsome
  have hrole : found.role = part.role := by simpa using find?_some hfound
  have heq := inj_on_of_nodup_map hnodup (mem_of_find?_eq_some hfound) h (by rw [hrole])
  rw [hfound, heq]

theorem payload_of_mem {payload : List UInt8} (h : (role, payload) ∈ manifest.contents) :
    ∃ part, manifest.section? role = some part ∧ part.payload = payload := by
  obtain ⟨part, hpart, heq⟩ := mem_map.mp h
  obtain ⟨rfl, rfl⟩ := Prod.mk.inj heq
  exact ⟨part, section?_of_mem hpart, rfl⟩

theorem section?_isSome :
    (manifest.section? role).isSome ↔ role ∈ manifest.contents.map Prod.fst := by
  simp [section?, contents]

end Manifest

variable {part : Section} {payload : List UInt8}

theorem Section.new_eq_ok :
    Section.new role payload = .ok part ↔ (part.role, part.payload) = (role, payload) := by
  unfold Section.new
  split_ifs with h
  · simp only [Except.ok.injEq, Prod.mk.injEq]
    constructor
    · rintro rfl
      exact ⟨rfl, rfl⟩
    · rintro ⟨rfl, rfl⟩
      rfl
  · simp only [false_iff]
    intro heq
    obtain ⟨-, rfl⟩ := Prod.mk.inj heq
    exact h part.fits

theorem newSection_eq_ok :
    newSection role payload = .ok part ↔ (part.role, part.payload) = (role, payload) := by
  rw [newSection, mapError_eq_ok, Section.new_eq_ok]

theorem deviceSection_eq_ok :
    deviceSection device = .ok part ↔
      (part.role, part.payload) = (Device.sectionRole device.1, DeviceState.encode device.2) := by
  simp [deviceSection, bind_eq_ok, okOr_eq_ok, Device.role_eq, newSection_eq_ok]

/-! ## Payloads fit

Every payload a capture writes is far below the size of a section. -/

theorem VmState.encode_fits (state : VmState) : state.encode.length ≤ MAX_SECTION_BYTES :=
  Nat.le_trans state.length_encode (by decide)

theorem IrqchipState.encode_fits (state : IrqchipState) : state.encode.length ≤ MAX_SECTION_BYTES :=
  Nat.le_trans (Nat.le_of_eq state.length_encode) (by decide)

theorem IrqRoutingState.encode_fits (state : IrqRoutingState) :
    (encode state).length ≤ MAX_SECTION_BYTES :=
  Nat.le_trans (length_encode state) (by decide)

theorem ClockState.encode_fits (state : ClockState) : state.encode.length ≤ MAX_SECTION_BYTES :=
  Nat.le_trans (Nat.le_of_eq state.length_encode) (by decide)

theorem PitState.encode_fits (state : PitState) : state.encode.length ≤ MAX_SECTION_BYTES :=
  Nat.le_trans (Nat.le_of_eq state.length_encode) (by decide)

theorem DeviceState.encode_fits (state : DeviceState) : (DeviceState.encode state).length ≤ MAX_SECTION_BYTES :=
  Nat.le_trans (DeviceState.length_encode state) (by decide)

theorem Marker.encode_fits (line : List UInt8) : (Marker.encode line).length ≤ MAX_SECTION_BYTES := by
  have htag : Marker.TAG.length = 20 := by decide +kernel
  have hmax : 20 + 1 + 2 + 256 ≤ MAX_SECTION_BYTES := by decide
  have hline : (line.take Marker.MAX_LINE).length ≤ 256 := length_take_le _ _
  simp only [Marker.encode, length_append, length_putWord, htag, length_singleton]
  omega

/-! ## The manifest of a capture -/

def captureHeader [Sha256] (parts : Parts) (candidateId : CandidateId) : ManifestHeader where
  architecture := .x86_64
  pageSize := .FOUR_KIB
  candidateId := candidateId
  machineContract := Profile.machineContract parts.deviceSet
  deviceContract := Profile.deviceContract parts.deviceSet
  cpuTemplate := parts.cpuTemplate
  host := Profile.required
  memory := parts.memory
  vcpuCount := Profile.VCPU_COUNT
  guestProtocolVersion := Profile.GUEST_PROTOCOL_VERSION

/-- The sections of the manifest. -/
def captureContents (request : CaptureRequest) (vmState : VmState) (vcpuState : VcpuState) (parts : Parts) :
    List (SectionRole × List UInt8) :=
  [(.vmState, vmState.encode), (.vcpu0, vcpuState.encode), (.irqchip, parts.irqchip.encode),
    (.irqRouting, encode parts.routing), (.kvmClock, parts.clock.encode),
    (.pit, parts.pit.encode)]
    ++ parts.devices.map (fun device => (Device.sectionRole device.1, DeviceState.encode device.2))
    ++ [(.repairPointMarker, Marker.encode request.repairPointLine)]

section build

variable [Sha256] {request : CaptureRequest} {vcpuState : VcpuState} {vmState : VmState}

theorem build_eq_ok {parts : Parts} (h : build request vmState vcpuState parts = .ok manifest) :
    manifest.header.candidateId.1 = request.candidateId
      ∧ manifest.header = captureHeader parts manifest.header.candidateId
      ∧ manifest.contents = captureContents request vmState vcpuState parts := by
  simp only [build, bind_eq_ok, mapError_eq_ok, validate_eq_ok, newSection_eq_ok, mapM_eq_ok,
    deviceSection_eq_ok, Manifest.new_eq_ok, Profile.requirements_eq, Except.ok.injEq, exists_eq_left'] at h
  obtain ⟨candidateId, hcandidate, vm, hvm, vcpu, hvcpu, irqchip, hirqchip, routing, hrouting, clock, hclock,
    pit, hpit, devices, hdevices, marker, hmarker, hheader, hsections⟩ := h
  have hdevices := map_eq_of_forall₂ (fun _ _ hpart => hpart.symm) hdevices
  refine ⟨by rw [hheader, hcandidate], by rw [hheader]; rfl, ?_⟩
  simp [Manifest.contents, hsections, map_append, map_nil, hvm, hvcpu, hirqchip, hrouting, hclock, hpit, hmarker, ← hdevices, captureContents]

/-- The roles of the sections do not depend on what they hold. -/
def captureRoles (devices : DeviceSet) : List SectionRole :=
  [.vmState, .vcpu0, .irqchip, .irqRouting, .kvmClock, .pit] ++ devices.present.map Device.sectionRole
    ++ [.repairPointMarker]

omit [Sha256] in
theorem map_fst_captureContents {parts : Parts} (hslots : parts.devices.map Prod.fst = parts.deviceSet.present) :
    (captureContents request vmState vcpuState parts).map Prod.fst = captureRoles parts.deviceSet := by
  simp [captureContents, captureRoles, ← hslots]

omit [Sha256] in
theorem checkSections_of_roles {sections : List Section} {devices : DeviceSet}
    (h : sections.map (·.role) = captureRoles devices) : Manifest.checkSections sections = .ok () := by
  have hroles : (captureRoles devices).length ≤ MAX_SECTIONS
      ∧ (captureRoles devices).IsChain (fun previous next => previous.code < next.code)
      ∧ ∀ role : SectionRole, role.isRequired → role ∈ captureRoles devices := by
    obtain ⟨overlay, net⟩ := devices
    refine ⟨?_, ?_, ?_⟩
    · cases overlay <;> cases net <;> decide
    · cases overlay <;> cases net <;> decide
    · intro role
      cases role <;> cases overlay <;> cases net <;> decide
  rw [← h] at hroles
  refine Manifest.checkSections_eq_ok.mpr ⟨?_, ?_, ?_⟩
  · simpa using hroles.1
  · exact (isChain_map Section.role).mp hroles.2.1
  · intro role hrequired
    exact mem_map.mp (hroles.2.2 role hrequired)

omit [Sha256] in
theorem newSection_isOk {payload : List UInt8} (h : payload.length ≤ MAX_SECTION_BYTES) :
    newSection role payload = .ok ⟨role, payload, h⟩ :=
  newSection_eq_ok.mpr rfl

omit [Sha256] in
theorem mapM_deviceSection (devices : List (Slot × DeviceState)) :
    ∃ sections, devices.mapM deviceSection = .ok sections
      ∧ sections.map (·.role) = devices.map fun device => Device.sectionRole device.1 := by
  let part (device : Slot × DeviceState) : Section :=
    ⟨Device.sectionRole device.1, DeviceState.encode device.2, DeviceState.encode_fits device.2⟩
  refine ⟨devices.map part, ?_, by simp [part]⟩
  rw [mapM_eq_ok, forall₂_map_right_iff, forall₂_same]
  exact fun device _ => deviceSection_eq_ok.mpr rfl

theorem build_isOk {parts : Parts} (hcandidate : CandidateId.check request.candidateId = .ok ())
    (hslots : parts.devices.map Prod.fst = parts.deviceSet.present) :
    ∃ manifest, build request vmState vcpuState parts = .ok manifest := by
  obtain ⟨devices, hdevices, hroles⟩ := mapM_deviceSection parts.devices
  let candidateId : CandidateId := ⟨request.candidateId, hcandidate⟩
  let fixed : List Section :=
    [⟨.vmState, vmState.encode, vmState.encode_fits⟩, ⟨.vcpu0, vcpuState.encode, vcpuState.length_encode⟩,
      ⟨.irqchip, parts.irqchip.encode, parts.irqchip.encode_fits⟩,
      ⟨.irqRouting, encode parts.routing, encode_fits parts.routing⟩,
      ⟨.kvmClock, parts.clock.encode, parts.clock.encode_fits⟩, ⟨.pit, parts.pit.encode, parts.pit.encode_fits⟩]
  let sections := fixed ++ devices
    ++ [⟨.repairPointMarker, Marker.encode request.repairPointLine, Marker.encode_fits request.repairPointLine⟩]
  have hsections : sections.map (·.role) = captureRoles parts.deviceSet := by
    simp [sections, fixed, captureRoles, hroles, ← hslots]
  refine ⟨⟨captureHeader parts candidateId, ⟨sections, checkSections_of_roles hsections⟩⟩, ?_⟩
  simp only [build, bind_eq_ok, mapError_eq_ok, validate_eq_ok, Manifest.new_eq_ok,
    Profile.requirements_eq, Except.ok.injEq, exists_eq_left', newSection_isOk vmState.encode_fits,
    newSection_isOk vcpuState.length_encode, newSection_isOk parts.irqchip.encode_fits,
    newSection_isOk (encode_fits parts.routing), newSection_isOk parts.clock.encode_fits,
    newSection_isOk parts.pit.encode_fits, newSection_isOk (Marker.encode_fits request.repairPointLine), hdevices]
  exact ⟨candidateId, rfl, rfl, rfl⟩

/-! ## The capture -/

/-- The only memory slot of a captured machine. -/
def ramSlot (ramBytes : U64) : MemorySlot := ⟨0, 0, ramBytes, 0⟩

omit [Sha256] in
theorem VmState.new_eq_ok {slots : List MemorySlot} {tssAddress identityMapAddress : U64} {vm : VmState} :
    VmState.new slots tssAddress identityMapAddress = .ok vm ↔
      vm.slots.1 = slots ∧ vm.tssAddress = tssAddress ∧ vm.identityMapAddress = identityMapAddress := by
  simp only [VmState.new, bind_eq_ok, validate_eq_ok]
  constructor
  · rintro ⟨valid, rfl, h⟩
    cases h
    exact ⟨rfl, rfl, rfl⟩
  · rintro ⟨rfl, rfl, rfl⟩
    exact ⟨vm.slots, rfl, rfl⟩

/-- What a capture reads before it copies memory. -/
structure Reads (paused : Paused) (reads : VmState × VcpuState × Digest) : Prop where
  slots : reads.1.slots.1 = [ramSlot paused.ramBytes]
  tssAddress : reads.1.tssAddress = TSS_ADDRESS
  identityMapAddress : reads.1.identityMapAddress = 0
  vcpu : paused.vcpu = reads.2.1
  valid : reads.2.1.sregs.validate = .ok ()
  clock : paused.clock.validate = .ok ()
  cpuTemplate : Profile.cpuTemplate paused.kvm = .ok reads.2.2

variable {paused : Paused} {reads : VmState × VcpuState × Digest}

theorem readState_eq_ok : readState paused = .ok reads ↔ Reads paused reads := by
  simp only [readState, bind_eq_ok, mapError_eq_ok, VmState.new_eq_ok, VcpuState.new_eq_ok]
  constructor
  · rintro ⟨vm, ⟨hslots, htss, hidentity⟩, vcpu, ⟨hvalid, hvcpu⟩, ⟨⟩, hclock, cpuTemplate, hcpu, h⟩
    obtain rfl := Except.ok.inj h
    exact ⟨hslots, htss, hidentity, hvcpu, hvalid, hclock, hcpu⟩
  · rintro ⟨hslots, htss, hidentity, hvcpu, hvalid, hclock, hcpu⟩
    exact ⟨_, ⟨hslots, htss, hidentity⟩, _, ⟨hvalid, hvcpu⟩, (), hclock, _, hcpu, rfl⟩

/-- The parts of the manifest of a paused machine. -/
def Paused.parts (paused : Paused) (cpuTemplate : Digest) (devices : List (Slot × DeviceState))
    (memory : MemoryDescriptor) : Parts where
  cpuTemplate := cpuTemplate
  irqchip := paused.irqchip
  routing := ownedRouting
  clock := paused.clock
  pit := paused.pit
  devices := devices
  deviceSet := paused.bus.deviceSet
  memory := memory

def memoryOf (memory : Staging) : MemoryDescriptor := ⟨memory.runningDigest, BitVec.ofNat 64 memory.written⟩

omit [Sha256] in
theorem MemoryDescriptor.check_of_layout (layout : GuestLayout) {digest : Digest} (h : digest ≠ Digest.zero) :
    check PageSize.FOUR_KIB.1 ⟨digest, layout.1⟩ = .ok () := by
  have hlayout := layout.2
  simp only [GuestLayout.check, seq_eq_ok, ensure_eq_ok] at hlayout
  simp only [check, seq_eq_ok, ensure_eq_ok]
  refine ⟨?_, hlayout.2.1.2, ⟨by decide, hlayout.1⟩, h⟩
  intro hzero
  have hmin := hlayout.2.1.1
  rw [hzero] at hmin
  exact absurd hmin (by decide)

theorem assemble_eq_ok {memory : Staging} :
    assemble paused request reads memory overlay = .ok manifest ↔ ∃ devices,
      Forall₂ (Device.Captured paused.bus (Digest.of request.root) (overlayDigest overlay))
          paused.bus.snapshotAll devices
        ∧ check PageSize.FOUR_KIB.1 (memoryOf memory) = .ok ()
        ∧ build request reads.1 reads.2.1 (paused.parts reads.2.2 devices (memoryOf memory)) = .ok manifest := by
  simp only [assemble, bind_eq_ok, mapM_eq_ok, Device.capture_eq_ok, mapError_eq_ok, MemoryDescriptor.new]
  refine exists_congr fun devices => and_congr_right fun _ => ?_
  constructor
  · rintro ⟨descriptor, ⟨⟨⟩, hcheck, h⟩, hbuild⟩
    obtain rfl := Except.ok.inj h
    exact ⟨hcheck, hbuild⟩
  · rintro ⟨hcheck, hbuild⟩
    exact ⟨memoryOf memory, ⟨(), hcheck, rfl⟩, hbuild⟩

theorem admissible_of_build {parts : Parts} (h : build request vmState vcpuState parts = .ok manifest)
    (hmemory : check PageSize.FOUR_KIB.1 parts.memory = .ok ()) : manifest.header.Admissible := by
  rw [(build_eq_ok h).2.1]
  exact ⟨hmemory, show Profile.VCPU_COUNT ≠ 0 by decide⟩

def Paused.ram (paused : Paused) : List UInt8 := paused.memory.take paused.ramBytes.toNat

/-- The outcome of a capture, from the bytes it publishes. -/
def outcomeOf (paused : Paused) (request : CaptureRequest) (manifest : Manifest) : CaptureOutcome where
  memoryDigest := Digest.of paused.ram
  memoryBytes := min paused.ram.length wordMax
  overlayDigest := request.overlay.elim Digest.zero Digest.of
  overlayBytes := request.overlay.elim 0 fun bytes => min bytes.length wordMax
  stateDigest := Digest.of manifest.encode
  stateBytes := min manifest.encode.length wordMax
  rootDigest := Digest.of request.root

/-- The objects a capture publishes. -/
def publishedOf (paused : Paused) (request : CaptureRequest) (directory : Directory) (manifest : Manifest) :
    Directory :=
  ⟨some paused.ram, request.overlay <|> directory.overlay, some manifest.encode⟩

/-- What a capture that returned has done. -/
structure Published (paused : Paused) (request : CaptureRequest) (directory : Directory)
    (reads : VmState × VcpuState × Digest) (manifest : Manifest) : Prop where
  state : Reads paused reads
  memory : paused.ramBytes.toNat ≤ paused.memory.length
  memoryFree : directory.memory = none
  overlayFree : request.overlay.isSome → directory.overlay = none
  stateFree : directory.state = none
  manifest : assemble paused request reads (.of paused.ram) (request.overlay.map .of) = .ok manifest

theorem publish_of {directory : Directory} (hmemory : directory.memory = none)
    (hoverlay : request.overlay.isSome → directory.overlay = none) (hstate : directory.state = none) :
    publish directory (.of paused.ram) (request.overlay.map .of) (.of manifest.encode) (Digest.of request.root)
      = .ok (outcomeOf paused request manifest, publishedOf paused request directory manifest) := by
  unfold publish
  rw [sealFile_of, sealFile_of, hmemory, hstate, link_of, link_of]
  cases h : request.overlay with
  | none =>
    unfold outcomeOf publishedOf
    rw [h]
    rfl
  | some bytes =>
    have hfree := hoverlay (by rw [h]; rfl)
    unfold outcomeOf publishedOf
    rw [h, hfree, Option.map_some, Option.mapM_some, Option.mapM_some, sealFile_of, link_of]
    rfl

theorem capture_eq_ok {directory published : Directory} {outcome : CaptureOutcome} :
    capture paused request directory = .ok (outcome, published) ↔
      ∃ reads manifest, Published paused request directory reads manifest
        ∧ outcome = outcomeOf paused request manifest
        ∧ published = publishedOf paused request directory manifest := by
  have hcopy := fun staging => @Paused.copyMemory_eq_ok staging paused 0 (Nat.zero_le _) (Nat.zero_le _)
  rw [take_zero] at hcopy
  simp only [capture, bind_eq_ok, readState_eq_ok, create_eq_ok, stageOverlay_eq_ok, mapError_eq_ok]
  constructor
  · rintro ⟨reads, hreads, _, ⟨hmemory, rfl⟩, _, hram, _, ⟨hoverlay, rfl⟩, manifest, hmanifest, _, ⟨hstate, rfl⟩,
      _, _, ⟨⟩, _, hpublish⟩
    obtain ⟨hlength, rfl⟩ := (hcopy _).mp hram
    rw [write_of, nil_append] at hpublish
    obtain ⟨rfl, rfl⟩ := Prod.mk.inj (Except.ok.inj ((publish_of hmemory hoverlay hstate).symm.trans hpublish))
    exact ⟨reads, manifest, ⟨hreads, hlength, hmemory, hoverlay, hstate, hmanifest⟩, rfl, rfl⟩
  · rintro ⟨reads, manifest, ⟨hreads, hlength, hmemory, hoverlay, hstate, hmanifest⟩, rfl, rfl⟩
    obtain ⟨devices, -, hcheck, hbuild⟩ := assemble_eq_ok.mp hmanifest
    have hdecode := Manifest.decode_encode (admissible_of_build hbuild hcheck)
    refine ⟨reads, hreads, _, ⟨hmemory, rfl⟩, _, (hcopy _).mpr ⟨hlength, rfl⟩, _, ⟨hoverlay, rfl⟩, manifest,
      hmanifest, _, ⟨hstate, rfl⟩, manifest, hdecode, (), ensure_eq_ok.mpr rfl, ?_⟩
    rw [write_of, nil_append]
    exact publish_of hmemory hoverlay hstate

end build

end Soma.Kvm.Snapshot
