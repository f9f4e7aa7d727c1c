import Soma.Kvm.Snapshot.ManifestFormat
import Soma.Kvm.Snapshot.Vm

/-! # Compatibility of a manifest with a host

The check of a decoded manifest against what a host promises: the header field by field, then the layout of
memory, then every device slot. A slot the host has no device for must have no section.

The layout check compares the sum of the slot sizes with the size of the memory object and each slot's end
with it. The slots are disjoint in guest memory by construction; in the memory object they are only disjoint,
and only then cover it, when no two of them name the same bytes (`Partitions`).
-/

namespace Soma.Kvm.Snapshot

open Soma.Lib Soma.Codec Soma.Ranges

/-- What a host expects of a device. -/
structure DeviceExpectation where
  kind : DeviceKind
  negotiatedFeatures : U64
  queueLimits : Tuple U16 MAX_QUEUES
deriving DecidableEq

/-- What a host promises. -/
structure HostProfile where
  schemaVersion : U16
  architecture : Architecture
  pageSize : PageSize
  kvmApiVersion : U32
  capabilities : List HostCapability
  memorySlots : U16
  machineContract : Digest
  deviceContract : Digest
  cpuTemplate : Digest
  vcpuCount : U16
  memoryBytes : U64
  guestProtocolVersion : U16
  devices : Tuple (Option DeviceExpectation) DEVICE_COUNT
deriving DecidableEq

/-- Why a host refuses a manifest. -/
inductive Incompatibility where
  | schemaVersion (expected actual : U16)
  | architecture (expected actual : Architecture)
  | pageSize (expected actual : U32)
  | memoryLayout (expected actual : ℕ)
  | vcpuCount (expected actual : U16)
  | cpuTemplate (expected actual : Digest)
  | kvmApiVersion (expected actual : U32)
  | missingCapability (capability : HostCapability)
  | memorySlots (required available : U16)
  | machineContract (expected actual : Digest)
  | deviceContract (expected actual : Digest)
  | guestProtocolVersion (expected actual : U16)
  | malformedVmState (error : KvmStateError)
  | missingSection (role : SectionRole)
  | noExpectationForSlot (slot : UInt8)
  | unexpectedSection (role : SectionRole)
  | malformedDevice (slot : UInt8) (error : DeviceStateError)
  | queueLimit (slot queue : UInt8) (expected actual : U16)
  | featureNegotiation (slot : UInt8) (expected actual : U64)
deriving DecidableEq

namespace Compatibility

/-- Requires a value to be the expected one. -/
def exactly {α : Type} [DecidableEq α] (expected actual : α) (reason : α → α → Incompatibility) :
    Except Incompatibility Unit :=
  ensure (expected = actual) (reason expected actual)

variable (host : HostProfile) (manifest : Manifest)

/-- The host fits the header. -/
def checkHeader : Except Incompatibility Unit := do
  let header := manifest.header
  exactly host.schemaVersion SCHEMA_VERSION .schemaVersion
  exactly host.architecture header.architecture .architecture
  exactly host.pageSize.1 header.pageSize.1 .pageSize
  exactly host.memoryBytes header.memory.size (fun expected actual => .memoryLayout expected.toNat actual.toNat)
  exactly host.vcpuCount header.vcpuCount .vcpuCount
  exactly host.cpuTemplate header.cpuTemplate .cpuTemplate
  exactly host.kvmApiVersion header.host.1.kvmApiVersion .kvmApiVersion
  header.host.1.capabilities.forM fun required =>
    ensure (required ∈ host.capabilities) (.missingCapability required)
  ensure (header.host.1.minMemorySlots ≤ host.memorySlots)
    (.memorySlots header.host.1.minMemorySlots host.memorySlots)
  exactly host.machineContract header.machineContract .machineContract
  exactly host.deviceContract header.deviceContract .deviceContract
  exactly host.guestProtocolVersion header.guestProtocolVersion .guestProtocolVersion

def vmState : Except Incompatibility VmState := do
  let part ← okOr (manifest.section? .vmState) (.missingSection .vmState)
  (VmState.decode part.payload).mapError .malformedVmState

def inBounds (expected : ℕ) (slot : MemorySlot) : Bool :=
  (checkedAdd slot.memoryOffset.toNat slot.size.toNat).any (· ≤ expected)

/-- The slots fill the memory object. -/
def checkVmLayout : Except Incompatibility Unit := do
  let vm ← vmState manifest
  let expected := manifest.header.memory.size.toNat
  let covered := vm.totalBytes
  ensure (covered = expected ∧ vm.slots.1.all (inBounds expected)) (.memoryLayout expected covered)

variable (slot : UInt8)

def deviceRole : Option SectionRole :=
  SectionRole.all.find? fun role => role.deviceSlot = some slot

def expectation : Option DeviceExpectation :=
  (host.devices.1[slot.toNat]?).join

/-- A device section against its expectation. -/
def checkDevice : Except Incompatibility Unit := do
  let expectation ← okOr ((expectation host slot).filter fun e => e.kind.slot = slot)
    (.noExpectationForSlot slot)
  let role ← okOr (deviceRole slot) (.noExpectationForSlot slot)
  let part ← okOr (manifest.section? role) (.missingSection role)
  let state ← (DeviceState.decodeForSlot slot part.payload).mapError (.malformedDevice slot)
  forIdx state.1.queues fun index queue =>
    -- a device has at most as many queues as the table has limits
    let expected := expectation.queueLimits.1.getD index 0
    ensure (queue.maxSize = expected) (.queueLimit slot (UInt8.ofNat index) expected queue.maxSize)
  exactly expectation.negotiatedFeatures state.1.negotiatedFeatures (.featureNegotiation slot)

/-- One slot: its section matches the expectation, or both are absent. -/
def checkSlot : Except Incompatibility Unit :=
  if (expectation host slot).isSome then checkDevice host manifest slot
  else forSome ((deviceRole slot).filter fun role => (manifest.section? role).isSome)
    fun role => .error (.unexpectedSection role)

/-- The whole check. -/
def check : Except Incompatibility Unit := do
  checkHeader host manifest
  checkVmLayout manifest
  (List.range DEVICE_COUNT).forM fun slot => checkSlot host manifest (UInt8.ofNat slot)

/-! ## What the layout check says -/

end Compatibility

namespace MemorySlot

def guestRange (slot : MemorySlot) : Finset ℕ := range slot.guestAddress.toNat slot.size.toNat

/-- The bytes of the memory object a slot maps. -/
def objectRange (slot : MemorySlot) : Finset ℕ := range slot.memoryOffset.toNat slot.size.toNat

end MemorySlot

namespace VmState

variable (vm : VmState)

/-- No two slots share a guest-physical byte. -/
def GuestDisjoint : Prop :=
  vm.slots.1.Pairwise fun a b => Disjoint a.guestRange b.guestRange

/-- No two slots map one byte of the memory object. -/
def ObjectDisjoint : Prop :=
  vm.slots.1.Pairwise fun a b => Disjoint a.objectRange b.objectRange

/-- Every byte of a memory object of the size is mapped, and nothing beyond it. -/
def Covers (size : ℕ) : Prop :=
  ∀ n, (∃ slot ∈ vm.slots.1, n ∈ slot.objectRange) ↔ n < size

/-- The slots are disjoint in guest memory and cut the memory object into disjoint parts. -/
def Partitions (size : ℕ) : Prop :=
  vm.GuestDisjoint ∧ vm.ObjectDisjoint ∧ vm.Covers size

variable {slots : List MemorySlot}

theorem checkSlots_eq_ok (h : checkSlots slots = .ok ()) :
    slots.IsChain fun a b => a.guestAddress.toNat + a.size.toNat ≤ b.guestAddress.toNat := by
  simp only [checkSlots, seq_eq_ok, ensure_eq_ok] at h
  have hslot := forEarlier_eq_ok.mp h.2.2
  clear h
  induction slots using List.reverseRecOn with
  | nil => exact .nil
  | append_singleton slots slot ih =>
    refine List.isChain_append.mpr ⟨ih ?_, .singleton _, ?_⟩
    · intro before x after heq
      exact hslot before x (after ++ [slot]) (by simp [heq])
    · intro previous hprevious b hb
      have hlast := hslot slots slot [] (by simp)
      simp only [List.nil_append, checkSlot, seq_eq_ok, ensure_eq_ok, forSome_eq_ok] at hlast
      obtain ⟨stop, hstop, hle⟩ := hlast.2.2 previous hprevious
      obtain ⟨-, rfl⟩ := checkedAdd_eq_some.mp hstop
      rw [List.head?_singleton, Option.mem_some_iff] at hb
      rwa [← hb]

theorem guestDisjoint : vm.GuestDisjoint :=
  pairwise_disjoint_of_ascending (checkSlots_eq_ok vm.slots.2)

theorem foldl_satAdd {total : ℕ} (h : slots.foldl (fun total slot => satAdd total slot.size.toNat) total < wordMax) :
    slots.foldl (fun total slot => satAdd total slot.size.toNat) total
      = total + (slots.map fun slot => slot.size.toNat).sum := by
  induction slots generalizing total with
  | nil => simp
  | cons slot slots ih =>
    rw [List.foldl_cons] at h ⊢
    have hsum := ih h
    rw [hsum] at h ⊢
    have hsat : satAdd total slot.size.toNat = total + slot.size.toNat := by
      unfold satAdd at h ⊢
      omega
    rw [hsat, List.map_cons, List.sum_cons]
    omega

theorem totalBytes_eq {vm : VmState} (h : vm.totalBytes < wordMax) :
    vm.totalBytes = (vm.slots.1.map fun slot => slot.objectRange.card).sum := by
  unfold totalBytes at h ⊢
  have hsum := foldl_satAdd h
  rw [Nat.zero_add] at hsum
  simpa [MemorySlot.objectRange] using hsum

end VmState

namespace Compatibility

variable {manifest : Manifest}

theorem checkVmLayout_eq_ok : checkVmLayout manifest = .ok () ↔
    ∃ vm, vmState manifest = .ok vm ∧ vm.totalBytes = manifest.header.memory.size.toNat
      ∧ ∀ slot ∈ vm.slots.1, slot.memoryOffset.toNat + slot.size.toNat ≤ manifest.header.memory.size.toNat := by
  have hbound : ∀ slot : MemorySlot, inBounds manifest.header.memory.size.toNat slot = true ↔
      slot.memoryOffset.toNat + slot.size.toNat ≤ manifest.header.memory.size.toNat := by
    intro slot
    have hsize := manifest.header.memory.size.isLt
    unfold inBounds checkedAdd
    split_ifs with hadd
    · simp
    · simp [wordMax] at hadd ⊢
      omega
  simp [checkVmLayout, bind_eq_ok, ensure_eq_ok, hbound]

section layout

variable [Template.Sha256]

theorem memory_lt_of_decode {bytes : List UInt8}
    (h : Manifest.decode bytes = .ok manifest) : manifest.header.memory.size.toNat < wordMax := by
  obtain ⟨-, -, hadmissible, -⟩ := Manifest.decode_eq_ok.mp h
  have hmemory := hadmissible.memory
  simp only [MemoryDescriptor.check, seq_eq_ok, ensure_eq_ok] at hmemory
  calc manifest.header.memory.size.toNat ≤ MAX_MEMORY_BYTES := hmemory.2.1
    _ < wordMax := by decide

/-- The layout of an accepted manifest is disjoint in guest memory, and partitions the memory object
exactly when no two slots map one byte of it. -/
theorem check_partitions_iff {host : HostProfile} {bytes : List UInt8} {manifest : Manifest}
    (hdecode : Manifest.decode bytes = .ok manifest) (hcheck : check host manifest = .ok ()) :
    ∃ vm, vmState manifest = .ok vm ∧ vm.GuestDisjoint
      ∧ (vm.Partitions manifest.header.memory.size.toNat ↔ vm.ObjectDisjoint) := by
  simp only [check, seq_eq_ok] at hcheck
  obtain ⟨vm, hvm, htotal, hbounds⟩ := checkVmLayout_eq_ok.mp hcheck.2.1
  refine ⟨vm, hvm, vm.guestDisjoint, fun h => h.2.1, fun hdisjoint => ⟨vm.guestDisjoint, hdisjoint, ?_⟩⟩
  have hlt := memory_lt_of_decode hdecode
  rw [← htotal] at hlt
  have hsum := VmState.totalBytes_eq hlt
  rw [htotal] at hsum
  -- the disjoint parts of the object have as many bytes together as the object
  have hcover : covered MemorySlot.objectRange vm.slots.1
      = range 0 manifest.header.memory.size.toNat := by
    refine covered_eq_of_disjoint ?_ ?_ hdisjoint
    · intro slot hslot n hn
      have hend := hbounds slot hslot
      have hn := (mem_range.mp hn).2
      exact mem_range.mpr ⟨Nat.zero_le n, by omega⟩
    · rw [← hsum, card_range]
  intro n
  rw [← mem_covered, hcover, mem_range]
  simp

end layout

/-! Two pages of guest memory, backed by the two pages of the object or both by its first. -/

def filledDigest (n : UInt8) : Digest := .fill 32 n

theorem filledDigest_check : CandidateId.check (filledDigest 2) = .ok () := by
  decide +kernel

theorem mac_length : ([2, 0, 0, 0, 0, 1] : List UInt8).length = 6 := rfl

/-- A queue no driver has set up. -/
def idleQueue (maxSize : U16) : QueueState := ⟨maxSize, 0, false, 0, 0, 0, 0, 0⟩

variable (kind : DeviceKind)

def idleDevice : DeviceParts where
  kind := kind
  transport := ⟨0, 0, 0, 0⟩
  negotiatedFeatures := 0x100000000
  queues := List.replicate kind.queueCount (idleQueue 64)
  specific := match kind with
    | .rootBlock | .overlayBlock => .block ⟨8, 512, filledDigest 1⟩
    | .net => .net ⟨[2, 0, 0, 0, 0, 1], mac_length⟩ true
    | .vsock => .vsock 3
    | .rng => .rng

def idleState : DeviceState := ⟨idleDevice kind, by cases kind <;> decide +kernel⟩

variable (shared : Bool)

def pagesVm : VmState :=
  ⟨⟨[⟨0, 0, 4096, 0⟩, ⟨1, 4096, 4096, if shared then 0 else 4096⟩], by cases shared <;> decide +kernel⟩,
    0xfffbd000, 0⟩

def pagesHeader : ManifestHeader where
  architecture := .x86_64
  pageSize := .FOUR_KIB
  candidateId := ⟨filledDigest 2, filledDigest_check⟩
  machineContract := filledDigest 3
  deviceContract := filledDigest 4
  cpuTemplate := filledDigest 5
  host := ⟨⟨12, [.userMemory], 2⟩, by decide +kernel⟩
  memory := ⟨filledDigest 6, 8192⟩
  vcpuCount := 1
  guestProtocolVersion := 1

def pagesManifest : Manifest where
  header := pagesHeader
  sections := ⟨[⟨.vmState, (pagesVm shared).encode, (pagesVm shared).length_encode.trans (by decide)⟩, ⟨.vcpu0, [], by decide⟩,
    ⟨.irqchip, [], by decide⟩, ⟨.irqRouting, [], by decide⟩, ⟨.kvmClock, [], by decide⟩,
    ⟨.device0, DeviceState.encode (idleState .rootBlock), by decide +kernel⟩,
    ⟨.device3, DeviceState.encode (idleState .vsock), by decide +kernel⟩,
    ⟨.device4, DeviceState.encode (idleState .rng), by decide +kernel⟩,
    ⟨.repairPointMarker, [], by decide⟩], by cases shared <;> decide +kernel⟩

def idleExpectation : DeviceExpectation :=
  ⟨kind, 0x100000000, ⟨List.replicate MAX_QUEUES 64, rfl⟩⟩

def pagesHost : HostProfile where
  schemaVersion := 2
  architecture := .x86_64
  pageSize := .FOUR_KIB
  kvmApiVersion := 12
  capabilities := [.userMemory]
  memorySlots := 2
  machineContract := filledDigest 3
  deviceContract := filledDigest 4
  cpuTemplate := filledDigest 5
  vcpuCount := 1
  memoryBytes := 8192
  guestProtocolVersion := 1
  devices := ⟨[some (idleExpectation .rootBlock), none, none, some (idleExpectation .vsock),
    some (idleExpectation .rng)], rfl⟩

theorem pagesHeader_admissible : pagesHeader.Admissible := ⟨by decide +kernel, by decide⟩

theorem check_pages : check pagesHost (pagesManifest shared) = .ok () := by
  cases shared <;> decide +kernel

theorem vmState_pages : vmState (pagesManifest shared) = .ok (pagesVm shared) := by
  cases shared <;> decide +kernel

/-- With a page of the object for each page of the guest the layout is a partition. -/
theorem pages_partitioned : ∃ vm, vmState (pagesManifest false) = .ok vm ∧ vm.Partitions 8192 := by
  let _ : Template.Sha256 := ⟨fun _ => filledDigest 7⟩
  have hdecode : Manifest.decode (pagesManifest false).encode = .ok (pagesManifest false) :=
    Manifest.decode_encode pagesHeader_admissible
  obtain ⟨vm, hvm, -, hiff⟩ := check_partitions_iff hdecode (check_pages false)
  obtain rfl := Except.ok.inj ((vmState_pages false).symm.trans hvm)
  refine ⟨pagesVm false, hvm, hiff.mpr ?_⟩
  refine pairwise_disjoint_of_ascending (by decide +kernel)

/-- The manifest is read back whatever the digest is, the check accepts it, and both its slots map the
first byte of the object while no slot maps the last page. -/
theorem shared_page_accepted : ∃ manifest vm,
    (∀ hash : Template.Sha256, @Manifest.decode hash (@Manifest.encode hash manifest) = .ok manifest)
      ∧ check pagesHost manifest = .ok () ∧ vmState manifest = .ok vm
      ∧ ¬ vm.ObjectDisjoint ∧ ¬ vm.Covers manifest.header.memory.size.toNat := by
  refine ⟨pagesManifest true, pagesVm true, ?_, check_pages true, vmState_pages true, ?_, ?_⟩
  · intro hash
    exact Manifest.decode_encode pagesHeader_admissible
  · intro h
    have hpair := (List.pairwise_cons.mp h).1 ⟨1, 4096, 4096, 0⟩ (List.mem_singleton_self _)
    have hfirst : 0 ∈ range 0 4096 := mem_range.mpr (by decide)
    exact Finset.disjoint_left.mp hpair hfirst hfirst
  · intro h
    obtain ⟨slot, hslot, hmem⟩ := (h 4096).mpr (by decide)
    have hlt := (mem_range.mp hmem).2
    have hslots : ∀ slot ∈ (pagesVm true).slots.1, slot.memoryOffset.toNat + slot.size.toNat ≤ 4096 := by decide
    have := hslots slot hslot
    omega

end Compatibility

end Soma.Kvm.Snapshot
