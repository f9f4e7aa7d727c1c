import Soma.Kvm.Snapshot.Wire
import Soma.Lib.Ranges

/-! # VM-wide state

The memory slots of a captured machine and its two fixed addresses. A list of slots is accepted when it
is nonempty, bounded and ascending in guest memory, and no two slots have one number; so the slots are
pairwise disjoint in guest-physical space. Where their bytes come from in the memory object
(`memoryOffset`) is only checked against overflow here.
-/

namespace Soma.Kvm.Snapshot

open Soma.Lib Soma.Codec

/-- Why a KVM state group was not accepted. -/
inductive KvmStateError where
  | wire (error : WireError)
  | invalidField (field : String) (value : ℕ)
  | tooManyEntries (field : String) (count : ℕ)
  | duplicateEntry (field : String) (key : ℕ)
  | unknownCode (field : String) (code : ℕ)
  | overlap (field : String)
deriving DecidableEq

instance : FromWire KvmStateError := ⟨.wire⟩

/-- Refuses more entries than a table holds. -/
def atMostEntries (field : String) (bound count : ℕ) : Except KvmStateError Unit :=
  ensure (count ≤ bound) (.tooManyEntries field count)

def MAX_MEMORY_SLOTS : ℕ := 16

/-- A range of guest memory. -/
structure MemorySlot where
  slot : U32
  guestAddress : U64
  size : U64
  memoryOffset : U64
deriving DecidableEq

namespace MemorySlot

variable (slot : MemorySlot)

def guestEnd : Option ℕ :=
  checkedAdd slot.guestAddress.toNat slot.size.toNat

def validate : Except KvmStateError Unit := do
  ensure (slot.size ≠ 0) (.invalidField "memory_slot.size" slot.size.toNat)
  ensure slot.guestEnd.isSome (.invalidField "memory_slot.guest_address" slot.guestAddress.toNat)
  ensure (checkedAdd slot.memoryOffset.toNat slot.size.toNat).isSome
    (.invalidField "memory_slot.memory_offset" slot.memoryOffset.toNat)

def write : List UInt8 :=
  putWord slot.slot ++ (putWord slot.guestAddress ++ (putWord slot.size ++ putWord slot.memoryOffset))

open Reader in
def read : Decoder KvmStateError MemorySlot :=
  (fun (slot, guestAddress, size, memoryOffset) => { slot, guestAddress, size, memoryOffset })
    <$> (pair u32 <| pair u64 <| pair u64 u64)

open Reader in
theorem read_format : Exact read write :=
  (u32_format.pair <| u64_format.pair <| u64_format.pair u64_format).ofTuple
    (fun slot => (slot.slot, slot.guestAddress, slot.size, slot.memoryOffset))
    (fun _ => rfl) (fun _ => rfl) (by simp) (fun _ => rfl)

theorem length_write : slot.write.length = 28 := by
  simp [write]

end MemorySlot

namespace VmState

/-- One step of the check of a list of slots, after the slots before it. -/
def checkSlot (earlier : List MemorySlot) (slot : MemorySlot) : Except KvmStateError Unit := do
  slot.validate
  ensure (¬ earlier.any fun s => s.slot = slot.slot) (.duplicateEntry "memory_slots" slot.slot.toNat)
  forSome earlier.getLast? fun previous =>
    ensure (∃ stop ∈ previous.guestEnd, stop ≤ slot.guestAddress.toNat) (.overlap "memory_slots")

def checkSlots (slots : List MemorySlot) : Except KvmStateError Unit := do
  ensure (slots ≠ []) (.invalidField "memory_slots.count" 0)
  atMostEntries "memory_slots" MAX_MEMORY_SLOTS slots.length
  forEarlier checkSlot [] slots

end VmState

/-- The memory layout of the machine. -/
structure VmState where
  slots : Valid VmState.checkSlots
  tssAddress : U64
  identityMapAddress : U64
deriving DecidableEq

namespace VmState

def new (slots : List MemorySlot) (tssAddress identityMapAddress : U64) : Except KvmStateError VmState := do
  let slots ← validate checkSlots slots
  return { slots, tssAddress, identityMapAddress }

variable (vm : VmState)

def totalBytes : ℕ :=
  vm.slots.1.foldl (fun total slot => satAdd total slot.size.toNat) 0

def encode : List UInt8 :=
  putLength (BitVec.ofNat 16 MAX_MEMORY_SLOTS) vm.slots.1.length ++ vm.slots.1.flatMap MemorySlot.write
    ++ (putWord vm.tssAddress ++ putWord vm.identityMapAddress)

open Reader in
def fields : Decoder KvmStateError (List MemorySlot × U64 × U64) :=
  pair (listU16 MAX_MEMORY_SLOTS MemorySlot.read) (pair u64 u64)

def decode (bytes : List UInt8) : Except KvmStateError VmState := do
  let (slots, tssAddress, identityMapAddress) ← whole Reader.trailing fields bytes
  new slots tssAddress identityMapAddress

/-! ## The encoding -/

theorem length_slots : vm.slots.1.length ≤ MAX_MEMORY_SLOTS := by
  have h := vm.slots.2
  simp only [checkSlots, atMostEntries, seq_eq_ok, ensure_eq_ok] at h
  exact h.2.1

theorem decode_eq_ok {bytes : List UInt8} {vm : VmState} : decode bytes = .ok vm ↔ bytes = vm.encode := by
  have hformat := (Reader.listU16_format (BitVec.ofNat 16 MAX_MEMORY_SLOTS)
    (by decide : MAX_MEMORY_SLOTS < 2 ^ 16) MemorySlot.read_format).pair
    (Reader.u64_format.pair Reader.u64_format)
  rw [decode, bind_eq_ok]
  constructor
  · rintro ⟨⟨slots, tss, identity⟩, hfields, hnew⟩
    obtain ⟨-, rfl⟩ := hformat.whole_eq_ok.mp hfields
    obtain ⟨valid, hvalid, hnew⟩ := bind_eq_ok.mp hnew
    cases hnew
    rw [← val_of_validate hvalid]
    rfl
  · rintro rfl
    refine ⟨(vm.slots.1, vm.tssAddress, vm.identityMapAddress), ?_, ?_⟩
    · exact hformat.whole_eq_ok.mpr ⟨⟨⟨vm.length_slots, fun _ _ => trivial⟩, trivial, trivial⟩, rfl⟩
    · exact bind_eq_ok.mpr ⟨vm.slots, validate_val _, rfl⟩

theorem length_encode : vm.encode.length ≤ 18 + MAX_MEMORY_SLOTS * 28 := by
  have hslots := length_flatMap_const (fun slot : MemorySlot => slot.length_write) vm.slots.1
  have hcount := vm.length_slots
  rw [MAX_MEMORY_SLOTS] at hcount ⊢
  simp only [encode, List.length_append, length_putLength, length_putWord, hslots]
  omega

end VmState

end Soma.Kvm.Snapshot
