import Soma.Kvm.Snapshot.Wire
import Mathlib.Data.Nat.Log

/-! # Canonical device state

One device slot as a section carries it: the transport registers, the negotiated features, every queue and
the fields of its kind. A state is validated as a whole when it is built (`DeviceState.check`), so the
number of queues and the fields are those of its kind.
-/

namespace Soma.Kvm.Snapshot

open Soma.Lib Soma.Codec Reader

def DEVICE_COUNT : ℕ := 5

def MAX_QUEUES : ℕ := 3

abbrev Digest := Bytes 32

/-- The digest of no bytes at all. -/
def Digest.zero : Digest := .fill 32 0

inductive DeviceKind where
  | rootBlock
  | overlayBlock
  | net
  | vsock
  | rng
deriving DecidableEq

namespace DeviceKind

def slot : DeviceKind → UInt8
  | rootBlock => 0
  | overlayBlock => 1
  | net => 2
  | vsock => 3
  | rng => 4

def forSlot : UInt8 → Option DeviceKind
  | 0 => some rootBlock
  | 1 => some overlayBlock
  | 2 => some net
  | 3 => some vsock
  | 4 => some rng
  | _ => none

def queueCount : DeviceKind → ℕ
  | rootBlock | overlayBlock | rng => 1
  | net => 2
  | vsock => 3

theorem forSlot_eq_some {code : UInt8} {kind : DeviceKind} : forSlot code = some kind ↔ code = kind.slot := by
  constructor
  · intro h
    unfold forSlot at h
    split at h <;> cases h <;> rfl
  · rintro rfl
    cases kind <;> rfl

end DeviceKind

/-- The registers of a transport. -/
structure TransportState where
  deviceStatus : UInt8
  interruptStatus : UInt8
  configGeneration : U32
  queueSelect : U16
deriving DecidableEq

/-- Why a device section was not accepted. -/
inductive DeviceStateError where
  | wire (error : WireError)
  | unknownKind (code : UInt8)
  | kindSlotMismatch (slot : UInt8) (kind : DeviceKind)
  | queueCount (kind : DeviceKind) (count : ℕ)
  | invalidQueue (index : ℕ) (field : String)
  | invalidField (field : String) (value : ℕ)
  | specificMismatch (kind : DeviceKind)
deriving DecidableEq

instance : FromWire DeviceStateError := ⟨.wire⟩

namespace TransportState

variable (transport : TransportState)

def write : List UInt8 :=
  [transport.deviceStatus] ++ ([transport.interruptStatus] ++ (putWord transport.configGeneration
    ++ putWord transport.queueSelect))

def read : Decoder DeviceStateError TransportState :=
  (fun (deviceStatus, interruptStatus, configGeneration, queueSelect) =>
      { deviceStatus, interruptStatus, configGeneration, queueSelect })
    <$> (pair u8 <| pair u8 <| pair u32 u16)

theorem read_format : Exact read write :=
  (u8_format.pair <| u8_format.pair <| u32_format.pair u16_format).ofTuple
    (fun t => (t.deviceStatus, t.interruptStatus, t.configGeneration, t.queueSelect))
    (fun _ => rfl) (fun _ => rfl) (by simp) (fun _ => rfl)

theorem length_write : transport.write.length = 8 := by
  simp [write]

end TransportState

/-! ## Queues -/

/-- One virtqueue. -/
structure QueueState where
  maxSize : U16
  size : U16
  ready : Bool
  descriptorAddress : U64
  availableAddress : U64
  usedAddress : U64
  nextAvailable : U16
  nextUsed : U16
deriving DecidableEq

namespace QueueState

def validate (index : ℕ) (queue : QueueState) : Except DeviceStateError Unit := do
  ensure queue.maxSize.toNat.isPowerOfTwo (.invalidQueue index "max_size")
  ensure (queue.size ≤ queue.maxSize ∧ (queue.size ≠ 0 → queue.size.toNat.isPowerOfTwo))
    (.invalidQueue index "size")
  ensure (queue.ready → queue.size ≠ 0) (.invalidQueue index "ready")

def write (queue : QueueState) : List UInt8 :=
  putWord queue.maxSize ++ (putWord queue.size ++ (putFlag queue.ready ++ (putWord queue.descriptorAddress
    ++ (putWord queue.availableAddress ++ (putWord queue.usedAddress ++ (putWord queue.nextAvailable
    ++ putWord queue.nextUsed))))))

def read : Decoder DeviceStateError QueueState :=
  (fun (maxSize, size, ready, descriptorAddress, availableAddress, usedAddress, nextAvailable, nextUsed) =>
      { maxSize, size, ready, descriptorAddress, availableAddress, usedAddress, nextAvailable, nextUsed })
    <$> (pair u16 <| pair u16 <| pair presence <| pair u64 <| pair u64 <| pair u64 <| pair u16 u16)

theorem read_format : Exact read write :=
  (u16_format.pair <| u16_format.pair <| presence_format.pair <| u64_format.pair <| u64_format.pair <|
    u64_format.pair <| u16_format.pair u16_format).ofTuple
    (fun q => (q.maxSize, q.size, q.ready, q.descriptorAddress, q.availableAddress, q.usedAddress,
      q.nextAvailable, q.nextUsed))
    (fun _ => rfl) (fun _ => rfl) (by simp) (fun _ => rfl)

theorem length_write (queue : QueueState) : queue.write.length = 33 := by
  simp [write]

end QueueState

/-! ## The fields of each kind -/

/-- A disk and the digest of its image. -/
structure BlockState where
  capacitySectors : U64
  blockSize : U32
  imageDigest : Digest
deriving DecidableEq

namespace BlockState

def validate (block : BlockState) : Except DeviceStateError Unit := do
  ensure (block.blockSize.toNat.isPowerOfTwo ∧ 512 ≤ block.blockSize.toNat ∧ block.blockSize.toNat ≤ 4096)
    (.invalidField "block_size" block.blockSize.toNat)
  ensure (checkedMul block.capacitySectors.toNat 512).isSome
    (.invalidField "capacity_sectors" block.capacitySectors.toNat)
  ensure (block.imageDigest ≠ Digest.zero) (.invalidField "image_digest" 0)

def write (block : BlockState) : List UInt8 :=
  putWord block.capacitySectors ++ (putWord block.blockSize ++ block.imageDigest.1)

def read : Decoder DeviceStateError BlockState :=
  (fun (capacitySectors, blockSize, imageDigest) => { capacitySectors, blockSize, imageDigest })
    <$> (pair u64 <| pair u32 <| bytes 32)

theorem read_format : Exact read write :=
  (u64_format.pair <| u32_format.pair <| bytes_format 32).ofTuple
    (fun b => (b.capacitySectors, b.blockSize, b.imageDigest)) (fun _ => rfl) (fun _ => rfl)
    (by simp) (fun _ => rfl)

end BlockState

/-- The fields of one kind of device. -/
inductive DeviceSpecific where
  | block (block : BlockState)
  | net (mac : Bytes 6) (linkUp : Bool)
  | vsock (cidPlaceholder : U64)
  | rng
deriving DecidableEq

namespace DeviceSpecific

variable (kind : DeviceKind) (specific : DeviceSpecific)

def validateFor : Except DeviceStateError Unit :=
  match kind, specific with
  | .rootBlock, block b | .overlayBlock, block b => b.validate
  | .net, net .. | .vsock, vsock .. | .rng, rng => .ok ()
  | kind, _ => .error (.specificMismatch kind)

def write : DeviceSpecific → List UInt8
  | block b => b.write
  | net mac linkUp => mac.1 ++ putFlag linkUp
  | vsock cidPlaceholder => putWord cidPlaceholder
  | rng => []

def read : DeviceKind → Decoder DeviceStateError DeviceSpecific
  | .rootBlock | .overlayBlock => block <$> BlockState.read
  | .net => (fun (mac, linkUp) => net mac linkUp) <$> pair (bytes 6) presence
  | .vsock => vsock <$> u64
  | .rng => pure rng

/-- The fields are those of a device of the kind. -/
def Fits : DeviceSpecific → Prop
  | block _ => kind = .rootBlock ∨ kind = .overlayBlock
  | net .. => kind = .net
  | vsock _ => kind = .vsock
  | rng => kind = .rng

theorem fits_of_validateFor {kind : DeviceKind} {specific : DeviceSpecific}
    (h : validateFor kind specific = .ok ()) : Fits kind specific := by
  cases kind <;> cases specific <;> first | (cases h; done) | simp [Fits]

theorem block_format : Format (block <$> BlockState.read) write (fun specific => ∃ b, block b = specific) :=
  BlockState.read_format.map block (fun _ => rfl) (by simp)

theorem read_format : Format (read kind) write (Fits kind) := by
  cases kind with
  | rootBlock | overlayBlock => exact block_format.congr (fun s => by cases s <;> simp [Fits]) (fun _ _ => rfl)
  | net =>
    refine ((bytes_format 6).pair presence_format).map _ (fun _ => rfl) ?_
    intro s
    cases s <;> simp [Fits]
  | vsock =>
    refine u64_format.map vsock (fun _ => rfl) ?_
    intro s
    cases s <;> simp [Fits]
  | rng =>
    refine (Format.pure rng).congr ?_ ?_
    · intro s
      cases s <;> simp [Fits]
    · rintro _ rfl
      rfl

theorem length_write : specific.write.length ≤ 44 := by
  cases specific with
  | block b => simp [write, BlockState.write, b.imageDigest.2]
  | net mac linkUp => simp [write, mac.2]
  | vsock => simp [write]
  | rng => simp [write]

end DeviceSpecific

/-! ## The whole device -/

/-- A device state before its checks. -/
structure DeviceParts where
  kind : DeviceKind
  transport : TransportState
  negotiatedFeatures : U64
  queues : List QueueState
  specific : DeviceSpecific
deriving DecidableEq

namespace DeviceState

def check (parts : DeviceParts) : Except DeviceStateError Unit := do
  ensure (parts.queues.length = parts.kind.queueCount) (.queueCount parts.kind parts.queues.length)
  forIdx parts.queues QueueState.validate
  ensure (parts.transport.interruptStatus &&& ~~~0b11 = 0)
    (.invalidField "interrupt_status" parts.transport.interruptStatus.toNat)
  parts.specific.validateFor parts.kind

end DeviceState

abbrev DeviceState := Valid DeviceState.check

namespace DeviceState

def new (parts : DeviceParts) : Except DeviceStateError DeviceState := validate check parts

def encode (state : DeviceState) : List UInt8 :=
  [state.1.kind.slot] ++ (state.1.transport.write ++ (putWord state.1.negotiatedFeatures
    ++ ((putLength (255 : BitVec 8) state.1.queues.length ++ state.1.queues.flatMap QueueState.write)
    ++ state.1.specific.write)))

variable (slot : UInt8)

/-- The kind of the device, which must be the one the slot has. -/
def readKind : Decoder DeviceStateError DeviceKind :=
  refine u8 fun code => do
    let kind ← okOr (DeviceKind.forSlot code) (.unknownKind code)
    ensure (kind.slot = slot) (.kindSlotMismatch slot kind)
    return kind

variable (kind : DeviceKind)

def readQueues : Decoder DeviceStateError (List QueueState) := do
  let count ← word truncated 8
  if count.toNat ≠ kind.queueCount then fail (.queueCount kind count.toNat)
  else many QueueState.read count.toNat

def fields : Decoder DeviceStateError DeviceParts := do
  let kind ← readKind slot
  (fun (transport, negotiatedFeatures, queues, specific) =>
      { kind, transport, negotiatedFeatures, queues, specific })
    <$> (pair TransportState.read <| pair u64 <| pair (readQueues kind) (DeviceSpecific.read kind))

def decodeForSlot (bytes : List UInt8) : Except DeviceStateError DeviceState := do
  let parts ← whole trailing (fields slot) bytes
  new parts

/-! ## The encoding -/

theorem check_eq_ok {parts : DeviceParts} : check parts = .ok () ↔
    parts.queues.length = parts.kind.queueCount
      ∧ (∀ i queue, parts.queues[i]? = some queue → QueueState.validate i queue = .ok ())
      ∧ parts.transport.interruptStatus &&& ~~~0b11 = 0
      ∧ parts.specific.validateFor parts.kind = .ok () := by
  simp only [check, seq_eq_ok, ensure_eq_ok, forIdx_eq_ok]

theorem readKind_format : Format (readKind slot) (fun kind => [kind.slot]) (fun kind => kind.slot = slot) := by
  refine (u8_format.refineOn (fun kind : DeviceKind => kind.slot = slot) DeviceKind.slot ?_ ?_).congr
    (by simp) (fun _ _ => rfl)
  · intro kind hslot
    rw [DeviceKind.forSlot_eq_some.mpr rfl]
    exact seq_eq_ok.mpr ⟨ensure_eq_ok.mpr hslot, rfl⟩
  · intro code kind h
    obtain ⟨kind', hkind, h⟩ := bind_eq_ok.mp h
    obtain ⟨hslot, hend⟩ := seq_eq_ok.mp h
    cases hend
    exact ⟨ensure_eq_ok.mp hslot, (DeviceKind.forSlot_eq_some.mp (okOr_eq_ok.mp hkind)).symm⟩

theorem queueCount_lt : kind.queueCount < 2 ^ 8 := by
  cases kind <;> decide

theorem readQueues_format :
    Format (readQueues kind)
      (fun queues => putLength (255 : BitVec 8) queues.length ++ queues.flatMap QueueState.write)
      (fun queues => queues.length = kind.queueCount) := by
  have hcount : Exact (word truncated 8 : Decoder DeviceStateError _) putWord :=
    Format.word _ (by decide)
  have hkind := queueCount_lt kind
  refine (hcount.bind (fun queues : List QueueState => BitVec.ofNat 8 queues.length)
    (fun count _ => (QueueState.read_format.many count.toNat).require) ?_).congr ?_ ?_
  · rintro count queues ⟨-, hlength, -⟩
    rw [hlength]
    exact (BitVec.ofNat_toNat ..).trans (BitVec.setWidth_eq _)
  · intro queues
    simp only [BitVec.toNat_ofNat, ne_eq, not_not, true_and, implies_true, and_true]
    constructor
    · rintro ⟨hcount, hlength⟩
      rw [← hcount, ← hlength]
    · intro h
      rw [h, Nat.mod_eq_of_lt hkind]
      exact ⟨rfl, rfl⟩
  · intro queues hok
    have hlength : queues.length < 2 ^ 8 := by
      have := hok.2.2.1
      have := (BitVec.ofNat 8 queues.length).isLt
      omega
    rw [putLength, if_pos hlength]

theorem fields_format : Format (fields slot)
    (fun parts => [parts.kind.slot] ++ (parts.transport.write ++ (putWord parts.negotiatedFeatures
      ++ ((putLength (255 : BitVec 8) parts.queues.length ++ parts.queues.flatMap QueueState.write)
      ++ parts.specific.write))))
    (fun parts => parts.kind.slot = slot ∧ parts.queues.length = parts.kind.queueCount
      ∧ parts.specific.Fits parts.kind) := by
  refine Format.record ((readKind_format slot).field DeviceParts.kind fun kind => ?_) (fun _ => Iff.rfl) (fun _ => rfl)
  refine (TransportState.read_format.pair <| u64_format.pair <| (readQueues_format kind).pair
    (DeviceSpecific.read_format kind)).map _ (fun _ => rfl) ?_
  intro parts
  constructor
  · rintro ⟨⟨-, rfl⟩, hqueues, hspecific⟩
    exact ⟨(parts.transport, parts.negotiatedFeatures, parts.queues, parts.specific), rfl, trivial, trivial,
      hqueues, hspecific⟩
  · rintro ⟨fields, rfl, -, -, hqueues, hspecific⟩
    exact ⟨⟨trivial, rfl⟩, hqueues, hspecific⟩

theorem decodeForSlot_eq_ok {slot : UInt8} {bytes : List UInt8} {state : DeviceState} :
    decodeForSlot slot bytes = .ok state ↔ state.1.kind.slot = slot ∧ bytes = encode state := by
  rw [decodeForSlot, bind_eq_ok]
  constructor
  · rintro ⟨parts, hparts, hnew⟩
    obtain ⟨hok, rfl⟩ := (fields_format slot).whole_eq_ok.mp hparts
    rw [← val_of_validate hnew] at hok ⊢
    exact ⟨hok.1, rfl⟩
  · rintro ⟨hslot, rfl⟩
    obtain ⟨hcount, -, -, hspecific⟩ := check_eq_ok.mp state.2
    exact ⟨state.1, (fields_format slot).whole_eq_ok.mpr
      ⟨⟨hslot, hcount, DeviceSpecific.fits_of_validateFor hspecific⟩, rfl⟩, validate_val _⟩

theorem length_encode (state : DeviceState) : (encode state).length ≤ 161 := by
  have hspecific := state.1.specific.length_write
  have hqueues : state.1.queues.length ≤ 3 := by
    rw [(check_eq_ok.mp state.2).1]
    cases state.1.kind <;> decide
  simp only [encode, List.length_append, List.length_singleton, TransportState.length_write, length_putWord,
    length_putLength, length_flatMap_const QueueState.length_write]
  omega

end DeviceState

end Soma.Kvm.Snapshot
