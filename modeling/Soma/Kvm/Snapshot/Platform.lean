import Soma.Kvm.Snapshot.Vcpu

/-! # Platform state

The in-kernel interrupt controllers, the interrupt routes that were installed, the paravirtual clock and the
interval timer: one section each. The routes are validated when they are built and the clock by
`ClockState.validate`; the other two have no value that is refused.
-/

namespace Soma.Kvm.Snapshot

open Soma.Lib Soma.Codec Reader

/-! ## Interrupt controllers -/

def IOAPIC_PINS : ℕ := 24

/-- One 8259 interrupt controller. -/
structure PicState where
  lastIrr : UInt8
  irr : UInt8
  imr : UInt8
  isr : UInt8
  priorityAdd : UInt8
  irqBase : UInt8
  readRegSelect : UInt8
  poll : UInt8
  specialMask : UInt8
  initState : UInt8
  autoEoi : UInt8
  rotateOnAutoEoi : UInt8
  specialFullyNestedMode : UInt8
  init4 : UInt8
  elcr : UInt8
  elcrMask : UInt8
deriving DecidableEq

namespace PicState

def asArray (pic : PicState) : Bytes 16 :=
  ⟨[pic.lastIrr, pic.irr, pic.imr, pic.isr, pic.priorityAdd, pic.irqBase, pic.readRegSelect, pic.poll,
    pic.specialMask, pic.initState, pic.autoEoi, pic.rotateOnAutoEoi, pic.specialFullyNestedMode,
    pic.init4, pic.elcr, pic.elcrMask], rfl⟩

def fromArray : Bytes 16 → PicState
  | ⟨[lastIrr, irr, imr, isr, priorityAdd, irqBase, readRegSelect, poll, specialMask, initState, autoEoi,
      rotateOnAutoEoi, specialFullyNestedMode, init4, elcr, elcrMask], _⟩ =>
    { lastIrr, irr, imr, isr, priorityAdd, irqBase, readRegSelect, poll, specialMask, initState, autoEoi,
      rotateOnAutoEoi, specialFullyNestedMode, init4, elcr, elcrMask }

def write (pic : PicState) : List UInt8 := pic.asArray.1

def read : Decoder KvmStateError PicState := fromArray <$> bytes 16

theorem asArray_fromArray (array : Bytes 16) : (fromArray array).asArray = array := by
  match array with
  | ⟨[_, _, _, _, _, _, _, _, _, _, _, _, _, _, _, _], _⟩ => rfl

theorem read_format : Exact read write :=
  (bytes_format 16).iso fromArray asArray asArray_fromArray (fun _ => rfl)

end PicState

/-- The I/O interrupt controller. -/
structure IoapicState where
  baseAddress : U64
  ioregsel : U32
  id : U32
  irr : U32
  redirection : Tuple U64 IOAPIC_PINS
deriving DecidableEq

namespace IoapicState

def write (ioapic : IoapicState) : List UInt8 :=
  putWord ioapic.baseAddress ++ (putWord ioapic.ioregsel ++ (putWord ioapic.id ++ (putWord ioapic.irr
    ++ ioapic.redirection.1.flatMap putWord)))

def read : Decoder KvmStateError IoapicState :=
  (fun (baseAddress, ioregsel, id, irr, redirection) => { baseAddress, ioregsel, id, irr, redirection })
    <$> (pair u64 <| pair u32 <| pair u32 <| pair u32 <| fixed u64 IOAPIC_PINS)

theorem read_format : Exact read write :=
  (u64_format.pair <| u32_format.pair <| u32_format.pair <| u32_format.pair <| u64_format.fixed _).ofTuple
    (fun i => (i.baseAddress, i.ioregsel, i.id, i.irr, i.redirection))
    (fun _ => rfl) (fun _ => rfl) (by simp) (fun _ => rfl)

theorem length_write (ioapic : IoapicState) : ioapic.write.length = 212 := by
  have hpins := length_flatMap_const (fun value : U64 => length_putWord value) ioapic.redirection.1
  rw [ioapic.redirection.2] at hpins
  simp [write, length_putWord, hpins, IOAPIC_PINS]

end IoapicState

structure IrqchipState where
  master : PicState
  slave : PicState
  ioapic : IoapicState
deriving DecidableEq

namespace IrqchipState

def encode (state : IrqchipState) : List UInt8 :=
  state.master.write ++ (state.slave.write ++ state.ioapic.write)

def fields : Decoder KvmStateError IrqchipState :=
  (fun (master, slave, ioapic) => { master, slave, ioapic })
    <$> (pair PicState.read <| pair PicState.read IoapicState.read)

theorem fields_format : Exact fields encode :=
  (PicState.read_format.pair <| PicState.read_format.pair IoapicState.read_format).ofTuple
    (fun s => (s.master, s.slave, s.ioapic)) (fun _ => rfl) (fun _ => rfl) (by simp) (fun _ => rfl)

def decode (bytes : List UInt8) : Except KvmStateError IrqchipState := whole trailing fields bytes

theorem decode_eq_ok {bytes : List UInt8} {state : IrqchipState} :
    decode bytes = .ok state ↔ bytes = state.encode := by
  rw [decode, fields_format.whole_eq_ok, true_and]

theorem length_encode (state : IrqchipState) : state.encode.length = 244 := by
  have hpic : ∀ pic : PicState, pic.write.length = 16 := fun pic => pic.asArray.2
  simp [encode, hpic, IoapicState.length_write]

end IrqchipState

/-! ## Interrupt routes -/

def MAX_IRQ_ROUTES : ℕ := 256

/-- Where an interrupt is delivered. -/
inductive RouteTarget where
  | irqchip (irqchip pin : U32)
  | msi (addressLo addressHi data devid : U32)
deriving DecidableEq

namespace RouteTarget

def TARGET_IRQCHIP : UInt8 := 1

def TARGET_MSI : UInt8 := 2

def code : RouteTarget → UInt8
  | irqchip .. => TARGET_IRQCHIP
  | msi .. => TARGET_MSI

def body : RouteTarget → List UInt8
  | irqchip chip pin => putWord chip ++ putWord pin
  | msi addressLo addressHi data devid =>
    putWord addressLo ++ (putWord addressHi ++ (putWord data ++ putWord devid))

variable (target : RouteTarget)

def write : List UInt8 := target.code :: target.body

def readBody (code : UInt8) : Decoder KvmStateError RouteTarget :=
  if code = TARGET_IRQCHIP then (fun (chip, pin) => irqchip chip pin) <$> pair u32 u32
  else if code = TARGET_MSI then
    (fun (addressLo, addressHi, data, devid) => msi addressLo addressHi data devid)
      <$> (pair u32 <| pair u32 <| pair u32 u32)
  else fail (.unknownCode "irq_routing.target" code.toNat)

def read : Decoder KvmStateError RouteTarget := u8 >>= readBody

theorem code_eq : target.code = TARGET_IRQCHIP ∨ target.code = TARGET_MSI := by
  cases target with
  | irqchip => exact .inl rfl
  | msi => exact .inr rfl

theorem read_format : Exact read write := by
  suffices hbody : ∀ code, Format (readBody code) body (fun target => target.code = code ∧ True) from
    (u8_format.tagged code hbody).congr (fun _ => Iff.rfl) (fun _ _ => rfl)
  intro tag
  unfold readBody
  split_ifs with hchip hmsi
  · refine (u32_format.pair u32_format).map _ (fun _ => rfl) ?_
    intro target
    cases target <;> simp [code, hchip, TARGET_IRQCHIP, TARGET_MSI]
  · refine (u32_format.pair <| u32_format.pair <| u32_format.pair u32_format).map _ (fun _ => rfl) ?_
    intro target
    cases target <;> simp [code, hmsi, TARGET_IRQCHIP, TARGET_MSI]
  · refine (Format.fail _).congr ?_ (fun _ _ => rfl)
    intro target
    refine ⟨False.elim, fun h => ?_⟩
    rw [← h.1] at hchip hmsi
    exact target.code_eq.elim hchip hmsi

theorem length_write : target.write.length ≤ 17 := by
  cases target <;> simp [write, body]

end RouteTarget

structure IrqRoutingEntry where
  gsi : U32
  flags : U32
  target : RouteTarget
deriving DecidableEq

namespace IrqRoutingEntry

variable (entry : IrqRoutingEntry)

def write : List UInt8 :=
  putWord entry.gsi ++ (putWord entry.flags ++ entry.target.write)

def read : Decoder KvmStateError IrqRoutingEntry :=
  (fun (gsi, flags, target) => { gsi, flags, target }) <$> (pair u32 <| pair u32 RouteTarget.read)

theorem read_format : Exact read write :=
  (u32_format.pair <| u32_format.pair RouteTarget.read_format).ofTuple
    (fun e => (e.gsi, e.flags, e.target)) (fun _ => rfl) (fun _ => rfl) (by simp) (fun _ => rfl)

theorem length_write : entry.write.length ≤ 25 := by
  have htarget := entry.target.length_write
  simp only [write, List.length_append, length_putWord]
  omega

end IrqRoutingEntry

namespace IrqRoutingState

def check (entries : List IrqRoutingEntry) : Except KvmStateError Unit := do
  atMostEntries "irq_routing" MAX_IRQ_ROUTES entries.length
  distinct (fun e entry => e = entry) (fun entry => .duplicateEntry "irq_routing" entry.gsi.toNat) entries

theorem length_le {entries : List IrqRoutingEntry} (h : check entries = .ok ()) : entries.length ≤ MAX_IRQ_ROUTES :=
  ensure_eq_ok.mp (seq_eq_ok.mp h).1

end IrqRoutingState

abbrev IrqRoutingState := Valid IrqRoutingState.check

namespace IrqRoutingState

def new (entries : List IrqRoutingEntry) : Except KvmStateError IrqRoutingState := validate check entries

variable (state : IrqRoutingState)

def encode : List UInt8 :=
  putLength (BitVec.ofNat 16 MAX_IRQ_ROUTES) state.1.length ++ state.1.flatMap IrqRoutingEntry.write

def decode (bytes : List UInt8) : Except KvmStateError IrqRoutingState := do
  let entries ← whole trailing (listU16 MAX_IRQ_ROUTES IrqRoutingEntry.read) bytes
  new entries

theorem decode_eq_ok {bytes : List UInt8} {state : IrqRoutingState} :
    decode bytes = .ok state ↔ bytes = encode state := by
  have hformat := listU16_format (BitVec.ofNat 16 MAX_IRQ_ROUTES) (by decide : MAX_IRQ_ROUTES < 2 ^ 16)
    IrqRoutingEntry.read_format
  rw [decode, bind_eq_ok]
  constructor
  · rintro ⟨entries, hentries, hnew⟩
    obtain ⟨-, rfl⟩ := hformat.whole_eq_ok.mp hentries
    rw [← val_of_validate hnew]
    rfl
  · rintro rfl
    exact ⟨state.1, hformat.whole_eq_ok.mpr ⟨⟨length_le state.2, fun _ _ => trivial⟩, rfl⟩, validate_val _⟩

theorem length_encode : (encode state).length ≤ 2 + 256 * 25 := by
  have hlength : state.1.length ≤ 256 := length_le state.2
  have hentries := length_flatMap_le IrqRoutingEntry.length_write state.1
  rw [encode, List.length_append, length_putLength]
  omega

end IrqRoutingState

/-! ## Clock -/

def KNOWN_CLOCK_FLAGS : U32 := 2 ||| 4 ||| 8

/-- The paravirtual clock. -/
structure ClockState where
  clock : U64
  flags : U32
  realtime : U64
  hostTsc : U64
deriving DecidableEq

namespace ClockState

variable (state : ClockState)

def validate : Except KvmStateError Unit :=
  ensure (state.flags &&& ~~~KNOWN_CLOCK_FLAGS = 0) (.invalidField "clock.flags" state.flags.toNat)

def encode : List UInt8 :=
  putWord state.clock ++ (putWord state.flags ++ (putWord state.realtime ++ putWord state.hostTsc))

def fields : Decoder KvmStateError ClockState :=
  (fun (clock, flags, realtime, hostTsc) => { clock, flags, realtime, hostTsc })
    <$> (pair u64 <| pair u32 <| pair u64 u64)

theorem fields_format : Exact fields encode :=
  (u64_format.pair <| u32_format.pair <| u64_format.pair u64_format).ofTuple
    (fun s => (s.clock, s.flags, s.realtime, s.hostTsc)) (fun _ => rfl) (fun _ => rfl) (by simp) (fun _ => rfl)

def decode (bytes : List UInt8) : Except KvmStateError ClockState := do
  let state ← whole trailing fields bytes
  state.validate
  return state

theorem decode_eq_ok {bytes : List UInt8} {state : ClockState} :
    decode bytes = .ok state ↔ state.validate = .ok () ∧ bytes = state.encode := by
  rw [decode, bind_eq_ok]
  constructor
  · rintro ⟨state', hfields, hvalid⟩
    obtain ⟨hvalid, hend⟩ := seq_eq_ok.mp hvalid
    cases hend
    exact ⟨hvalid, (fields_format.whole_eq_ok.mp hfields).2⟩
  · rintro ⟨hvalid, rfl⟩
    exact ⟨state, fields_format.whole_eq_ok.mpr ⟨trivial, rfl⟩, seq_eq_ok.mpr ⟨hvalid, rfl⟩⟩

theorem length_encode : state.encode.length = 28 := by
  simp [encode]

end ClockState

/-! ## Interval timer -/

/-- One channel of the timer. -/
structure PitChannel where
  count : U32
  latchedCount : U16
  countLatched : UInt8
  statusLatched : UInt8
  status : UInt8
  readState : UInt8
  writeState : UInt8
  writeLatch : UInt8
  rwMode : UInt8
  mode : UInt8
  bcd : UInt8
  gate : UInt8
  countLoadTime : U64
deriving DecidableEq

namespace PitChannel

variable (channel : PitChannel)

def registers : Bytes 10 :=
  ⟨[channel.countLatched, channel.statusLatched, channel.status, channel.readState, channel.writeState,
    channel.writeLatch, channel.rwMode, channel.mode, channel.bcd, channel.gate], rfl⟩

def write : List UInt8 :=
  putWord channel.count ++ (putWord channel.latchedCount ++ (channel.registers.1
    ++ putWord channel.countLoadTime))

def ofFields : U32 × U16 × Bytes 10 × U64 → PitChannel
  | (count, latchedCount, ⟨[countLatched, statusLatched, status, readState, writeState, writeLatch, rwMode,
      mode, bcd, gate], _⟩, countLoadTime) =>
    { count, latchedCount, countLatched, statusLatched, status, readState, writeState, writeLatch, rwMode,
      mode, bcd, gate, countLoadTime }

def read : Decoder KvmStateError PitChannel :=
  ofFields <$> (pair u32 <| pair u16 <| pair (bytes 10) i64)

theorem fields_ofFields (fields : U32 × U16 × Bytes 10 × U64) :
    ((ofFields fields).count, (ofFields fields).latchedCount, (ofFields fields).registers,
      (ofFields fields).countLoadTime) = fields := by
  match fields with
  | (_, _, ⟨[_, _, _, _, _, _, _, _, _, _], _⟩, _) => rfl

theorem read_format : Exact read write :=
  (u32_format.pair <| u16_format.pair <| (bytes_format 10).pair i64_format).ofTuple
    (fun c => (c.count, c.latchedCount, c.registers, c.countLoadTime)) fields_ofFields
    (fun _ => rfl) (by simp) (fun _ => rfl)

theorem length_write : channel.write.length = 24 := by
  simp [write, channel.registers.2]

end PitChannel

structure PitState where
  channels : Tuple PitChannel 3
  flags : U32
deriving DecidableEq

namespace PitState

def encode (state : PitState) : List UInt8 :=
  state.channels.1.flatMap PitChannel.write ++ putWord state.flags

def fields : Decoder KvmStateError PitState :=
  (fun (channels, flags) => { channels, flags }) <$> pair (fixed PitChannel.read 3) u32

theorem fields_format : Exact fields encode :=
  ((PitChannel.read_format.fixed 3).pair u32_format).ofTuple
    (fun s => (s.channels, s.flags)) (fun _ => rfl) (fun _ => rfl) (by simp) (fun _ => rfl)

def decode (bytes : List UInt8) : Except KvmStateError PitState := whole trailing fields bytes

theorem decode_eq_ok {bytes : List UInt8} {state : PitState} : decode bytes = .ok state ↔ bytes = state.encode := by
  rw [decode, fields_format.whole_eq_ok, true_and]

theorem length_encode (state : PitState) : state.encode.length = 76 := by
  have hchannels := length_flatMap_const PitChannel.length_write state.channels.1
  rw [state.channels.2] at hchannels
  simp [encode, hchannels, length_putWord]

end PitState

end Soma.Kvm.Snapshot
