import Soma.Kvm.Snapshot.Vm

/-! # vCPU state

The groups of one virtual CPU, each as it is written and read: configuration tables, registers, segments,
floating point and extended state, the local interrupt controller, pending events and nested state. Tables
and the extended-state area are validated when they are built; the segments are validated when they are
read, and by `VcpuState.new`.
-/

namespace Soma.Kvm.Snapshot

open Soma.Lib Soma.Codec Reader

theorem table_format {ε α : Type} [FromWire ε] {check : List α → Except ε Unit} {bound : ℕ} (other : U16)
    (hbound : bound < 2 ^ 16) {d : Decoder ε α} {enc : α → List UInt8} (h : Exact d enc)
    (hcheck : ∀ xs, check xs = .ok () → xs.length ≤ bound) :
    Exact (refine (listU16 bound d) (validate check))
      (fun table => putLength other table.1.length ++ table.1.flatMap enc) :=
  ((listU16_format other hbound h).refine Subtype.val validate_val (fun _ _ h => val_of_validate h)).congr
    (fun table => by simp [hcheck _ table.2]) (fun _ _ => rfl)

/-! ## Configuration -/

def MAX_CPUID_ENTRIES : ℕ := 256

def MAX_MSR_ENTRIES : ℕ := 256

structure CpuidEntry where
  function : U32
  index : U32
  flags : U32
  eax : U32
  ebx : U32
  ecx : U32
  edx : U32
deriving DecidableEq

namespace CpuidEntry

def write (entry : CpuidEntry) : List UInt8 :=
  [entry.function, entry.index, entry.flags, entry.eax, entry.ebx, entry.ecx, entry.edx].flatMap putWord

def read : Decoder KvmStateError CpuidEntry :=
  (fun (function, index, flags, eax, ebx, ecx, edx) => { function, index, flags, eax, ebx, ecx, edx })
    <$> (pair u32 <| pair u32 <| pair u32 <| pair u32 <| pair u32 <| pair u32 u32)

theorem read_format : Exact read write :=
  (u32_format.pair <| u32_format.pair <| u32_format.pair <| u32_format.pair <| u32_format.pair <|
    u32_format.pair u32_format).ofTuple
    (fun e => (e.function, e.index, e.flags, e.eax, e.ebx, e.ecx, e.edx))
    (fun _ => rfl) (fun _ => rfl) (by simp) (by simp [write])

theorem length_write (entry : CpuidEntry) : entry.write.length = 28 := by
  simp [write]

end CpuidEntry

namespace CpuidEntries

def check (entries : List CpuidEntry) : Except KvmStateError Unit := do
  atMostEntries "cpuid" MAX_CPUID_ENTRIES entries.length
  distinct (fun e entry => e.function = entry.function ∧ e.index = entry.index)
    (fun entry => .duplicateEntry "cpuid" (entry.function.toNat <<< 32 ||| entry.index.toNat)) entries

theorem length_le {entries : List CpuidEntry} (h : check entries = .ok ()) : entries.length ≤ MAX_CPUID_ENTRIES :=
  ensure_eq_ok.mp (seq_eq_ok.mp h).1

def write (entries : Valid check) : List UInt8 :=
  putLength (BitVec.ofNat 16 MAX_CPUID_ENTRIES) entries.1.length ++ entries.1.flatMap CpuidEntry.write

def read : Decoder KvmStateError (Valid check) :=
  refine (listU16 MAX_CPUID_ENTRIES CpuidEntry.read) (validate check)

theorem read_format : Exact read write :=
  table_format _ (by decide) CpuidEntry.read_format fun _ => length_le

theorem length_write (entries : Valid check) : (write entries).length ≤ 2 + 256 * 28 := by
  have hlength : entries.1.length ≤ 256 := length_le entries.2
  rw [write, List.length_append, length_putLength, length_flatMap_const CpuidEntry.length_write]
  omega

end CpuidEntries

abbrev CpuidEntries := Valid CpuidEntries.check

structure MsrEntry where
  index : U32
  value : U64
deriving DecidableEq

namespace MsrEntry

def write (entry : MsrEntry) : List UInt8 := putWord entry.index ++ putWord entry.value

def read : Decoder KvmStateError MsrEntry := (fun (index, value) => { index, value }) <$> pair u32 u64

theorem read_format : Exact read write :=
  (u32_format.pair u64_format).ofTuple (fun e => (e.index, e.value))
    (fun _ => rfl) (fun _ => rfl) (by simp) (fun _ => rfl)

theorem length_write (entry : MsrEntry) : entry.write.length = 12 := by
  simp [write]

end MsrEntry

namespace MsrEntries

def check (entries : List MsrEntry) : Except KvmStateError Unit := do
  atMostEntries "msrs" MAX_MSR_ENTRIES entries.length
  distinct (fun e entry => e.index = entry.index)
    (fun entry => .duplicateEntry "msrs" entry.index.toNat) entries

theorem length_le {entries : List MsrEntry} (h : check entries = .ok ()) : entries.length ≤ MAX_MSR_ENTRIES :=
  ensure_eq_ok.mp (seq_eq_ok.mp h).1

def write (entries : Valid check) : List UInt8 :=
  putLength (BitVec.ofNat 16 MAX_MSR_ENTRIES) entries.1.length ++ entries.1.flatMap MsrEntry.write

def read : Decoder KvmStateError (Valid check) :=
  refine (listU16 MAX_MSR_ENTRIES MsrEntry.read) (validate check)

theorem read_format : Exact read write :=
  table_format _ (by decide) MsrEntry.read_format fun _ => length_le

theorem length_write (entries : Valid check) : (write entries).length ≤ 2 + 256 * 12 := by
  have hlength : entries.1.length ≤ 256 := length_le entries.2
  rw [write, List.length_append, length_putLength, length_flatMap_const MsrEntry.length_write]
  omega

end MsrEntries

abbrev MsrEntries := Valid MsrEntries.check

/-! ## Registers -/

structure Regs where
  rax : U64
  rbx : U64
  rcx : U64
  rdx : U64
  rsi : U64
  rdi : U64
  rsp : U64
  rbp : U64
  r8 : U64
  r9 : U64
  r10 : U64
  r11 : U64
  r12 : U64
  r13 : U64
  r14 : U64
  r15 : U64
  rip : U64
  rflags : U64
deriving DecidableEq

namespace Regs

variable (regs : Regs)

def asArray : List U64 :=
  [regs.rax, regs.rbx, regs.rcx, regs.rdx, regs.rsi, regs.rdi, regs.rsp, regs.rbp, regs.r8, regs.r9,
    regs.r10, regs.r11, regs.r12, regs.r13, regs.r14, regs.r15, regs.rip, regs.rflags]

def write : List UInt8 := regs.asArray.flatMap putWord

def read : Decoder KvmStateError Regs :=
  (fun (rax, rbx, rcx, rdx, rsi, rdi, rsp, rbp, r8, r9, r10, r11, r12, r13, r14, r15, rip, rflags) =>
      { rax, rbx, rcx, rdx, rsi, rdi, rsp, rbp, r8, r9, r10, r11, r12, r13, r14, r15, rip, rflags })
    <$> (pair u64 <| pair u64 <| pair u64 <| pair u64 <| pair u64 <| pair u64 <| pair u64 <| pair u64 <|
      pair u64 <| pair u64 <| pair u64 <| pair u64 <| pair u64 <| pair u64 <| pair u64 <| pair u64 <|
      pair u64 u64)

theorem read_format : Exact read write :=
  (u64_format.pair <| u64_format.pair <| u64_format.pair <| u64_format.pair <| u64_format.pair <|
    u64_format.pair <| u64_format.pair <| u64_format.pair <| u64_format.pair <| u64_format.pair <|
    u64_format.pair <| u64_format.pair <| u64_format.pair <| u64_format.pair <| u64_format.pair <|
    u64_format.pair <| u64_format.pair u64_format).ofTuple
    (fun r => (r.rax, r.rbx, r.rcx, r.rdx, r.rsi, r.rdi, r.rsp, r.rbp, r.r8, r.r9, r.r10, r.r11, r.r12,
      r.r13, r.r14, r.r15, r.rip, r.rflags))
    (fun _ => rfl) (fun _ => rfl) (by simp) (by simp [write, asArray])

theorem length_write : regs.write.length = 144 := by
  simp [write, asArray]

end Regs

/-- A segment register. -/
structure Segment where
  base : U64
  limit : U32
  selector : U16
  type_ : UInt8
  present : Bool
  dpl : UInt8
  db : Bool
  s : Bool
  l : Bool
  g : Bool
  avl : Bool
  unusable : Bool
deriving DecidableEq

namespace Segment

variable (segment : Segment)

def validate : Except KvmStateError Unit := do
  ensure (segment.type_ ≤ 0x0f) (.invalidField "segment.type" segment.type_.toNat)
  ensure (segment.dpl ≤ 3) (.invalidField "segment.dpl" segment.dpl.toNat)

def write : List UInt8 :=
  putWord segment.base ++ (putWord segment.limit ++ (putWord segment.selector ++ ([segment.type_]
    ++ (putFlag segment.present ++ ([segment.dpl] ++ [segment.db, segment.s, segment.l, segment.g,
      segment.avl, segment.unusable].flatMap putFlag)))))

def fields : Decoder KvmStateError Segment :=
  (fun (base, limit, selector, type_, present, dpl, db, s, l, g, avl, unusable) =>
      { base, limit, selector, type_, present, dpl, db, s, l, g, avl, unusable })
    <$> (pair u64 <| pair u32 <| pair u16 <| pair u8 <| pair presence <| pair u8 <| pair presence <|
      pair presence <| pair presence <| pair presence <| pair presence presence)

def read : Decoder KvmStateError Segment :=
  refine fields fun segment => do
    segment.validate
    return segment

theorem fields_format : Exact fields write :=
  (u64_format.pair <| u32_format.pair <| u16_format.pair <| u8_format.pair <| presence_format.pair <|
    u8_format.pair <| presence_format.pair <| presence_format.pair <| presence_format.pair <|
    presence_format.pair <| presence_format.pair presence_format).ofTuple
    (fun s => (s.base, s.limit, s.selector, s.type_, s.present, s.dpl, s.db, s.s, s.l, s.g, s.avl,
      s.unusable))
    (fun _ => rfl) (fun _ => rfl) (by simp) (by simp [write])

theorem read_format : Format read write (fun segment => segment.validate = .ok ()) := by
  refine (fields_format.refineOn (fun segment => segment.validate = .ok ()) id ?_ ?_).congr
    (by simp) (fun _ _ => rfl)
  · intro segment h
    exact seq_eq_ok.mpr ⟨h, rfl⟩
  · intro segment segment' h
    obtain ⟨hvalid, hend⟩ := seq_eq_ok.mp h
    cases hend
    exact ⟨hvalid, rfl⟩

theorem length_write : segment.write.length = 23 := by
  simp [write]

end Segment

/-- A descriptor table register. -/
structure Dtable where
  base : U64
  limit : U16
deriving DecidableEq

namespace Dtable

def write (table : Dtable) : List UInt8 := putWord table.base ++ putWord table.limit

def read : Decoder KvmStateError Dtable := (fun (base, limit) => { base, limit }) <$> pair u64 u16

theorem read_format : Exact read write :=
  (u64_format.pair u16_format).ofTuple (fun t => (t.base, t.limit))
    (fun _ => rfl) (fun _ => rfl) (by simp) (fun _ => rfl)

theorem length_write (table : Dtable) : table.write.length = 10 := by
  simp [write]

end Dtable

/-- Segments and control registers. -/
structure Sregs where
  cs : Segment
  ds : Segment
  es : Segment
  fs : Segment
  gs : Segment
  ss : Segment
  tr : Segment
  ldt : Segment
  gdt : Dtable
  idt : Dtable
  cr0 : U64
  cr2 : U64
  cr3 : U64
  cr4 : U64
  cr8 : U64
  efer : U64
  apicBase : U64
  interruptBitmap : Tuple U64 4
deriving DecidableEq

namespace Sregs

variable (sregs : Sregs)

def segments : List Segment :=
  [sregs.cs, sregs.ds, sregs.es, sregs.fs, sregs.gs, sregs.ss, sregs.tr, sregs.ldt]

def validate : Except KvmStateError Unit :=
  sregs.segments.forM Segment.validate

def write : List UInt8 :=
  sregs.segments.flatMap Segment.write ++ (sregs.gdt.write ++ (sregs.idt.write
    ++ ([sregs.cr0, sregs.cr2, sregs.cr3, sregs.cr4, sregs.cr8, sregs.efer, sregs.apicBase].flatMap putWord
    ++ sregs.interruptBitmap.1.flatMap putWord)))

def read : Decoder KvmStateError Sregs :=
  (fun (cs, ds, es, fs, gs, ss, tr, ldt, gdt, idt, cr0, cr2, cr3, cr4, cr8, efer, apicBase, interruptBitmap) =>
      { cs, ds, es, fs, gs, ss, tr, ldt, gdt, idt, cr0, cr2, cr3, cr4, cr8, efer, apicBase, interruptBitmap })
    <$> (pair Segment.read <| pair Segment.read <| pair Segment.read <| pair Segment.read <|
      pair Segment.read <| pair Segment.read <| pair Segment.read <| pair Segment.read <|
      pair Dtable.read <| pair Dtable.read <| pair u64 <| pair u64 <| pair u64 <| pair u64 <| pair u64 <|
      pair u64 <| pair u64 <| fixed u64 4)

theorem read_format : Format read write (fun sregs => sregs.validate = .ok ()) :=
  (Segment.read_format.pair <| Segment.read_format.pair <| Segment.read_format.pair <|
    Segment.read_format.pair <| Segment.read_format.pair <| Segment.read_format.pair <|
    Segment.read_format.pair <| Segment.read_format.pair <| Dtable.read_format.pair <|
    Dtable.read_format.pair <| u64_format.pair <| u64_format.pair <| u64_format.pair <| u64_format.pair <|
    u64_format.pair <| u64_format.pair <| u64_format.pair <| u64_format.fixed 4).ofTuple
    (fun s => (s.cs, s.ds, s.es, s.fs, s.gs, s.ss, s.tr, s.ldt, s.gdt, s.idt, s.cr0, s.cr2, s.cr3, s.cr4,
      s.cr8, s.efer, s.apicBase, s.interruptBitmap))
    (fun _ => rfl) (fun _ => rfl)
    (fun sregs => by rw [validate, forM_eq_ok]; simp [segments]) (by simp [write, segments])

theorem length_write : sregs.write.length = 292 := by
  have hbitmap := length_flatMap_const (fun value : U64 => length_putWord value) sregs.interruptBitmap.1
  rw [sregs.interruptBitmap.2] at hbitmap
  simp [write, segments, Segment.length_write, Dtable.length_write, hbitmap]

end Sregs

/-! ## Floating point and extended state -/

def MAX_XCRS : ℕ := 16

def MIN_XSAVE_BYTES : ℕ := 4096

def MAX_XSAVE_BYTES : ℕ := 64 * 1024

/-- The legacy floating point state. -/
structure Fpu where
  fpr : Tuple (Bytes 16) 8
  fcw : U16
  fsw : U16
  ftwx : UInt8
  lastOpcode : U16
  lastIp : U64
  lastDp : U64
  xmm : Tuple (Bytes 16) 16
  mxcsr : U32
deriving DecidableEq

namespace Fpu

def write (fpu : Fpu) : List UInt8 :=
  fpu.fpr.1.flatMap Subtype.val ++ (putWord fpu.fcw ++ (putWord fpu.fsw ++ ([fpu.ftwx]
    ++ (putWord fpu.lastOpcode ++ (putWord fpu.lastIp ++ (putWord fpu.lastDp
    ++ (fpu.xmm.1.flatMap Subtype.val ++ putWord fpu.mxcsr)))))))

def read : Decoder KvmStateError Fpu :=
  (fun (fpr, fcw, fsw, ftwx, lastOpcode, lastIp, lastDp, xmm, mxcsr) =>
      { fpr, fcw, fsw, ftwx, lastOpcode, lastIp, lastDp, xmm, mxcsr })
    <$> (pair (fixed (bytes 16) 8) <| pair u16 <| pair u16 <| pair u8 <| pair u16 <| pair u64 <|
      pair u64 <| pair (fixed (bytes 16) 16) u32)

theorem read_format : Exact read write :=
  (((bytes_format 16).fixed 8).pair <| u16_format.pair <| u16_format.pair <| u8_format.pair <|
    u16_format.pair <| u64_format.pair <| u64_format.pair <|
    ((bytes_format 16).fixed 16).pair u32_format).ofTuple
    (fun f => (f.fpr, f.fcw, f.fsw, f.ftwx, f.lastOpcode, f.lastIp, f.lastDp, f.xmm, f.mxcsr))
    (fun _ => rfl) (fun _ => rfl) (by simp) (fun _ => rfl)

theorem length_write (fpu : Fpu) : fpu.write.length = 411 := by
  have hregister : ∀ register : Bytes 16, register.1.length = 16 := Subtype.property
  have hfpr := length_flatMap_const hregister fpu.fpr.1
  have hxmm := length_flatMap_const hregister fpu.xmm.1
  rw [fpu.fpr.2] at hfpr
  rw [fpu.xmm.2] at hxmm
  simp only [write, List.length_append, hfpr, hxmm, length_putWord, List.length_singleton]

end Fpu

structure XcrEntry where
  index : U32
  value : U64
deriving DecidableEq

namespace XcrEntry

def write (entry : XcrEntry) : List UInt8 := putWord entry.index ++ putWord entry.value

def read : Decoder KvmStateError XcrEntry := (fun (index, value) => { index, value }) <$> pair u32 u64

theorem read_format : Exact read write :=
  (u32_format.pair u64_format).ofTuple (fun e => (e.index, e.value))
    (fun _ => rfl) (fun _ => rfl) (by simp) (fun _ => rfl)

theorem length_write (entry : XcrEntry) : entry.write.length = 12 := by
  simp [write]

end XcrEntry

namespace Xcrs

def check (entries : List XcrEntry) : Except KvmStateError Unit := do
  atMostEntries "xcrs" MAX_XCRS entries.length
  distinct (fun e entry => e.index = entry.index)
    (fun entry => .duplicateEntry "xcrs" entry.index.toNat) entries

theorem length_le {entries : List XcrEntry} (h : check entries = .ok ()) : entries.length ≤ MAX_XCRS :=
  ensure_eq_ok.mp (seq_eq_ok.mp h).1

end Xcrs

/-- The extended control registers. -/
structure Xcrs where
  flags : U32
  entries : Valid Xcrs.check
deriving DecidableEq

namespace Xcrs

def write (xcrs : Xcrs) : List UInt8 :=
  putWord xcrs.flags ++ (putLength (255 : BitVec 8) xcrs.entries.1.length
    ++ xcrs.entries.1.flatMap XcrEntry.write)

/-- The entries behind their one-byte count. -/
def readEntries : Decoder KvmStateError (List XcrEntry) :=
  atMost (.tooManyEntries "xcrs" ·) MAX_XCRS (word truncated 8) >>= fun n => many XcrEntry.read n.1

def read : Decoder KvmStateError Xcrs :=
  (fun (flags, entries) => { flags, entries }) <$> pair u32 (refine readEntries (validate check))

theorem read_format : Exact read write := by
  have hcount : Exact (word truncated 8 : Decoder KvmStateError _) putWord :=
    Format.word _ (by decide)
  have hentries : Format readEntries _ _ :=
    Format.bounded 255 (by decide : MAX_XCRS < 2 ^ 8) hcount XcrEntry.read_format
  refine (u32_format.pair (hentries.refine Subtype.val validate_val fun _ _ h => val_of_validate h)).ofTuple
    (fun x => (x.flags, x.entries)) (fun _ => rfl) (fun _ => rfl) ?_ (fun _ => rfl)
  intro xcrs
  simp [length_le xcrs.entries.2]

theorem length_write (xcrs : Xcrs) : xcrs.write.length ≤ 5 + 16 * 12 := by
  have hlength : xcrs.entries.1.length ≤ 16 := length_le xcrs.entries.2
  simp only [write, List.length_append, length_putWord, length_putLength,
    length_flatMap_const XcrEntry.length_write]
  omega

end Xcrs

namespace XsaveArea

def check (bytes : List UInt8) : Except KvmStateError Unit :=
  ensure (MIN_XSAVE_BYTES ≤ bytes.length ∧ bytes.length ≤ MAX_XSAVE_BYTES ∧ bytes.length % 4 = 0)
    (.invalidField "xsave.len" bytes.length)

variable (area : Valid check)

def write : List UInt8 :=
  putLength (BitVec.ofNat 32 MAX_XSAVE_BYTES) area.1.length ++ area.1

def read : Decoder KvmStateError (Valid check) :=
  refine (boundedU32 MAX_XSAVE_BYTES) (validate check)

theorem length_le : area.1.length ≤ MAX_XSAVE_BYTES :=
  (ensure_eq_ok.mp area.2).2.1

theorem read_format : Exact read write :=
  ((boundedU32_format _ (by decide)).refine Subtype.val validate_val (fun _ _ h => val_of_validate h)).congr
    (fun area => by simp [length_le area]) (fun _ _ => rfl)

theorem length_write : (write area).length ≤ 4 + 65536 := by
  have hlength : area.1.length ≤ 65536 := length_le area
  rw [write, List.length_append, length_putLength]
  omega

end XsaveArea

abbrev XsaveArea := Valid XsaveArea.check

/-! ## Interrupts and events -/

def LAPIC_LEN : ℕ := 1024

abbrev LapicState := Bytes LAPIC_LEN

/-- Whether the vCPU runs. -/
inductive MpState where
  | runnable
  | uninitialized
  | initReceived
  | halted
  | sipiReceived
deriving DecidableEq

namespace MpState

def code : MpState → U32
  | runnable => 0
  | uninitialized => 1
  | initReceived => 2
  | halted => 3
  | sipiReceived => 4

def fromCode (code : U32) : Except KvmStateError MpState :=
  match code with
  | 0#32 => .ok runnable
  | 1#32 => .ok uninitialized
  | 2#32 => .ok initReceived
  | 3#32 => .ok halted
  | 4#32 => .ok sipiReceived
  | code => .error (.unknownCode "mp_state" code.toNat)

def write (state : MpState) : List UInt8 := putWord state.code

def read : Decoder KvmStateError MpState := refine u32 fromCode

theorem read_format : Exact read write := by
  refine u32_format.refine code ?_ ?_
  · intro state
    cases state <;> rfl
  · intro value state h
    unfold fromCode at h
    split at h <;> cases h <;> rfl

theorem length_write (state : MpState) : state.write.length = 4 :=
  length_putWord _

end MpState

structure ExceptionEvent where
  injected : Bool
  nr : UInt8
  hasErrorCode : Bool
  pending : Bool
  errorCode : U32
deriving DecidableEq

structure InterruptEvent where
  injected : Bool
  nr : UInt8
  soft : Bool
  shadow : UInt8
deriving DecidableEq

structure NmiEvent where
  injected : Bool
  pending : Bool
  masked : Bool
deriving DecidableEq

structure SmiEvent where
  smm : Bool
  pending : Bool
  smmInsideNmi : Bool
  latchedInit : UInt8
deriving DecidableEq

/-- The events that are pending. -/
structure VcpuEvents where
  exception : ExceptionEvent
  interrupt : InterruptEvent
  nmi : NmiEvent
  sipiVector : U32
  flags : U32
  smi : SmiEvent
  tripleFaultPending : Bool
  exceptionHasPayload : Bool
  exceptionPayload : U64
deriving DecidableEq

namespace VcpuEvents

def write (events : VcpuEvents) : List UInt8 :=
  putFlag events.exception.injected ++ ([events.exception.nr] ++ (putFlag events.exception.hasErrorCode
    ++ (putFlag events.exception.pending ++ (putWord events.exception.errorCode
    ++ (putFlag events.interrupt.injected ++ ([events.interrupt.nr] ++ (putFlag events.interrupt.soft
    ++ ([events.interrupt.shadow] ++ (putFlag events.nmi.injected ++ (putFlag events.nmi.pending
    ++ (putFlag events.nmi.masked ++ (putWord events.sipiVector ++ (putWord events.flags
    ++ (putFlag events.smi.smm ++ (putFlag events.smi.pending ++ (putFlag events.smi.smmInsideNmi
    ++ ([events.smi.latchedInit] ++ (putFlag events.tripleFaultPending
    ++ (putFlag events.exceptionHasPayload ++ putWord events.exceptionPayload)))))))))))))))))))

def read : Decoder KvmStateError VcpuEvents :=
  (fun (exceptionInjected, exceptionNr, hasErrorCode, exceptionPending, errorCode, interruptInjected,
      interruptNr, soft, shadow, nmiInjected, nmiPending, masked, sipiVector, flags, smm, smiPending,
      smmInsideNmi, latchedInit, tripleFaultPending, exceptionHasPayload, exceptionPayload) =>
      { exception := ⟨exceptionInjected, exceptionNr, hasErrorCode, exceptionPending, errorCode⟩
        interrupt := ⟨interruptInjected, interruptNr, soft, shadow⟩
        nmi := ⟨nmiInjected, nmiPending, masked⟩
        smi := ⟨smm, smiPending, smmInsideNmi, latchedInit⟩
        sipiVector, flags, tripleFaultPending, exceptionHasPayload, exceptionPayload })
    <$> (pair presence <| pair u8 <| pair presence <| pair presence <| pair u32 <| pair presence <|
      pair u8 <| pair presence <| pair u8 <| pair presence <| pair presence <| pair presence <| pair u32 <|
      pair u32 <| pair presence <| pair presence <| pair presence <| pair u8 <| pair presence <|
      pair presence u64)

theorem read_format : Exact read write :=
  (presence_format.pair <| u8_format.pair <| presence_format.pair <| presence_format.pair <|
    u32_format.pair <| presence_format.pair <| u8_format.pair <| presence_format.pair <| u8_format.pair <|
    presence_format.pair <| presence_format.pair <| presence_format.pair <| u32_format.pair <|
    u32_format.pair <| presence_format.pair <| presence_format.pair <| presence_format.pair <|
    u8_format.pair <| presence_format.pair <| presence_format.pair u64_format).ofTuple
    (fun e => (e.exception.injected, e.exception.nr, e.exception.hasErrorCode, e.exception.pending,
      e.exception.errorCode, e.interrupt.injected, e.interrupt.nr, e.interrupt.soft, e.interrupt.shadow,
      e.nmi.injected, e.nmi.pending, e.nmi.masked, e.sipiVector, e.flags, e.smi.smm, e.smi.pending,
      e.smi.smmInsideNmi, e.smi.latchedInit, e.tripleFaultPending, e.exceptionHasPayload,
      e.exceptionPayload))
    (fun _ => rfl) (fun _ => rfl) (by simp) (fun _ => rfl)

theorem length_write (events : VcpuEvents) : events.write.length = 37 := by
  simp [write]

end VcpuEvents

/-! ## Nested state -/

def NESTED_BLOB_LEN : ℕ := 4096

/-- The state of nested guests. -/
inductive NestedState where
  | vmx (flags : U16) (vmxonPa vmcs12Pa : U64) (smmFlags : U16) (hdrFlags : U32)
      (preemptionTimerDeadline : U64) (vmcs12 shadowVmcs12 : Bytes NESTED_BLOB_LEN)
  | svm (flags : U16) (vmcbPa : U64) (vmcb12 : Bytes NESTED_BLOB_LEN)
deriving DecidableEq

namespace NestedState

def FORMAT_VMX : UInt8 := 0

def FORMAT_SVM : UInt8 := 1

def format : NestedState → UInt8
  | vmx .. => FORMAT_VMX
  | svm .. => FORMAT_SVM

def body : NestedState → List UInt8
  | vmx flags vmxonPa vmcs12Pa smmFlags hdrFlags preemptionTimerDeadline vmcs12 shadowVmcs12 =>
    putWord flags ++ (putWord vmxonPa ++ (putWord vmcs12Pa ++ (putWord smmFlags ++ (putWord hdrFlags
      ++ (putWord preemptionTimerDeadline ++ (vmcs12.1 ++ shadowVmcs12.1))))))
  | svm flags vmcbPa vmcb12 => putWord flags ++ (putWord vmcbPa ++ vmcb12.1)

variable (state : NestedState)

def write : List UInt8 := state.format :: state.body

def readBlob : Decoder KvmStateError (Bytes NESTED_BLOB_LEN) := bytes NESTED_BLOB_LEN

/-- The fields of the selected format. -/
def readBody (format : UInt8) : Decoder KvmStateError NestedState :=
  if format = FORMAT_VMX then
    (fun (flags, vmxonPa, vmcs12Pa, smmFlags, hdrFlags, deadline, vmcs12, shadowVmcs12) =>
        vmx flags vmxonPa vmcs12Pa smmFlags hdrFlags deadline vmcs12 shadowVmcs12)
      <$> (pair u16 <| pair u64 <| pair u64 <| pair u16 <| pair u32 <| pair u64 <| pair readBlob readBlob)
  else if format = FORMAT_SVM then
    (fun (flags, vmcbPa, vmcb12) => svm flags vmcbPa vmcb12) <$> (pair u16 <| pair u64 readBlob)
  else
    fail (.unknownCode "nested.format" format.toNat)

def read : Decoder KvmStateError NestedState := u8 >>= readBody

theorem format_eq : state.format = FORMAT_VMX ∨ state.format = FORMAT_SVM := by
  cases state with
  | vmx => exact .inl rfl
  | svm => exact .inr rfl

theorem read_format : Exact read write := by
  suffices hbody : ∀ tag, Format (readBody tag) body (fun state => state.format = tag ∧ True) from
    (u8_format.tagged format hbody).congr (fun _ => Iff.rfl) (fun _ _ => rfl)
  intro tag
  unfold readBody
  split_ifs with hvmx hsvm
  · refine (u16_format.pair <| u64_format.pair <| u64_format.pair <| u16_format.pair <| u32_format.pair <|
      u64_format.pair <| (bytes_format _).pair (bytes_format _)).map _ (fun _ => rfl) ?_
    intro state
    cases state <;> simp [format, hvmx, FORMAT_VMX, FORMAT_SVM]
  · refine (u16_format.pair <| u64_format.pair (bytes_format _)).map _ (fun _ => rfl) ?_
    intro state
    cases state <;> simp [format, hsvm, FORMAT_VMX, FORMAT_SVM]
  · refine (Format.fail _).congr ?_ (fun _ _ => rfl)
    intro state
    refine ⟨False.elim, fun h => ?_⟩
    rw [← h.1] at hvmx hsvm
    exact state.format_eq.elim hvmx hsvm

theorem length_write : state.write.length ≤ 8225 := by
  cases state with
  | vmx flags vmxonPa vmcs12Pa smmFlags hdrFlags deadline vmcs12 shadowVmcs12 =>
    simp [write, body, vmcs12.2, shadowVmcs12.2, NESTED_BLOB_LEN]
  | svm flags vmcbPa vmcb12 => simp [write, body, vmcb12.2, NESTED_BLOB_LEN]

end NestedState

/-! ## The whole vCPU -/

/-- Everything of one vCPU. -/
structure VcpuState where
  cpuid : CpuidEntries
  msrs : MsrEntries
  regs : Regs
  sregs : Sregs
  fpu : Fpu
  xcrs : Xcrs
  xsave : XsaveArea
  lapic : LapicState
  mpState : MpState
  events : VcpuEvents
  nested : Option NestedState
deriving DecidableEq

namespace VcpuState

/-- Accepts the parts of a state whose segments are valid. -/
def new (parts : VcpuState) : Except KvmStateError VcpuState := do
  parts.sregs.validate
  return parts

def encode (state : VcpuState) : List UInt8 :=
  CpuidEntries.write state.cpuid ++ (MsrEntries.write state.msrs ++ (state.regs.write
    ++ (state.sregs.write ++ (state.fpu.write ++ (state.xcrs.write ++ (XsaveArea.write state.xsave
    ++ (state.lapic.1 ++ (state.mpState.write ++ (state.events.write
    ++ (putFlag state.nested.isSome ++ state.nested.elim [] NestedState.write))))))))))

def fields : Decoder KvmStateError VcpuState :=
  (fun (cpuid, msrs, regs, sregs, fpu, xcrs, xsave, lapic, mpState, events, nested) =>
      { cpuid, msrs, regs, sregs, fpu, xcrs, xsave, lapic, mpState, events, nested })
    <$> (pair CpuidEntries.read <| pair MsrEntries.read <| pair Regs.read <| pair Sregs.read <|
      pair Fpu.read <| pair Xcrs.read <| pair XsaveArea.read <| pair (bytes LAPIC_LEN) <|
      pair MpState.read <| pair VcpuEvents.read <| optional presence NestedState.read)

def decode (bytes : List UInt8) : Except KvmStateError VcpuState := whole trailing fields bytes

theorem fields_format : Format fields encode (fun state => state.sregs.validate = .ok ()) :=
  (CpuidEntries.read_format.pair <| MsrEntries.read_format.pair <| Regs.read_format.pair <|
    Sregs.read_format.pair <| Fpu.read_format.pair <| Xcrs.read_format.pair <|
    XsaveArea.read_format.pair <| (bytes_format _).pair <| MpState.read_format.pair <|
    VcpuEvents.read_format.pair <| presence_format.optional NestedState.read_format).ofTuple
    (fun s => (s.cpuid, s.msrs, s.regs, s.sregs, s.fpu, s.xcrs, s.xsave, s.lapic, s.mpState, s.events,
      s.nested))
    (fun _ => rfl) (fun _ => rfl) (by simp) (fun _ => rfl)

theorem decode_eq_ok {bytes : List UInt8} {state : VcpuState} :
    decode bytes = .ok state ↔ state.sregs.validate = .ok () ∧ bytes = state.encode :=
  fields_format.whole_eq_ok

theorem new_eq_ok {parts state : VcpuState} :
    new parts = .ok state ↔ state.sregs.validate = .ok () ∧ parts = state := by
  rw [new, seq_eq_ok]
  constructor
  · rintro ⟨hvalid, h⟩
    cases h
    exact ⟨hvalid, rfl⟩
  · rintro ⟨hvalid, rfl⟩
    exact ⟨hvalid, rfl⟩

theorem length_encode (state : VcpuState) : state.encode.length ≤ 2 ^ 20 := by
  have hcpuid := CpuidEntries.length_write state.cpuid
  have hmsrs := MsrEntries.length_write state.msrs
  have hxcrs := state.xcrs.length_write
  have hxsave := XsaveArea.length_write state.xsave
  have hlapic : state.lapic.1.length = 1024 := state.lapic.2
  have hnested : (state.nested.elim [] NestedState.write).length ≤ 8225 := by
    cases state.nested with
    | none => simp
    | some nested => exact nested.length_write
  simp only [encode, List.length_append, Regs.length_write, Sregs.length_write, Fpu.length_write,
    MpState.length_write, VcpuEvents.length_write, length_putFlag, hlapic]
  omega

end VcpuState

end Soma.Kvm.Snapshot
