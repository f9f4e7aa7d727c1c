import Soma.Lib.Codec

/-! # Wire primitives of snapshot state

Big-endian fields in fixed order. The writer cannot fail: a count that does not fit its word is replaced
by a fixed one. The reader compares every count with its bound, and each primitive is a format; the
decoders of sections, headers and devices report a wire failure as one of their own errors (`FromWire`).
-/

namespace Soma.Kvm.Snapshot

open Soma.Lib Soma.Codec

/-- Why bytes do not decode. -/
inductive WireError where
  | truncated (needed available : ℕ)
  | invalidPresence (byte : UInt8)
  | lengthExceedsBound (length bound : ℕ)
  | trailingBytes (count : ℕ)
deriving DecidableEq

/-- Errors a wire error is one of. -/
class FromWire (ε : Type) where
  wire : WireError → ε

namespace Reader

variable {ε α : Type} [FromWire ε]

def truncated (needed available : ℕ) : ε :=
  FromWire.wire (.truncated needed available)

def trailing (count : ℕ) : ε :=
  FromWire.wire (.trailingBytes count)

def exceeds (bound length : ℕ) : ε :=
  FromWire.wire (.lengthExceedsBound length bound)

def bytes (n : ℕ) : Decoder ε (Bytes n) := array truncated n

def u8 : Decoder ε UInt8 := byte truncated

def u16 : Decoder ε U16 := word truncated 16

def u32 : Decoder ε U32 := word truncated 32

def u64 : Decoder ε U64 := word truncated 64

/-- A two's complement word, kept as its bits. -/
def i64 : Decoder ε U64 := u64

def presence : Decoder ε Bool :=
  flag truncated fun other => FromWire.wire (.invalidPresence other)

variable (bound : ℕ)

def countU16 : Decoder ε { n : ℕ // n ≤ bound } := atMost (exceeds bound) bound u16

def lengthU32 : Decoder ε { n : ℕ // n ≤ bound } := atMost (exceeds bound) bound u32

def boundedU32 : Decoder ε (List UInt8) :=
  lengthU32 bound >>= fun n => take truncated n.1

def listU16 (d : Decoder ε α) : Decoder ε (List α) :=
  countU16 bound >>= fun n => many d n.1

/-! ## The primitives are formats -/

theorem bytes_format (n : ℕ) : Exact (bytes n : Decoder ε _) Subtype.val :=
  Format.array _ n

theorem u8_format : Exact (u8 : Decoder ε _) (fun b => [b]) := Format.byte _

theorem u16_format : Exact (u16 : Decoder ε _) putWord := Format.word _ (by decide)

theorem u32_format : Exact (u32 : Decoder ε _) putWord := Format.word _ (by decide)

theorem u64_format : Exact (u64 : Decoder ε _) putWord := Format.word _ (by decide)

theorem i64_format : Exact (i64 : Decoder ε _) putWord := u64_format

theorem presence_format : Exact (presence : Decoder ε _) putFlag := Format.flag _ _

theorem boundedU32_format {bound : ℕ} (other : U32) (hbound : bound < 2 ^ 32) :
    Format (boundedU32 bound : Decoder ε _) (fun bs => putLength other bs.length ++ bs)
      (fun bs => bs.length ≤ bound) :=
  Format.boundedBytes other hbound u32_format truncated

theorem listU16_format {bound : ℕ} (other : U16) (hbound : bound < 2 ^ 16) {d : Decoder ε α}
    {enc : α → List UInt8} {ok : α → Prop} (h : Format d enc ok) :
    Format (listU16 bound d) (fun xs => putLength other xs.length ++ xs.flatMap enc)
      (fun xs => xs.length ≤ bound ∧ ∀ x ∈ xs, ok x) :=
  Format.bounded other hbound u16_format h

end Reader

end Soma.Kvm.Snapshot
