import Soma.Lib.Codec
import Soma.Lib.Text

/-! # Wire primitives

The big-endian writer and the bounds-checked reader of locks. The writer cannot fail: a length that
does not fit its prefix is clamped. The reader compares every length with a bound first, and each
primitive is a format for the values within its bound.
-/

namespace Soma.Template

open Soma.Lib Soma.Codec Soma.Text

inductive WireError where
  | shortInput (needed available : ℕ)
  | invalidPresence (byte : UInt8)
  | lengthExceedsBound (length bound : ℕ)
  | invalidUtf8
  | trailingBytes (count : ℕ)
deriving DecidableEq

/-- Why bytes were not accepted as a lock. -/
inductive LockError where
  | badMagic
  | unsupportedLockSchema (version : U16)
  | unsupportedTemplateSchema (schema : String)
  | wire (error : WireError)
  | invalidDiscriminant (field : String) (value : UInt8)
  | invalidField (field : String)
deriving DecidableEq

/-- SHA-256, of which only the length of a digest is used. -/
class Sha256 where
  digest : List UInt8 → Bytes 32

/-! ## Writer -/

namespace Writer

def putPresence (present : Bool) : List UInt8 :=
  [if present then 1 else 0]

/-- A length prefix and the bytes; an impossible overflow saturates. -/
def putString (value : String) : List UInt8 :=
  putWord (BitVec.ofNat 32 (min value.utf8ByteSize (2 ^ 32 - 1))) ++ bytes value

def putOptional {α : Type} (put : α → List UInt8) (value : Option α) : List UInt8 :=
  putPresence value.isSome ++ value.elim [] put

def putOptionalString (value : Option String) : List UInt8 :=
  putOptional putString value

def putCount (count : ℕ) : List UInt8 :=
  putWord (BitVec.ofNat 16 (min count (2 ^ 16 - 1)))

def putList {α : Type} (put : α → List UInt8) (values : List α) : List UInt8 :=
  putCount values.length ++ values.flatMap put

def putStrings (values : List String) : List UInt8 :=
  putList putString values

end Writer

/-! ## Reader -/

abbrev Reader (α : Type) := Decoder LockError α

namespace Reader

def short (needed available : ℕ) : LockError :=
  .wire (.shortInput needed available)

def u8 : Reader UInt8 := byte short
def u16 : Reader U16 := word short 16
def u32 : Reader U32 := word short 32
def u64 : Reader U64 := word short 64

/-- A byte that must be zero or one. -/
def presence : Reader Bool :=
  refine u8 fun
    | 0 => .ok false
    | 1 => .ok true
    | other => .error (.wire (.invalidPresence other))

variable (bound : ℕ)

def count : Reader ℕ :=
  refine u16 fun value =>
    if bound < value.toNat then .error (.wire (.lengthExceedsBound value.toNat bound))
    else .ok value.toNat

/-- A length within a bound and that many bytes. -/
def bounded : Reader (List UInt8) := do
  let length ← refine u32 fun value =>
    if bound < value.toNat then .error (.wire (.lengthExceedsBound value.toNat bound))
    else .ok value.toNat
  take short length

def string : Reader String :=
  refine (bounded bound) fun value => okOr (ofBytes value) (.wire .invalidUtf8)

def optionalString : Reader (Option String) :=
  optional presence (string bound)

def strings (countBound stringBound : ℕ) : Reader (List String) :=
  count countBound >>= many (string stringBound)

/-- Refuses what is left unread. -/
def finish (rest : List UInt8) : Except LockError Unit :=
  if rest.length = 0 then .ok () else .error (.wire (.trailingBytes rest.length))

end Reader

/-! ## The primitives are formats -/

open Reader Writer

theorem u8_format : Exact u8 (fun b => [b]) := Format.byte short
theorem u16_format : Exact u16 putWord := Format.word short (by decide)
theorem u32_format : Exact u32 putWord := Format.word short (by decide)
theorem u64_format : Exact u64 putWord := Format.word short (by decide)

theorem presence_format : Exact presence putPresence :=
  Format.flag short fun other => .wire (.invalidPresence other)

variable {bound : ℕ}

theorem count_format (hbound : bound < 2 ^ 16) : Format (count bound) putCount (· ≤ bound) := by
  refine (u16_format.upTo (fun n => .wire (.lengthExceedsBound n bound)) hbound).congr (fun _ => Iff.rfl) ?_
  intro n hn
  rw [putCount, min_eq_left (by omega)]

theorem bounded_format (hbound : bound < 2 ^ 32) :
    Format (bounded bound) (fun value => putWord (BitVec.ofNat 32 value.length) ++ value)
      (fun value => value.length ≤ bound) := by
  refine ((u32_format.upTo (fun n => .wire (.lengthExceedsBound n bound)) hbound).bind List.length
    (fun length _ => Format.take short length) (fun _ _ h => h)).congr ?_ (fun _ _ => rfl)
  intro value
  exact and_iff_left rfl

theorem string_format (hbound : bound < 2 ^ 32) :
    Format (string bound) putString (fun value => value.utf8ByteSize ≤ bound) := by
  refine ((bounded_format hbound).refine bytes ?_ ?_).congr ?_ ?_
  · intro value
    rw [ofBytes_bytes]
    rfl
  · intro value text h
    exact bytes_of_ofBytes (okOr_eq_ok.mp h)
  · intro value
    rw [length_bytes]
  · intro value hvalue
    rw [length_bytes] at hvalue ⊢
    rw [putString, min_eq_left (by omega)]

theorem optionalString_format (hbound : bound < 2 ^ 32) :
    Format (optionalString bound) putOptionalString
      (fun value => ∀ text ∈ value, text.utf8ByteSize ≤ bound) :=
  presence_format.optional (string_format hbound)

theorem list_format {α : Type} {d : Reader α} {put : α → List UInt8} {ok : α → Prop}
    (hbound : bound < 2 ^ 16) (hd : Format d put ok) :
    Format (count bound >>= many d) (putList put)
      (fun values => values.length ≤ bound ∧ ∀ value ∈ values, ok value) :=
  (count_format hbound).counted hd

theorem strings_format {countBound stringBound : ℕ} (hcount : countBound < 2 ^ 16)
    (hstring : stringBound < 2 ^ 32) :
    Format (strings countBound stringBound) putStrings (fun values => values.length ≤ countBound
      ∧ ∀ value ∈ values, value.utf8ByteSize ≤ stringBound) :=
  list_format hcount (string_format hstring)

theorem finish_eq_ok {rest : List UInt8} : finish rest = .ok () ↔ rest = [] := by
  rw [← List.length_eq_zero_iff]
  unfold finish
  split_ifs with h
  · simp [h]
  · simp [h]

end Soma.Template
