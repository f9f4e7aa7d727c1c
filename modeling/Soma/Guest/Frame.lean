import Soma.Lib.Codec

/-! # Guest messages

The frame that carries one application message in one encrypted record, and the body of a filesystem
outcome. A record bounds the frame by bytes: `encode` refuses a body that does not fit.
-/

namespace Soma.Guest

open Soma.Codec

/-! ## Records -/

def NOISE_MESSAGE_MAX : ℕ := 65535

def AEAD_TAG : ℕ := 16

def INNER_HEADER : ℕ := 10

def MAX_RECORD_PAYLOAD : ℕ := NOISE_MESSAGE_MAX - AEAD_TAG - INNER_HEADER

/-! ## Frames -/

namespace Frame

def MAGIC : List UInt8 := [0x53, 0x4f, 0x4d, 0x41]

def VERSION : U16 := 1

def HEADER_SIZE : ℕ := 28

/-- The kind of a message. -/
inductive Kind where
  | prepare | execute | shutdown | file | pty
  | repairComplete | stdout | stderr | terminal | shutdownAck | fileOutcome | ptyOutcome
deriving DecidableEq

def Kind.code : Kind → UInt8
  | .prepare => 1
  | .execute => 2
  | .shutdown => 3
  | .file => 4
  | .pty => 5
  | .repairComplete => 129
  | .stdout => 130
  | .stderr => 131
  | .terminal => 132
  | .shutdownAck => 133
  | .fileOutcome => 134
  | .ptyOutcome => 135

/-- The identity of one exchange; the all-zero value is reserved. -/
abbrev OperationId := { id : Bytes 16 // id.1 ≠ List.replicate 16 0 }

inductive Error where
  | applicationMessageTooLarge
deriving DecidableEq

/-- A message with its header. -/
def encode (kind : Kind) (operation : OperationId) (body : List UInt8) : Except Error (List UInt8) :=
  if MAX_RECORD_PAYLOAD < HEADER_SIZE + body.length then .error .applicationMessageTooLarge
  else if 2 ^ 16 ≤ body.length then .error .applicationMessageTooLarge
  else .ok (MAGIC ++ putWord VERSION ++ [kind.code, 0] ++ putWord (0 : U16) ++ operation.1.1
    ++ putWord (BitVec.ofNat 16 body.length) ++ body)

theorem encode_length {kind : Kind} {operation : OperationId} {body bytes : List UInt8}
    (h : encode kind operation body = .ok bytes) : bytes.length = HEADER_SIZE + body.length := by
  unfold encode at h
  split_ifs at h
  cases h
  simp [MAGIC, putWord, toBytes_length, operation.1.2, HEADER_SIZE]
  omega

/-- The record bound is the only one that matters: a body that fits a record has a 16-bit length. -/
theorem encode_isOk (kind : Kind) (operation : OperationId) (body : List UInt8) :
    (encode kind operation body).isOk ↔ HEADER_SIZE + body.length ≤ MAX_RECORD_PAYLOAD := by
  unfold encode
  split_ifs with hrecord hlength
  · simp [Except.isOk, Except.toBool, hrecord]
  · simp only [HEADER_SIZE, MAX_RECORD_PAYLOAD, NOISE_MESSAGE_MAX, AEAD_TAG, INNER_HEADER] at hrecord
    omega
  · simp only [Except.isOk, Except.toBool, true_iff]
    omega

end Frame

/-! ## Filesystem outcomes -/

def MAX_PATH_BYTES : ℕ := 4096

def MAX_ENTRIES : ℕ := 1024

/-- Bytes short enough for the 16-bit length that precedes them. -/
abbrev Field := { bytes : List UInt8 // bytes.length < 2 ^ 16 }

def putField (field : Field) : List UInt8 := putWord (BitVec.ofNat 16 field.1.length) ++ field.1

theorem putField_length (field : Field) : (putField field).length = 2 + field.1.length := by
  simp [putField, putWord, toBytes_length]

inductive EntryKind where
  | file | directory | other
deriving DecidableEq

def EntryKind.code : EntryKind → UInt8
  | .file => 1
  | .directory => 2
  | .other => 3

structure DirectoryEntry where
  name : Field
  kind : EntryKind
deriving DecidableEq

/-- Why a file operation failed. -/
inductive FileFailure where
  | notFound | denied | wrongKind | exists_ | notEmpty | failed
deriving DecidableEq

def FileFailure.code : FileFailure → UInt8
  | .notFound => 1
  | .denied => 2
  | .wrongKind => 3
  | .exists_ => 4
  | .notEmpty => 5
  | .failed => 6

/-- The answer to a file request. -/
inductive FileOutcome where
  | read (bytes : Field) (atEnd : Bool)
  | written (bytes : U64)
  | listed (entries : List DirectoryEntry) (more : Bool)
  | status (kind : Option EntryKind)
  | done
  | failed (failure : FileFailure)
deriving DecidableEq

variable (entry : DirectoryEntry)

def DirectoryEntry.encode : List UInt8 :=
  entry.kind.code :: putField entry.name

def flagByte (flag : Bool) : UInt8 := if flag then 1 else 0

def FileOutcome.encodeBody : FileOutcome → List UInt8
  | .read bytes atEnd => [1, flagByte atEnd] ++ putField bytes
  | .written bytes => 2 :: putWord bytes
  | .listed entries more =>
    [3, flagByte more] ++ putWord (BitVec.ofNat 32 (min entries.length (2 ^ 32 - 1)))
      ++ entries.flatMap DirectoryEntry.encode
  | .status kind => [4, kind.elim 0 EntryKind.code]
  | .done => [5]
  | .failed failure => [6, failure.code]

/-- The bytes one entry takes in a listing. -/
def DirectoryEntry.size : ℕ := 3 + entry.name.1.length

theorem DirectoryEntry.encode_length : entry.encode.length = entry.size := by
  simp only [DirectoryEntry.encode, List.length_cons, putField_length, DirectoryEntry.size]
  omega

open DirectoryEntry

theorem listed_length (entries : List DirectoryEntry) (more : Bool) :
    (FileOutcome.listed entries more).encodeBody.length = 6 + (entries.map size).sum := by
  have hentries : (entries.flatMap encode).length
      = (entries.map size).sum := by
    simp [encode_length]
  simp [FileOutcome.encodeBody, putWord, toBytes_length, hentries]
  omega

/-- The message that answers a filesystem request. -/
def fileOutcomeMessage (operation : Frame.OperationId) (outcome : FileOutcome) :
    Except Frame.Error (List UInt8) :=
  Frame.encode .fileOutcome operation outcome.encodeBody

end Soma.Guest
