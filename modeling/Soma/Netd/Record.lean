import Soma.Netd.Intent

/-! # Ledger records

One durable assignment and its fixed layout. The reader checks the record's digest and profile
against the intent embedded in it, so an encoded record reads back exactly when it is consistent.
-/

namespace Soma.Netd

open Soma.Codec

variable (prims : Primitives)

/-- The digest of an intent over its canonical encoding. -/
def NetworkIntent.digest (intent : NetworkIntent) : IntentDigest :=
  prims.sha256 ("soma-netd-intent-v1\x00".toUTF8.toList ++ intent.encode)

/-- The fixed-size part of a record. -/
structure RecordHeader where
  bundle : BundleId
  generation : CleanupGeneration
  instance_ : InstanceId
  operation : OperationId
  owner : U32
  profile : ProfileDigest
  intentDigest : IntentDigest
  guestMac : Bytes 6
  leaseIndex : U32
  transitIndex : U32
  zone : ConntrackZone
  vsockCid : U32
  timeSampleNanos : U64
deriving DecidableEq

/-- One durable assignment: everything the kernel state must match later. -/
structure AssignmentRecord extends RecordHeader where
  intent : NetworkIntent
deriving DecidableEq

namespace AssignmentRecord

/-- The ASCII bytes of `SOMANETL`. -/
def MAGIC : List UInt8 := [0x53, 0x4f, 0x4d, 0x41, 0x4e, 0x45, 0x54, 0x4c]
def VERSION : U16 := 2
def HEADER : ℕ := 8 + 2 + 16 + 4 + 16 + 16 + 4 + 32 + 32 + 6 + 4 + 4 + 2 + 4 + 8 + 2
def MAX_ENCODED_INTENT : ℕ := 1 + 32 + 1 + 4 * MAX_DNS_SERVERS + 1 + 23 * MAX_PORT_PUBLICATIONS
def MAX_RECORD : ℕ := HEADER + MAX_ENCODED_INTENT

/-- Whether a replay carries the same operation, Instance and intent. -/
def replays (record other : AssignmentRecord) : Bool :=
  record.operation = other.operation ∧ record.instance_ = other.instance_
    ∧ record.owner = other.owner ∧ record.intentDigest = other.intentDigest
    ∧ record.vsockCid = other.vsockCid

end AssignmentRecord

/-! ## Encoding -/

def RecordHeader.encode (header : RecordHeader) : List UInt8 :=
  header.bundle.bytes.1 ++ putWord header.generation.value ++ header.instance_.bytes.1
    ++ header.operation.bytes.1 ++ putWord header.owner ++ header.profile.1
    ++ header.intentDigest.1 ++ header.guestMac.1 ++ putWord header.leaseIndex
    ++ putWord header.transitIndex ++ putWord header.zone.value ++ putWord header.vsockCid
    ++ putWord header.timeSampleNanos

/-- A length as a 16-bit word, clamped at the largest. -/
def clampU16 (n : ℕ) : U16 :=
  if n < 2 ^ 16 then BitVec.ofNat 16 n else BitVec.allOnes 16

variable (record : AssignmentRecord)

def AssignmentRecord.encode : List UInt8 :=
  MAGIC ++ putWord VERSION ++ record.toRecordHeader.encode
    ++ putWord (clampU16 record.intent.encode.length) ++ record.intent.encode

/-! ## Decoding -/

def corrupt (_ _ : ℕ) : Error :=
  .ledgerCorrupt

def idOf (kind : IdKind) (bytes : Bytes 16) : Except Error (FixedId kind) :=
  if h : bytes.1.any (· ≠ 0) then .ok ⟨bytes, h⟩ else .error .ledgerCorrupt

def nonZeroOf {w : ℕ} (value : BitVec w) : Except Error (NonZero w) :=
  if h : value ≠ 0 then .ok ⟨value, h⟩ else .error .ledgerCorrupt

def readHeader : Decoder Error RecordHeader := do
  let bundle ← refine (array corrupt 16) (idOf .bundle)
  let generation ← refine (word corrupt 32) nonZeroOf
  let instance_ ← refine (array corrupt 16) (idOf .instance_)
  let operation ← refine (array corrupt 16) (idOf .operation)
  let owner ← word corrupt 32
  let profile ← array corrupt 32
  let intentDigest ← array corrupt 32
  let guestMac ← array corrupt 6
  let leaseIndex ← word corrupt 32
  let transitIndex ← word corrupt 32
  let zone ← refine (word corrupt 16) nonZeroOf
  let vsockCid ← word corrupt 32
  let timeSampleNanos ← word corrupt 64
  return { bundle, generation, instance_, operation, owner, profile, intentDigest, guestMac,
           leaseIndex, transitIndex, zone, vsockCid, timeSampleNanos }

/-- Reads a record's version and fields and the declared length of its intent. -/
def readPreamble : Decoder Error (RecordHeader × U16) := do
  let version ← word corrupt 16
  if version ≠ AssignmentRecord.VERSION then fail .ledgerCorrupt
  else
    let header ← readHeader
    let intentLen ← word corrupt 16
    return (header, intentLen)

/-- Decodes one record; the embedded intent must match the record's digest and profile. -/
def AssignmentRecord.decode (bytes : List UInt8) : Except Error AssignmentRecord :=
  if bytes.length < HEADER ∨ MAX_RECORD < bytes.length ∨ bytes.take 8 ≠ MAGIC then
    .error .ledgerCorrupt
  else match readPreamble (bytes.drop 8) with
    | .error _ => .error .ledgerCorrupt
    | .ok ((header, intentLen), _) =>
      if bytes.length ≠ HEADER + intentLen.toNat then .error .ledgerCorrupt
      else match NetworkIntent.decode (bytes.drop HEADER) with
        | .error _ => .error .ledgerCorrupt
        | .ok intent =>
          if intent.digest prims ≠ header.intentDigest ∨ intent.profile ≠ header.profile then
            .error .ledgerCorrupt
          else .ok { header with intent }

/-! ## Reading back what was written -/

theorem idOf_format (kind : IdKind) : Exact (refine (array corrupt 16) (idOf kind))
    (fun id => id.bytes.1) := by
  refine (Format.array corrupt 16).refine FixedId.bytes ?_ ?_
  · intro id
    exact dif_pos id.nonzero
  · intro bytes id h
    unfold idOf at h
    split_ifs at h
    cases h
    rfl

theorem nonZeroOf_format {w : ℕ} (hw : 8 ∣ w) : Exact (refine (word corrupt w) nonZeroOf)
    (fun n => putWord n.value) := by
  refine (Format.word corrupt hw).refine NonZero.value ?_ ?_
  · intro n
    exact dif_pos n.nonzero
  · intro value n h
    unfold nonZeroOf at h
    split_ifs at h
    cases h
    rfl

theorem readHeader_format : Exact readHeader RecordHeader.encode := by
  have hword : Exact (word corrupt 32) putWord := Format.word corrupt (by decide)
  exact Format.record ((idOf_format .bundle).field RecordHeader.bundle fun _ =>
    (nonZeroOf_format (w := 32) (by decide)).field RecordHeader.generation fun _ =>
    (idOf_format .instance_).field RecordHeader.instance_ fun _ =>
    (idOf_format .operation).field RecordHeader.operation fun _ =>
    hword.field RecordHeader.owner fun _ =>
    (Format.array corrupt 32).field RecordHeader.profile fun _ =>
    (Format.array corrupt 32).field RecordHeader.intentDigest fun _ =>
    (Format.array corrupt 6).field RecordHeader.guestMac fun _ =>
    hword.field RecordHeader.leaseIndex fun _ =>
    hword.field RecordHeader.transitIndex fun _ =>
    (nonZeroOf_format (w := 16) (by decide)).field RecordHeader.zone fun _ =>
    hword.field RecordHeader.vsockCid fun _ =>
    (Format.word corrupt (w := 64) (by decide)).field RecordHeader.timeSampleNanos fun _ =>
    Format.done (by rintro ⟨⟩; grind)) (by simp) (by simp [RecordHeader.encode])

theorem readPreamble_format : Exact readPreamble
    (fun p => putWord AssignmentRecord.VERSION ++ p.1.encode ++ putWord p.2) :=
  Format.record ((Format.word corrupt (by decide)).checked (fun _ => AssignmentRecord.VERSION) fun _ _ =>
    readHeader_format.field Prod.fst fun _ =>
    (Format.word corrupt (by decide)).field Prod.snd fun _ => Format.done (by grind)) (by simp) (by simp)

theorem RecordHeader.encode_length (header : RecordHeader) : 
    header.encode.length = AssignmentRecord.HEADER - 12 := by
  simp [RecordHeader.encode, header.bundle.bytes.2, header.instance_.bytes.2,
    header.operation.bytes.2, header.profile.2, header.intentDigest.2, header.guestMac.2,
    AssignmentRecord.HEADER]

theorem encodePublication_length (publication : PortPublication) : (encodePublication publication).length = 23 := by
  simp [encodePublication, encodeBind]

theorem NetworkIntent.encode_length_le (intent : NetworkIntent) :
    intent.encode.length ≤ AssignmentRecord.MAX_ENCODED_INTENT := by
  have hr := intent.resolversBound
  have hp := intent.publicationsBound
  have hflat : (intent.publications.flatMap encodePublication).length
      = 23 * intent.publications.length := by
    simp [List.length_flatMap, encodePublication_length, mul_comm]
  have hres : (intent.resolvers.flatMap putWord).length = 4 * intent.resolvers.length := by
    simp [List.length_flatMap, mul_comm]
  simp only [NetworkIntent.encode, List.length_append, List.length_singleton, hflat, hres,
    intent.profile.2, AssignmentRecord.MAX_ENCODED_INTENT]
  omega

variable (record : AssignmentRecord)

/-- An assignment record agrees with the intent it embeds. -/
def AssignmentRecord.Consistent : Prop :=
  record.intent.digest prims = record.intentDigest ∧ record.intent.profile = record.profile

theorem AssignmentRecord.encode_length : record.encode.length = HEADER + record.intent.encode.length := by
  have hmagic : MAGIC.length = 8 := by decide
  simp only [encode, List.length_append, length_putWord, RecordHeader.encode_length, hmagic, HEADER]

theorem AssignmentRecord.take_encode : record.encode.take (MAX_RECORD + 1) = record.encode := by
  have hintent := record.intent.encode_length_le
  have hlen := record.encode_length
  have hmax : MAX_RECORD = HEADER + MAX_ENCODED_INTENT := rfl
  exact List.take_of_length_le (by omega)

theorem clampU16_toNat {n : ℕ} (h : n < 2 ^ 16) : (clampU16 n).toNat = n := by
  rw [clampU16, if_pos h, BitVec.toNat_ofNat, Nat.mod_eq_of_lt h]

theorem AssignmentRecord.readPreamble_encode :
    readPreamble (record.encode.drop 8) =
      .ok ((record.toRecordHeader, clampU16 record.intent.encode.length), record.intent.encode) := by
  have hmagic : MAGIC.length = 8 := by decide
  have hdrop : record.encode.drop 8 = (putWord VERSION ++ record.toRecordHeader.encode
      ++ putWord (clampU16 record.intent.encode.length)) ++ record.intent.encode := by
    simp only [encode, List.append_assoc]
    rw [← hmagic, List.drop_left']
    rfl
  rw [hdrop]
  exact readPreamble_format.complete
    (record.toRecordHeader, clampU16 record.intent.encode.length) record.intent.encode trivial

theorem AssignmentRecord.drop_encode : record.encode.drop HEADER = record.intent.encode := by
  have hmagic : MAGIC.length = 8 := by decide
  refine List.drop_left' ?_
  simp [RecordHeader.encode_length, hmagic, HEADER]

theorem AssignmentRecord.encode_injective : Function.Injective AssignmentRecord.encode := by
  intro record other h
  have hheader : readPreamble (record.encode.drop 8) = readPreamble (other.encode.drop 8) := by rw [h]
  have hintent : NetworkIntent.decode (record.encode.drop HEADER)
      = NetworkIntent.decode (other.encode.drop HEADER) := by rw [h]
  rw [readPreamble_encode, readPreamble_encode] at hheader
  rw [drop_encode, drop_encode, NetworkIntent.decode_encode, NetworkIntent.decode_encode] at hintent
  have hsame := congrArg (fun r : (RecordHeader × U16) × List UInt8 => r.1.1) (Except.ok.inj hheader)
  obtain ⟨header, intent⟩ := record
  obtain ⟨header', intent'⟩ := other
  obtain rfl : header = header' := hsame
  obtain rfl : intent = intent' := Except.ok.inj hintent
  rfl

theorem AssignmentRecord.decode_encode :
    decode prims record.encode =
      if record.intent.digest prims ≠ record.intentDigest ∨ record.intent.profile ≠ record.profile then
        .error .ledgerCorrupt
      else .ok record := by
  have hmagic : MAGIC.length = 8 := by decide
  have hlen := record.encode_length
  have hintent := record.intent.encode_length_le
  have hclamp : (clampU16 record.intent.encode.length).toNat = record.intent.encode.length :=
    clampU16_toNat (hintent.trans_lt (by decide))
  have htake : record.encode.take 8 = MAGIC := by
    simp only [encode, List.append_assoc]
    rw [← hmagic, List.take_left']
    rfl
  unfold decode
  rw [if_neg, record.readPreamble_encode]
  · simp only [hlen, hclamp, record.drop_encode, NetworkIntent.decode_encode, ne_eq, not_true_eq_false, if_false]
  · have hmax : MAX_RECORD = HEADER + MAX_ENCODED_INTENT := rfl
    rw [htake]
    simp only [ne_eq, not_true_eq_false, or_false, not_or]
    omega

theorem AssignmentRecord.decode_encode_eq_ok :
    decode prims record.encode = .ok record ↔ record.Consistent prims := by
  rw [decode_encode, Consistent]
  split_ifs with h
  · simp only [false_iff]
    tauto
  · simp only [true_iff]
    tauto

end Soma.Netd
