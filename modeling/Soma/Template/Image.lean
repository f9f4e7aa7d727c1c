import Mathlib.Tactic.FinCases
import Soma.Template.Choice

/-! # Images and platforms

References, digests and platforms as their constructors accept them, and the wire form of a resolved
image. A digest is bound as the 32 bytes its hexadecimal text stands for, and is rebuilt from them.
-/

namespace Soma.Template

open Soma.Lib Soma.Codec Soma.Text

inductive ValidationError where
  | invalidImageReference
  | invalidDigest
  | invalidPlatform
deriving DecidableEq

/-! ## References -/

variable (value : String)

def imageRule : Except ValidationError Unit :=
  if !value.toList.isEmpty && value.utf8ByteSize ≤ 1024 && !contains "://".toList value.toList
      && !value.toList.any isWhitespace && !value.toList.any (fun c => c == '\x00' || c == '\\')
      && value.toList.head? != some '-' then .ok ()
  else .error .invalidImageReference

/-- A bounded image reference. -/
abbrev OciImage := Valid imageRule

def OciImage.parse : Except ValidationError OciImage :=
  validate imageRule value

/-! ## Digests -/

def isHexDigit (c : Char) : Bool :=
  c.isDigit || ('a' ≤ c && c ≤ 'f')

def digestRule (hex : List Char) : Bool :=
  hex.length == 64 && hex.all isHexDigit

/-- A canonical SHA-256 digest, without its `sha256:`. -/
structure OciDigest where
  hex : List Char
  valid : digestRule hex = true
deriving DecidableEq

namespace OciDigest

def asStr (digest : OciDigest) : String :=
  "sha256:" ++ String.ofList digest.hex

end OciDigest

def nibble (c : Char) : ℕ :=
  if c.isDigit then c.toNat - '0'.toNat
  else if 'a' ≤ c && c ≤ 'f' then c.toNat - 'a'.toNat + 10
  else 0

/-- The lowercase digit of a nibble. -/
def hexDigit (n : ℕ) : Char :=
  if n < 10 then Char.ofNat ('0'.toNat + n) else Char.ofNat ('a'.toNat + (n - 10))

variable (bs : List UInt8)

/-- Two digits for each byte. -/
def hex : List Char :=
  bs.flatMap fun b => [hexDigit (b.toNat / 16), hexDigit (b.toNat % 16)]

/-- The bytes of pairs of digits. -/
def ofHex : List Char → List UInt8
  | a :: b :: rest => UInt8.ofNat (nibble a * 16 + nibble b) :: ofHex rest
  | _ => []

theorem nibble_hexDigit : ∀ n < 16, nibble (hexDigit n) = n ∧ isHexDigit (hexDigit n) = true := by
  decide

theorem hexDigit_nibble {c : Char} (h : isHexDigit c = true) : hexDigit (nibble c) = c ∧ nibble c < 16 := by
  have hdigits : c ∈ ['0', '1', '2', '3', '4', '5', '6', '7', '8', '9', 'a', 'b', 'c', 'd', 'e', 'f'] := by
    simp only [isHexDigit, Char.isDigit, Bool.or_eq_true, Bool.and_eq_true, decide_eq_true_eq] at h
    simp only [Char.le_def, ge_iff_le, UInt32.le_iff_toNat_le, UInt32.reduceToNat, Char.reduceVal] at h
    simp only [List.mem_cons, List.not_mem_nil, or_false, Char.ext_iff, ← UInt32.toNat_inj,
      UInt32.reduceToNat, Char.reduceVal]
    omega
  fin_cases hdigits <;> decide

theorem hex_length : (hex bs).length = 2 * bs.length := by
  induction bs with
  | nil => rfl
  | cons b bs ih =>
    rw [hex, List.flatMap_cons, List.length_append, ← hex, ih]
    simp only [List.length_cons, List.length_nil]
    omega

theorem hex_all : (hex bs).all isHexDigit = true := by
  rw [List.all_eq_true]
  intro c hc
  obtain ⟨b, -, hb⟩ := List.mem_flatMap.mp hc
  have hlt := b.toNat_lt
  simp only [List.mem_cons, List.not_mem_nil, or_false] at hb
  rcases hb with rfl | rfl <;> exact (nibble_hexDigit _ (by omega)).2

theorem ofHex_hex : ofHex (hex bs) = bs := by
  induction bs with
  | nil => rfl
  | cons b bs ih =>
    have hlt := b.toNat_lt
    have hhigh := (nibble_hexDigit (b.toNat / 16) (by omega)).1
    have hlow := (nibble_hexDigit (b.toNat % 16) (by omega)).1
    have hvalue : b.toNat / 16 * 16 + b.toNat % 16 = b.toNat := by omega
    change UInt8.ofNat (nibble (hexDigit (b.toNat / 16)) * 16 + nibble (hexDigit (b.toNat % 16)))
      :: ofHex (hex bs) = b :: bs
    rw [ih, hhigh, hlow, hvalue, UInt8.ofNat_toNat]

theorem hex_ofHex {cs : List Char} {n : ℕ} (hlen : cs.length = 2 * n) (hall : cs.all isHexDigit = true) :
    hex (ofHex cs) = cs ∧ (ofHex cs).length = n := by
  induction n generalizing cs with
  | zero =>
    rw [List.length_eq_zero_iff.mp (by omega : cs.length = 0)]
    exact ⟨rfl, rfl⟩
  | succ n ih =>
    match cs, hlen with
    | a :: b :: rest, hlen =>
      simp only [List.all_cons, Bool.and_eq_true] at hall
      obtain ⟨ha, hb, hrest⟩ := hall
      obtain ⟨hrest, hcount⟩ := ih (by simp only [List.length_cons] at hlen; omega) hrest
      obtain ⟨ha, halt⟩ := hexDigit_nibble ha
      obtain ⟨hb, hblt⟩ := hexDigit_nibble hb
      have hbyte : (UInt8.ofNat (nibble a * 16 + nibble b)).toNat = nibble a * 16 + nibble b := by
        rw [UInt8.toNat_ofNat']
        omega
      have hhigh : (nibble a * 16 + nibble b) / 16 = nibble a := by omega
      have hlow : (nibble a * 16 + nibble b) % 16 = nibble b := by omega
      constructor
      · rw [ofHex, hex, List.flatMap_cons, ← hex, hrest, hbyte, hhigh, hlow, ha, hb]
        rfl
      · rw [ofHex, List.length_cons, hcount]

def digestBytes (digest : OciDigest) : Bytes 32 :=
  ⟨ofHex digest.hex, by
    have h := digest.valid
    simp only [digestRule, Bool.and_eq_true, beq_iff_eq] at h
    exact (hex_ofHex h.1 h.2).2⟩

/-- The digest of 32 bytes; the text always parses. -/
def digestFromBytes (bs : Bytes 32) : OciDigest :=
  ⟨hex bs.1, by rw [digestRule, hex_length, bs.2, hex_all]; rfl⟩

theorem digestBytes_digestFromBytes (bs : Bytes 32) : digestBytes (digestFromBytes bs) = bs :=
  Subtype.ext (ofHex_hex bs.1)

theorem digestFromBytes_digestBytes (digest : OciDigest) : digestFromBytes (digestBytes digest) = digest := by
  obtain ⟨cs, hcs⟩ := digest
  have h := hcs
  simp only [digestRule, Bool.and_eq_true, beq_iff_eq] at h
  simp only [digestFromBytes, digestBytes, OciDigest.mk.injEq]
  exact (hex_ofHex (n := 32) h.1 h.2).1

/-! ## Platforms -/

def validPlatformPart : Bool :=
  !value.toList.isEmpty && value.utf8ByteSize ≤ 64
    && value.toList.all fun c => c.isLower || c.isDigit || c == '_' || c == '-' || c == '.'

variable (operatingSystem architecture : String) (variant : Option String)

def platformRule : Bool :=
  validPlatformPart operatingSystem && validPlatformPart architecture
    && variant.all validPlatformPart

theorem platformRule_linux : platformRule "linux" "amd64" none = true := by
  decide +kernel

/-- A bounded platform identity. -/
structure OciPlatform where
  operatingSystem : String
  architecture : String
  variant : Option String
  valid : platformRule operatingSystem architecture variant = true
deriving DecidableEq

open OciPlatform

def OciPlatform.new :
    Except ValidationError OciPlatform :=
  if h : platformRule operatingSystem architecture variant = true then
    .ok ⟨operatingSystem, architecture, variant, h⟩
  else .error .invalidPlatform

def platformKey (platform : OciPlatform) : String :=
  match platform.variant with
  | some variant => platform.operatingSystem ++ "/" ++ platform.architecture ++ "/" ++ variant
  | none => platform.operatingSystem ++ "/" ++ platform.architecture

def putPlatform (platform : OciPlatform) : List UInt8 :=
  Writer.putString platform.operatingSystem ++ Writer.putString platform.architecture
    ++ Writer.putOptionalString platform.variant

/-- The three parts of a platform as they stand on the wire. -/
def platformParts : Reader (String × String × Option String) := do
  let operatingSystem ← Reader.string MAX_STRING_BYTES
  let architecture ← Reader.string MAX_STRING_BYTES
  let variant ← Reader.optionalString MAX_STRING_BYTES
  return (operatingSystem, architecture, variant)

/-- A platform; a refused one is reported on the field it was read for. -/
def readPlatform (field : String) : Reader OciPlatform :=
  refine platformParts fun (operatingSystem, architecture, variant) =>
    match new operatingSystem architecture variant with
    | .ok platform => .ok platform
    | .error _ => .error (.invalidField field)

theorem maxString_lt : MAX_STRING_BYTES < 2 ^ 32 := by decide

theorem platformParts_format :
    Format platformParts
      (fun parts => Writer.putString parts.1 ++ (Writer.putString parts.2.1
        ++ Writer.putOptionalString parts.2.2))
      (fun parts => parts.1.utf8ByteSize ≤ MAX_STRING_BYTES
        ∧ parts.2.1.utf8ByteSize ≤ MAX_STRING_BYTES
        ∧ ∀ text ∈ parts.2.2, text.utf8ByteSize ≤ MAX_STRING_BYTES) := by
  have hstring := string_format maxString_lt
  exact Format.record (hstring.field Prod.fst fun _ =>
    hstring.field (Prod.fst ∘ Prod.snd) fun _ =>
    (optionalString_format maxString_lt).field (Prod.snd ∘ Prod.snd) fun _ =>
    Format.done (by grind)) (by simp) (by simp)

theorem OciPlatform.part_length {value : String} (h : validPlatformPart value = true) :
    value.utf8ByteSize ≤ MAX_STRING_BYTES := by
  simp only [validPlatformPart, Bool.and_eq_true, decide_eq_true_eq] at h
  exact h.1.2.trans (by decide)

theorem readPlatform_format (field : String) : Exact (readPlatform field) putPlatform := by
  refine (platformParts_format.refine (fun p => (p.operatingSystem, p.architecture, p.variant)) ?_ ?_).congr ?_ ?_
  · rintro ⟨operatingSystem, architecture, variant, valid⟩
    simp only [new, dif_pos valid]
  · rintro ⟨operatingSystem, architecture, variant⟩ platform h
    simp only [new] at h
    split_ifs at h
    cases h
    rfl
  · intro platform
    have hvalid := platform.valid
    simp only [platformRule, Bool.and_eq_true] at hvalid
    obtain ⟨⟨hos, harch⟩, hvariant⟩ := hvalid
    refine iff_of_true ⟨part_length hos, part_length harch, ?_⟩ trivial
    intro text htext
    have htext : platform.variant = some text := htext
    rw [htext] at hvariant
    exact part_length hvariant
  · intro platform _
    simp [putPlatform]

/-! ## Resolved images -/

/-- One exact manifest selected for one platform. -/
structure ResolvedImage where
  digest : OciDigest
  platform : OciPlatform
  size : U64
deriving DecidableEq

namespace ResolvedImage

def encode (image : ResolvedImage) : List UInt8 :=
  (digestBytes image.digest).1 ++ putWord image.size ++ putPlatform image.platform

def decode : Reader ResolvedImage := do
  let digest ← refine (array Reader.short 32) fun bs => .ok (digestFromBytes bs)
  let size ← Reader.u64
  let platform ← readPlatform "workload.platform"
  return { digest, platform, size }

theorem format : Exact decode encode := by
  have hdigest : Exact (refine (array Reader.short 32) fun bs => .ok (digestFromBytes bs))
      (fun digest => (digestBytes digest).1) := by
    refine (Format.array Reader.short 32).refine digestBytes ?_ ?_
    · intro digest
      rw [digestFromBytes_digestBytes]
    · intro bs digest h
      cases h
      exact digestBytes_digestFromBytes bs
  exact Format.record (hdigest.field ResolvedImage.digest fun _ =>
    u64_format.field ResolvedImage.size fun _ =>
    (readPlatform_format "workload.platform").field ResolvedImage.platform fun _ =>
    Format.done (by rintro ⟨⟩; grind)) (by simp) (by simp [encode])

end ResolvedImage

end Soma.Template
