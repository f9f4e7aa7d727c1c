import Soma.Template.Syntax

/-! # Networks and their canonical text

A network is an address with every host bit clear and a prefix length; both families are left-aligned in
128 bits. How an address is written belongs to the standard library, of which only this is assumed: an
address has one text, that text reads back as the address, has no slash, and is short.

* `Cidr.parse_canonical`: the canonical text of a network reads back as that network.
* `Cidr.contains_iff`: `contains` is inclusion of the sets of addresses.
-/

namespace Soma.Template

open Soma.Lib Soma.Text

inductive IpAddr where
  | v4 (address : BitVec 32)
  | v6 (address : BitVec 128)
deriving DecidableEq

namespace IpAddr

def isV4 : IpAddr → Bool
  | v4 _ => true
  | v6 _ => false

/-- The number of address bits of the family. -/
def width (address : IpAddr) : ℕ :=
  if address.isV4 then 32 else 128

/-- The address, left-aligned. -/
def numeric : IpAddr → BitVec 128
  | v4 address => address.setWidth 128 <<< 96
  | v6 address => address

end IpAddr

/-- The standard text of addresses. -/
class AddressText where
  parse : List Char → Option IpAddr
  display : IpAddr → String
  parse_display : ∀ address, parse (display address).toList = some address
  no_slash : ∀ address, '/' ∉ (display address).toList
  display_length : ∀ address, (display address).utf8ByteSize ≤ 45

/-- The bits of a prefix, from the top. -/
def prefixMask (length : ℕ) : BitVec 128 :=
  if length = 0 then 0 else BitVec.allOnes 128 <<< (128 - length)

/-- One network with every host bit clear. -/
structure Cidr where
  address : IpAddr
  length : ℕ
  length_le : length ≤ address.width
  host_clear : address.numeric &&& ~~~prefixMask length = 0
deriving DecidableEq

namespace Cidr

def mask (cidr : Cidr) : BitVec 128 := prefixMask cidr.length

/-- The value of a decimal numeral. -/
def decimal (digits : List Char) : ℕ :=
  digits.foldl (fun n c => n * 10 + (c.toNat - '0'.toNat)) 0

/-- One to three digits without leading zeros. -/
def lengthRule (digits : List Char) : Bool :=
  !digits.isEmpty && len digits ≤ 3 && digits.all Char.isDigit
    && (len digits == 1 || digits.head? != some '0')

variable [AddressText]

/-- Reads `address/length`. -/
def parse (value : String) : Except InvalidReason Cidr := do
  let (addressText, lengthText) ← okOr (splitOnce '/' value.toList) .invalidCidr
  let address ← okOr (AddressText.parse addressText) .invalidCidr
  if !lengthRule lengthText then throw .invalidCidr
  let length := decimal lengthText
  -- The number is read into eight bits.
  if 255 < length then throw .invalidCidr
  if hwidth : address.width < length then throw .invalidCidr
  else if hhost : address.numeric &&& ~~~prefixMask length = 0 then
    return ⟨address, length, not_lt.mp hwidth, hhost⟩
  else throw .invalidCidr

/-- The one canonical text of a network. -/
def canonical (cidr : Cidr) : String :=
  AddressText.display cidr.address ++ "/" ++ toString cidr.length

omit [AddressText] in
/-- Whether a network contains every address of another. -/
def contains (self other : Cidr) : Bool :=
  self.address.isV4 == other.address.isV4 && self.length ≤ other.length
    && self.address.numeric &&& self.mask == other.address.numeric &&& self.mask

end Cidr

section text

variable [AddressText]

/-- Whether a text is the canonical text of a network. -/
def isCanonical (value : String) : Bool :=
  match Cidr.parse value with
  | .ok cidr => cidr.canonical == value
  | .error _ => false

/-- The canonical texts of the values, sorted and without repetitions; what does not read as a network
is kept as it is. -/
def canonicalList (values : List String) : List String :=
  sorted (values.map fun value =>
    match Cidr.parse value with
    | .ok cidr => cidr.canonical
    | .error _ => value)

/-- The shape rule of a network. -/
def cidr (value : String) : Except InvalidReason Unit :=
  (Cidr.parse value).map fun _ => ()

end text

namespace Cidr

section canonical

variable [AddressText] (cidr : Cidr)

omit [AddressText] in
theorem length_le_128 : cidr.length ≤ 128 := by
  have h := cidr.length_le
  unfold IpAddr.width at h
  split_ifs at h <;> omega

omit [AddressText] in
theorem lengthText_spec : ∀ n ≤ 128, lengthRule (toString n).toList = true
    ∧ decimal (toString n).toList = n ∧ (toString n).utf8ByteSize ≤ 3 := by
  decide +kernel

theorem canonical_toList : cidr.canonical.toList =
    (AddressText.display cidr.address).toList ++ '/' :: (toString cidr.length).toList := by
  simp [canonical]

theorem parse_canonical : parse cidr.canonical = .ok cidr := by
  obtain ⟨hrule, hvalue, -⟩ := lengthText_spec cidr.length cidr.length_le_128
  have hsmall := cidr.length_le_128
  have hsplit := splitOnce_append (AddressText.no_slash cidr.address) (toString cidr.length).toList
  unfold parse
  rw [canonical_toList, hsplit]
  simp only [okOr, bind, Except.bind, AddressText.parse_display, hrule, hvalue]
  rw [if_neg (by simp), if_neg (by omega), dif_neg (not_lt.mpr cidr.length_le), dif_pos cidr.host_clear]
  rfl

theorem isCanonical_canonical : isCanonical cidr.canonical = true := by
  rw [isCanonical, cidr.parse_canonical]
  exact beq_self_eq_true _

theorem canonical_length : cidr.canonical.utf8ByteSize ≤ 49 := by
  have haddress := AddressText.display_length cidr.address
  have hlength := (lengthText_spec cidr.length cidr.length_le_128).2.2
  simp only [canonical, String.utf8ByteSize_append]
  have hslash : "/".utf8ByteSize = 1 := by decide +kernel
  omega

end canonical

/-! ## Inclusion -/

/-- The addresses of a network. -/
def Mem (cidr : Cidr) (address : IpAddr) : Prop :=
  address.isV4 = cidr.address.isV4
    ∧ address.numeric &&& cidr.mask = cidr.address.numeric &&& cidr.mask

theorem getLsbD_prefixMask {length : ℕ} (hlength : length ≤ 128) (i : ℕ) :
    (prefixMask length).getLsbD i = (decide (i < 128) && decide (128 - length ≤ i)) := by
  unfold prefixMask
  split_ifs with hzero
  · subst hzero
    simp only [BitVec.ofNat_eq_ofNat, BitVec.getLsbD_zero, Nat.sub_zero]
    by_cases hi : i < 128
    · simp [hi]
    · simp [hi]
  · rw [BitVec.getLsbD_shiftLeft, BitVec.getLsbD_allOnes]
    by_cases hi : i < 128
    · by_cases hlow : i < 128 - length
      · simp [hlow, Nat.not_le.mpr hlow]
      · have hsub : i - (128 - length) < 128 := by omega
        simp [hi, hlow, hsub, Nat.not_lt.mp hlow]
    · simp [hi]

theorem exists_flip (address : IpAddr) {i : ℕ} (hlow : 128 - address.width ≤ i) (hi : i < 128) :
    ∃ other : IpAddr, other.isV4 = address.isV4
      ∧ ∀ j, other.numeric.getLsbD j = (address.numeric.getLsbD j ^^ decide (j = i)) := by
  cases address with
  | v4 a =>
    have hlow' : 96 ≤ i := hlow
    refine ⟨.v4 (a ^^^ BitVec.twoPow 32 (i - 96)), rfl, fun j => ?_⟩
    simp only [IpAddr.numeric, BitVec.getLsbD_shiftLeft, BitVec.getLsbD_setWidth, BitVec.getLsbD_xor,
      BitVec.getLsbD_twoPow]
    by_cases hj : j = i
    · subst hj
      have hsub : j - 96 < 32 := by omega
      have hsub' : j - 96 < 128 := by omega
      simp [hi, hsub, hsub', Nat.not_lt.mpr hlow']
    · by_cases hj96 : j < 96
      · simp [hj96, hj]
      · have hne : i - 96 ≠ j - 96 := by omega
        simp [hj, hne]
  | v6 a =>
    refine ⟨.v6 (a ^^^ BitVec.twoPow 128 i), rfl, fun j => ?_⟩
    simp only [IpAddr.numeric, BitVec.getLsbD_xor, BitVec.getLsbD_twoPow]
    by_cases hj : j = i
    · subst hj
      simp [hi]
    · simp [hj, Ne.symm hj]

theorem mem_address (cidr : Cidr) : cidr.Mem cidr.address :=
  ⟨rfl, rfl⟩

variable {outer inner : Cidr}

theorem and_mask_of_le (hle : outer.length ≤ inner.length) {x y : BitVec 128}
    (h : x &&& inner.mask = y &&& inner.mask) : x &&& outer.mask = y &&& outer.mask := by
  have hmask : inner.mask &&& outer.mask = outer.mask := by
    refine BitVec.eq_of_getLsbD_eq fun i hi => ?_
    simp only [BitVec.getLsbD_and, mask,
      getLsbD_prefixMask inner.length_le_128, getLsbD_prefixMask outer.length_le_128]
    by_cases hin : 128 - outer.length ≤ i
    · have hin' : 128 - inner.length ≤ i := by omega
      simp [hi, hin, hin']
    · simp [hin]
  rw [← hmask, ← BitVec.and_assoc, h, BitVec.and_assoc]

theorem length_le_of_subset (h : ∀ address, inner.Mem address → outer.Mem address) :
    outer.length ≤ inner.length := by
  by_contra hlt
  obtain ⟨hfamily, hbase⟩ := h _ inner.mem_address
  have hwidth : outer.address.width = inner.address.width := by
    unfold IpAddr.width
    rw [hfamily]
  have houter := outer.length_le
  have hmax := outer.length_le_128
  -- The lowest bit under the outer mask is free in the inner network.
  obtain ⟨other, hother, hbits⟩ := exists_flip inner.address (i := 128 - outer.length) (by omega) (by omega)
  have hinner : inner.Mem other := by
    refine ⟨hother, ?_⟩
    refine BitVec.eq_of_getLsbD_eq fun j hj => ?_
    simp only [BitVec.getLsbD_and, mask, hbits, getLsbD_prefixMask inner.length_le_128]
    by_cases hjm : 128 - inner.length ≤ j
    · have hne : j ≠ 128 - outer.length := by omega
      simp [hne]
    · simp [hjm]
  have hsame : other.numeric &&& outer.mask = inner.address.numeric &&& outer.mask :=
    (h _ hinner).2.trans hbase.symm
  have hbit := congrArg (fun x => x.getLsbD (128 - outer.length)) hsame
  have hpos : 128 - outer.length < 128 := by omega
  simp only [BitVec.getLsbD_and, mask, hbits, getLsbD_prefixMask hmax, hpos] at hbit
  simp at hbit

theorem contains_iff : outer.contains inner ↔ ∀ address, inner.Mem address → outer.Mem address := by
  simp only [contains, Bool.and_eq_true, beq_iff_eq, decide_eq_true_eq]
  constructor
  · rintro ⟨⟨hfamily, hle⟩, hbase⟩ address ⟨haddress, hbits⟩
    exact ⟨haddress.trans hfamily.symm, (and_mask_of_le hle hbits).trans hbase.symm⟩
  · intro h
    obtain ⟨hfamily, hbase⟩ := h _ inner.mem_address
    exact ⟨⟨hfamily.symm, length_le_of_subset h⟩, hbase.symm⟩

end Cidr

theorem isCanonical_length [AddressText] {value : String} (h : isCanonical value) : value.utf8ByteSize ≤ 49 := by
  unfold isCanonical at h
  split at h
  · next cidr _ =>
    rw [← eq_of_beq h]
    exact cidr.canonical_length
  · cases h

end Soma.Template
