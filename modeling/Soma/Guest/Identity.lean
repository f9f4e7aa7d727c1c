import Soma.Lib.Codec

/-! # What a launch delivers to the guest

The network identity of one launch page, which exists only if it is valid, and the single-use activation
challenge with the receipt that answers it.
-/

namespace Soma.Guest

open Soma.Codec

/-! ## Launch network -/

def MAX_PREFIX_LENGTH : ℕ := 30

def launchMask (prefixLength : ℕ) : U32 :=
  if prefixLength = 0 then 0
  else if 32 ≤ prefixLength then BitVec.allOnes 32
  else BitVec.allOnes 32 <<< (32 - prefixLength)

/-- Neither `0.0.0.0/8`, loopback, link-local, multicast, reserved nor broadcast. -/
def usableUnicast (address : U32) : Bool :=
  let first := address >>> 24
  address ≠ 0 ∧ address ≠ BitVec.allOnes 32 ∧ first ≠ 0 ∧ first ≠ 127 ∧ first.toNat < 224
    ∧ address >>> 16 ≠ 0xa9fe

/-- The network identity of one launch. -/
structure LaunchFields where
  vsockCid : U32
  generation : U32
  mac : Bytes 6
  address : U32
  prefixLength : ℕ
  gateway : U32
  resolver : U32
  timeSampleNanos : U64
deriving DecidableEq

variable (fields : LaunchFields)

/-- Neither the network nor the directed broadcast address of the subnet of `fields`. -/
def LaunchFields.usableHost (value : U32) : Bool :=
  let mask := launchMask fields.prefixLength
  value ≠ fields.address &&& mask ∧ value ≠ (fields.address &&& mask) ||| ~~~ mask

def LaunchFields.valid : Bool :=
  let mask := launchMask fields.prefixLength
  2 < fields.vsockCid.toNat ∧ fields.vsockCid ≠ BitVec.allOnes 32 ∧ fields.generation ≠ 0
    ∧ fields.mac.1 ≠ List.replicate 6 0 ∧ fields.mac.1.head?.all (fun b => b &&& 1 = 0)
    ∧ usableUnicast fields.address ∧ usableUnicast fields.gateway ∧ usableUnicast fields.resolver
    ∧ 1 ≤ fields.prefixLength ∧ fields.prefixLength ≤ MAX_PREFIX_LENGTH
    ∧ fields.gateway &&& mask = fields.address &&& mask ∧ fields.address ≠ fields.gateway
    ∧ fields.usableHost fields.address ∧ fields.usableHost fields.gateway
    ∧ (fields.resolver &&& mask ≠ fields.address &&& mask ∨ fields.usableHost fields.resolver)
    ∧ fields.timeSampleNanos ≠ 0

abbrev LaunchNetwork := { fields : LaunchFields // fields.valid }

def LaunchNetwork.new : Option LaunchNetwork :=
  if h : fields.valid then some ⟨fields, h⟩ else none

/-- The 35 bytes of a launch identity, as a claim's reply carries them. -/
def LaunchNetwork.bytes (launch : LaunchNetwork) : List UInt8 :=
  putWord launch.1.vsockCid ++ putWord launch.1.generation ++ launch.1.mac.1 ++ putWord launch.1.address
    ++ [UInt8.ofNat launch.1.prefixLength] ++ putWord launch.1.gateway ++ putWord launch.1.resolver
    ++ putWord launch.1.timeSampleNanos

/-! ## Activation -/

/-- A fixed-length byte string that is not all zero. -/
abbrev NonZeroBytes (n : ℕ) := { bytes : Bytes n // bytes.1.any (· ≠ 0) }

/-- What a receipt is bound to. -/
structure ActivationScope where
  instance_ : Bytes 16
  operation : Bytes 16
  generation : U32
  intent : Bytes 32
deriving DecidableEq

def ActivationScope.new (instance_ operation : Bytes 16) (generation : U32) (intent : Bytes 32) :
    Option ActivationScope :=
  if instance_.1.any (· ≠ 0) ∧ operation.1.any (· ≠ 0) ∧ generation ≠ 0 ∧ intent.1.any (· ≠ 0) then
    some ⟨instance_, operation, generation, intent⟩
  else none

/-- The message a receipt's tag is computed over; it starts with the ASCII bytes of
`SOMA-NETWORK-ACTIVATION`, a zero byte and the schema version. -/
def ActivationScope.message (scope : ActivationScope) (transcript : Bytes 32) : List UInt8 :=
  [0x53, 0x4f, 0x4d, 0x41, 0x2d, 0x4e, 0x45, 0x54, 0x57, 0x4f, 0x52, 0x4b, 0x2d, 0x41, 0x43, 0x54, 0x49,
    0x56, 0x41, 0x54, 0x49, 0x4f, 0x4e, 0x00] ++ putWord (1 : U16) ++ scope.instance_.1
    ++ scope.operation.1 ++ putWord scope.generation ++ scope.intent.1 ++ transcript.1

abbrev ActivationChallenge := NonZeroBytes 32

/-- The guest's proof of its activation. -/
structure ActivationReceipt where
  transcript : NonZeroBytes 32
  tag : NonZeroBytes 32
deriving DecidableEq

/-- The receipt's tag is the one this challenge gives its scope and transcript. -/
def ActivationChallenge.verify (keyedTag : Bytes 32 → List UInt8 → Option (Bytes 32))
    (challenge : ActivationChallenge) (scope : ActivationScope) (receipt : ActivationReceipt) : Bool :=
  keyedTag challenge.1 (scope.message receipt.transcript.1) = some receipt.tag.1

end Soma.Guest
