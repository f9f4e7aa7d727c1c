import Soma.Lib.Codec

/-! # Identities and failures of the network broker

Fixed-width identities reject the all-zero value, so a value of these types is always a usable one.
-/

namespace Soma.Netd

open Soma.Codec

structure NonZero (w : ℕ) where
  value : BitVec w
  nonzero : value ≠ 0
deriving DecidableEq

abbrev CleanupGeneration := NonZero 32
abbrev ConntrackZone := NonZero 16

theorem firstZone_nonzero : (1 : BitVec 16) ≠ 0 := by
  decide

inductive IdKind where
  | bundle
  | instance_
  | operation
deriving DecidableEq

/-- A validated 16-byte identity. -/
structure FixedId (kind : IdKind) where
  bytes : Bytes 16
  nonzero : bytes.1.any (· ≠ 0)
deriving DecidableEq

abbrev BundleId := FixedId .bundle
abbrev InstanceId := FixedId .instance_
abbrev OperationId := FixedId .operation

def hexByte (b : UInt8) : List Char :=
  [Nat.digitChar (b.toNat / 16), Nat.digitChar (b.toNat % 16)]

/-- The eight hex digits the kernel objects of a bundle are named by. -/
abbrev ShortName := List Char

def FixedId.shortHex {kind : IdKind} (id : FixedId kind) : ShortName :=
  (id.bytes.1.take 4).flatMap hexByte

/-- The primitives the broker takes from elsewhere. -/
structure Primitives where
  sha256 : List UInt8 → Bytes 32
  keyedTag : Bytes 32 → List UInt8 → Option (Bytes 32)

/-! ## Failures -/

inductive IntentRejection where
  | egressUnspecified | dnsUnspecified | dnsWithoutEgress | resolverFamily | resolverProtected
  | proxyUnimplemented | staticAddress | ipv6Unimplemented | profileMismatch | publicationFamily
deriving DecidableEq

inductive Step where
  | unshare | mountNamespace | openNamespace | enterNamespace | openTun | tunSetIff | socket | setHwaddr
  | setMtu | getFlags | setFlags | setAddress | setNetmask | addRoute | netlink | sysctl | thread
  | ledgerOpen | ledgerWrite | ledgerSync | ledgerRead | bind | unmount | unlink | sendMsg | recvMsg
  | clock | listLinks
deriving DecidableEq

inductive Tool where
  | nft | conntrack
deriving DecidableEq

inductive Drift where
  | namespaceMissing | tapMissing | vethMissing | hostVethMissing | rulesetMissing | hostRulesetMissing
  | forwardingAlreadyEnabled | linkAlreadyUp | publicationRulesetPresent
deriving DecidableEq

inductive TransferRejection where
  | badMagic | badVersion | badLength | descriptorCount | controlShort | zeroBundle | zeroGeneration
deriving DecidableEq

/-- One typed broker failure. -/
inductive Error where
  | invalidIntent (reason : IntentRejection)
  | invalidProfile (what : String)
  | poolExhausted
  | invalidId (what : String)
  | missingPrivilege (what : String)
  | kernel (step : Step) (errno : ℤ)
  | tool (tool : Tool) (status : Option ℤ)
  | ledgerConflict
  | replayMismatch
  | ledgerCorrupt
  | notAssigned
  | drift (drift : Drift)
  | transfer (reason : TransferRejection)
  | portUnavailable
  | unimplemented (what : String)
  | invalidState (what : String)
  | protocol (what : String)
  | unauthorized (what : String)
deriving DecidableEq

/-- The stable protocol code of a failure. -/
def errorCode : Error → U16
  | .invalidIntent _ => 1
  | .invalidProfile _ => 2
  | .poolExhausted => 3
  | .invalidId _ => 4
  | .missingPrivilege _ => 5
  | .kernel .. => 6
  | .tool .. => 7
  | .ledgerConflict => 8
  | .replayMismatch => 9
  | .ledgerCorrupt => 10
  | .notAssigned => 11
  | .drift _ => 12
  | .transfer _ => 13
  | .portUnavailable => 14
  | .unimplemented _ => 15
  | .invalidState _ => 16
  | .protocol _ => 17
  | .unauthorized _ => 18

def NonZero.new {w : ℕ} (label : String) (value : BitVec w) : Except Error (NonZero w) :=
  if h : value ≠ 0 then .ok ⟨value, h⟩ else .error (.invalidId label)

end Soma.Netd
