import Soma.Kvm.Snapshot.DeviceState
import Soma.Template.Wire

/-! # The state manifest

A manifest is a header and a list of sections. A section carries its role, its payload and the digest of the
payload; the roles ascend and the required ones are present. The reader skips a section whose role it does
not know when that section is not marked critical, so what it accepts may say more than what it returns.
-/

namespace Soma.Kvm.Snapshot

open Soma.Lib Soma.Codec Reader

/-! ## Sections -/

def SECTION_VERSION : U16 := 1

def MAX_SECTION_BYTES : ℕ := 2 ^ 20

def MAX_SECTIONS : ℕ := 32

def FLAG_CRITICAL : UInt8 := 1

/-- What a section holds. -/
inductive SectionRole where
  | vmState
  | vcpu0
  | irqchip
  | irqRouting
  | kvmClock
  | pit
  | device0
  | device1
  | device2
  | device3
  | device4
  | repairPointMarker
deriving DecidableEq

namespace SectionRole

def all : List SectionRole :=
  [vmState, vcpu0, irqchip, irqRouting, kvmClock, pit, device0, device1, device2, device3, device4,
    repairPointMarker]

def code : SectionRole → U16
  | vmState => 0x0001
  | vcpu0 => 0x0002
  | irqchip => 0x0003
  | irqRouting => 0x0004
  | kvmClock => 0x0005
  | pit => 0x0006
  | device0 => 0x0010
  | device1 => 0x0011
  | device2 => 0x0012
  | device3 => 0x0013
  | device4 => 0x0014
  | repairPointMarker => 0x0020

def fromCode (code : U16) : Option SectionRole := all.find? fun role => role.code = code

def isRequired : SectionRole → Bool
  | pit | device1 | device2 => false
  | _ => true

def deviceSlot : SectionRole → Option UInt8
  | device0 => some 0
  | device1 => some 1
  | device2 => some 2
  | device3 => some 3
  | device4 => some 4
  | _ => none

theorem fromCode_code (role : SectionRole) : fromCode role.code = some role := by
  cases role <;> rfl

theorem code_of_fromCode {code : U16} {role : SectionRole} (h : fromCode code = some role) : role.code = code := by
  simpa using List.find?_some h

end SectionRole

inductive SectionError where
  | wire (error : WireError)
  | payloadTooLarge (length : ℕ)
  | unknownCriticalRole (code : U16)
  | unsupportedVersion (role version : U16)
  | reservedFlags (flags : UInt8)
  | knownRoleNotCritical (role : SectionRole)
  | digestMismatch (role : U16)
  | roleOrder (previous next : U16)
deriving DecidableEq

instance : FromWire SectionError := ⟨.wire⟩

/-- One bounded payload. -/
structure Section where
  role : SectionRole
  payload : List UInt8
  fits : payload.length ≤ MAX_SECTION_BYTES
deriving DecidableEq

def Digest.of [Template.Sha256] (bytes : List UInt8) : Digest := Template.Sha256.digest bytes

namespace Section

def new (role : SectionRole) (payload : List UInt8) : Except SectionError Section :=
  if h : payload.length ≤ MAX_SECTION_BYTES then .ok ⟨role, payload, h⟩
  else .error (.payloadTooLarge payload.length)

/-- What follows the role. -/
def body [Template.Sha256] (part : Section) : List UInt8 :=
  (putWord SECTION_VERSION ++ [FLAG_CRITICAL])
    ++ (putLength (BitVec.ofNat 32 MAX_SECTION_BYTES) part.payload.length
    ++ ((Digest.of part.payload).1 ++ part.payload))

def encode [Template.Sha256] (part : Section) : List UInt8 := putWord part.role.code ++ part.body

/-- The role of a section, if it is known, from its version and flags. -/
def checkHeader (code version : U16) (flags : UInt8) : Except SectionError (Option SectionRole) := do
  ensure (flags &&& ~~~FLAG_CRITICAL = 0) (.reservedFlags flags)
  match SectionRole.fromCode code with
  | some role =>
    ensure (version = SECTION_VERSION) (.unsupportedVersion code version)
    ensure (flags &&& FLAG_CRITICAL ≠ 0) (.knownRoleNotCritical role)
    return some role
  | none =>
    ensure (¬ flags &&& FLAG_CRITICAL ≠ 0) (.unknownCriticalRole code)
    return none

/-- The payload behind its length and its digest. -/
def readPayload [Template.Sha256] (code : U16) :
    Decoder SectionError { payload : List UInt8 // payload.length ≤ MAX_SECTION_BYTES } := do
  let length ← lengthU32 MAX_SECTION_BYTES
  let expected ← bytes 32
  let payload ← bytes length.1
  if Digest.of payload.1 ≠ expected then fail (.digestMismatch code)
  else return ⟨payload.1, payload.2.trans_le length.2⟩

def decodeBody [Template.Sha256] (code : U16) : Decoder SectionError (Option Section) := do
  let role ← refine (pair u16 u8) fun (version, flags) => checkHeader code version flags
  let payload ← readPayload code
  return role.map fun role => ⟨role, payload.1, payload.2⟩

/-- The role code of the next section, above the one before it. -/
def readCode (previous : Option U16) : Decoder SectionError U16 :=
  refine u16 fun code => do
    forSome previous fun previous => ensure (previous < code) (.roleOrder previous code)
    return code

/-- Sections in ascending order of their roles. -/
def decodeSequence [Template.Sha256] : ℕ → Option U16 → Decoder SectionError (List Section)
  | 0, _ => pure []
  | count + 1, previous => do
    let code ← readCode previous
    let part ← decodeBody code
    let rest ← decodeSequence count (some code)
    return part.toList ++ rest

/-- The role codes of a sequence of sections, known or not. -/
def codes : ℕ → Decoder SectionError (List U16)
  | 0 => pure []
  | count + 1 => do
    let code ← u16
    let _ ← pair u16 u8
    let length ← lengthU32 MAX_SECTION_BYTES
    let _ ← bytes 32
    let _ ← bytes length.1
    let rest ← codes count
    return code :: rest

end Section

/-! ## Memory -/

def MAX_MEMORY_BYTES : ℕ := 3 * 1024 * 1024 * 1024

inductive MemoryError where
  | wire (error : WireError)
  | zeroSize
  | sizeExceedsBound (size bound : ℕ)
  | notPageAligned (size pageSize : ℕ)
  | zeroDigest
  | sizeMismatch (expected actual : ℕ)
  | digestMismatch (expected actual : Digest)
deriving DecidableEq

instance : FromWire MemoryError := ⟨.wire⟩

/-- The memory object. -/
structure MemoryDescriptor where
  digest : Digest
  size : U64
deriving DecidableEq

namespace MemoryDescriptor

def check (pageSize : U32) (memory : MemoryDescriptor) : Except MemoryError Unit := do
  ensure (memory.size ≠ 0) .zeroSize
  ensure (memory.size.toNat ≤ MAX_MEMORY_BYTES) (.sizeExceedsBound memory.size.toNat MAX_MEMORY_BYTES)
  ensure (pageSize ≠ 0 ∧ memory.size.toNat % pageSize.toNat = 0)
    (.notPageAligned memory.size.toNat pageSize.toNat)
  ensure (memory.digest ≠ Digest.zero) .zeroDigest

def new (digest : Digest) (size : U64) (pageSize : U32) : Except MemoryError MemoryDescriptor := do
  check pageSize { digest, size }
  return { digest, size }

variable (memory : MemoryDescriptor)

/-- The object of a Generation has the length and the digest of the descriptor. -/
def verifyGeneration (digest : Digest) (size : U64) : Except MemoryError Unit := do
  ensure (size = memory.size) (.sizeMismatch memory.size.toNat size.toNat)
  ensure (digest = memory.digest) (.digestMismatch memory.digest digest)

def encode : List UInt8 := memory.digest.1 ++ putWord memory.size

def decode (pageSize : U32) : Decoder MemoryError MemoryDescriptor :=
  refine (pair (bytes 32) u64) fun (digest, size) => new digest size pageSize

end MemoryDescriptor

/-! ## Header -/

/-- A KVM capability that is needed. -/
inductive HostCapability where
  | userMemory
  | irqChip
  | irqFd
  | ioEventFd
  | immediateExit
  | xsave
  | xcrs
  | vcpuEvents
  | mpState
  | nestedState
  | adjustClock
  | setTssAddr
  | pit2
deriving DecidableEq

namespace HostCapability

def all : List HostCapability :=
  [userMemory, irqChip, irqFd, ioEventFd, immediateExit, xsave, xcrs, vcpuEvents, mpState, nestedState,
    adjustClock, setTssAddr, pit2]

def code : HostCapability → U16
  | userMemory => 1
  | irqChip => 2
  | irqFd => 3
  | ioEventFd => 4
  | immediateExit => 5
  | xsave => 6
  | xcrs => 7
  | vcpuEvents => 8
  | mpState => 9
  | nestedState => 10
  | adjustClock => 11
  | setTssAddr => 12
  | pit2 => 13

def fromCode (code : U16) : Option HostCapability := all.find? fun capability => capability.code = code

end HostCapability

inductive HostRequirementsError where
  | tooManyCapabilities (count : ℕ)
  | unknownCapability (code : U16)
  | capabilityOrder (previous next : U16)
  | zeroMemorySlots
deriving DecidableEq

inductive ManifestError where
  | wire (error : WireError)
  | badMagic
  | unsupportedSchemaVersion (version : U16)
  | unknownArchitecture (code : U16)
  | invalidPageSize (size : U32)
  | zeroCandidateId
  | hostRequirements (error : HostRequirementsError)
  | memory (error : MemoryError)
  | zeroVcpuCount
  | tooManySections (count : ℕ)
  | sections (error : SectionError)
  | missingRequiredSection (role : SectionRole)
deriving DecidableEq

instance : FromWire ManifestError := ⟨.wire⟩

def MAX_REQUIRED_CAPABILITIES : ℕ := 32

structure HostRequirementsParts where
  kvmApiVersion : U32
  capabilities : List HostCapability
  minMemorySlots : U16
deriving DecidableEq

namespace HostRequirements

def check (parts : HostRequirementsParts) : Except HostRequirementsError Unit := do
  ensure (parts.capabilities.length ≤ MAX_REQUIRED_CAPABILITIES)
    (.tooManyCapabilities (min parts.capabilities.length (2 ^ 16 - 1)))
  forNeighbours (fun previous next => ensure (previous.code < next.code)
    (.capabilityOrder previous.code next.code)) parts.capabilities
  ensure (parts.minMemorySlots ≠ 0) .zeroMemorySlots

end HostRequirements

abbrev HostRequirements := Valid HostRequirements.check

namespace HostRequirements

def new (kvmApiVersion : U32) (capabilities : List HostCapability) (minMemorySlots : U16) :
    Except HostRequirementsError HostRequirements :=
  validate check { kvmApiVersion, capabilities, minMemorySlots }

def encode (host : HostRequirements) : List UInt8 :=
  putWord host.1.kvmApiVersion ++ ((putLength (65535 : U16) host.1.capabilities.length
    ++ host.1.capabilities.flatMap fun capability => putWord capability.code)
    ++ putWord host.1.minMemorySlots)

def readCapability : Decoder ManifestError HostCapability :=
  refine u16 fun code => okOr (HostCapability.fromCode code) (.hostRequirements (.unknownCapability code))

def decode : Decoder ManifestError HostRequirements :=
  refine (pair u32 <| pair (listU16 MAX_REQUIRED_CAPABILITIES readCapability) u16)
    fun (kvmApiVersion, capabilities, minMemorySlots) =>
      (new kvmApiVersion capabilities minMemorySlots).mapError .hostRequirements

end HostRequirements

inductive Architecture where
  | x86_64
deriving DecidableEq

namespace Architecture

def code : Architecture → U16
  | x86_64 => 1

def fromCode (code : U16) : Option Architecture := if code = 1 then some x86_64 else none

end Architecture

def PageSize.check (value : U32) : Except ManifestError Unit :=
  ensure (value.toNat.isPowerOfTwo ∧ 4096 ≤ value.toNat ∧ value.toNat ≤ 2 ^ 30) (.invalidPageSize value)

abbrev PageSize := Valid PageSize.check

def PageSize.FOUR_KIB : PageSize := ⟨4096, by decide +kernel⟩

def CandidateId.check (bytes : Bytes 32) : Except ManifestError Unit :=
  ensure (¬ bytes.1.all (· = 0)) .zeroCandidateId

abbrev CandidateId := Valid CandidateId.check

/-- The fields before the sections. -/
structure ManifestHeader where
  architecture : Architecture
  pageSize : PageSize
  candidateId : CandidateId
  machineContract : Digest
  deviceContract : Digest
  cpuTemplate : Digest
  host : HostRequirements
  memory : MemoryDescriptor
  vcpuCount : U16
  guestProtocolVersion : U16
deriving DecidableEq

namespace ManifestHeader

def encode (header : ManifestHeader) : List UInt8 :=
  putWord header.architecture.code ++ (putWord header.pageSize.1 ++ (header.candidateId.1.1
    ++ (header.machineContract.1 ++ (header.deviceContract.1 ++ (header.cpuTemplate.1
    ++ (HostRequirements.encode header.host ++ (header.memory.encode ++ (putWord header.vcpuCount
    ++ putWord header.guestProtocolVersion))))))))

def readArchitecture : Decoder ManifestError Architecture :=
  refine u16 fun code => okOr (Architecture.fromCode code) (.unknownArchitecture code)

def readVcpuCount : Decoder ManifestError U16 :=
  refine u16 fun count => do
    ensure (count ≠ 0) .zeroVcpuCount
    return count

/-- What comes before the memory descriptor, whose alignment depends on the page size. -/
abbrev Identity := Architecture × PageSize × CandidateId × Digest × Digest × Digest × HostRequirements

def readIdentity : Decoder ManifestError Identity :=
  pair readArchitecture <| pair (refine u32 (validate PageSize.check)) <|
    pair (refine (bytes 32) (validate CandidateId.check)) <| pair (bytes 32) <| pair (bytes 32) <|
    pair (bytes 32) HostRequirements.decode

def ofFields (identity : Identity) : MemoryDescriptor × U16 × U16 → ManifestHeader :=
  fun (memory, vcpuCount, guestProtocolVersion) =>
    let (architecture, pageSize, candidateId, machineContract, deviceContract, cpuTemplate, host) := identity
    { architecture, pageSize, candidateId, machineContract, deviceContract, cpuTemplate, host, memory,
      vcpuCount, guestProtocolVersion }

def decode : Decoder ManifestError ManifestHeader := do
  let identity ← readIdentity
  ofFields identity <$> (pair (relabel .memory (MemoryDescriptor.decode identity.2.1.1)) <|
    pair readVcpuCount u16)

end ManifestHeader

/-! ## Manifest -/

def MAGIC : Bytes 8 := ⟨[0x53, 0x4f, 0x4d, 0x41, 0x53, 0x4e, 0x50, 0], rfl⟩

def SCHEMA_VERSION : U16 := 2

namespace Manifest

/-- Bounded, ascending, and none missing. -/
def checkSections (sections : List Section) : Except ManifestError Unit := do
  ensure (sections.length ≤ MAX_SECTIONS) (.tooManySections (min sections.length (2 ^ 16 - 1)))
  forNeighbours (fun previous next => ensure (previous.role.code < next.role.code)
    (.sections (.roleOrder previous.role.code next.role.code))) sections
  SectionRole.all.forM fun role =>
    ensure (role.isRequired → sections.any fun part => part.role = role) (.missingRequiredSection role)

end Manifest

/-- The state manifest of a capture. -/
structure Manifest where
  header : ManifestHeader
  sections : Valid Manifest.checkSections
deriving DecidableEq

namespace Manifest

def new (header : ManifestHeader) (sections : List Section) : Except ManifestError Manifest := do
  let sections ← validate checkSections sections
  return { header, sections }

def section? (manifest : Manifest) (role : SectionRole) : Option Section :=
  manifest.sections.1.find? fun part => part.role = role

def encode [Template.Sha256] (manifest : Manifest) : List UInt8 :=
  MAGIC.1 ++ (putWord SCHEMA_VERSION ++ (manifest.header.encode
    ++ (putLength (BitVec.ofNat 16 MAX_SECTIONS) manifest.sections.1.length
    ++ manifest.sections.1.flatMap Section.encode)))

def readMagic : Decoder ManifestError Unit :=
  refine (bytes 8) fun magic => ensure (magic = MAGIC) .badMagic

def readSchema : Decoder ManifestError Unit :=
  refine u16 fun schema => ensure (schema = SCHEMA_VERSION) (.unsupportedSchemaVersion schema)

/-- Everything before the sections: the header and how many sections follow. -/
def readHeader : Decoder ManifestError (ManifestHeader × { count : ℕ // count ≤ MAX_SECTIONS }) := do
  readMagic
  readSchema
  pair ManifestHeader.decode (atMost .tooManySections MAX_SECTIONS u16)

def fields [Template.Sha256] : Decoder ManifestError (ManifestHeader × List Section) := do
  let (header, count) ← readHeader
  let sections ← relabel .sections (Section.decodeSequence count.1 none)
  return (header, sections)

def decode [Template.Sha256] (bytes : List UInt8) : Except ManifestError Manifest := do
  let (header, sections) ← whole trailing fields bytes
  new header sections

/-- The role codes of the sections of an encoded manifest. -/
def sectionCodes (bytes : List UInt8) : Except ManifestError (List U16) :=
  whole trailing (do
    let (_, count) ← readHeader
    relabel .sections (Section.codes count.1)) bytes

end Manifest

end Soma.Kvm.Snapshot
