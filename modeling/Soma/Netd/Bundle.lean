import Soma.Netd.Ledger

/-! # Preparing, assigning and releasing a bundle

* **`prepare`** takes the next leases and zone and builds the kernel objects of a sterile bundle; a
  failure tears down what was built.
* **`assign`** records ownership in the ledger, then reserves the ports, renders the ruleset for the
  intent and makes the launch identity and the activation challenge.
* **`teardown`** runs every step whatever failed before; a release is complete when no step failed and
  the final inspection found nothing.
-/

namespace Soma.Netd

open Soma.Codec Soma.Lib Soma.Guest

/-! ## Bundles -/

structure MacPair where
  guest : Bytes 6
  tap : Bytes 6
deriving DecidableEq

/-- A local unicast address from a digest: `first` and the first five bytes. -/
def macOf (first : UInt8) (digest : Bytes 32) : Bytes 6 :=
  ⟨first :: digest.1.take 5, by simp [digest.2]⟩

variable (prims : Primitives)

def deriveMacs (bundle : BundleId) : MacPair :=
  let digest := prims.sha256 ("soma-netd-mac-v1\x00".toUTF8.toList ++ bundle.bytes.1)
  ⟨macOf 0x02 digest, macOf 0x06 digest⟩

/-- One prepared, unassigned bundle; its names, its pin and its TAP follow from its identity. -/
structure SterileBundle where
  id : BundleId
  generation : CleanupGeneration
  leases : LeasePair
  macs : MacPair
  zone : ConntrackZone
deriving DecidableEq

def SterileBundle.slot (bundle : SterileBundle) : Slot :=
  ⟨bundle.id, bundle.generation⟩

def SterileBundle.names (bundle : SterileBundle) : BundleNames :=
  .new bundle.id.shortHex

structure PortReservation where
  publication : PortPublication
  hostPort : U16
deriving DecidableEq

/-- One bundle bound to an Instance. -/
structure Assigned where
  bundle : SterileBundle
  record : AssignmentRecord
  launch : LaunchNetwork
  reservations : List PortReservation
  published : List PublishedPort
  activation : Option ActivationChallenge
  activated : Option ActivationReceipt
  active : Bool
deriving DecidableEq

/-- This exact receipt already activated the assignment. -/
def Assigned.activatedBy (assigned : Assigned) (receipt : ActivationReceipt) : Bool :=
  assigned.activated = some receipt

structure Broker where
  profile : NetworkProfile
  pid : ℕ
  ipam : Ipam
  nextZone : U16

/-! ## Release -/

inductive StepResult where
  | removed
  | alreadyAbsent
  | removedWithParent
  | skipped
  | failed
deriving DecidableEq

structure ReleaseEvidence where
  ingress : ℕ
  published : StepResult
  forwarding : StepResult
  conntrack : StepResult
  routes : StepResult
  veth : StepResult
  tap : StepResult
  namespace_ : StepResult
  hostRuleset : StepResult
  ledger : Bool
  complete : Bool
  failure : Option Error
deriving DecidableEq

/-- Runs one teardown step; the first failure is kept and the sequence goes on. -/
def step (failure : Option Error) (run : Fallible StepResult) : Op (StepResult × Option Error) := do
  match ← run.run with
  | .ok result => return (result, failure)
  | .error error => return (.failed, failure <|> some error)

def removed (deleted : Bool) : StepResult :=
  if deleted then .removed else .alreadyAbsent

variable (slot : Slot)

def kernel (op : KernelOp) : Fallible Bool :=
  attempt (perform (.kernel slot op))

def ask (query : KernelQuery) : Fallible Bool :=
  attempt (perform (.query slot query))

/-- Deletes a table if it is there. -/
def deleteTable (query : KernelQuery) (op : KernelOp) : Fallible StepResult := do
  if ← ask slot query then
    let _ ← kernel slot op
    return removed true
  else return removed false

def forwardingStep : Fallible StepResult := do
  if ← perform (.pinExists slot) then
    let _ ← kernel slot .openPin
    let _ ← kernel slot .forwardingOff
    return .removed
  else return .skipped

def unpin : Fallible StepResult := do
  if ← perform (.pinExists slot) then
    let _ ← kernel slot .unmountPin
    let _ ← kernel slot .removePin
    return .removed
  else return .alreadyAbsent

/-- Nothing the bundle owned is left; each question is asked only if the one before found nothing. -/
def inspect : Fallible StepResult := do
  if ← perform (.pinExists slot) then return .failed
  if ← ask slot (.exists_ .hostVeth) then return .failed
  if ← ask slot .hostTable then return .failed
  if ← ask slot .publicationTable then return .failed
  return .removed

def teardown (zone : ConntrackZone) (tap : Bool) (reservations : List PortReservation) :
    Op ReleaseEvidence := do
  let (published, failure) ← step none (deleteTable slot .publicationTable .deletePublication)
  let (forwarding, failure) ← step failure (forwardingStep slot)
  let (conntrack, failure) ← step failure do
    attempt (perform (.flushZone slot zone))
    return .removed
  let (veth, failure) ← step failure do
    return removed (← kernel slot .deleteHostVeth)
  let (namespace_, failure) ← step failure (unpin slot)
  let (hostRuleset, failure) ← step failure (deleteTable slot .hostTable .deleteHostTable)
  let (inspected, failure) ← step failure (inspect slot)
  return { ingress := reservations.length, published, forwarding, conntrack, routes := .removedWithParent,
           veth, tap := if tap then .removed else .skipped, namespace_, hostRuleset, ledger := false,
           complete := failure.isNone ∧ inspected = .removed, failure }

variable (pid : ℕ)

/-- A complete teardown is followed by the release record. -/
def settle (slot : Slot) (evidence : ReleaseEvidence) : Op ReleaseEvidence := do
  if evidence.complete then
    perform (.settled slot)
    match ← (recordRelease pid slot).run with
    | .ok () => return { evidence with ledger := true }
    | .error _ => return { evidence with ledger := false }
  else return evidence

def releaseSterile (bundle : SterileBundle) (reservations : List PortReservation) :
    Op ReleaseEvidence := do
  let evidence ← teardown bundle.slot bundle.zone true reservations
  settle pid bundle.slot evidence

def release (assigned : Assigned) : Op ReleaseEvidence :=
  releaseSterile pid assigned.bundle assigned.reservations

/-- Releases what a record still owns; the TAP is gone with the process that held it. -/
def releaseRecord (record : AssignmentRecord) : Op ReleaseEvidence := do
  let evidence ← teardown record.slot record.zone false []
  settle pid record.slot evidence

/-! ## Preparation -/

/-- A fresh namespace, pinned under the bundle's short name. -/
def createNamespace : Fallible Unit := do
  let _ ← kernel slot .createPin
  attempt do
    match ← (kernel slot .unshareAndPin).run with
    | .ok _ => return .ok ()
    | .error error =>
      let _ ← (kernel slot .removePin).run
      return .error error
  let _ ← kernel slot .openPin

/-- Every kernel object of one sterile bundle, with forwarding off and a fully denied ruleset. -/
def build (profile : NetworkProfile) (slot : Slot) (leases : LeasePair) (zone : ConntrackZone) : Fallible Unit := do
  let names := BundleNames.new slot.short
  let macs := deriveMacs prims slot.bundle
  let _ ← kernel slot .createVeth
  let _ ← kernel slot .disableIpv6
  let _ ← kernel slot .forwardingOff
  let _ ← kernel slot (.createTap macs.tap leases.guest.host)
  let _ ← kernel slot (.setAddress .sandboxVeth leases.transit.guest)
  let _ ← kernel slot (.applySandbox
    ⟨names, leases.guest, macs.guest, .denied prims profile, profile.protected_, []⟩)
  let _ ← kernel slot (.setAddress .hostVeth leases.transit.host)
  let _ ← kernel slot (.applyHost ⟨names, leases.guest, profile.uplink, zone, profile.protected_⟩)

variable (broker : Broker)

/-- The leases and the zone of the next bundle; what was counted up stays so when the rest fails. -/
def Broker.reserve : Except Error (LeasePair × ConntrackZone) × Broker :=
  match broker.ipam.allocate with
  | (.error error, ipam) => (.error error, { broker with ipam })
  | (.ok leases, ipam) =>
    match NonZero.new "zone" broker.nextZone with
    | .error error => (.error error, { broker with ipam })
    | .ok zone =>
      if broker.nextZone = BitVec.allOnes 16 then (.error .poolExhausted, { broker with ipam })
      else (.ok (leases, zone), { broker with ipam, nextZone := broker.nextZone + 1 })

def prepare (id : BundleId) : Op (Except Error SterileBundle × Broker) := do
  match broker.reserve with
  | (.error error, broker) => return (.error error, broker)
  | (.ok (leases, zone), broker) =>
    let slot : Slot := ⟨id, broker.ipam.generation⟩
    match ← (createNamespace slot).run with
    | .error error => return (.error error, broker)
    | .ok () =>
      match ← (build prims broker.profile slot leases zone).run with
      | .ok () =>
        perform (.prepared slot leases zone)
        return (.ok ⟨id, slot.generation, leases, deriveMacs prims id, zone⟩, broker)
      | .error error =>
        let _ ← teardown slot zone false []
        return (.error error, broker)

/-! ## Assignment -/

/-- The clock in nanoseconds; zero is no sample. -/
def nowNanos : Fallible U64 := do
  let nanos ← attempt (perform .clock)
  if nanos = 0 then throw (.kernel .clock 0) else return nanos

/-- Reserves every publication or none. -/
def reserve : List PortPublication → Fallible (List PortReservation)
  | [] => pure []
  | publication :: publications => do
    let hostPort ← attempt (perform (.bindPort publication))
    let held ← reserve publications
    return ⟨publication, hostPort⟩ :: held

/-- The mapping of one reservation onto the guest; an IPv6 bind has none. -/
def publishPort (guest : U32) (reservation : PortReservation) : Except Error PublishedPort :=
  match reservation.publication.bind with
  | .ipv4 address _ =>
    .ok ⟨if address = 0 then none else some address, reservation.hostPort, guest,
      reservation.publication.guestPort.value, reservation.publication.protocol⟩
  | .ipv6 .. => .error (.unimplemented "ingress forwarding for an IPv6 bind")

/-- The resolver the guest is told: the first declared one, or the gateway. -/
def launchResolver (intent : NetworkIntent) (gateway : U32) : U32 :=
  intent.resolvers.head?.getD gateway

structure ClaimRequest where
  instance_ : InstanceId
  operation : OperationId
  vsockCid : U32
  intent : NetworkIntent
deriving DecidableEq

/-- The record of a claim's assignment, as it is first written. -/
def Broker.recordOf (bundle : SterileBundle) (owner : U32) (request : ClaimRequest) (timeSampleNanos : U64) :
    AssignmentRecord where
  bundle := bundle.id
  generation := bundle.generation
  instance_ := request.instance_
  operation := request.operation
  owner := owner
  profile := broker.profile.digest prims
  intentDigest := request.intent.digest prims
  guestMac := bundle.macs.guest
  leaseIndex := BitVec.ofNat 32 bundle.leases.guest.index
  transitIndex := BitVec.ofNat 32 bundle.leases.transit.index
  zone := bundle.zone
  vsockCid := request.vsockCid
  timeSampleNanos := timeSampleNanos
  intent := request.intent

/-- Ownership is recorded before anything changes; a replayed record takes the place of the new one. -/
def recordClaim (bundle : SterileBundle) (owner : U32) (request : ClaimRequest) : Fallible AssignmentRecord := do
  let timeSampleNanos ← nowNanos
  let record := broker.recordOf prims bundle owner request timeSampleNanos
  match ← recordAssignment prims broker.pid record with
  | .recorded => return record
  | .replayed => return (← lookup prims bundle.slot).record

def tryAssign (bundle : SterileBundle) (owner : U32) (request : ClaimRequest) : Fallible Assigned := do
  let record ← recordClaim prims broker bundle owner request
  let reservations ← reserve request.intent.publications
  let published ← attempt (pure (reservations.mapM (publishPort bundle.leases.guest.guest)))
  let _ ← kernel bundle.slot (.applySandbox
    ⟨bundle.names, bundle.leases.guest, bundle.macs.guest, request.intent, broker.profile.protected_,
      published⟩)
  match LaunchNetwork.new ⟨record.vsockCid, record.generation.value, record.guestMac,
      bundle.leases.guest.guest, 30, bundle.leases.guest.host,
      launchResolver request.intent bundle.leases.guest.host, record.timeSampleNanos⟩ with
  | none => throw (.invalidState "launch network")
  | some launch =>
    let activation ← attempt (perform .challenge)
    perform (.issued bundle.slot activation)
    return ⟨bundle, record, launch, reservations, published, some activation, none, false⟩

end Soma.Netd
