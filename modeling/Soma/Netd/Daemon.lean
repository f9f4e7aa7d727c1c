import Soma.Netd.Bundle

/-! # The broker daemon

One process serves one request after another. Its memory (`State`) holds the prepared bundles, the live
assignments and the slot each Instance and Launch operation holds; all of it is lost with the process.

* **`activate`** consumes the assignment's challenge before it verifies anything.
* **`claim`** answers an operation it already holds from that assignment, and otherwise assigns a bundle.
* **`handle`** serves one request; **`serve`** is the start of a process; **`broker`** is the service both
  belong to.
-/

namespace Soma.Netd

open Soma.Codec Soma.Lib Soma.Guest

/-! ## Memory -/

/-- One assignment and the peer that claimed it. -/
structure Owned where
  peer : U32
  assigned : Assigned
deriving DecidableEq

inductive Capability where
  | lifecycle
  | reconcile
deriving DecidableEq

def Request.capability : Request → Capability
  | .reconcile => .reconcile
  | _ => .lifecycle

/-- The user identities that may use each capability. -/
structure ControlAuthority where
  lifecycle : List U32
  reconcile : List U32

def ControlAuthority.permits (authority : ControlAuthority) (peer : U32) : Capability → Bool
  | .lifecycle => peer ∈ authority.lifecycle
  | .reconcile => peer ∈ authority.reconcile

structure State where
  broker : Broker
  authority : ControlAuthority
  pool : List SterileBundle
  assigned : Slot → Option Owned
  operations : InstanceId × OperationId → Option Slot

def Assigned.operation (assigned : Assigned) : InstanceId × OperationId :=
  (assigned.record.instance_, assigned.record.operation)

namespace State

variable (state : State)

def own (owned : Owned) : State :=
  { state with
    operations := Function.update state.operations owned.assigned.operation
      (some owned.assigned.record.slot),
    assigned := Function.update state.assigned owned.assigned.record.slot (some owned) }

/-- Takes an assignment out of the live map; its operation stays reserved. -/
def disown (slot : Slot) : State :=
  { state with assigned := Function.update state.assigned slot none }

def forget (operation : InstanceId × OperationId) : State :=
  { state with operations := Function.update state.operations operation none }

/-- Frees an operation whose release completed. -/
def forgetIf (complete : Bool) (operation : InstanceId × OperationId) : State :=
  if complete then state.forget operation else state

end State

def failed (error : Error) : Reply :=
  .failed (errorCode error)

/-! ## Activation -/

def require (holds : Bool) (drift : Drift) : Fallible Unit :=
  if holds then return () else throw (.drift drift)

/-- The kernel matches the ledger: everything exists, nothing is up or forwards yet. -/
def verify (slot : Slot) : Fallible Unit := do
  require (← perform (.pinExists slot)) .namespaceMissing
  require (← ask slot (.exists_ .tap)) .tapMissing
  require (← ask slot (.exists_ .sandboxVeth)) .vethMissing
  require (!(← ask slot (.isUp .tap))) .linkAlreadyUp
  require (!(← ask slot (.isUp .sandboxVeth))) .linkAlreadyUp
  require (!(← ask slot .forwarding)) .forwardingAlreadyEnabled
  require (← ask slot .sandboxTable) .rulesetMissing
  require (← ask slot (.exists_ .hostVeth)) .hostVethMissing
  require (← ask slot .hostTable) .hostRulesetMissing
  require (!(← ask slot .publicationTable)) .publicationRulesetPresent

/-- A loopback address is `127.0.0.0/8`. -/
def PublishedPort.bindsLoopback (port : PublishedPort) : Bool :=
  port.bind.any fun address : U32 => address >>> 24 = 127

/-- Installs the published mappings, if there are any. -/
def install (slot : Slot) (published : List PublishedPort) : Fallible Unit := do
  if published.isEmpty then return ()
  if published.any PublishedPort.bindsLoopback then
    let _ ← kernel slot .routeLocalnet
  let _ ← kernel slot (.applyPublication published)

/-- Raises the links, installs the routes, enables forwarding and publishes the ports. -/
def raise (assigned : Assigned) (receipt : ActivationReceipt) : Fallible Unit := do
  let slot := assigned.bundle.slot
  let leases := assigned.bundle.leases
  verify slot
  let _ ← kernel slot (.setUp .tap)
  let _ ← kernel slot (.setUp .sandboxVeth)
  let _ ← kernel slot (.addRoute .sandboxVeth (.v4 0 0) leases.transit.host)
  let _ ← kernel slot (.setUp .hostVeth)
  let _ ← kernel slot (.addRoute .hostVeth leases.guest.cidr leases.transit.guest)
  let _ ← kernel slot (.forwardingOn receipt)
  install slot assigned.published

/-- What a receipt for this record must be bound to. -/
def AssignmentRecord.scope (record : AssignmentRecord) : Option ActivationScope :=
  ActivationScope.new record.instance_.bytes record.operation.bytes record.generation.value record.intentDigest

variable (prims : Primitives)

/-- The receipt authenticates under the challenge for this record. -/
def AssignmentRecord.authenticates (record : AssignmentRecord) (challenge : ActivationChallenge)
    (receipt : ActivationReceipt) : Bool :=
  record.scope.any fun scope => challenge.verify prims.keyedTag scope receipt

/-- The challenge is spent whatever follows. -/
def activate (assigned : Assigned) (receipt : ActivationReceipt) :
    Op (Except Error Unit × Assigned) := do
  match assigned.activation with
  | none => return (.error (.unauthorized "activation challenge spent"), assigned)
  | some challenge =>
    let spent := { assigned with activation := none }
    match assigned.record.scope with
    | none => return (.error (.unauthorized "activation scope"), spent)
    | some scope =>
      if challenge.verify prims.keyedTag scope receipt then
        match ← (raise spent receipt).run with
        | .ok () => return (.ok (), { spent with activated := some receipt, active := true })
        | .error error => return (.error error, spent)
      else return (.error (.unauthorized "activation receipt"), spent)

/-! ## Claims -/

/-- Sends the TAP descriptor and builds the reply that names it. -/
def deliverDescriptor (peer : U32) (assigned : Assigned) : Fallible Reply := do
  match assigned.activation with
  | none => throw (.invalidState "activation")
  | some activation =>
    attempt (perform (.sendTap peer assigned.record.slot))
    return .claimed assigned.record.slot assigned.launch.bytes activation

def deliverReply (peer : U32) (assigned : Assigned) : Op Reply := do
  match ← (deliverDescriptor peer assigned).run with
  | .ok reply => return reply
  | .error error => return failed error

variable (state : State)

/-- Answers a claim whose operation this process already holds in `slot`. -/
def replay (peer : U32) (request : ClaimRequest) (slot : Slot) : Op Reply :=
  match state.assigned slot with
  | none => return failed .notAssigned
  | some owned =>
    if owned.peer ≠ peer then return failed (.unauthorized "assignment owner")
    else if owned.assigned.record.vsockCid ≠ request.vsockCid
        ∨ owned.assigned.record.intentDigest ≠ request.intent.digest prims then
      return failed .replayMismatch
    else deliverReply peer owned.assigned

/-- The next bundle: a prepared one, or one prepared now. -/
def takeBundle : Op (Except Error SterileBundle × State) := do
  match state.pool with
  | bundle :: pool => return (.ok bundle, { state with pool })
  | [] =>
    match ← perform .freshId with
    | .error error => return (.error error, state)
    | .ok id =>
      let (bundle, broker) ← prepare prims state.broker id
      return (bundle, { state with broker })

/-- Assigns a bundle and hands it over; what cannot be assigned or delivered is released. -/
def assignTo (peer : U32) (request : ClaimRequest) (bundle : SterileBundle) : Op (Reply × State) := do
  match ← (tryAssign prims state.broker bundle peer request).run with
  | .error error =>
    let _ ← releaseSterile state.broker.pid bundle []
    return (failed error, state)
  | .ok assigned =>
    match ← (deliverDescriptor peer assigned).run with
    | .ok reply => return (reply, state.own ⟨peer, assigned⟩)
    | .error error =>
      let _ ← release state.broker.pid assigned
      return (failed error, state)

def claim (peer : U32) (request : ClaimRequest) : Op (Reply × State) := do
  match state.operations (request.instance_, request.operation) with
  | some slot =>
    let reply ← replay prims state peer request slot
    return (reply, state)
  | none =>
    match ← takeBundle prims state with
    | (.error error, state) => return (failed error, state)
    | (.ok bundle, state) => assignTo prims state peer request bundle

/-! ## Reconciliation -/

inductive Disposition where
  | consistent
  | released
  | drifted (drift : Drift)
  | orphaned
deriving DecidableEq

variable (pins links tables : List Name)

/-- Compares one ledger entry with the kernel's names. -/
def disposition (entry : LedgerEntry) : Disposition :=
  let short := entry.record.slot.short
  let names := BundleNames.new short
  if entry.released then
    if short ∈ pins ∨ names.hostVeth ∈ links ∨ names.hostTable ∈ tables ∨ names.publicationTable ∈ tables
    then .orphaned else .released
  else if short ∉ pins then .drifted .namespaceMissing
  else if names.hostVeth ∉ links then .drifted .hostVethMissing
  else if names.hostTable ∉ tables then .drifted .hostRulesetMissing
  else .consistent

/-- The broker's own prefixes of table names. -/
def isSomaTable (name : Name) : Bool :=
  ['s', 'o', 'm', 'a', '_'].isPrefixOf name || ['s', 'o', 'm', 'a', 'h', '_'].isPrefixOf name
    || ['s', 'o', 'm', 'a', 'p', '_'].isPrefixOf name

/-- A host veth name: `sv` and eight characters. -/
def isSomaLink (name : Name) : Bool :=
  ['s', 'v'].isPrefixOf name && name.length = 10

/-- Objects that carry the broker's names and belong to no ledger entry. -/
def unownedCount (owned : List ShortName) : ℕ :=
  let names := owned.map BundleNames.new
  (pins.filter (· ∉ owned)).length
    + (links.filter fun name => isSomaLink name && name ∉ names.map BundleNames.hostVeth).length
    + (tables.filter fun name => isSomaTable name
        && name ∉ names.map BundleNames.sandboxTable ++ names.map BundleNames.hostTable
          ++ names.map BundleNames.publicationTable).length

def reconcile : Fallible Reply := do
  let pins ← attempt (perform .listPins)
  let links ← attempt (perform .listLinks)
  let tables ← attempt (perform .listTables)
  let entries ← entries prims
  let dispositions := entries.map (disposition pins links tables)
  return .reconciled
    (dispositions.filter fun d => d = .consistent ∨ d = .released).length
    (dispositions.filter fun d => d ≠ .consistent ∧ d ≠ .released ∧ d ≠ .orphaned).length
    (dispositions.filter (· = .orphaned)).length
    (unownedCount pins links tables (entries.map (·.record.slot.short)))

/-! ## Requests -/

def handleActivate (peer : U32) (slot : Slot) (receipt : ActivationReceipt) : Op (Reply × State) := do
  match state.assigned slot with
  | none => return (failed .notAssigned, state)
  | some owned =>
    let rest := state.disown slot
    if owned.peer ≠ peer then return (failed (.unauthorized "assignment owner"), rest.own owned)
    else if owned.assigned.activatedBy receipt then return (.activated, rest.own owned)
    else
      match ← activate prims owned.assigned receipt with
      | (.ok (), assigned) => return (.activated, rest.own ⟨owned.peer, assigned⟩)
      | (.error error, assigned) =>
        let evidence ← release state.broker.pid assigned
        return (failed error, rest.forgetIf evidence.complete assigned.operation)

def handleRelease (peer : U32) (slot : Slot) : Op (Reply × State) := do
  match state.assigned slot with
  | some owned =>
    let rest := state.disown slot
    if owned.peer ≠ peer then return (failed (.unauthorized "assignment owner"), rest.own owned)
    else
      let evidence ← release state.broker.pid owned.assigned
      return (.released evidence.complete, rest.forgetIf evidence.complete owned.assigned.operation)
  | none =>
    match ← (lookup prims slot).run with
    | .error error => return (failed error, state)
    | .ok entry =>
      if entry.record.owner ≠ peer then return (failed (.unauthorized "assignment owner"), state)
      else
        let evidence ← releaseRecord state.broker.pid entry.record
        return (.released evidence.complete,
          state.forgetIf evidence.complete (entry.record.instance_, entry.record.operation))

def handleReconcile : Op (Reply × State) := do
  match ← (reconcile prims).run with
  | .ok reply => return (reply, state)
  | .error error => return (failed error, state)

def handle (peer : U32) : Request → Op (Reply × State)
  | .claim instance_ operation vsockCid intent =>
    claim prims state peer ⟨instance_, operation, vsockCid, intent⟩
  | .activate slot receipt => handleActivate prims state peer slot receipt
  | .release slot => handleRelease prims state peer slot
  | .reconcile => handleReconcile prims state

/-- One request frame of an admitted peer and its reply frame; a reply that cannot be delivered ends the
connection and nothing else. -/
def serveRequest (peer : U32) (request : Request) (state : State) : Op State := do
  if state.authority.permits peer request.capability then
    let (reply, state) ← handle prims state peer request
    let _ ← perform (.reply peer request reply)
    return state
  else
    let _ ← perform (.reply peer request (failed (.unauthorized "peer capability")))
    return state

/-! ## The process -/

/-- How a process is started. -/
structure Options where
  profile : NetworkProfile
  authority : ControlAuthority
  generation : CleanupGeneration
  limit : ℕ
  prepared : ℕ
  pid : ℕ

variable (options : Options)

def Broker.open : Fallible Broker := do
  attempt (perform .probePrivilege)
  attempt (perform .openLedger)
  let ipam ← attempt (pure
    (Ipam.new options.profile.leases options.profile.transit options.generation options.limit))
  return ⟨options.profile, options.pid, ipam, 1⟩

/-- Prepares `n` bundles, the first one first. -/
def preparePool (prims : Primitives) : ℕ → Broker → Fallible (List SterileBundle × Broker)
  | 0, broker => pure ([], broker)
  | n + 1, broker => do
    let id ← attempt (perform .freshId)
    let (bundle, broker) ← prepare prims broker id
    let bundle ← attempt (pure bundle)
    let (pool, broker) ← preparePool prims n broker
    return (bundle :: pool, broker)

def start : Fallible State := do
  let broker ← Broker.open options
  let (pool, broker) ← preparePool prims options.prepared broker
  attempt (perform .bindSocket)
  return ⟨broker, options.authority, pool, fun _ => none, fun _ => none⟩

/-- The start of a process; a failure ends it. -/
def serve : Op (Option State) := do
  match ← (start prims options).run with
  | .ok state => return some state
  | .error _ => return none

def broker : Service Answer Choice World Options State (U32 × Request) where
  exec := exec
  revive _ := World.revive
  boot := serve prims
  serve request := serveRequest prims request.1 request.2

/-- A condition on the runs of the broker. -/
abbrev Guard := Service.Guard Choice World Options State (U32 × Request)

abbrev Config := Service.Config Answer World State (U32 × Request)

/-- The assumption on bundle identities, which are drawn at random: none is drawn twice. -/
def DrawsNew : (a : Act) → Choice a → World → Prop
  | .freshId, .ok id, w => id ∉ w.drawn
  | _, _, _ => True

/-- Every request, every choice of the environment and every crash. -/
def anyRun : Guard where
  act := DrawsNew
  request _ _ _ := True
  restart _ _ := True

end Soma.Netd
