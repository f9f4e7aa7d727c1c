import Soma.Host.Pool.Machine

/-! # The operations of a pool

The operations as programs over the atomic actions of `Soma.Host.Pool.Machine`, in the order of the
source and with every error path. Between two actions any other thread may act.

* teardown: `teardown`, `destroyClaiming`, `destroyOwned`;
* construction: `constructOne`;
* claims: `acquire`, `claim`, and what a client does with a grant (`useGrant`);
* the transfer: `admitGrant`, `deliver`, `commit`;
* lifecycle: `start`, `release`, `evictSterile`;
* restart: `reconcile`.

A worker handle is a value of the program; it is used at most once because the next action hands back
its successor.
-/

namespace Soma.Host.Pool

open Soma.Lib

/-- An operation: a program over the pool's actions. -/
abbrev Op := Prog Answer

/-- One action. -/
def perform (a : Act) : Op (Answer a) :=
  Prog.call a

@[simp] theorem perform_bind {α : Type} (a : Act) (k : Answer a → Op α) : (perform a >>= k) = .act a k :=
  rfl

/-! ### Teardown -/

/-- Which broker resources a worker still holds when it is destroyed. -/
inductive Resources
  | sterile (token : SterileToken)
  | assigned (refs : ResourceRefs)
  | none
deriving DecidableEq, Repr

/-- Everything a destroyed worker still holds. -/
structure Holdings where
  handle : Option LauncherHandle
  identity : WorkerIdentity
  resources : Resources
  reservation : Option Capacity.Reservation

/-- Returns a reservation, if there is one. -/
def releaseCapacity : Option Capacity.Reservation → Op Unit
  | none => pure ()
  | some reservation => perform (.releaseCapacity reservation)

/-- Marks a reservation launched, if there is one. -/
def capacityLaunched : Option Capacity.Reservation → Op (Option Capacity.Reservation)
  | none => pure none
  | some reservation => do
    let reservation ← perform (.capacityLaunched reservation)
    pure (some reservation)

/-- Gives the broker resources back. -/
def releaseResources : Resources → Op ResourceRelease
  | .sterile token => perform (.env (.releaseSterile token))
  | .assigned refs => perform (.env (.release refs))
  | .none => pure noResources

/-- Destroys the process behind a handle, or the recorded one. -/
def destroyProcess (handle : Option LauncherHandle) (identity : WorkerIdentity) : Op DestroyOutcome :=
  match handle with
  | some handle => perform (.env (.destroy handle))
  | none =>
    if identity.process ≠ 0 then perform (.env (.terminate identity)) else pure noProcess

/-- Destroys a payload nobody will use. -/
def discardPrepared : Option Prepared → Op Unit
  | none => pure ()
  | some prepared => do
    let _ ← destroyProcess (some prepared.handle) absent
    let _ ← releaseResources (.sterile prepared.sterile)
    pure ()

section operations

variable (setup : Setup) (kind : RecordKind)

def Setup.record (worker : Worker) : Record where
  kind := kind
  worker := worker.id
  leaseGeneration := worker.generation
  key := setup.digest

variable (worker : Worker) (handle : Option LauncherHandle)

/-- Closes a worker in `Destroying`: records, destroys, releases, records, finishes. -/
def teardown (identity : WorkerIdentity) (resources : Resources)
    (reason : DestroyReason) : Op ReleaseEvidence := do
  let opened ← perform (.append
    { setup.record .destroying worker with detail := reason.code, identity := some identity })
  let destroyed ← destroyProcess handle identity
  let released ← releaseResources resources
  let closed ← perform (.append { setup.record .dead worker with detail := reason.code })
  let _ ← perform (.advance worker .dead worker.generation)
  pure ⟨worker.id, worker.generation, reason, destroyed, released, opened.isOk && closed.isOk⟩

/-- Destroys what is left of a worker that another actor moved. -/
def orphan (resources : Resources) : Op Disposition := do
  let destroyed ← destroyProcess handle absent
  let released ← releaseResources resources
  pure ⟨destroyed, released⟩

/-- Tears a claimed worker down, if the compare-and-swap that destroys it was not lost. -/
def closeClaiming (held : Holdings) (reason : DestroyReason) : Except StateRace Worker → Op Disposition
  | .ok worker => do
    let evidence ← teardown setup worker held.handle held.identity held.resources reason
    pure ⟨evidence.destroyed, evidence.released⟩
  | .error _ => orphan held.handle held.resources

/-- Destroys a claimed worker and returns its reservation. -/
def destroyClaiming (held : Holdings) (reason : DestroyReason) : Op Disposition := do
  let moved ← perform (.advance worker .destroying worker.generation)
  let disposition ← closeClaiming setup held reason moved
  releaseCapacity held.reservation
  pure disposition

/-- Returns the reservation of an Instance's worker and destroys it. -/
def destroyOwned (owned : Owned) (reason : DestroyReason) : Op ReleaseEvidence := do
  releaseCapacity owned.reservation
  let moved ← perform (.advance owned.worker .destroying owned.worker.generation)
  match moved with
  | .ok worker => teardown setup worker owned.handle owned.identity (.assigned owned.refs) reason
  | .error _ => do
    let disposition ← orphan owned.handle (.assigned owned.refs)
    pure ⟨owned.worker.id, owned.worker.generation, reason, disposition.destroyed,
      disposition.released, false⟩

/-! ### Construction -/

/-- Unwinds a construction whose worker has a record. -/
def failConstruction (sterile : Option SterileToken) (fault : ConstructionFault) :
    Op ConstructionFailure := do
  let _ ← destroyProcess handle absent
  let _ ← releaseResources (sterile.elim .none .sterile)
  let _ ← perform (.append (setup.record .constructFailed worker))
  let _ ← perform (.advance worker .dead worker.generation)
  pure ⟨some worker.id, fault⟩

/-- Publishes a constructed worker: records it, hands its payload over, and makes it claimable. -/
def publish (handle : LauncherHandle) (sterile : SterileToken) (refs : ResourceRefs) :
    Op (Except ConstructionFailure WorkerId) := do
  let recorded ← perform (.append
    { setup.record .sterile worker with identity := some handle, resources := refs })
  match recorded with
  | .error error => do
    let failure ← failConstruction setup worker (some handle) (some sterile) (.ledger error)
    pure (.error failure)
  | .ok () => do
    perform (.prepare worker.id ⟨handle, sterile, refs, handle⟩)
    let moved ← perform (.advance worker .sterile worker.generation)
    match moved with
    | .ok _ => pure (.ok worker.id)
    | .error race => do
      let prepared ← perform (.takePrepared worker.id)
      discardPrepared prepared
      pure (.error ⟨some worker.id, .state race⟩)

/-- Constructs the process and the resources of an opened worker. -/
def constructParts : Op (Except ConstructionFailure WorkerId) := do
  let constructed ← perform (.env (.construct worker.id))
  match constructed with
  | .error fault => do
    let failure ← failConstruction setup worker none none (.launcher fault)
    pure (.error failure)
  | .ok handle => do
    let prepared ← perform (.env (.prepare worker.id))
    match prepared with
    | .error fault => do
      let failure ← failConstruction setup worker (some handle) none (.resources fault)
      pure (.error failure)
    | .ok (sterile, refs) => do
      let late ← perform (.env .constructionDeadlinePassed)
      if late then do
        let failure ← failConstruction setup worker (some handle) (some sterile) .deadline
        pure (.error failure)
      else publish setup worker handle sterile refs

/-- A construction inside its concurrency slot. -/
def constructReserved : Op (Except ConstructionFailure WorkerId) := do
  let unreconciled ← perform .needsReconcile
  if unreconciled then pure (.error ⟨none, .unreconciled⟩)
  else do
    let id ← perform .freshWorkerId
    let added ← perform (.addSlot id setup.digest .constructing LeaseGeneration.first)
    match added with
    | .error overloaded => pure (.error ⟨none, .overloaded overloaded⟩)
    | .ok slot => do
      let worker ← perform (.openWorker slot)
      let recorded ← perform (.append (setup.record .constructing worker))
      match recorded with
      | .error error => do
        let _ ← perform (.advance worker .dead worker.generation)
        pure (.error ⟨some id, .ledger error⟩)
      | .ok () => constructParts setup worker

/-- Constructs exactly one sterile worker inside one concurrency slot. -/
def constructOne : Op (Except ConstructionFailure WorkerId) := do
  let reserved ← perform .beginConstruct
  match reserved with
  | .error current =>
    pure (.error ⟨none,
      .overloaded ⟨.replenishConcurrency, current, setup.limits.replenishConcurrency⟩⟩)
  | .ok () => do
    let result ← constructReserved setup
    perform .endConstruct
    pure result

/-! ### Claims -/

/-- The winner's grant. -/
structure Claimed where
  worker : Worker
  prepared : Prepared
  reservation : Option Capacity.Reservation
  fingerprint : Fingerprint
  outcome : ClaimOutcome

variable (claimed : Claimed)

/-- What a granted worker holds before its resources are assigned. -/
def Claimed.holdings : Holdings where
  handle := some claimed.prepared.handle
  identity := claimed.prepared.identity
  resources := .sterile claimed.prepared.sterile
  reservation := claimed.reservation

/-- The single claim compare-and-swap of a slot; the generation is bumped. -/
def tryClaim (slot : ℕ) : Op (Option Worker) := do
  let observed ← perform (.observe slot)
  if observed.phase ≠ .sterile then pure none
  else
    match observed.generation.next with
    | .error _ => pure none
    | .ok generation => do
      let moved ← perform (.advance observed .claiming generation)
      pure moved.toOption

def firstClaim : List ℕ → Op (Option Worker)
  | [] => pure none
  | slot :: slots => do
    let won ← tryClaim slot
    match won with
    | some worker => pure (some worker)
    | none => firstClaim slots

/-- The refusal of an exhausted pool. -/
def exhausted : Op ClaimError := do
  let occupancy ← perform .occupancy
  pure (.exhausted ⟨setup.digest, occupancy, setup.limits.max, setup.limits.exhausted⟩)

def tryClaimFound : Option ℕ → Op (Option Worker)
  | none => pure none
  | some slot => tryClaim slot

def claimConstructed (id : WorkerId) : Op (Except ClaimError (Worker × ClaimClass)) := do
  let found ← perform (.findSlot id)
  let won ← tryClaimFound found
  match won with
  | some worker => pure (.ok (worker, .onDemand))
  | none => do
    let error ← exhausted setup
    pure (.error error)

/-- Wins one sterile slot, constructing a worker inline when the pool allows it. -/
def acquire : Op (Except ClaimError (Worker × ClaimClass)) := do
  let slots ← perform .slots
  let won ← firstClaim slots
  match won with
  | some worker => pure (.ok (worker, .prepared))
  | none =>
    match setup.limits.exhausted with
    | .reject => do
      let error ← exhausted setup
      pure (.error error)
    | .constructInline => do
      let constructed ← constructOne setup
      match constructed with
      | .error failure => pure (.error (.construction failure))
      | .ok id => claimConstructed setup id

variable (claimClass : ClaimClass)

def claimRecord (prepared : Prepared) (operation : OperationId)
    (fingerprint : Fingerprint) : Record :=
  { setup.record .claiming worker with
    detail := claimClass.code
    operation := some operation
    fingerprint := some fingerprint
    identity := some prepared.identity
    resources := prepared.refs }

/-- Takes the payload of a won worker and records the claim. -/
def recordClaim (reservation : Option Capacity.Reservation) (operation : OperationId)
    (fingerprint : Fingerprint) : Op (Except ClaimError (ClaimOutcome × Option Claimed)) := do
  let prepared ← perform (.takePrepared worker.id)
  match prepared with
  | none => do
    let _ ← destroyClaiming setup worker ⟨none, absent, .none, reservation⟩ .ledger
    perform (.clearBinding operation)
    pure (.error (.missingPayload worker.id))
  | some prepared => do
    let outcome : ClaimOutcome := ⟨worker.id, worker.generation, operation, claimClass⟩
    let claimed : Claimed := ⟨worker, prepared, reservation, fingerprint, outcome⟩
    let recorded ← perform (.append
      (claimRecord setup worker claimClass prepared operation fingerprint))
    match recorded with
    | .error error => do
      let _ ← destroyClaiming setup worker claimed.holdings .ledger
      perform (.clearBinding operation)
      pure (.error (.ledger error))
    | .ok () => do
      perform (.finishBinding operation fingerprint outcome)
      pure (.ok (outcome, some claimed))

variable (operation : OperationId) (fingerprint : Fingerprint)

/-- Claims exactly one sterile worker for an operation. -/
def claim : Op (Except ClaimError (ClaimOutcome × Option Claimed)) := do
  let bound ← perform (.reserveBinding operation fingerprint)
  match bound with
  | .error error => pure (.error error)
  | .ok (some outcome) => pure (.ok (outcome, none))
  | .ok none => do
    let reserved ← perform .reserveCapacity
    match reserved with
    | .error rejection => do
      perform (.clearBinding operation)
      pure (.error (.capacity rejection))
    | .ok reservation => do
      let won ← acquire setup
      match won with
      | .error error => do
        releaseCapacity (some reservation)
        perform (.clearBinding operation)
        pure (.error error)
      | .ok (worker, claimClass) =>
        recordClaim setup worker claimClass (some reservation) operation fingerprint

/-- A claim as its client sees it. -/
def claimReported : Op (Except ClaimError (ClaimOutcome × Option Claimed)) := do
  let result ← claim setup operation fingerprint
  perform (.report (.claimed operation fingerprint
    (result.map fun answer => (answer.1, answer.2.isSome))))
  pure result

/-! ### The transfer -/

/-- The live state of one transfer. -/
structure Attempt where
  worker : Worker
  handle : LauncherHandle
  identity : WorkerIdentity
  refs : ResourceRefs
  reservation : Option Capacity.Reservation

/-- A record of the transfer, with the references the attempt holds. -/
def transferRecord (attempt : Attempt) (intent : AssignmentIntent) : Record :=
  { setup.record kind attempt.worker with
    operation := some intent.operation
    instanceId := some intent.instanceId
    identity := some attempt.identity
    resources := attempt.refs }

variable (attempt : Attempt)

/-- Destroys the worker of a failed transfer. -/
def abort (step : Option TransferStep) (fault : TransferFault) : Op TransferFailure := do
  let reason := if fault = .claimDeadline then .claimDeadline else .transferFault
  let disposition ← destroyClaiming setup attempt.worker
    ⟨some attempt.handle, attempt.identity, .assigned attempt.refs, attempt.reservation⟩ reason
  pure ⟨attempt.worker.id, step, fault, disposition⟩

/-- Refuses a grant: its worker is destroyed with its sterile resources. -/
def refuseGrant (reason : DestroyReason) (fault : TransferFault) : Op TransferFailure := do
  let disposition ← destroyClaiming setup claimed.worker claimed.holdings reason
  pure ⟨claimed.worker.id, none, fault, disposition⟩

variable (intent : AssignmentIntent)

/-- Assigns fresh resources and records them before the first frame. -/
def assignResources : Op (Except TransferFailure (Attempt × LaunchNetwork)) := do
  let assigned ← perform (.env (.assign claimed.prepared.sterile intent))
  match assigned with
  | .error fault => do
    let disposition ← destroyClaiming setup claimed.worker
      { claimed.holdings with resources := .none } .transferFault
    pure (.error ⟨claimed.worker.id, none, .resource fault, disposition⟩)
  | .ok (refs, launch) => do
    let attempt : Attempt :=
      ⟨claimed.worker, claimed.prepared.handle, claimed.prepared.identity, refs, claimed.reservation⟩
    let recorded ← perform (.append (transferRecord setup .assigning attempt intent))
    match recorded with
    | .error error => do
      let failure ← abort setup attempt none (.ledger error)
      pure (.error failure)
    | .ok () => pure (.ok (attempt, launch))

/-- Checks the claim against the intent and the deadline and assigns resources. -/
def admitGrant : Op (Except TransferFailure (Attempt × LaunchNetwork)) := do
  if setup.fingerprint intent ≠ claimed.fingerprint then do
    let failure ← refuseGrant setup claimed .intentMismatch .rejected
    pure (.error failure)
  else do
    let late ← perform (.env .claimDeadlinePassed)
    if late then do
      let failure ← refuseGrant setup claimed .claimDeadline .claimDeadline
      pure (.error failure)
    else assignResources setup claimed intent

/-- Hands one frame over and records its acknowledgement. -/
def deliverFrame (step : TransferStep) : Op (Except TransferFault Unit) := do
  let late ← perform (.env .claimDeadlinePassed)
  if late then pure (.error .claimDeadline)
  else do
    let delivered ← perform (.env (.deliver attempt.handle step))
    match delivered with
    | .error fault => pure (.error fault)
    | .ok () => do
      let recorded ← perform (.append
        { transferRecord setup .transferStep attempt intent with detail := step.code })
      pure (recorded.mapError .ledger)

/-- Delivers one frame; a fault is recorded. -/
def deliver (step : TransferStep) : Op (Except TransferFault Unit) := do
  let result ← deliverFrame setup attempt intent step
  match result with
  | .ok () => pure (.ok ())
  | .error fault => do
    let _ ← perform (.append
      { setup.record .transferFault attempt.worker with
        detail := step.code
        operation := some intent.operation
        instanceId := some intent.instanceId })
    pure (.error fault)

/-- Delivers the frames in order, counting the acknowledged ones. -/
def deliverAll (attempt : Attempt) (intent : AssignmentIntent) :
    List TransferStep → ℕ → Op (Except TransferFailure ℕ)
  | [], steps => pure (.ok steps)
  | step :: rest, steps => do
    let delivered ← deliver setup attempt intent step
    match delivered with
    | .error fault => do
      let failure ← abort setup attempt (some step) fault
      pure (.error failure)
    | .ok () => deliverAll attempt intent rest (steps + 1)

/-- Makes an assigned worker the pool's, once its record is stored. -/
def ownAssigned (launch : LaunchNetwork) (worker : Worker) : Op (Except TransferFailure Unit) := do
  let reservation ← capacityLaunched attempt.reservation
  let owned : Owned :=
    ⟨worker, some attempt.handle, false, attempt.identity, attempt.refs, intent.instanceId,
      intent.operation, reservation, some launch⟩
  let recorded ← perform (.append (transferRecord setup .assigned attempt intent))
  match recorded with
  | .error error => do
    let evidence ← destroyOwned setup owned .ledger
    pure (.error ⟨worker.id, some .commit, .ledger error, ⟨evidence.destroyed, evidence.released⟩⟩)
  | .ok () => do
    perform (.own worker.id owned)
    pure (.ok ())

/-- Assigns the worker to its Instance after one last check of the deadline. -/
def commit (launch : LaunchNetwork) : Op (Except TransferFailure Unit) := do
  let late ← perform (.env .claimDeadlinePassed)
  if late then do
    let failure ← abort setup attempt (some .commit) .claimDeadline
    pure (.error failure)
  else do
    let moved ← perform (.advance attempt.worker .assigned attempt.worker.generation)
    match moved with
    | .error race => do
      let disposition ← orphan (some attempt.handle) (.assigned attempt.refs)
      releaseCapacity attempt.reservation
      pure (.error ⟨attempt.worker.id, some .commit, .state race, disposition⟩)
    | .ok worker => ownAssigned setup attempt intent launch worker

/-- Transfers fresh authority into the claimed worker exactly once. -/
def transfer : Op (Except TransferFailure TransferEvidence) := do
  let admitted ← admitGrant setup claimed intent
  match admitted with
  | .error failure => pure (.error failure)
  | .ok (attempt, launch) => do
    let seeded ← perform (.env .entropy)
    if seeded then do
      let delivered ← deliverAll setup attempt intent TransferStep.all 0
      match delivered with
      | .error failure => pure (.error failure)
      | .ok steps => do
        let committed ← commit setup attempt intent launch
        pure (committed.map fun () =>
          ⟨attempt.worker.id, attempt.worker.generation, intent.instanceId, intent.operation, launch,
            steps⟩)
    else do
      let failure ← abort setup attempt none .entropy
      pure (.error failure)

/-- What a client does with its grant: transfer it, present it to another pool, or drop it. -/
def useGrant : Op Unit := do
  let use ← perform (.env .useGrant)
  match use with
  | .transfer intent => do
    let _ ← transfer setup claimed intent
    pure ()
  | .presentElsewhere => do
    let _ ← refuseGrant setup claimed .foreignPool .foreignPool
    pure ()
  | .drop => do
    let _ ← destroyClaiming setup claimed.worker claimed.holdings .dropped
    pure ()

def claimAndUse : Op Unit := do
  let result ← claimReported setup operation fingerprint
  match result with
  | .ok (_, some claimed) => useGrant setup claimed
  | _ => pure ()

/-! ### Lifecycle -/

def runningRecord (owned : Owned) : Record :=
  { setup.record .running owned.worker with
    operation := some owned.operation
    instanceId := some owned.instanceId
    resources := owned.refs
    identity := some owned.identity }

/-- The launcher's part of a start; a worker without a handle has nothing to start. -/
def startProcess : Option LauncherHandle → Op (Except StartFault Unit)
  | none => pure (.ok ())
  | some handle => perform (.env (.start handle))

/-- Starts an assigned worker's Instance; a start fault destroys the worker. -/
def start (worker : WorkerId) : Op (Except LifecycleError Unit) := do
  let begun ← perform (.beginStart worker)
  match begun with
  | .error error => pure (.error error)
  | .ok handle => do
    let started ← startProcess handle
    let ended ← perform (.endStart worker handle started)
    match ended, started with
    | .unknown, _ => pure (.error (.unknown worker))
    | .faulted owned, .error fault => do
      let _ ← destroyOwned setup owned .startFault
      pure (.error (.start fault))
    | .running owned, _ => do
      let recorded ← perform (.append (runningRecord setup owned))
      pure (recorded.mapError .ledger)
    | .raced race, _ => pure (.error (.state race))
    | _, _ => pure (.error (.phase worker .assigned))

/-- Releases an assigned or running worker; it is destroyed, never reused. -/
def release (worker : WorkerId) : Op (Except LifecycleError ReleaseEvidence) := do
  let taken ← perform (.disown worker)
  match taken with
  | .error error => pure (.error error)
  | .ok owned => do
    let evidence ← destroyOwned setup owned .released
    pure (.ok evidence)

def tryEvict (slot : ℕ) : Op (Option Worker) := do
  let observed ← perform (.observe slot)
  if observed.phase ≠ .sterile then pure none
  else do
    let moved ← perform (.advance observed .destroying observed.generation)
    pure moved.toOption

/-- Evicts the sterile workers among some slots. -/
def evictSlots : List ℕ → Op (List ReleaseEvidence)
  | [] => pure []
  | slot :: slots => do
    let moved ← tryEvict slot
    match moved with
    | none => evictSlots slots
    | some worker => do
      let prepared ← perform (.takePrepared worker.id)
      let evidence ← teardown setup worker (prepared.map (·.handle))
        (prepared.elim absent (·.identity)) (prepared.elim .none fun p => .sterile p.sterile) .evicted
      let rest ← evictSlots slots
      pure (evidence :: rest)

def evictSterile : Op (List ReleaseEvidence) := do
  let slots ← perform .slots
  evictSlots setup slots

/-! ### Restart -/

variable (entry : Entry)

/-- Adopts a restored worker whose entry names its Instance, operation and process. -/
def adopt (worker : Worker) : Op (Bool × Bool) :=
  match entry.instanceId, entry.operation, entry.identity with
  | some instanceId, some operation, some identity => do
    let reserved ← perform .reserveCapacity
    let reservation ← capacityLaunched reserved.toOption
    perform (.own entry.worker
      ⟨worker, none, false, identity, entry.resources, instanceId, operation, reservation, none⟩)
    pure (true, reservation.isSome)
  | _, _, _ => pure (false, false)

/-- Adopts a running Instance without a handle: whether it fit, and whether its capacity was
reserved again. -/
def retain : Op (Bool × Bool) := do
  let added ← perform (.addSlot entry.worker entry.key .running entry.leaseGeneration)
  match added with
  | .error _ => pure (false, false)
  | .ok slot => do
    let attached ← perform (.attach slot .running)
    match attached with
    | none => pure (false, false)
    | some worker => adopt entry worker

/-- Probes the recorded process, if there is one. -/
def probe : Option WorkerIdentity → Op (Option Liveness)
  | none => pure none
  | some identity => do
    let liveness ← perform (.env (.probe identity))
    pure (some liveness)

/-- Terminates a recorded process that is alive or unknown. -/
def terminateSuspect (identity : Option WorkerIdentity) (liveness : Option Liveness) :
    Op (Option DestroyOutcome) :=
  match identity, liveness with
  | some identity, some .alive | some identity, some .unknown => do
    let outcome ← perform (.env (.terminate identity))
    pure (some outcome)
  | _, _ => pure none

variable (liveness : Option Liveness)

/-- Closes a suspect that is not retained. -/
def closeSuspect : Op (ReconcileDisposition × Bool × Bool) := do
  let destroyed ← terminateSuspect entry.identity liveness
  let released ← perform (.env (.release entry.resources))
  pure (if destroyed.isSome then .terminated else .released,
    destroyed.all (·.complete) && released.complete, false)

/-- Decides one suspect: disposition, completeness, and whether capacity was restored. -/
def decideSuspect : Op (ReconcileDisposition × Bool × Bool) :=
  if entry.phase = .running ∧ liveness = some .alive then do
    let retained ← retain entry
    pure (.retained, retained)
  else closeSuspect entry liveness

def entryRecord (entry : Entry) : Record where
  kind := kind
  worker := entry.worker
  leaseGeneration := entry.leaseGeneration
  key := setup.digest

def suspectRecord : Record :=
  { entryRecord setup .suspect entry with detail := entry.phase.code }

def reconciledRecord (disposition : ReconcileDisposition) : Record :=
  { entryRecord setup .reconciled entry with
    detail := disposition.code
    identity := some (entry.identity.getD absent)
    resources := entry.resources }

def reconcileSuspect : Op (Except LedgerError ReconcileFinding) := do
  let marked ← perform (.append (suspectRecord setup entry))
  match marked with
  | .error error => pure (.error error)
  | .ok () => do
    let liveness ← probe entry.identity
    let resources ← perform (.env (.verify entry.resources))
    let decision ← decideSuspect entry liveness
    let recorded ← perform (.append (reconciledRecord setup entry decision.1))
    pure (recorded.map fun () =>
      ⟨entry.worker, entry.phase, liveness, resources, decision.1, decision.2.1, decision.2.2⟩)

/-- Reconciles the nonterminal entries without a slot, in order, until the ledger fails. -/
def reconcileEntries : List Entry → Op (Except LedgerError (List ReconcileFinding))
  | [] => pure (.ok [])
  | entry :: entries =>
    if entry.phase.isNonterminal then do
      let found ← perform (.findSlot entry.worker)
      match found with
      | some _ => reconcileEntries entries
      | none => do
        let finding ← reconcileSuspect setup entry
        match finding with
        | .error error => pure (.error error)
        | .ok finding => do
          let rest ← reconcileEntries entries
          pure (rest.map (finding :: ·))
    else reconcileEntries entries

/-- A pass under the reconcile gate. -/
def reconcileGated : Op (Except LedgerError (List ReconcileFinding)) := do
  let entries ← perform .entries
  match entries with
  | .error error => pure (.error error)
  | .ok entries => do
    let findings ← reconcileEntries setup entries
    match findings with
    | .error error => pure (.error error)
    | .ok findings => do
      perform .setReconciled
      pure (.ok findings)

/-- Reconciles every nonterminal ledger entry that has no slot here; passes are serialized. -/
def reconcile : Op (Except LedgerError (List ReconcileFinding)) := do
  perform .lockReconcile
  let result ← reconcileGated setup
  perform .unlockReconcile
  pure result

end operations

end Soma.Host.Pool
