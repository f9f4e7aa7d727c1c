import Soma.Host.Admission.Reserve
import Soma.Host.Pool.Ledger

/-! # The pool's vocabulary

Limits, refusals, evidence and the values that travel between the pool and its environment: the
launcher that makes processes, the broker that makes resources, the clock and the clients.

A launcher handle is opaque to the pool apart from the identity it reports, and a sterile resource
bundle is opaque altogether; both are tokens here. Durations only appear through the question whether
a deadline has passed, which is the environment's to answer.
-/

namespace Soma.Host.Pool

open Soma.Lib

/-- What claim does when no sterile worker is ready. -/
inductive ExhaustedBehavior
  | reject
  | constructInline
deriving DecidableEq, Repr

/-- The pool's limits. -/
structure Limits where
  min : ℕ
  target : ℕ
  max : ℕ
  replenishConcurrency : ℕ
  claimDeadline : ℕ
  constructionDeadline : ℕ
  exhausted : ExhaustedBehavior
  bindingLimit : ℕ
deriving DecidableEq, Repr

/-- Why limits are refused. -/
inductive LimitsError
  | ordering
  | zeroMaximum
  | zeroConcurrency
  | zeroDeadline
  | bindingLimit
deriving DecidableEq, Repr

/-- The checks of the limits, in order. -/
def Limits.check (l : Limits) : Except LimitsError Unit :=
  if l.max = 0 then .error .zeroMaximum
  else if l.min > l.target ∨ l.target > l.max then .error .ordering
  else if l.replenishConcurrency = 0 then .error .zeroConcurrency
  else if l.claimDeadline = 0 ∨ l.constructionDeadline = 0 then .error .zeroDeadline
  else if l.bindingLimit < l.max then .error .bindingLimit
  else .ok ()

/-- Slots per phase. -/
structure Occupancy where
  constructing : ℕ
  sterile : ℕ
  claiming : ℕ
  assigned : ℕ
  running : ℕ
  destroying : ℕ
  dead : ℕ
deriving DecidableEq, Repr

/-- A pool without a claimable worker. -/
structure Exhausted where
  key : PoolKeyDigest
  occupancy : Occupancy
  max : ℕ
  behavior : ExhaustedBehavior
deriving DecidableEq, Repr

/-- The bounded resource that overloaded. -/
inductive OverloadGate
  | claimRegistry
  | duplicateWorker
  | replenishConcurrency
  | poolMaximum
deriving DecidableEq, Repr

/-- An explicit rejection of a saturated pool. -/
structure Overloaded where
  gate : OverloadGate
  current : ℕ
  limit : ℕ
deriving DecidableEq, Repr

/-! ### What the environment is and answers -/

/-- The opaque launcher handle of a process; the pool only ever reads its identity. -/
abbrev LauncherHandle := WorkerIdentity

/-- An opaque bundle of sterile broker resources. -/
abbrev SterileToken := ℕ

abbrev LaunchNetwork := ℕ

/-- Whether a process is there. -/
inductive Liveness
  | alive
  | gone
  | unknown
deriving DecidableEq, Repr

/-- What the brokers find of some resources. -/
inductive ResourceLiveness
  | present
  | absent
  | partly
deriving DecidableEq, Repr

/-- How a removal went. -/
inductive Removal
  | removed
  | alreadyAbsent
  | unknown
deriving DecidableEq, Repr

structure DestroyOutcome where
  process : Removal
  cgroup : Removal
  complete : Bool
deriving DecidableEq, Repr

/-- The outcome of destroying nothing. -/
def noProcess : DestroyOutcome :=
  ⟨.alreadyAbsent, .alreadyAbsent, true⟩

/-- The outcome of releasing resources. -/
structure ResourceRelease where
  disk : Removal
  network : Removal
  complete : Bool
deriving DecidableEq, Repr

/-- The outcome of releasing nothing. -/
def noResources : ResourceRelease :=
  ⟨.alreadyAbsent, .alreadyAbsent, true⟩

/-- Why a construction failed in the launcher. -/
inductive ConstructFault
  | timeout
  | rejected
  | failed
deriving DecidableEq, Repr

/-- Why the broker refused. -/
inductive ResourceFault
  | exhausted
  | denied
  | timeout
  | lease
  | failed
deriving DecidableEq, Repr

/-- Why a start was refused. -/
inductive StartFault
  | rejected
  | closed
  | timeout
deriving DecidableEq, Repr

/-- Why a worker was destroyed. -/
inductive DestroyReason
  | transferFault
  | claimDeadline
  | released
  | evicted
  | startFault
  | reconcile
  | ledger
  | dropped
  | intentMismatch
  | foreignPool
deriving DecidableEq, Repr

/-- The stable encoding of a reason. -/
def DestroyReason.code : DestroyReason → ℕ
  | transferFault => 1
  | claimDeadline => 2
  | released => 3
  | evicted => 4
  | startFault => 5
  | reconcile => 6
  | ledger => 7
  | dropped => 8
  | intentMismatch => 9
  | foreignPool => 10

/-- What a client asks to be launched; the parts the pool does not read are one token. -/
structure AssignmentIntent where
  instanceId : InstanceId
  operation : OperationId
  rest : ℕ
deriving DecidableEq, Repr

/-! ### Claims -/

/-- Where the claimed worker came from. -/
inductive ClaimClass
  | prepared
  | onDemand
deriving DecidableEq, Repr

namespace ClaimClass

/-- The stable encoding. -/
def code : ClaimClass → ℕ
  | prepared => 1
  | onDemand => 2

def fromCode : ℕ → Option ClaimClass
  | 1 => some prepared
  | 2 => some onDemand
  | _ => none

@[simp] theorem fromCode_code (c : ClaimClass) : fromCode c.code = some c := by
  cases c <;> rfl

end ClaimClass

/-- What a claim answered; a replay answers the identical outcome. -/
structure ClaimOutcome where
  worker : WorkerId
  leaseGeneration : LeaseGeneration
  operation : OperationId
  claimClass : ClaimClass
deriving DecidableEq, Repr

/-- Why a construction did not publish a worker. -/
inductive ConstructionFault
  | overloaded (o : Overloaded)
  | unreconciled
  | launcher (fault : ConstructFault)
  | resources (fault : ResourceFault)
  | ledger (error : LedgerError)
  | state (race : StateRace)
  | deadline
deriving DecidableEq, Repr

/-- A failed construction, with the worker it opened if any. -/
structure ConstructionFailure where
  worker : Option WorkerId
  fault : ConstructionFault
deriving DecidableEq, Repr

/-- Why a claim was refused. -/
inductive ClaimError
  | exhausted (e : Exhausted)
  | capacity (rejection : Capacity.CapacityRejection)
  | overloaded (o : Overloaded)
  | operationConflict (operation : OperationId) (recorded presented : Fingerprint)
  | deadline (operation : OperationId)
  | ledger (error : LedgerError)
  | construction (failure : ConstructionFailure)
  | missingPayload (worker : WorkerId)
deriving DecidableEq, Repr

/-! ### Lifecycle -/

/-- Why a lifecycle operation was refused. -/
inductive LifecycleError
  | unknown (worker : WorkerId)
  | phase (worker : WorkerId) (phase : Phase)
  | start (fault : StartFault)
  | ledger (error : LedgerError)
  | state (race : StateRace)
deriving DecidableEq, Repr

structure ReleaseEvidence where
  worker : WorkerId
  leaseGeneration : LeaseGeneration
  reason : DestroyReason
  destroyed : DestroyOutcome
  released : ResourceRelease
  ledger : Bool
deriving DecidableEq, Repr

/-- What destroying a claimed worker achieved. -/
structure Disposition where
  destroyed : DestroyOutcome
  released : ResourceRelease
deriving DecidableEq, Repr

/-- Why a transfer failed. -/
inductive TransferFault
  | rejected
  | timeout
  | partialAck
  | closed
  | claimDeadline
  | foreignPool
  | entropy
  | resource (fault : ResourceFault)
  | ledger (error : LedgerError)
  | state (race : StateRace)
deriving DecidableEq, Repr

/-- A failed transfer; the worker was destroyed. -/
structure TransferFailure where
  worker : WorkerId
  step : Option TransferStep
  fault : TransferFault
  disposition : Disposition
deriving DecidableEq, Repr

structure TransferEvidence where
  worker : WorkerId
  leaseGeneration : LeaseGeneration
  instanceId : InstanceId
  operation : OperationId
  launch : LaunchNetwork
  steps : ℕ
deriving DecidableEq, Repr

/-- One reconciled suspect. -/
structure ReconcileFinding where
  worker : WorkerId
  phase : Phase
  liveness : Option Liveness
  resources : ResourceLiveness
  disposition : ReconcileDisposition
  complete : Bool
  capacityRestored : Bool
deriving DecidableEq, Repr

/-! ### Instances -/

/-- One live Instance as the Runtime reports it. -/
structure InstanceView where
  instanceId : InstanceId
  worker : WorkerId
  leaseGeneration : LeaseGeneration
  operation : OperationId
  fingerprint : Fingerprint
  launch : LaunchNetwork
deriving DecidableEq, Repr

/-- What a Launch answered. -/
inductive Launched
  | live (view : InstanceView)
  | replayed (worker : WorkerId) (leaseGeneration : LeaseGeneration)
deriving DecidableEq, Repr

/-- Why an Instance operation was refused. -/
inductive InstanceError
  | claim (error : ClaimError)
  | transfer (failure : TransferFailure)
  | occupied (instanceId : InstanceId) (holder presented : OperationId)
  | terminated (instanceId : InstanceId)
  | unknown (instanceId : InstanceId)
  | lifecycle (error : LifecycleError)
  | ledger (error : LedgerError)
deriving DecidableEq, Repr

/-- What a destroy answered. -/
structure TerminalReceipt where
  instanceId : InstanceId
  worker : WorkerId
  complete : Bool
deriving DecidableEq, Repr

end Soma.Host.Pool
