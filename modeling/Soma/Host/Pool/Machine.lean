import Soma.Host.Pool.Registry
import Soma.Lib.Interleave

/-! # The pool's shared state and its atomic actions

Everything the operations of a pool and of its Runtime share, and the atomic actions they are made of.
One action is one critical section of a mutex, one load or compare-and-swap of a slot's word, one
append to the ledger, or one call into the environment.

* **`Shared`** is the shared state. Slots live in `cells` for as long as anybody may hold them and are
  named by their position; `table` is the pool's slot table. `log` holds every append in sequence
  order with whether it was stored, so a failed append leaves a gap and no record.
* **`Act`**, **`Answer`** and **`Choice`** are the actions, what they answer, and what the environment
  chooses in them: whether an append or a read fails, the identity of a new worker, a reply.
* **`exec`** is the meaning of an action; `none` means that it blocks.
* **`restart`** is a crash followed by `Pool::open` over the same ledger.

The source derives a new worker identity with SHA-256 from the pool key, the process, the time and a
counter; that none is drawn twice is an assumption on runs (`DrawsNew`).
-/

namespace Soma.Host.Pool

open Std Soma.Lib Capacity

/-- The static part of a pool: its key, limits, admission and the request fingerprint. -/
structure Setup where
  digest : PoolKeyDigest
  limits : Limits
  admission : Admission
  shape : ValidShape
  fingerprint : AssignmentIntent → Fingerprint

/-- One worker's shared state cell. -/
structure Slot where
  id : WorkerId
  key : PoolKeyDigest
  word : StateWord
deriving DecidableEq, Repr

/-- A typed handle: the slot it is on, its phase and lease generation. -/
structure Worker where
  slot : ℕ
  id : WorkerId
  phase : Phase
  generation : LeaseGeneration
deriving DecidableEq, Repr

/-- The state of the slot a handle stands for. -/
def Worker.packed (w : Worker) : Packed :=
  ⟨w.phase, w.generation⟩

/-- The payload of a sterile worker. -/
structure Prepared where
  handle : LauncherHandle
  sterile : SterileToken
  refs : ResourceRefs
  identity : WorkerIdentity
deriving DecidableEq, Repr

/-- A worker that belongs to an Instance. -/
structure Owned where
  worker : Worker
  handle : Option LauncherHandle
  starting : Bool
  identity : WorkerIdentity
  refs : ResourceRefs
  instanceId : InstanceId
  operation : OperationId
  reservation : Option Reservation
  launch : Option LaunchNetwork
deriving DecidableEq, Repr

/-- What a client does with a grant. -/
inductive GrantUse
  | transfer (intent : AssignmentIntent)
  | presentElsewhere
  | drop
deriving DecidableEq, Repr

/-- A call into the environment. -/
inductive Query
  | construct (id : WorkerId)
  | prepare (id : WorkerId)
  | constructionDeadlinePassed
  | claimDeadlinePassed
  | assign (sterile : SterileToken) (intent : AssignmentIntent)
  | entropy
  | deliver (handle : LauncherHandle) (step : TransferStep)
  | start (handle : LauncherHandle)
  | destroy (handle : LauncherHandle)
  | terminate (identity : WorkerIdentity)
  | releaseSterile (sterile : SterileToken)
  | release (refs : ResourceRefs)
  | probe (identity : WorkerIdentity)
  | verify (refs : ResourceRefs)
  | useGrant
deriving DecidableEq, Repr

/-- What the environment answers. -/
abbrev Reply : Query → Type
  | .construct _ => Except ConstructFault LauncherHandle
  | .prepare _ => Except ResourceFault (SterileToken × ResourceRefs)
  | .constructionDeadlinePassed => Bool
  | .claimDeadlinePassed => Bool
  | .assign _ _ => Except ResourceFault (ResourceRefs × LaunchNetwork)
  | .entropy => Bool
  | .deliver _ _ => Except TransferFault Unit
  | .start _ => Except StartFault Unit
  | .destroy _ => DestroyOutcome
  | .terminate _ => DestroyOutcome
  | .releaseSterile _ => ResourceRelease
  | .release _ => ResourceRelease
  | .probe _ => Liveness
  | .verify _ => ResourceLiveness
  | .useGrant => GrantUse

/-- What clients see: the beginning of a call and what it answered. -/
inductive Event
  | claimed (operation : OperationId) (fingerprint : Fingerprint)
      (result : Except ClaimError (ClaimOutcome × Bool))
  | launching (instanceId : InstanceId)
  | launched (instanceId : InstanceId) (result : Except InstanceError Launched)
  | destroying (instanceId : InstanceId)
  | destroyed (instanceId : InstanceId) (result : Except InstanceError TerminalReceipt)
  | restarted
deriving Repr

/-- The shared state of a pool and its Runtime. -/
structure Shared where
  cells : List Slot
  table : List ℕ
  prepared : TreeMap WorkerId Prepared
  owned : TreeMap WorkerId Owned
  registry : Registry
  inFlight : ℕ
  reconciled : Bool
  reconcileGate : Bool
  admission : State
  log : List (Record × Bool)
  drawn : List WorkerId
  live : TreeMap InstanceId InstanceView
  liveLocked : Bool
  calls : List (Sigma Reply)
  events : List Event

namespace Shared

variable (s : Shared)

/-- The stored records in sequence order. -/
def records : List Record :=
  (s.log.filter (·.2)).map (·.1)

variable (slot : ℕ)

/-- The phase and generation of a slot. -/
def load : Option Packed :=
  s.cells[slot]?.map (·.word.load)

def findSlot (id : WorkerId) : Option ℕ :=
  s.table.find? fun slot => s.cells[slot]?.any (·.id = id)

def isDead : Bool :=
  s.cells[slot]?.any (·.word.load.phase = .dead)

/-- The worker has no slot, or a dead one. -/
def workerGone (id : WorkerId) : Bool :=
  match s.findSlot id with
  | none => true
  | some slot => s.isDead slot

def occupancy : Occupancy :=
  let count := fun phase =>
    (s.table.filter fun slot => s.cells[slot]?.any (·.word.load.phase = phase)).length
  ⟨count .constructing, count .sterile, count .claiming, count .assigned, count .running,
    count .destroying, count .dead⟩

/-- Removes dead slots and adds one, unless the worker is there or the table is full. -/
def addSlot (max : ℕ) (slot : Slot) : Except Overloaded ℕ × Shared :=
  let table := s.table.filter fun a => !s.isDead a
  let s := { s with table }
  if table.any fun a => s.cells[a]?.any (·.id = slot.id) then
    (.error ⟨.duplicateWorker, 1, 1⟩, s)
  else if table.length ≥ max then (.error ⟨.poolMaximum, table.length, max⟩, s)
  else
    (.ok s.cells.length,
      { s with cells := s.cells ++ [slot], table := table ++ [s.cells.length] })

/-- A handle on a slot in its current state. -/
def observe : Option Worker :=
  s.cells[slot]?.map fun cell => ⟨slot, cell.id, cell.word.load.phase, cell.word.load.generation⟩

/-- The compare-and-swap of a slot from a handle's state; the handle it answers is on the same slot. -/
def advance (w : Worker) (target : Phase) (generation : LeaseGeneration) :
    Option (Except StateRace Worker × Shared) :=
  match s.cells[w.slot]? with
  | none => none
  | some slot =>
    match slot.word.transition w.packed ⟨target, generation⟩ with
    | (.ok (), word) =>
      some (.ok ⟨w.slot, slot.id, target, generation⟩,
        { s with cells := s.cells.set w.slot { slot with word } })
    | (.error race, _) => some (.error race, s)

end Shared

/-- Which operation looks an Instance up. -/
inductive Caller
  | launch
  | destroy
  | get
deriving DecidableEq, Repr

/-- How the critical section that ends a start went. -/
inductive StartEnd
  | unknown
  | faulted (owned : Owned)
  | notAssigned
  | raced (race : StateRace)
  | running (owned : Owned)
deriving DecidableEq, Repr

/-- The atomic actions. -/
inductive Act
  | needsReconcile
  | setReconciled
  | lockReconcile
  | unlockReconcile
  | beginConstruct
  | endConstruct
  | freshWorkerId
  | addSlot (id : WorkerId) (key : PoolKeyDigest) (phase : Phase) (generation : LeaseGeneration)
  | openWorker (slot : ℕ)
  | attach (slot : ℕ) (phase : Phase)
  | advance (worker : Worker) (target : Phase) (generation : LeaseGeneration)
  | observe (slot : ℕ)
  | findSlot (id : WorkerId)
  | slots
  | occupancy
  | append (record : Record)
  | entries
  | prepare (id : WorkerId) (payload : Prepared)
  | takePrepared (id : WorkerId)
  | own (id : WorkerId) (owned : Owned)
  | beginStart (id : WorkerId)
  | endStart (id : WorkerId) (handle : Option LauncherHandle) (started : Except StartFault Unit)
  | disown (id : WorkerId)
  | ownedView (id : WorkerId)
  | reserveBinding (operation : OperationId) (fingerprint : Fingerprint)
  | clearBinding (operation : OperationId)
  | finishBinding (operation : OperationId) (fingerprint : Fingerprint) (outcome : ClaimOutcome)
  | reserveCapacity
  | releaseCapacity (reservation : Reservation)
  | capacityLaunched (reservation : Reservation)
  | lockLive
  | unlockLive (gone : List InstanceId)
  | lookup (caller : Caller) (instanceId : InstanceId)
  | bindLive (view : InstanceView)
  | removeLive (instanceId : InstanceId)
  | listLive
  | env (query : Query)
  | report (event : Event)

abbrev Answer : Act → Type
  | .needsReconcile => Bool
  | .setReconciled | .lockReconcile | .unlockReconcile => Unit
  | .beginConstruct => Except ℕ Unit
  | .endConstruct => Unit
  | .freshWorkerId => WorkerId
  | .addSlot .. => Except Overloaded ℕ
  | .openWorker .. => Worker
  | .attach .. => Option Worker
  | .advance .. => Except StateRace Worker
  | .observe _ => Worker
  | .findSlot _ => Option ℕ
  | .slots => List ℕ
  | .occupancy => Occupancy
  | .append _ => Except LedgerError Unit
  | .entries => Except LedgerError (List Entry)
  | .prepare .. => Unit
  | .takePrepared _ => Option Prepared
  | .own .. => Unit
  | .beginStart _ => Except LifecycleError (Option LauncherHandle)
  | .endStart .. => StartEnd
  | .disown _ => Except LifecycleError Owned
  | .ownedView _ => Option (OperationId × InstanceId × Option LaunchNetwork)
  | .reserveBinding .. => Except ClaimError (Option ClaimOutcome)
  | .clearBinding _ | .finishBinding .. => Unit
  | .reserveCapacity => Except CapacityRejection Reservation
  | .releaseCapacity _ => Unit
  | .capacityLaunched _ => Reservation
  | .lockLive => List InstanceView
  | .unlockLive _ => Unit
  | .lookup .. => Option InstanceView
  | .bindLive _ | .removeLive _ => Unit
  | .listLive => List InstanceView
  | .env query => Reply query
  | .report _ => Unit

/-- What the environment chooses in an action. -/
abbrev Choice : Act → Type
  | .freshWorkerId => WorkerId
  | .append _ | .entries => Option LedgerError
  | .reserveBinding .. => Option LedgerError × Bool
  | .env query => Reply query
  | _ => Unit

namespace Shared

variable (setup : Setup) (s : Shared)

/-- The pool a process opens over a ledger, when the ledger folds. -/
def opened : Option Shared :=
  match entriesOf s.records with
  | .error _ => none
  | .ok entries =>
    some { s with
      cells := []
      table := []
      prepared := ∅
      owned := ∅
      registry := Registry.seed (claimsOf s.records) setup.limits.bindingLimit
      inFlight := 0
      reconciled := !entries.values.any (·.phase.isNonterminal)
      reconcileGate := false
      admission := setup.admission.init
      live := ∅
      liveLocked := false
      events := s.events ++ [.restarted] }

/-- The first pool over an empty ledger. -/
def init : Shared where
  cells := []
  table := []
  prepared := ∅
  owned := ∅
  registry := Registry.empty
  inFlight := 0
  reconciled := true
  reconcileGate := false
  admission := setup.admission.init
  log := []
  drawn := []
  live := ∅
  liveLocked := false
  calls := []
  events := []

variable (id : WorkerId)

/-- The first section of a start: marks the entry and takes the launcher handle out. -/
def beginStart : Except LifecycleError (Option LauncherHandle) × Shared :=
  match s.owned[id]? with
  | none => (.error (.unknown id), s)
  | some o =>
    if o.starting then (.error (.phase id .assigned), s)
    else if o.worker.phase ≠ .assigned then (.error (.phase id .running), s)
    else
      (.ok o.handle, { s with owned := s.owned.insert id { o with starting := true, handle := none } })

/-- The last section of a start: returns the handle, and runs the worker or takes it out. -/
def endStart (handle : Option LauncherHandle)
    (started : Except StartFault Unit) : Option (StartEnd × Shared) :=
  match s.owned[id]? with
  | none => some (.unknown, s)
  | some o =>
    let o := { o with handle, starting := false }
    let s := { s with owned := s.owned.insert id o }
    match started with
    | .error _ => some (.faulted o, { s with owned := s.owned.erase id })
    | .ok () =>
      match s.load o.worker.slot with
      | none => none
      | some observed =>
        if observed.phase ≠ .assigned then some (.notAssigned, s)
        else
          match s.advance { o.worker with phase := .assigned, generation := observed.generation }
            .running observed.generation with
          | none => none
          | some (.error race, s) => some (.raced race, s)
          | some (.ok worker, s) =>
            let o := { o with worker }
            some (.running o, { s with owned := s.owned.insert id o })

/-- The section of a release: takes the worker out unless it is starting. -/
def disown : Except LifecycleError Owned × Shared :=
  match s.owned[id]? with
  | none => (.error (.unknown id), s)
  | some o =>
    if o.starting then (.error (.phase id .assigned), s)
    else (.ok o, { s with owned := s.owned.erase id })

/-- The section of a claim under the registry lock; it blocks behind an attempt in flight until the
deadline passes. -/
def reserveBinding (operation : OperationId) (fingerprint : Fingerprint)
    (unreadable : Option LedgerError) (deadlinePassed : Bool) :
    Option (Except ClaimError (Option ClaimOutcome) × Shared) :=
  let recorded :=
    match unreadable with
    | some error => .error error
    | none => .ok (claimOf s.records operation)
  match s.registry.reserve setup.limits.bindingLimit s.workerGone recorded operation fingerprint with
  | some (answer, registry) => some (answer, { s with registry })
  | none => if deadlinePassed then some (.error (.deadline operation), s) else none

/-- An append: the record takes its place in the sequence whether it is stored or not. -/
def append (r : Record) : Option LedgerError → Except LedgerError Unit × Shared
  | none => (.ok (), { s with log := s.log ++ [(r.stored, true)] })
  | some error => (.error error, { s with log := s.log ++ [(r.stored, false)] })

/-- A read of the projection. -/
def entries : Option LedgerError → Except LedgerError (List Entry)
  | some error => .error error
  | none => (entriesOf s.records).map (·.values)

end Shared

/-- The meaning of an action. -/
def exec (setup : Setup) : (a : Act) → Choice a → Shared → Option (Answer a × Shared)
  | .needsReconcile, _, s => some (!s.reconciled, s)
  | .setReconciled, _, s => some ((), { s with reconciled := true })
  | .lockReconcile, _, s => if s.reconcileGate then none else some ((), { s with reconcileGate := true })
  | .unlockReconcile, _, s => some ((), { s with reconcileGate := false })
  | .beginConstruct, _, s =>
    if s.inFlight < setup.limits.replenishConcurrency then
      some (.ok (), { s with inFlight := s.inFlight + 1 })
    else some (.error s.inFlight, s)
  | .endConstruct, _, s => some ((), { s with inFlight := s.inFlight - 1 })
  | .freshWorkerId, id, s => some (id, { s with drawn := id :: s.drawn })
  | .addSlot id key phase generation, _, s =>
    some (s.addSlot setup.limits.max ⟨id, key, StateWord.new phase generation⟩)
  | .openWorker slot, _, s =>
    s.cells[slot]?.map fun cell => (⟨slot, cell.id, .constructing, cell.word.load.generation⟩, s)
  | .attach slot phase, _, s =>
    s.cells[slot]?.map fun cell =>
      (if cell.word.load.phase = phase then some ⟨slot, cell.id, phase, cell.word.load.generation⟩
        else none, s)
  | .advance worker target generation, _, s => s.advance worker target generation
  | .observe slot, _, s => (s.observe slot).map (·, s)
  | .findSlot id, _, s => some (s.findSlot id, s)
  | .slots, _, s => some (s.table, s)
  | .occupancy, _, s => some (s.occupancy, s)
  | .append r, failed, s => some (s.append r failed)
  | .entries, failed, s => some (s.entries failed, s)
  | .prepare id payload, _, s => some ((), { s with prepared := s.prepared.insert id payload })
  | .takePrepared id, _, s => some (s.prepared[id]?, { s with prepared := s.prepared.erase id })
  | .own id owned, _, s => some ((), { s with owned := s.owned.insert id owned })
  | .beginStart id, _, s => some (s.beginStart id)
  | .endStart id handle started, _, s => s.endStart id handle started
  | .disown id, _, s => some (s.disown id)
  | .ownedView id, _, s => some (s.owned[id]?.map fun o => (o.operation, o.instanceId, o.launch), s)
  | .reserveBinding operation fingerprint, choice, s =>
    s.reserveBinding setup operation fingerprint choice.1 choice.2
  | .clearBinding operation, _, s => some ((), { s with registry := s.registry.clear operation })
  | .finishBinding operation fingerprint outcome, _, s =>
    some ((), { s with registry := s.registry.finish operation fingerprint outcome })
  | .reserveCapacity, _, s =>
    match setup.admission.reserve s.admission setup.shape with
    | .error rejection => some (.error rejection, s)
    | .ok (reservation, admission) => some (.ok reservation, { s with admission })
  | .releaseCapacity reservation, _, s =>
    some ((), { s with admission := setup.admission.release s.admission reservation })
  | .capacityLaunched reservation, _, s =>
    let (reservation, admission) := Admission.launched s.admission reservation
    some (reservation, { s with admission })
  | .lockLive, _, s => if s.liveLocked then none else some (s.live.values, { s with liveLocked := true })
  | .unlockLive gone, _, s =>
    some ((), { s with live := s.live.filter fun i _ => i ∉ gone, liveLocked := false })
  | .lookup _ instanceId, _, s => if s.liveLocked then none else some (s.live[instanceId]?, s)
  | .bindLive view, _, s =>
    if s.liveLocked then none else some ((), { s with live := s.live.insert view.instanceId view })
  | .removeLive instanceId, _, s =>
    if s.liveLocked then none else some ((), { s with live := s.live.erase instanceId })
  | .listLive, _, s => if s.liveLocked then none else some (s.live.values, s)
  | .env query, reply, s => some (reply, { s with calls := s.calls ++ [⟨query, reply⟩] })
  | .report event, _, s => some ((), { s with events := s.events ++ [event] })

/-- The machine of a pool and its Runtime. -/
def machine (setup : Setup) : Machine Answer Choice Shared :=
  ⟨exec setup, Shared.opened setup⟩

end Soma.Host.Pool
