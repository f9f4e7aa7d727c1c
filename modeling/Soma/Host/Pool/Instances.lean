import Soma.Host.Admission.Estimate
import Soma.Host.Pool.Programs

/-! # The Runtime's operations

A Runtime owns a pool and a table of live Instances. Launch looks the Instance up, claims and
transfers without the table's lock, and then binds; destroy answers from the teardown of the bound
worker or from the durable ledger; every read first drops bindings whose worker the pool proves is
gone.

`Operation` lists every call a client of the pool or of the Runtime can make, as one program each.
-/

namespace Soma.Host.Pool

open Soma.Lib

/-- One worker as the pool reports it. -/
structure WorkerView where
  phase : Phase
  leaseGeneration : LeaseGeneration
  operation : Option OperationId
  instanceId : Option InstanceId
  launch : Option LaunchNetwork

def inspect (worker : WorkerId) : Op (Option WorkerView) := do
  let found ← perform (.findSlot worker)
  match found with
  | none => pure none
  | some slot => do
    let observed ← perform (.observe slot)
    let owned ← perform (.ownedView worker)
    pure (some ⟨observed.phase, observed.generation, owned.map (·.1), owned.map (·.2.1),
      owned.bind (·.2.2)⟩)

/-- The Instances among some bindings whose worker is unknown or in a terminal phase. -/
def goneInstances : List InstanceView → Op (List InstanceId)
  | [] => pure []
  | view :: views => do
    let inspected ← inspect view.worker
    let rest ← goneInstances views
    pure (if inspected.any (!·.phase.isTerminal) then rest else view.instanceId :: rest)

/-- Drops every binding whose worker the pool proves is gone, under the table's lock. -/
def reclaim : Op Unit := do
  let views ← perform .lockLive
  let gone ← goneInstances views
  perform (.unlockLive gone)

section operations

variable (setup : Setup) (intent : AssignmentIntent)

def launchedView (worker : WorkerId) (generation : LeaseGeneration)
    (operation : OperationId) (launch : LaunchNetwork) : InstanceView :=
  ⟨intent.instanceId, worker, generation, operation, setup.fingerprint intent, launch⟩

/-- What a launch of an Instance that is already bound answers. -/
def ownedAnswer (live : InstanceView) (intent : AssignmentIntent) : Except InstanceError Launched :=
  if live.operation ≠ intent.operation then
    .error (.occupied intent.instanceId live.operation intent.operation)
  else if live.fingerprint ≠ setup.fingerprint intent then
    .error (.claim
      (.operationConflict intent.operation live.fingerprint (setup.fingerprint intent)))
  else .ok (.live live)

/-- Answers a replay whose Instance the Runtime does not own. -/
def rebind (outcome : ClaimOutcome) : Op (Except InstanceError Launched) := do
  let inspected ← inspect outcome.worker
  match inspected with
  | none => pure (.error (.terminated intent.instanceId))
  | some view =>
    if view.phase.isTerminal then pure (.error (.terminated intent.instanceId))
    else
      match view.launch with
      | none => pure (.ok (.replayed outcome.worker outcome.leaseGeneration))
      | some launch => do
        let bound := launchedView setup intent outcome.worker outcome.leaseGeneration
          outcome.operation launch
        perform (.bindLive bound)
        pure (.ok (.live bound))

def transferAndBind (claimed : Claimed) : Op (Except InstanceError Launched) := do
  let transferred ← transfer setup claimed intent
  match transferred with
  | .error failure => pure (.error (.transfer failure))
  | .ok evidence => do
    let bound := launchedView setup intent evidence.worker evidence.leaseGeneration
      evidence.operation evidence.launch
    perform (.bindLive bound)
    pure (.ok (.live bound))

/-- Launches an Instance that the table did not hold. -/
def launchAbsent : Op (Except InstanceError Launched) := do
  let claimed ← claimReported setup intent.operation (setup.fingerprint intent)
  match claimed with
  | .error error => pure (.error (.claim error))
  | .ok (_, some grant) => transferAndBind setup intent grant
  | .ok (outcome, none) => rebind setup intent outcome

/-- Launches one Instance and takes ownership of it. -/
def launch : Op (Except InstanceError Launched) := do
  reclaim
  let live ← perform (.lookup .launch intent.instanceId)
  match live with
  | some live => pure (ownedAnswer setup live intent)
  | none => launchAbsent setup intent

/-- The terminal receipt the ledger states for an Instance: that of its first worker. -/
def receiptOf (entries : List Entry) (instanceId : InstanceId) :
    Except InstanceError TerminalReceipt :=
  match entries.find? (·.instanceId = some instanceId) with
  | none => .error (.unknown instanceId)
  | some entry => .ok ⟨instanceId, entry.worker, entry.phase.isTerminal⟩

variable (instanceId : InstanceId)

/-- Reads the terminal disposition of an Instance the Runtime no longer owns. -/
def recordedTerminal : Op (Except InstanceError TerminalReceipt) := do
  let entries ← perform .entries
  match entries with
  | .error error => pure (.error (.ledger error))
  | .ok entries => pure (receiptOf entries instanceId)

def destroy : Op (Except InstanceError TerminalReceipt) := do
  let live ← perform (.lookup .destroy instanceId)
  match live with
  | none => recordedTerminal instanceId
  | some live => do
    let released ← release setup live.worker
    match released with
    | .ok evidence => do
      perform (.removeLive instanceId)
      pure (.ok ⟨instanceId, live.worker, evidence.destroyed.complete && evidence.released.complete⟩)
    | .error (.unknown _) => do
      perform (.removeLive instanceId)
      recordedTerminal instanceId
    | .error error => pure (.error (.lifecycle error))

/-- The live Instance with this identity. -/
def get : Op (Option InstanceView) := do
  reclaim
  perform (.lookup .get instanceId)

/-- One bounded page of a listing. -/
structure Page where
  instances : List InstanceId
  more : Bool

/-- The Instances of a listing after a cursor. -/
def page (views : List InstanceView) (after : Option InstanceId) (limit : ℕ) : Page :=
  let rest := (views.map (·.instanceId)).filter fun i => after.all (· < i)
  ⟨rest.take limit, (rest.drop limit).length ≠ 0⟩

/-- The bound of one page. -/
def maxListed : ℕ :=
  16

/-- The live Instances after a cursor in identity order. -/
def list (after : Option InstanceId) : Op Page := do
  reclaim
  let views ← perform .listLive
  pure (page views after maxListed)

/-! ### Calls -/

/-- The calls of the pool's and the Runtime's clients. -/
inductive Operation
  | construct
  | claim (operation : OperationId) (fingerprint : Fingerprint)
  | start (worker : WorkerId)
  | release (worker : WorkerId)
  | evictSterile
  | reconcile
  | launch (intent : AssignmentIntent)
  | destroy (instanceId : InstanceId)
  | get (instanceId : InstanceId)
  | list (after : Option InstanceId)

def Operation.program : Operation → Op Unit
  | .construct => do
    let _ ← constructOne setup
    pure ()
  | .claim operation fingerprint => claimAndUse setup operation fingerprint
  | .start worker => do
    let _ ← Pool.start setup worker
    pure ()
  | .release worker => do
    let _ ← Pool.release setup worker
    pure ()
  | .evictSterile => do
    let _ ← Pool.evictSterile setup
    pure ()
  | .reconcile => do
    let _ ← Pool.reconcile setup
    pure ()
  | .launch intent => do
    perform (.report (.launching intent.instanceId))
    let result ← Pool.launch setup intent
    perform (.report (.launched intent.instanceId result))
  | .destroy instanceId => do
    perform (.report (.destroying instanceId))
    let result ← Pool.destroy setup instanceId
    perform (.report (.destroyed instanceId result))
  | .get instanceId => do
    let _ ← Pool.get instanceId
    pure ()
  | .list after => do
    let _ ← Pool.list after
    pure ()

end operations

/-- The assumption on worker identities, which are hashes of process, time and a counter: none is drawn twice. -/
def DrawsNew : (a : Act) → Choice a → Shared → Prop
  | .freshWorkerId, id, s => id ∉ s.drawn
  | _, _, _ => True

/-- Every interleaving of the operations, every choice of the environment and every crash. -/
def anyRun (setup : Setup) : Guard Answer Choice Shared where
  spawn p := ∃ operation : Operation, p = operation.program setup
  act a e s _ := DrawsNew a e s
  restart _ := True

/-! ### A small pool

A pool on the small host and an environment in which everything works; the schedules of the
counterexamples are played on them. -/

/-- A pool of at most two workers that remembers two claims. -/
def smallPool : Setup where
  digest := 1
  limits := ⟨0, 1, 2, 1, 1, 1, .reject, 2⟩
  admission := ⟨⟨Capacity.smallHost, rfl⟩, Capacity.singleNode⟩
  shape := ⟨Capacity.smallShape, rfl⟩
  fingerprint intent := intent.operation

example : smallPool.limits.check = .ok () := rfl

/-- Everything works; `id` is the next worker identity. -/
def calm (id : WorkerId) : (a : Act) → Choice a
  | .freshWorkerId => id
  | .append _ => none
  | .entries => none
  | .reserveBinding .. => (none, false)
  | .env (.construct id) => .ok ⟨id, id⟩
  | .env (.prepare id) => .ok (id, ⟨some id, none⟩)
  | .env .constructionDeadlinePassed => false
  | .env .claimDeadlinePassed => false
  | .env (.assign sterile intent) => .ok (⟨some sterile, some (intent.instanceId, 1)⟩, 0)
  | .env .entropy => true
  | .env (.deliver ..) => .ok ()
  | .env (.start _) => .ok ()
  | .env (.destroy _) => ⟨.removed, .removed, true⟩
  | .env (.terminate _) => ⟨.removed, .removed, true⟩
  | .env (.releaseSterile _) => ⟨.removed, .removed, true⟩
  | .env (.release _) => ⟨.removed, .removed, true⟩
  | .env (.probe _) => .alive
  | .env (.verify _) => .present
  | .env .useGrant => .drop
  | .needsReconcile => ()
  | .setReconciled => ()
  | .lockReconcile => ()
  | .unlockReconcile => ()
  | .beginConstruct => ()
  | .endConstruct => ()
  | .addSlot .. => ()
  | .openWorker _ => ()
  | .attach .. => ()
  | .advance .. => ()
  | .observe _ => ()
  | .findSlot _ => ()
  | .slots => ()
  | .occupancy => ()
  | .prepare .. => ()
  | .takePrepared _ => ()
  | .own .. => ()
  | .beginStart _ => ()
  | .endStart .. => ()
  | .disown _ => ()
  | .ownedView _ => ()
  | .clearBinding _ => ()
  | .finishBinding .. => ()
  | .reserveCapacity => ()
  | .releaseCapacity _ => ()
  | .capacityLaunched _ => ()
  | .lockLive => ()
  | .unlockLive _ => ()
  | .lookup .. => ()
  | .bindLive _ => ()
  | .removeLive _ => ()
  | .listLive => ()
  | .report _ => ()

/-- Everything works except the appends of some kinds of record. -/
def lossy (fails : RecordKind → Bool) (id : WorkerId) : (a : Act) → Choice a
  | .append r => if fails r.kind then some (.write 0) else none
  | a => calm id a

/-- The assumption, computed. -/
def drawsNew : (a : Act) → Choice a → Shared → Bool
  | .freshWorkerId, id, s => id ∉ s.drawn
  | _, _, _ => true

theorem drawsNew_sound {a : Act} {e : Choice a} {s : Shared} (h : drawsNew a e s) : DrawsNew a e s := by
  cases a with
  | freshWorkerId => simpa [drawsNew, DrawsNew] using h
  | _ => trivial

/-- The machine of the small pool, on which schedules are played. -/
abbrev smallMachine : Machine Answer Choice Shared := (machine smallPool).checked drawsNew

/-- The moves of one call: the thread starts and takes a number of steps. -/
def calls (operation : Operation) (thread steps : ℕ) (oracle : (a : Act) → Choice a) :
    List (Move Answer Choice) :=
  .spawn (operation.program smallPool) :: List.replicate steps (.act thread oracle)

variable {steps thread : ℕ} {operation : Operation}

/-- The threads of a schedule are calls. -/
abbrev OnlyCalls (moves : List (Move Answer Choice)) : Prop :=
  ∀ p, Move.spawn p ∈ moves → ∃ operation : Operation, p = operation.program smallPool

theorem onlyCalls {oracle : (a : Act) → Choice a} : OnlyCalls (calls operation thread steps oracle) := by
  intro p hp
  exact ⟨operation, by simpa [calls, List.mem_replicate] using hp⟩

variable {moves moves' : List (Move Answer Choice)}

theorem OnlyCalls.append (h : OnlyCalls moves) (h' : OnlyCalls moves') : OnlyCalls (moves ++ moves') :=
  fun p hp => (List.mem_append.mp hp).elim (h p) (h' p)

theorem OnlyCalls.reach {c : Config Answer Shared} (h : OnlyCalls moves)
    (hplay : play smallMachine ⟨.init smallPool, []⟩ moves = some c) :
    Reach (machine smallPool) (anyRun smallPool) (.init smallPool) c :=
  Reach.play (fun _ _ _ _ => drawsNew_sound) (fun _ => trivial) h .init hplay

/-- A worker is constructed, launched and started. -/
def oneRunning : List (Move Answer Choice) :=
  calls .construct 0 13 (calm 7) ++ calls (.launch ⟨5, 1, 0⟩) 1 48 (calm 8) ++ calls (.start 7) 2 4 (calm 8)

theorem oneRunning_calls : OnlyCalls oneRunning :=
  (onlyCalls.append onlyCalls).append onlyCalls

end Soma.Host.Pool
