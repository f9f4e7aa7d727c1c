import Soma.Host.Pool.Instances

/-! # What a thread of the pool holds

The discipline the pool's operations keep. Each part of `Local` is one thing a thread can hold:

* **`Tenure`**: a worker handle, with how far its lifecycle and its records have come;
* `held`: a capacity reservation;
* **`Standing`**: the claim it makes on an operation in the registry;
* `pending`: a started worker whose running record is not written yet;
* **`Recon`**: the reconcile gate, the snapshot it works on and the suspect it is at;
* **`Window`**: the Instance it launches or destroys, and how far it is;
* **`Reclaim`**: the lock of the live table and the workers it has found gone.

Every part has its own `next` (what an answer changes) and `obeys` (what it entitles to).
-/

namespace Soma.Host.Pool

open Soma.Lib

/-! ### Worker handles -/

/-- How far the holder of a worker has brought it. -/
inductive Stage
  /-- A slot in `Constructing`, nothing recorded. -/
  | opened
  /-- The constructing record is stored. -/
  | constructing
  /-- The sterile record is stored. -/
  | recorded
  /-- The payload is in the prepared table. -/
  | published
  /-- The construction was given up. -/
  | failed
  /-- The claim was won; the payload is still in the prepared table. -/
  | won
  /-- The payload is taken; the claim is not recorded. -/
  | taken
  /-- The claiming record could not be stored. -/
  | unrecorded
  /-- The claiming record is stored. -/
  | claimed
  /-- Assigned; the assigned record is not stored. -/
  | assigned
  /-- Assigned or running; the assigned record is stored. -/
  | owned
  /-- A running slot restored from the ledger. -/
  | restored
  /-- Evicted; the payload is still in the prepared table. -/
  | evicting
  /-- Destroying, not recorded yet. -/
  | closing
  /-- The destroying record was attempted. -/
  | destroying (stored : Bool)
  /-- The dead record was attempted. -/
  | closed
deriving DecidableEq

namespace Stage

/-- The slot's phase at a stage. -/
def fits : Stage → Phase → Bool
  | opened, p | constructing, p | recorded, p | published, p | failed, p => p = .constructing
  | won, p | taken, p | unrecorded, p | claimed, p => p = .claiming
  | assigned, p => p = .assigned
  | owned, p => p = .assigned ∨ p = .running
  | restored, p => p = .running
  | evicting, p | closing, p | destroying _, p | closed, p => p = .destroying

/-- The compare-and-swaps a stage entitles to, and the stage they lead to; `none` is the end. -/
def move : Stage → Phase → Option (Option Stage)
  | opened, .dead | failed, .dead | closed, .dead => some none
  | published, .sterile => some none
  | unrecorded, .destroying | claimed, .destroying | assigned, .destroying | owned, .destroying =>
    some (some closing)
  | claimed, .assigned => some (some assigned)
  | _, _ => none

/-- The records a stage entitles to, and the stage they lead to when stored or not. -/
def write : Stage → RecordKind → Bool → Option Stage
  | opened, .constructing, stored => some (if stored then constructing else opened)
  | constructing, .sterile, stored => some (if stored then recorded else constructing)
  | constructing, .constructFailed, _ => some failed
  | taken, .claiming, stored => some (if stored then claimed else unrecorded)
  | claimed, .assigning, _ | claimed, .transferStep, _ | claimed, .transferFault, _ => some claimed
  | assigned, .assigned, stored => some (if stored then owned else assigned)
  | closing, .destroying, stored => some (destroying stored)
  | destroying _, .dead, _ => some closed
  | _, _, _ => none

end Stage

/-- The worker a thread holds. -/
inductive Tenure
  | idle
  | drawn (id : WorkerId)
  | holds (worker : Worker) (stage : Stage)
deriving DecidableEq

namespace Tenure

def slot? : Tenure → Option ℕ
  | holds worker _ => some worker.slot
  | _ => none

/-- Records that only the holder of the worker writes. -/
def ownRecord : RecordKind → Bool
  | .running | .suspect | .reconciled => false
  | _ => true

variable (t : Tenure)

/-- The tenure after a compare-and-swap. -/
def moved (w : Worker) (target : Phase) (g : LeaseGeneration) :
    Except StateRace Worker → Option Tenure
  | .ok w' =>
    match t with
    | holds _ stage =>
      if w' = { w with phase := target, generation := g } then
        match stage.move target with
        | some (some stage) => some (holds w' stage)
        | _ => some idle
      else none
    | _ => some (holds w' (if target = .claiming then .won else .evicting))
  | .error _ =>
    match t with
    | holds _ _ => none
    | _ => some t

/-- The tenure after an append. -/
def appended (r : Record) (stored : Bool) : Tenure :=
  match t with
  | holds w stage =>
    if r.kind = .reconciled ∧ stage = .restored then idle
    else holds w ((stage.write r.kind stored).getD stage)
  | _ => t

/-- The tenure after the payload was taken. -/
def tookPrepared (found : Bool) : Option Tenure :=
  match t with
  | holds w .won => if found then some (holds w .taken) else none
  | holds w .evicting => some (holds w .closing)
  | _ => some t

/-- The tenure after the end of a start: only a start that failed hands the worker out. -/
def ended (started : Except StartFault Unit) : StartEnd → Option Tenure
  | .faulted o =>
    match started with
    | .error _ => some (holds o.worker .owned)
    | .ok _ => none
  | _ => some t

/-- What an answer changes in the tenure. -/
def next : (a : Act) → Answer a → Option Tenure
  | .freshWorkerId, id => some (drawn id)
  | .addSlot id _ phase g, .ok slot =>
    some (holds ⟨slot, id, phase, g⟩ (if phase = .constructing then .opened else .restored))
  | .addSlot .., .error _ => some idle
  | .openWorker _, w =>
    match t with
    | holds w' _ => if w = w' then some t else none
    | _ => some t
  | .attach .., w =>
    match t with
    | holds w' _ => if w = some w' then some t else none
    | _ => some t
  | .advance w target g, answer => t.moved w target g answer
  | .append r, answer => some (t.appended r answer.isOk)
  | .prepare .., _ =>
    match t with
    | holds w _ => some (holds w .published)
    | _ => some t
  | .takePrepared _, answer => t.tookPrepared answer.isSome
  | .own .., _ => some idle
  | .endStart _ _ started, ended => t.ended started ended
  | .disown _, .ok o => some (holds o.worker .owned)
  | _, _ => some t

/-- What the tenure entitles to. -/
def obeys : Act → Prop
  | .freshWorkerId | .disown _ | .endStart .. => t = idle
  | .addSlot id _ phase g =>
    (t = drawn id ∧ phase = .constructing ∧ g = LeaseGeneration.first) ∨ (t = idle ∧ phase = .running)
  | .openWorker slot => ∃ w, t = holds w .opened ∧ w.slot = slot
  | .attach slot phase => ∃ w, t = holds w .restored ∧ w.slot = slot ∧ phase = .running
  | .advance w target g =>
    (∃ stage, t = holds w stage ∧ (stage.move target).isSome ∧ g = w.generation) ∨
      (t = idle ∧ w.phase = .sterile ∧
        ((target = .claiming ∧ w.generation.next = .ok g) ∨ (target = .destroying ∧ g = w.generation)))
  | .append r =>
    ownRecord r.kind = true →
      ∃ w stage, t = holds w stage ∧ (stage.write r.kind true).isSome ∧ r.worker = w.id ∧
        r.leaseGeneration = w.generation
  | .prepare id _ => ∃ w, t = holds w .recorded ∧ w.id = id
  | .takePrepared id => ∃ w stage, t = holds w stage ∧ (stage = .won ∨ stage = .evicting) ∧ w.id = id
  | .own id o =>
    ∃ stage, t = holds o.worker stage ∧ (stage = .owned ∨ stage = .restored) ∧ o.worker.id = id
  | _ => True

end Tenure

/-! ### Reservations -/

/-- What an answer changes in the held reservation. -/
def heldNext (held : Option Capacity.Reservation) : (a : Act) → Answer a → Option Capacity.Reservation
  | .reserveCapacity, .ok reservation => some reservation
  | .releaseCapacity _, _ => none
  | .capacityLaunched _, reservation => some reservation
  | .own .., _ => none
  | .endStart .., .faulted o => o.reservation
  | .disown _, .ok o => o.reservation
  | _, _ => held

/-- What the held reservation entitles to. -/
def heldObeys (held : Option Capacity.Reservation) : Act → Prop
  | .reserveCapacity | .endStart .. | .disown _ => held = none
  | .releaseCapacity reservation | .capacityLaunched reservation => held = some reservation
  | .own _ o => o.reservation = held
  | _ => True

/-! ### Claims on an operation -/

/-- How far a thread has come with the claim of an operation. -/
inductive Standing
  | idle
  /-- Its in-flight binding is in the registry. -/
  | attempting (operation : OperationId) (fingerprint : Fingerprint)
  /-- Its claiming record is stored. -/
  | recorded (operation : OperationId) (fingerprint : Fingerprint) (outcome : ClaimOutcome)
  /-- Its binding is done and the grant is not reported yet. -/
  | granted (operation : OperationId) (fingerprint : Fingerprint) (outcome : ClaimOutcome)
  /-- It was answered from a binding or from the ledger. -/
  | replayed (operation : OperationId) (fingerprint : Fingerprint) (outcome : ClaimOutcome)
deriving DecidableEq

/-- The outcome a stored claiming record answers. -/
def Record.outcome? (r : Record) : Option ClaimOutcome :=
  r.claim?.bind outcomeOf

namespace Standing

/-- The standing after an append. -/
def appended (c : Standing) (r : Record) (stored : Bool) : Standing :=
  match c, r.outcome?, stored with
  | attempting operation fingerprint, some outcome, true => recorded operation fingerprint outcome
  | _, _, _ => c

/-- What an answer changes in the standing. -/
def next (c : Standing) : (a : Act) → Answer a → Standing
  | .reserveBinding operation fingerprint, .ok none => attempting operation fingerprint
  | .reserveBinding operation fingerprint, .ok (some outcome) => replayed operation fingerprint outcome
  | .append r, answer => c.appended r answer.isOk
  | .clearBinding _, _ => idle
  | .finishBinding operation fingerprint outcome, _ => granted operation fingerprint outcome
  | .report (.claimed ..), _ => idle
  | _, _ => c

/-- What the standing entitles to. -/
def obeys (c : Standing) : Act → Prop
  | .reserveBinding .. => c = idle
  | .append r =>
    r.kind = .claiming → ∃ operation fingerprint outcome, c = attempting operation fingerprint ∧
      r.operation = some operation ∧ r.fingerprint = some fingerprint ∧ r.outcome? = some outcome
  | .clearBinding operation => ∃ fingerprint, c = attempting operation fingerprint
  | .finishBinding operation fingerprint outcome => c = recorded operation fingerprint outcome
  | .report (.claimed operation fingerprint (.ok (outcome, true))) =>
    c = granted operation fingerprint outcome
  | .report (.claimed operation fingerprint (.ok (outcome, false))) =>
    c = replayed operation fingerprint outcome
  | .report (.claimed _ _ (.error _)) => c = idle
  | _ => True

end Standing

/-! ### A start whose record is not written yet -/

variable (pending : Option (WorkerId × LeaseGeneration))

/-- What an answer changes in the pending start. -/
def pendingNext :
    (a : Act) → Answer a → Option (WorkerId × LeaseGeneration)
  | .endStart .., .running o => some (o.worker.id, o.worker.generation)
  | .append r, _ => if r.kind = .running then none else pending
  | _, _ => pending

/-- What the pending start entitles to. -/
def pendingObeys : Act → Prop
  | .endStart .. => pending = none
  | .append r => r.kind = .running → pending = some (r.worker, r.leaseGeneration)
  | _ => True

/-! ### Reconciliation -/

/-- The entry a reconcile pass is at. -/
inductive Focus
  | none
  /-- The worker has no slot. -/
  | looking (worker : WorkerId)
  /-- Its suspect record is stored, with the generation and the phase code of the snapshot. -/
  | suspect (worker : WorkerId) (generation : LeaseGeneration) (phaseCode : ℕ)
  /-- A running slot was restored for it. -/
  | restored (worker : WorkerId) (generation : LeaseGeneration)
deriving DecidableEq

/-- A reconcile pass. -/
inductive Recon
  | idle
  | gated (snapshot : List Entry) (focus : Focus)
deriving DecidableEq

namespace Recon

/-- The pass after an append. -/
def appended (c : Recon) (r : Record) (stored : Bool) : Recon :=
  match c with
  | gated snapshot focus =>
    match r.kind with
    | .suspect =>
      gated snapshot (if stored then .suspect r.worker r.leaseGeneration r.detail else .none)
    | .reconciled => gated snapshot .none
    | _ => gated snapshot focus
  | idle => idle

/-- What an answer changes in the pass. -/
def next (c : Recon) : (a : Act) → Answer a → Recon
  | .lockReconcile, _ => gated [] .none
  | .unlockReconcile, _ => idle
  | .entries, .ok entries =>
    match c with
    | gated _ _ => gated entries .none
    | idle => idle
  | .findSlot worker, found =>
    match c with
    | gated snapshot _ => gated snapshot (if found.isNone then .looking worker else .none)
    | idle => idle
  | .addSlot worker _ _ generation, .ok _ =>
    match c with
    | gated snapshot _ => gated snapshot (.restored worker generation)
    | idle => idle
  | .append r, answer => c.appended r answer.isOk
  | _, _ => c

/-- The record is about an entry of the snapshot. -/
def Marks (snapshot : List Entry) (r : Record) : Prop :=
  ∃ e ∈ snapshot, e.worker = r.worker ∧ e.leaseGeneration = r.leaseGeneration ∧
    e.phase.code = r.detail ∧ e.phase.isNonterminal = true

/-- What the pass entitles to. -/
def obeys (c : Recon) : Act → Prop
  | .lockReconcile => c = idle
  | .unlockReconcile => c ≠ idle
  | .findSlot worker => ∀ snapshot focus, c = gated snapshot focus → ∃ e ∈ snapshot, e.worker = worker
  | .addSlot worker _ phase generation =>
    if phase = .constructing then c = idle
    else ∃ snapshot, c = gated snapshot (.suspect worker generation Phase.running.code)
  | .append r =>
    (r.kind = .suspect → ∃ snapshot, c = gated snapshot (.looking r.worker) ∧ Marks snapshot r) ∧
      (r.kind = .reconciled → ∃ snapshot,
        (∃ code, c = gated snapshot (.suspect r.worker r.leaseGeneration code)) ∨
          (c = gated snapshot (.restored r.worker r.leaseGeneration) ∧
            r.detail = ReconcileDisposition.retained.code))
  | _ => True

end Recon

/-! ### Instances -/

/-- The Instance a thread launches or destroys. -/
inductive Window
  | none
  /-- A client transfers a grant of its own. -/
  | raw (instanceId : InstanceId)
  /-- A launch began. -/
  | launching (instanceId : InstanceId)
  /-- It found no binding. -/
  | missed (instanceId : InstanceId)
  /-- Its worker is owned and not bound yet. -/
  | committed (instanceId : InstanceId) (worker : WorkerId)
  /-- It wrote its binding. -/
  | bound (instanceId : InstanceId)
  /-- A destroy began. -/
  | destroying (instanceId : InstanceId)
  /-- It found a binding. -/
  | found (instanceId : InstanceId) (worker : WorkerId)
  /-- It took the worker; `complete` says whether every teardown reply so far was complete. -/
  | closing (instanceId : InstanceId) (worker : WorkerId) (complete : Bool)
  /-- The destroying record of the worker is stored. -/
  | closed (instanceId : InstanceId) (worker : WorkerId) (complete : Bool)
  /-- The binding is removed as well. -/
  | settled (instanceId : InstanceId) (worker : WorkerId) (complete : Bool)
  /-- The worker was not there to take. -/
  | stale (instanceId : InstanceId)
  /-- There is no binding left; the ledger is to answer. -/
  | reading (instanceId : InstanceId)
  /-- What the ledger answered. -/
  | read (instanceId : InstanceId) (entries : List Entry)
  /-- The destroying record could not be stored. -/
  | failed (instanceId : InstanceId)
deriving DecidableEq

namespace Window

/-- The Instance under launch. -/
def launches : Window → Option InstanceId
  | launching i | missed i | committed i _ | bound i => some i
  | _ => .none

/-- The Instance under destroy. -/
def destroys : Window → Option InstanceId
  | destroying i | found i _ | closing i _ _ | closed i _ _ | settled i _ _ | stale i | reading i
  | read i _ | failed i => some i
  | _ => .none

variable (c : Window)

/-- The window after a teardown reply. -/
def replied (complete : Bool) : Window :=
  match c with
  | closing i w all => closing i w (all && complete)
  | closed i w all => closed i w (all && complete)
  | _ => c

/-- The window after a look-up. -/
def lookedUp (live : Option InstanceView) : Window :=
  match c, live with
  | launching i, .none => missed i
  | destroying i, some view => found i view.worker
  | destroying i, .none => reading i
  | _, _ => c

/-- The window after an append. -/
def appended (r : Record) (stored : Bool) : Window :=
  match c with
  | closing i w all =>
    if r.kind = .destroying then (if stored then closed i w all else failed i) else c
  | _ => c

/-- The window after a release took the worker, or did not. -/
def disowned (taken : Bool) : Window :=
  match c with
  | found i w => if taken then closing i w true else stale i
  | _ => c

/-- What an answer changes in the window. -/
def next : (a : Act) → Answer a → Window
  | .report (.launching i), _ => launching i
  | .report (.launched ..), _ | .report (.destroyed ..), _ => none
  | .report (.destroying i), _ => destroying i
  | .lookup .., live => c.lookedUp live
  | .env .useGrant, .transfer intent => raw intent.instanceId
  | .own id _, _ =>
    match c with
    | missed i => committed i id
    | _ => c
  | .bindLive view, _ => bound view.instanceId
  | .disown _, answer => c.disowned answer.isOk
  | .append r, answer => c.appended r answer.isOk
  | .env (.destroy _), reply | .env (.terminate _), reply => c.replied reply.complete
  | .env (.release _), reply | .env (.releaseSterile _), reply => c.replied reply.complete
  | .removeLive _, _ =>
    match c with
    | closed i w all => settled i w all
    | stale i => reading i
    | _ => c
  | .entries, .ok entries =>
    match c with
    | reading i => read i entries
    | _ => c
  | _, _ => c

/-- The receipt is what the window proved. -/
def Proves (i : InstanceId) (receipt : TerminalReceipt) : Prop :=
  match c with
  | settled j w all =>
    j = i ∧ receipt.instanceId = i ∧ receipt.worker = w ∧ (all = true → receipt.complete = true)
  | read j entries => j = i ∧ receiptOf entries i = .ok receipt
  | failed j => j = i
  | _ => False

/-- What the window entitles to. -/
def obeys : Act → Prop
  | .report (.launching _) | .report (.destroying _) => c = none
  | .report (.launched i _) => c = launching i ∨ c = missed i ∨ c = bound i
  | .report (.destroyed i (.ok receipt)) => c.Proves i receipt
  | .report (.destroyed i (.error _)) => c.destroys = some i
  | .lookup .launch i => c = launching i
  | .lookup .destroy i => c = destroying i
  | .append r => r.kind = .assigned → ∃ i, r.instanceId = some i ∧ (c = missed i ∨ c = raw i)
  | .own _ o => c = missed o.instanceId ∨ c = raw o.instanceId ∨ (c = none ∧ o.handle = .none)
  | .bindLive view =>
    c = missed view.instanceId ∨ c = committed view.instanceId view.worker
  | .removeLive i => (∃ w all, c = closed i w all) ∨ c = stale i ∨ c = failed i
  | .disown id => c = none ∨ ∃ i, c = found i id
  | .endStart .. | .lockReconcile => c = none
  | _ => True

end Window

/-! ### Reclaiming bindings -/

/-- The lock of the live table while its bindings are reclaimed: what the table held, the slot
being looked at, and the workers found gone. -/
inductive Reclaim
  | idle
  | active (views : List InstanceView) (probe : Option (WorkerId × ℕ)) (gone : List WorkerId)
deriving DecidableEq

namespace Reclaim

/-- What an answer changes while reclaiming. -/
def next (c : Reclaim) : (a : Act) → Answer a → Option Reclaim
  | .lockLive, views => some (active views .none [])
  | .unlockLive _, _ => some idle
  | .findSlot worker, found =>
    match c, found with
    | active views _ gone, some slot => some (active views (some (worker, slot)) gone)
    | active views _ gone, none => some (active views .none (worker :: gone))
    | idle, _ => some idle
  | .observe slot, seen =>
    match c with
    | active views (some (worker, probed)) gone =>
      if slot ≠ probed then some c
      else if seen.id ≠ worker then none
      else some (active views .none (if seen.phase.isTerminal then worker :: gone else gone))
    | _ => some c
  | _, _ => some c

/-- What reclaiming entitles to. -/
def obeys (c : Reclaim) : Act → Prop
  | .lockLive => c = idle
  | .unlockLive ids =>
    ∃ views probe gone, c = active views probe gone ∧
      ∀ i ∈ ids, ∃ view ∈ views, view.instanceId = i ∧ view.worker ∈ gone
  | _ => True

end Reclaim

/-! ### All of it -/

/-- Everything a thread holds. -/
structure Local where
  tenure : Tenure := .idle
  held : Option Capacity.Reservation := none
  standing : Standing := .idle
  pending : Option (WorkerId × LeaseGeneration) := none
  recon : Recon := .idle
  window : Window := .none
  reclaim : Reclaim := .idle
deriving DecidableEq

namespace Local

/-- What an answer changes in what a thread holds. -/
def next (ℓ : Local) (a : Act) (r : Answer a) : Option Local :=
  (ℓ.tenure.next a r).bind fun tenure =>
    (ℓ.reclaim.next a r).map fun reclaim =>
      { tenure
        held := heldNext ℓ.held a r
        standing := ℓ.standing.next a r
        pending := pendingNext ℓ.pending a r
        recon := ℓ.recon.next a r
        window := ℓ.window.next a r
        reclaim }

/-! Each part of the next holdings comes from that part alone. -/

section next

variable {ℓ ℓ' : Local} {a : Act} {r : Answer a} (h : ℓ.next a r = some ℓ')
include h

theorem next_eq_some :
    ∃ tenure reclaim, ℓ.tenure.next a r = some tenure ∧ ℓ.reclaim.next a r = some reclaim ∧
      ℓ' =
        { tenure
          held := heldNext ℓ.held a r
          standing := ℓ.standing.next a r
          pending := pendingNext ℓ.pending a r
          recon := ℓ.recon.next a r
          window := ℓ.window.next a r
          reclaim } := by
  obtain ⟨tenure, htenure, h⟩ := Option.bind_eq_some_iff.mp h
  obtain ⟨reclaim, hreclaim, rfl⟩ := Option.map_eq_some_iff.mp h
  exact ⟨tenure, reclaim, htenure, hreclaim, rfl⟩

theorem next_tenure : ℓ.tenure.next a r = some ℓ'.tenure := by
  obtain ⟨tenure, reclaim, htenure, hreclaim, rfl⟩ := next_eq_some h
  exact htenure

theorem next_held : ℓ'.held = heldNext ℓ.held a r := by
  obtain ⟨_, _, -, -, rfl⟩ := next_eq_some h
  rfl

theorem next_standing : ℓ'.standing = ℓ.standing.next a r := by
  obtain ⟨_, _, -, -, rfl⟩ := next_eq_some h
  rfl

theorem next_pending : ℓ'.pending = pendingNext ℓ.pending a r := by
  obtain ⟨_, _, -, -, rfl⟩ := next_eq_some h
  rfl

theorem next_recon : ℓ'.recon = ℓ.recon.next a r := by
  obtain ⟨_, _, -, -, rfl⟩ := next_eq_some h
  rfl

end next

/-- What a thread is entitled to. -/
structure Obeys (ℓ : Local) (a : Act) : Prop where
  tenure : ℓ.tenure.obeys a
  held : heldObeys ℓ.held a
  standing : ℓ.standing.obeys a
  pending : pendingObeys ℓ.pending a
  recon : ℓ.recon.obeys a
  window : ℓ.window.obeys a
  reclaim : ℓ.reclaim.obeys a

end Local

/-- The discipline of the pool's threads. -/
def discipline : Discipline Answer Local where
  idle := {}
  next := Local.next
  obeys := Local.Obeys

end Soma.Host.Pool
