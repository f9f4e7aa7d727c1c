import Soma.Netd.LedgerSpec

/-! # What one request does

* **`Coherent m w`** ties the memory of a process to the world: prepared bundles own no file, live
  assignments are on the ledger under the peer that claimed them.
* **`Job`** lists what a request can be working on and the scope it then acts within.
* **`During`** holds at every point of a request: it stays within the scope of one of its jobs, and an
  assignment record changes only when a claim writes it.
* **`Done`** is what holds of reply, memory and world when the request was handled (`handle_spec`).
-/

namespace Soma.Netd

open Soma.Codec Soma.Lib Soma.Guest Prog

variable {prims : Primitives} {allow : (a : Act) → Choice a → World → Prop}

/-! ## Coherence -/

/-- The release of the bundle in a slot has not completed. -/
def Unsettled (w : World) (slot : Slot) : Prop :=
  .settled slot ∉ w.trace

variable (bundle : SterileBundle) (w : World)

/-- The bundle was prepared by a process. -/
def Prepared : Prop :=
  ∃ epoch, .prepared epoch bundle.slot bundle.leases bundle.zone ∈ w.trace

/-- A bundle that was prepared and never assigned: no file carries its identity. -/
structure Unused (bundle : SterileBundle) (w : World) : Prop where
  prepared : Prepared bundle w
  drawn : bundle.id ∈ w.drawn
  files : ∀ file, file.slot.bundle = bundle.id → w.file file = none

/-- What holds of the world at every point. -/
structure Sound (w : World) : Prop where
  drawn : ∀ file bytes, w.file file = some bytes → file.slot.bundle ∈ w.drawn
  records : ∀ slot bytes, w.file (.record .assigned slot) = some bytes →
    ∃ record : AssignmentRecord, record.slot = slot ∧ bytes = record.encode
  generations : ∀ slot slot' bytes bytes', w.file (.record .assigned slot) = some bytes →
    w.file (.record .assigned slot') = some bytes' → slot.bundle = slot'.bundle → slot = slot'

/-- A live assignment is on the ledger under the peer that claimed it. -/
structure Live (slot : Slot) (owned : Owned) (w : World) : Prop where
  record : owned.assigned.record.slot = slot
  bundle : owned.assigned.bundle.slot = slot
  zone : owned.assigned.bundle.zone = owned.assigned.record.zone
  owner : owned.peer = owned.assigned.record.owner
  file : w.file (.record .assigned slot) = some owned.assigned.record.encode

variable (slot : Slot)

/-- The ledger records a slot under an owner. -/
def OwnedBy (owner : U32) : Prop :=
  ∃ record : AssignmentRecord, record.slot = slot ∧ record.owner = owner
    ∧ w.file (.record .assigned slot) = some record.encode

/-- The ledger assigns a slot to a Launch operation of an Instance. -/
def AssignedTo (operation : InstanceId × OperationId) : Prop :=
  ∃ record : AssignmentRecord, record.slot = slot ∧ (record.instance_, record.operation) = operation
    ∧ w.file (.record .assigned slot) = some record.encode

structure Coherent (m : State) (w : World) : Prop where
  pool : ∀ bundle ∈ m.pool, Unused bundle w
  apart : m.pool.Pairwise fun b b' => b.id ≠ b'.id
  live : ∀ slot owned, m.assigned slot = some owned → Live slot owned w
  held : ∀ operation slot, m.operations operation = some slot → AssignedTo w slot operation

/-! ## Forwarding -/

/-- The event turns forwarding on for a slot. -/
def Event.forwards : Event → Bool
  | .forwarded s _ => s = slot
  | _ => false

/-- How often forwarding was turned on for a slot. -/
def World.forwards : ℕ :=
  w.trace.countP (Event.forwards slot)

variable {slot} {w}

theorem countP_forwards {events : List Event} (h : ∀ receipt, .forwarded slot receipt ∉ events) :
    events.countP (Event.forwards slot) = 0 := by
  rw [List.countP_eq_zero]
  intro event hmem hevent
  cases event with
  | forwarded s receipt =>
    obtain rfl : s = slot := by simpa [Event.forwards] using hevent
    exact h receipt hmem
  | _ => cases hevent

variable {p : Scope} {w' : World} {w : World}

theorem Frame.forwards_eq (h : Frame p w w') (hp : ∀ receipt, ¬ p.event (.forwarded slot receipt)) :
    w'.forwards slot = w.forwards slot := by
  obtain ⟨events, htrace, hevents⟩ := h.trace
  have hnone := countP_forwards fun receipt hmem => hp receipt (hevents _ hmem).1
  rw [World.forwards, htrace, List.countP_append, hnone, zero_add]
  rfl

/-! ## Scopes -/

def idleScope : Scope :=
  ⟨fun _ => False, fun _ => False, fun _ _ => False, fun _ => False⟩

/-- Releasing the bundle in a slot. -/
def releaseScope (slot : Slot) (zone : ConntrackZone) : Scope :=
  ⟨(· = slot), (· = zone), fun kind s => kind = .released ∧ s = slot, (· = .settled slot)⟩

/-- Activating an assignment, and releasing it when that fails. -/
def activateScope (prims : Primitives) (assigned : Assigned) (receipt : ActivationReceipt) : Scope :=
  { releaseScope assigned.bundle.slot assigned.bundle.zone with
    event := fun event => event = .settled assigned.bundle.slot
      ∨ event = .forwarded assigned.bundle.slot receipt ∧ ∃ challenge,
          assigned.activation = some challenge ∧ assigned.record.authenticates prims challenge receipt }

/-- Handing the TAP of a live assignment over again. -/
def replayScope (peer : U32) (slot : Slot) : Scope :=
  { idleScope with event := (· = .handed peer slot) }

def prepareScope : Scope :=
  ⟨(· = bundle.slot), (· = bundle.zone), fun _ _ => False,
    fun event => ∃ epoch, event = .prepared epoch bundle.slot bundle.leases bundle.zone⟩

/-- Assigning a bundle to a peer, and releasing it when that fails. -/
def assignScope (peer : U32) : Scope :=
  ⟨(· = bundle.slot), (· = bundle.zone), fun _ s => s = bundle.slot,
    fun event => (∃ challenge, event = .issued bundle.slot challenge) ∨ event = .settled bundle.slot
      ∨ event = .handed peer bundle.slot⟩

/-- Both of them, for a claim; only a bundle that was not in the pool is prepared. -/
def claimScope (m : State) (bundle : SterileBundle) (peer : U32) : Scope :=
  { assignScope bundle peer with
    event := fun event => (assignScope bundle peer).event event
      ∨ m.pool = [] ∧ (prepareScope bundle).event event }

theorem Frame.mono {p q : Scope} (h : Frame p w w') (hbundle : ∀ slot, p.bundle slot → q.bundle slot)
    (hzone : ∀ zone, p.zone zone → q.zone zone) (hrecord : ∀ kind slot, p.record kind slot → q.record kind slot)
    (hevent : ∀ event, p.event event → q.event event) : Frame q w w' where
  kernel short hs := h.kernel short fun slot hslot => hs slot (hbundle slot hslot)
  flushed zone hz := h.flushed zone fun hp => hz (hzone zone hp)
  files file hf := h.files file fun hp => hf (hrecord _ _ hp)
  records := h.records
  trace := by
    obtain ⟨es, ht, he⟩ := h.trace
    exact ⟨es, ht, fun event hmem => ⟨hevent event (he event hmem).1, (he event hmem).2⟩⟩
  epoch := h.epoch
  drawn := h.drawn

theorem Frame.of_idle (h : Frame idleScope w w') : Frame p w w' :=
  h.mono nofun nofun nofun nofun

variable {bundle} {m : State} {peer : U32}

theorem Frame.of_prepare (hpool : m.pool = []) (h : Frame (prepareScope bundle) w w') :
    Frame (claimScope m bundle peer) w w' :=
  h.mono (fun _ h => h) (fun _ h => h) nofun fun _ h => .inr ⟨hpool, h⟩

theorem Frame.of_assign (h : Frame (assignScope bundle peer) w w') :
    Frame (claimScope m bundle peer) w w' :=
  h.mono (fun _ h => h) (fun _ h => h) (fun _ _ h => h) fun _ h => .inl h

theorem safe_keeps_file {α : Type} {prog : Op α} (file : FileName) (hall : prog.All (Act.Within p))
    (hfile : ¬ p.record file.kind file.slot) :
    prog.Safe exec allow (fun w' => w'.file file = w.file file) (fun _ w' => Frame p w w') w :=
  (safe_of_within hall).weaken (fun _ h => h.files file hfile)

/-! ## Assignment -/

/-- An assignment as `tryAssign` makes it. -/
structure NewlyAssigned (prims : Primitives) (broker : Broker) (bundle : SterileBundle) (owner : U32)
    (request : ClaimRequest) (assigned : Assigned) (w : World) : Prop where
  taken : assigned.bundle = bundle
  record : ∃ t, assigned.record = broker.recordOf prims bundle owner request t
  file : w.file (.record .assigned bundle.slot) = some assigned.record.encode
  challenge : ∃ challenge, assigned.activation = some challenge ∧ .issued bundle.slot challenge ∈ w.trace
  activated : assigned.activated = none

variable {owner : U32}

theorem tryAssign_spec {broker : Broker} {request : ClaimRequest}
    (hnone : w.file (.record .assigned bundle.slot) = none) :
    (tryAssign prims broker bundle owner request).run.Safe exec allow
      (Recorded prims broker bundle owner request w)
      (fun r w' => ∀ assigned, r = .ok assigned →
        NewlyAssigned prims broker bundle owner request assigned w') w := by
  refine Safe.andThen (recordClaim_spec hnone) ?_ fun error _ _ _ assigned h => by cases h
  intro record w₁ _ hP₁
  obtain ⟨⟨t, ht⟩, hfile₁⟩ := hP₁ record rfl
  -- the rest touches no file
  have hkeep : ∀ {α : Type} {prog : Op α} {w₂ : World},
      w₂.file (.record .assigned bundle.slot) = some record.encode →
      prog.All (Act.Within { idleScope with bundle := (· = bundle.slot) }) →
      prog.Safe exec allow (fun w' => w'.file (.record .assigned bundle.slot) = some record.encode)
        (fun _ _ => True) w₂ := by
    intro α prog w₂ hfile₂ hall
    exact (safe_keeps_file (.record .assigned bundle.slot) hall nofun).mono
      (fun w' h => h.trans hfile₂) fun _ _ _ _ => trivial
  refine Safe.mono (C := fun w' => w'.file (.record .assigned bundle.slot) = some record.encode) ?_
    (fun w' h => .inr ⟨t, h.trans (congrArg (some ∘ AssignmentRecord.encode) ht)⟩) fun _ _ _ h => h
  refine Safe.andThen (hkeep hfile₁ reserve_within) ?_ fun error _ _ _ assigned h => by cases h
  intro reservations w₂ hfile₂ _
  refine Safe.andThen (P := fun _ _ => True) ⟨hfile₂, trivial⟩ ?_ fun error _ _ _ assigned h => by cases h
  intro published w₃ hfile₃ _
  refine Safe.andThen (hkeep hfile₃ (kernel_within rfl nofun)) ?_ fun error _ _ _ assigned h => by cases h
  intro _ w₄ hfile₄ _
  split
  · exact safe_ret hfile₄ nofun
  · next launch hlaunch =>
    refine Safe.andThen (hkeep hfile₄ (perform_within trivial)) ?_ fun error _ _ _ assigned h => by cases h
    intro challenge w₅ hfile₅ _
    refine safe_act hfile₅ fun e r w₆ hexec _ => ?_
    cases hexec
    refine safe_ret hfile₅ fun assigned hassigned => ?_
    cases hassigned
    exact ⟨rfl, ⟨t, ht⟩, hfile₅, ⟨challenge, rfl, List.mem_cons_self ..⟩, rfl⟩

/-! ## The bundle of a claim -/

/-- No bundle was prepared between two worlds. -/
def NoneNew (w w' : World) : Prop :=
  ∀ epoch slot leases zone, .prepared epoch slot leases zone ∈ w'.trace →
    .prepared epoch slot leases zone ∈ w.trace

/-- The bundle a claim takes, and the memory without it: the first prepared one, or a new one. -/
inductive Takes (prims : Primitives) (m : State) (w : World) : SterileBundle → State → Prop
  | pooled {bundle : SterileBundle} {pool : List SterileBundle} (hpool : m.pool = bundle :: pool) :
      Takes prims m w bundle { m with pool := pool }
  | prepared {id : BundleId} {leases : LeasePair} {zone : ConntrackZone} {broker : Broker}
      (hpool : m.pool = []) (hid : id ∉ w.drawn) (hreserve : m.broker.reserve = (.ok (leases, zone), broker)) :
      Takes prims m w ⟨id, broker.ipam.generation, leases, deriveMacs prims id, zone⟩
        { m with broker := broker }

variable {m₁ : State}

theorem Takes.file_none {m : State} (h : Takes prims m w bundle m₁) (hsound : Sound w) (hcoherent : Coherent m w)
    {file : FileName} (hfile : file.slot.bundle = bundle.id) : w.file file = none := by
  cases h with
  | @pooled _ pool hpool =>
    exact (hcoherent.pool bundle (hpool ▸ List.mem_cons_self ..)).files file hfile
  | prepared hpool hid hreserve =>
    cases hcontent : w.file file with
    | none => rfl
    | some bytes =>
      have hdrawn := hsound.drawn file bytes hcontent
      rw [hfile] at hdrawn
      exact (hid hdrawn).elim

theorem Takes.record_none {m : State} (h : Takes prims m w bundle m₁) (hsound : Sound w) (hcoherent : Coherent m w)
    {kind : Kind} (hslot : slot.bundle = bundle.id) : w.file (.record kind slot) = none :=
  h.file_none hsound hcoherent hslot

variable {broker broker' : Broker} {id : BundleId}

theorem prepare_of_error {error : Error} (hreserve : broker.reserve = (.error error, broker')) :
    prepare prims broker id = .ret (.error error, broker') := by
  unfold prepare
  rw [hreserve]
  rfl

variable {leases : LeasePair} {zone : ConntrackZone}

theorem prepare_within (hreserve : broker.reserve = (.ok (leases, zone), broker')) :
    (prepare prims broker id).All (Act.Within
      (prepareScope ⟨id, broker'.ipam.generation, leases, deriveMacs prims id, zone⟩)) := by
  unfold prepare
  rw [hreserve]
  refine All.bind (createNamespace_within rfl) fun result => ?_
  cases result with
  | error error => trivial
  | ok _ =>
    refine All.bind (build_within rfl) fun result => ?_
    cases result with
    | ok _ => exact ⟨fun epoch => ⟨epoch, rfl⟩, fun _ => trivial⟩
    | error error => exact All.bind (teardown_within rfl rfl) fun _ => trivial

theorem prepare_returns (hreserve : broker.reserve = (.ok (leases, zone), broker')) :
    (prepare prims broker id).Returns fun r => r.2 = broker' ∧ ∀ bundle, r.1 = .ok bundle →
      bundle = ⟨id, broker'.ipam.generation, leases, deriveMacs prims id, zone⟩ := by
  unfold prepare
  rw [hreserve]
  refine Returns.bind returns_true fun result _ => ?_
  cases result with
  | error error => exact ⟨rfl, nofun⟩
  | ok _ =>
    refine Returns.bind returns_true fun result _ => ?_
    cases result with
    | ok _ =>
      refine fun _ => ⟨rfl, fun bundle h => ?_⟩
      cases h
      rfl
    | error error => exact Returns.bind returns_true fun _ _ => ⟨rfl, nofun⟩

theorem Prepared.frame (h : Prepared bundle w) (hframe : Frame p w w') : Prepared bundle w' :=
  h.imp fun _ hmem => hframe.mem_trace hmem

theorem prepare_logged {broker : Broker} :
    (prepare prims broker id).Safe exec allow (fun _ => True)
      (fun r w' => ∀ bundle, r.1 = .ok bundle → Prepared bundle w') w := by
  unfold prepare
  rcases broker.reserve with ⟨error | ⟨leases, zone⟩, broker'⟩
  · exact safe_ret trivial nofun
  refine Safe.bind safe_true fun result w₁ _ _ => ?_
  rcases result with error | _
  · exact safe_ret trivial nofun
  refine Safe.bind safe_true fun result w₂ _ _ => ?_
  rcases result with error | _
  · exact Safe.bind safe_true fun _ w₃ _ _ => safe_ret trivial nofun
  · refine safe_act trivial fun e r w₃ hexec _ => ?_
    cases hexec
    refine safe_ret trivial fun bundle hbundle => ?_
    cases hbundle
    exact ⟨_, List.mem_cons_self ..⟩

/-- Taking a bundle changes nothing, or prepares the one that is taken. -/
def Taking (prims : Primitives) (m : State) (w w' : World) : Prop :=
  Frame idleScope w w' ∨ ∃ bundle m₁, m.pool = [] ∧ Takes prims m w bundle m₁
    ∧ bundle.id ∈ w'.drawn ∧ Frame (prepareScope bundle) w w'

theorem takeBundle_spec (hdraws : allow ≤ DrawsNew) (hcoherent : Coherent m w) :
    (takeBundle prims m).Safe exec allow (Taking prims m w) (fun r w' =>
      (∀ bundle, r.1 = .ok bundle → Takes prims m w bundle r.2 ∧ Prepared bundle w' ∧ bundle.id ∈ w'.drawn
        ∧ (Frame idleScope w w' ∨ m.pool = [] ∧ Frame (prepareScope bundle) w w'))
      ∧ (∀ error, r.1 = .error error → r.2.pool = m.pool ∧ r.2.assigned = m.assigned
        ∧ r.2.operations = m.operations
        ∧ ((r.2.broker = m.broker ∧ NoneNew w w') ∨ m.pool = [] ∧ r.2.broker = m.broker.reserve.2))) w := by
  unfold takeBundle
  split
  · next bundle pool hpool =>
    refine safe_ret (.inl (.refl _ w)) ⟨fun taken htaken => ?_, by rintro _ ⟨⟩⟩
    cases htaken
    have hunused := hcoherent.pool bundle (hpool ▸ List.mem_cons_self ..)
    exact ⟨.pooled hpool, hunused.prepared, hunused.drawn, .inl (.refl _ w)⟩
  · next hpool =>
    refine safe_act (.inl (.refl _ w)) fun e r w₁ hexec hallow => ?_
    cases e with
    | error error =>
      cases hexec
      exact safe_ret (.inl (.refl _ w)) ⟨by rintro _ ⟨⟩, fun _ _ => ⟨rfl, rfl, rfl, .inl ⟨rfl, fun _ _ _ _ h => h⟩⟩⟩
    | ok id =>
      have hid : id ∉ w.drawn := hdraws _ _ _ hallow
      cases hexec
      change Safe exec allow _ _
        (prepare prims m.broker id >>= fun x => .ret (x.1, { m with broker := x.2 })) _
      have hdraw : ∀ p, Frame p w { w with drawn := id :: w.drawn } := fun p => .draw id
      rcases hreserve : m.broker.reserve with ⟨error | ⟨leases, zone⟩, broker⟩
      · rw [prepare_of_error hreserve]
        exact safe_ret (.inl (hdraw _)) ⟨by rintro _ ⟨⟩, fun _ _ => ⟨rfl, rfl, rfl, .inr ⟨hpool, rfl⟩⟩⟩
      · have htakes : Takes prims m w _ _ := .prepared hpool hid hreserve
        have hid' : ∀ p w', Frame p { w with drawn := id :: w.drawn } w' → id ∈ w'.drawn :=
          fun p w' h => h.drawn id (List.mem_cons_self ..)
        refine Safe.bind ((((safe_of_within (prepare_within hreserve)).conj
          prepare_logged).returns (prepare_returns hreserve)).weaken
            (fun w' h => .inr ⟨_, _, hpool, htakes, hid' _ w' h.1, (hdraw _).trans h.1⟩)) ?_
        rintro ⟨result, after⟩ w₂ hC ⟨⟨hframe, hlogged⟩, hafter, hbundle⟩
        obtain rfl : after = broker := hafter
        refine safe_ret hC ⟨fun bundle h => ?_, fun _ _ => ⟨rfl, rfl, rfl, .inr ⟨hpool, rfl⟩⟩⟩
        obtain rfl := hbundle bundle h
        exact ⟨htakes, hlogged _ h, hid' _ w₂ hframe, .inr ⟨hpool, (hdraw _).trans hframe⟩⟩

/-! ## Jobs -/

/-- What a request of a peer can be working on, once the world is `w'`. -/
inductive Job (prims : Primitives) (m : State) (w : World) (peer : U32) (w' : World) :
    Request → Scope → Prop
  | idle {request : Request} : Job prims m w peer w' request idleScope
  | claim {request : ClaimRequest} {bundle : SterileBundle} {m₁ : State}
      (hfree : m.operations (request.instance_, request.operation) = none)
      (htakes : Takes prims m w bundle m₁) (hdrawn : bundle.id ∈ w'.drawn) :
      Job prims m w peer w' (.claim request.instance_ request.operation request.vsockCid request.intent)
        (claimScope m bundle peer)
  | replay {instance_ : InstanceId} {operation : OperationId} {vsockCid : U32} {intent : NetworkIntent}
      {slot : Slot} {owned : Owned} (hlive : m.assigned slot = some owned) (hpeer : owned.peer = peer) :
      Job prims m w peer w' (.claim instance_ operation vsockCid intent)
        (replayScope peer owned.assigned.record.slot)
  | activate {slot : Slot} {receipt : ActivationReceipt} {owned : Owned}
      (hlive : m.assigned slot = some owned) (hpeer : owned.peer = peer) :
      Job prims m w peer w' (.activate slot receipt) (activateScope prims owned.assigned receipt)
  | releaseLive {slot : Slot} {owned : Owned} (hlive : m.assigned slot = some owned)
      (hpeer : owned.peer = peer) :
      Job prims m w peer w' (.release slot)
        (releaseScope owned.assigned.bundle.slot owned.assigned.bundle.zone)
  | releaseRecord {slot : Slot} {record : AssignmentRecord}
      (hdecoded : w.decoded prims (.record .assigned slot) = some (.ok record))
      (howner : record.owner = peer) :
      Job prims m w peer w' (.release slot) (releaseScope record.slot record.zone)

/-- The record in a slot is the one this request, a claim that held nothing, writes. -/
def Claims (prims : Primitives) (m : State) (w : World) (peer : U32) (request : Request) (slot : Slot)
    (w' : World) : Prop :=
  ∃ (claim : ClaimRequest) (bundle : SterileBundle) (m₁ : State) (t : U64),
    request = .claim claim.instance_ claim.operation claim.vsockCid claim.intent
    ∧ m.operations (claim.instance_, claim.operation) = none ∧ Takes prims m w bundle m₁
    ∧ Prepared bundle w' ∧ slot = bundle.slot
    ∧ w'.file (.record .assigned slot) = some (m₁.broker.recordOf prims bundle peer claim t).encode

/-- The Launch operation a claim names. -/
def Request.operation : Request → Option (InstanceId × OperationId)
  | .claim instance_ operation _ _ => some (instance_, operation)
  | _ => none

/-- What holds at every point of a request. -/
structure During (prims : Primitives) (m : State) (w : World) (peer : U32) (request : Request) (w' : World) :
    Prop where
  job : ∃ p, Job prims m w peer w' request p ∧ Frame p w w'
  records : ∀ slot, w'.file (.record .assigned slot) = w.file (.record .assigned slot)
    ∨ Claims prims m w peer request slot w'
  handed : ∀ u slot, .handed u slot ∈ w'.trace → .handed u slot ∈ w.trace ∨ OwnedBy w' slot u
  once : ∀ slot, w'.forwards slot ≤ w.forwards slot + 1

/-- A live entry after a request: as it was, spent by an activation, or newly claimed. -/
inductive Entry (prims : Primitives) (m : State) (w : World) (peer : U32) (request : Request)
    (w' : World) : Slot → Owned → Prop
  | kept {slot : Slot} {owned : Owned} (h : m.assigned slot = some owned) :
      Entry prims m w peer request w' slot owned
  | spent {slot : Slot} {owned : Owned} {assigned : Assigned} (h : m.assigned slot = some owned)
      (hpeer : owned.peer = peer) (hrecord : assigned.record = owned.assigned.record)
      (hbundle : assigned.bundle = owned.assigned.bundle) (hspent : assigned.activation = none) :
      Entry prims m w peer request w' slot ⟨owned.peer, assigned⟩
  | claimed {claim : ClaimRequest} {bundle : SterileBundle} {m₁ : State} {assigned : Assigned}
      (hrequest : request = .claim claim.instance_ claim.operation claim.vsockCid claim.intent)
      (htakes : Takes prims m w bundle m₁)
      (hnew : NewlyAssigned prims m₁.broker bundle peer claim assigned w') :
      Entry prims m w peer request w' bundle.slot ⟨peer, assigned⟩

/-- What holds when a request was handled. -/
structure Done (prims : Primitives) (m : State) (w : World) (peer : U32) (request : Request) (reply : Reply)
    (m' : State) (w' : World) : Prop where
  during : During prims m w peer request w'
  coherent : Coherent m' w'
  broker : (m'.broker = m.broker ∧ NoneNew w w') ∨ m.pool = [] ∧ m'.broker = m.broker.reserve.2
  others : ∀ slot owned, m.assigned slot = some owned → owned.peer ≠ peer → m'.assigned slot = some owned
  live : ∀ slot owned, m'.assigned slot = some owned → Entry prims m w peer request w' slot owned
  quiet : ∀ slot owned challenge, m'.assigned slot = some owned →
    owned.assigned.activation = some challenge → w'.forwards slot = w.forwards slot
  claimed : ∀ slot launch challenge, reply = .claimed slot launch challenge →
    ∃ owned, m'.assigned slot = some owned ∧ owned.peer = peer
      ∧ owned.assigned.activation = some challenge
      ∧ ∃ operation, request.operation = some operation ∧ AssignedTo w' slot operation

/-! ## Keeping coherence -/

variable {owned : Owned}

theorem Live.frame (h : Live slot owned w) (hframe : Frame p w w') : Live slot owned w' :=
  { h with file := hframe.records _ _ _ h.file }

variable {operation : InstanceId × OperationId}

theorem AssignedTo.frame (h : AssignedTo w slot operation) (hframe : Frame p w w') :
    AssignedTo w' slot operation := by
  obtain ⟨record, hslot, hoperation, hfile⟩ := h
  exact ⟨record, hslot, hoperation, hframe.records _ _ _ hfile⟩

theorem OwnedBy.frame (h : OwnedBy w slot owner) (hframe : Frame p w w') : OwnedBy w' slot owner := by
  obtain ⟨record, hslot, howner, hfile⟩ := h
  exact ⟨record, hslot, howner, hframe.records _ _ _ hfile⟩

theorem Live.ownedBy (h : Live slot owned w) : OwnedBy w slot owned.peer :=
  ⟨owned.assigned.record, h.record, h.owner.symm, h.file⟩

theorem Frame.noneNew (h : Frame p w w')
    (hp : ∀ epoch slot leases zone, ¬ p.event (.prepared epoch slot leases zone)) : NoneNew w w' :=
  fun epoch slot leases zone hmem => (h.of_mem_trace hmem).resolve_right (hp epoch slot leases zone)

theorem Live.assignedTo (h : Live slot owned w) : AssignedTo w slot owned.assigned.operation :=
  ⟨owned.assigned.record, h.record, rfl, h.file⟩

theorem Unused.frame (h : Unused bundle w) (hframe : Frame p w w')
    (hp : ∀ kind slot, p.record kind slot → slot.bundle ≠ bundle.id) : Unused bundle w' where
  prepared := h.prepared.frame hframe
  drawn := hframe.drawn _ h.drawn
  files file hfile := by
    rw [hframe.files file fun hrecord => hp _ _ hrecord hfile]
    exact h.files file hfile

theorem Coherent.live_ne_pool (h : Coherent m w) (hlive : m.assigned slot = some owned)
    (hbundle : bundle ∈ m.pool) : slot.bundle ≠ bundle.id := by
  intro heq
  have hfile := (h.live slot owned hlive).file
  rw [(h.pool bundle hbundle).files (.record .assigned slot) heq] at hfile
  cases hfile

theorem Coherent.frame (h : Coherent m w) (hframe : Frame p w w')
    (hp : ∀ bundle ∈ m.pool, ∀ kind slot, p.record kind slot → slot.bundle ≠ bundle.id) : Coherent m w' where
  pool bundle hbundle := (h.pool bundle hbundle).frame hframe (hp bundle hbundle)
  apart := h.apart
  live slot owned hlive := (h.live slot owned hlive).frame hframe
  held operation slot hslot := (h.held operation slot hslot).frame hframe

theorem Coherent.shrink {m m' : State} (h : Coherent m w) (hpool : m'.pool = m.pool)
    (hlive : ∀ slot owned, m'.assigned slot = some owned → m.assigned slot = some owned)
    (hheld : ∀ operation slot, m'.operations operation = some slot → m.operations operation = some slot) :
    Coherent m' w where
  pool := by
    rw [hpool]
    exact h.pool
  apart := by
    rw [hpool]
    exact h.apart
  live slot owned howned := h.live slot owned (hlive slot owned howned)
  held operation slot hslot := h.held operation slot (hheld operation slot hslot)

theorem update_eq_some {κ β : Type} [DecidableEq κ] {f : κ → Option β} {a x : κ} {v : Option β} {y : β} :
    Function.update f a v x = some y ↔ x = a ∧ v = some y ∨ x ≠ a ∧ f x = some y := by
  by_cases h : x = a
  · simp [h]
  · simp [h]

theorem Coherent.own (h : Coherent m w) (hlive : Live owned.assigned.record.slot owned w) :
    Coherent (m.own owned) w where
  pool := h.pool
  apart := h.apart
  live slot other hother := by
    obtain ⟨rfl, heq⟩ | ⟨-, hother⟩ := update_eq_some.mp hother
    · cases heq
      exact hlive
    · exact h.live slot other hother
  held operation slot hslot := by
    obtain ⟨rfl, heq⟩ | ⟨-, hslot⟩ := update_eq_some.mp hslot
    · cases heq
      exact hlive.assignedTo
    · exact h.held operation slot hslot

theorem disown_assigned {slot slot' : Slot} (h : (m.disown slot).assigned slot' = some owned) :
    m.assigned slot' = some owned ∧ slot' ≠ slot := by
  obtain ⟨-, heq⟩ | ⟨hslot, h⟩ := update_eq_some.mp h
  · cases heq
  · exact ⟨h, hslot⟩

variable {complete : Bool}

theorem forgetIf_assigned : (m.forgetIf complete operation).assigned = m.assigned := by
  unfold State.forgetIf
  split_ifs <;> rfl

theorem forgetIf_operations {operation other : InstanceId × OperationId}
    (h : (m.forgetIf complete operation).operations other = some slot) : m.operations other = some slot := by
  unfold State.forgetIf at h
  split_ifs at h
  · obtain ⟨-, heq⟩ | ⟨-, h⟩ := update_eq_some.mp h
    · cases heq
    · exact h
  · exact h

theorem forgetIf_pool : (m.forgetIf complete operation).pool = m.pool := by
  unfold State.forgetIf
  split_ifs <;> rfl

theorem forgetIf_broker : (m.forgetIf complete operation).broker = m.broker := by
  unfold State.forgetIf
  split_ifs <;> rfl

end Soma.Netd
