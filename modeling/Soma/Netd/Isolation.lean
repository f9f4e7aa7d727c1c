import Soma.Netd.Leases

/-! # Only the claiming peer affects an assignment

* **`Guarded`** is what holds of every run: descriptors and challenges went to the recorded owner only,
  and forwarding was turned on at most once, for a receipt that authenticates for the record.
* **`Untouched`** compares the world a request of another peer found with any later point of it.
* One thing crosses owners: a release flushes its conntrack zone, which after a restart may be that of
  another owner's assignment too (`release_flushes_zone_of_other_owner`).
* **`others_untouched`** has everything else without a condition, and the zone when the request can only
  release bundles of other zones.
-/

namespace Soma.Netd

open Soma.Codec Soma.Lib Soma.Guest Service

variable {prims : Primitives} {m : State} {w w' : World} {peer : U32} {request : Request}

/-! ## Challenges, descriptors and forwarding -/

/-- Who was told and what was turned on, over a whole run. -/
structure Guarded (prims : Primitives) (w : World) : Prop where
  handed : ∀ u slot, .handed u slot ∈ w.trace → OwnedBy w slot u
  replied : ∀ u request slot launch challenge, .replied u request (.claimed slot launch challenge) ∈ w.trace →
    OwnedBy w slot u ∧ .issued slot challenge ∈ w.trace
  forwarded : ∀ slot receipt, .forwarded slot receipt ∈ w.trace →
    ∃ (record : AssignmentRecord) (challenge : ActivationChallenge), record.slot = slot
      ∧ w.file (.record .assigned slot) = some record.encode ∧ .issued slot challenge ∈ w.trace
      ∧ record.authenticates prims challenge receipt
  once : ∀ slot, w.forwards slot ≤ 1

/-- An unspent challenge was issued for its slot, and forwarding was not turned on yet. -/
def Unspent (m : State) (w : World) : Prop :=
  ∀ slot owned challenge, m.assigned slot = some owned → owned.assigned.activation = some challenge →
    .issued slot challenge ∈ w.trace ∧ w.forwards slot = 0

variable {p : Scope}

theorem Job.forwards (h : Job prims m w peer w' request p) {slot : Slot} {receipt : ActivationReceipt}
    (hevent : p.event (.forwarded slot receipt)) :
    ∃ owned challenge, slot = owned.assigned.bundle.slot
      ∧ (∃ s, m.assigned s = some owned) ∧ owned.assigned.activation = some challenge
      ∧ owned.assigned.record.authenticates prims challenge receipt := by
  cases h with
  | idle => cases hevent
  | claim hfree htakes hdrawn => exact (claimScope_not_forwarded _ _ hevent).elim
  | replay hlive hpeer => cases hevent
  | @activate s r owned hlive hpeer =>
    rcases hevent with heq | ⟨heq, challenge, hchallenge, hauth⟩
    · cases heq
    · cases heq
      exact ⟨owned, challenge, rfl, ⟨s, hlive⟩, hchallenge, hauth⟩
  | releaseLive hlive hpeer => cases hevent
  | releaseRecord hdecoded howner => cases hevent

variable {m' : State} {reply : Reply} {u : U32} {r : Request}

theorem OwnedBy.log {slot : Slot} {event : Event} (h : OwnedBy w slot u) : OwnedBy (w.log event) slot u :=
  h

theorem forwards_log_replied {slot : Slot} : (w.log (.replied u r reply)).forwards slot = w.forwards slot :=
  List.countP_cons_of_neg nofun

theorem Guarded.log (hw : Guarded prims w)
    (hreply : ∀ slot launch challenge, reply = .claimed slot launch challenge →
      OwnedBy w slot u ∧ .issued slot challenge ∈ w.trace) :
    Guarded prims (w.log (.replied u r reply)) := by
  have hold : ∀ {event : Event}, event ∈ w.trace → event ∈ (w.log (.replied u r reply)).trace :=
    fun h => List.mem_cons_of_mem _ h
  refine ⟨fun v slot hmem => ?_, fun v other slot launch challenge hmem => ?_, fun slot receipt hmem => ?_,
    fun slot => ?_⟩
  · exact hw.handed v slot ((List.mem_cons.mp hmem).resolve_left nofun)
  · rcases List.mem_cons.mp hmem with heq | hmem
    · cases heq
      obtain ⟨howned, hissued⟩ := hreply slot launch challenge rfl
      exact ⟨howned.log, hold hissued⟩
    · obtain ⟨howned, hissued⟩ := hw.replied v other slot launch challenge hmem
      exact ⟨howned.log, hold hissued⟩
  · obtain ⟨record, challenge, hslot, hfile, hissued, hauth⟩ :=
      hw.forwarded slot receipt ((List.mem_cons.mp hmem).resolve_left nofun)
    exact ⟨record, challenge, hslot, hfile, hold hissued, hauth⟩
  · rw [forwards_log_replied]
    exact hw.once slot

theorem Unspent.log (h : Unspent m w) : Unspent m (w.log (.replied u r reply)) := by
  intro slot owned challenge howned hchallenge
  obtain ⟨hissued, hzero⟩ := h slot owned challenge howned hchallenge
  exact ⟨List.mem_cons_of_mem _ hissued, forwards_log_replied.trans hzero⟩

section

variable (hw : Guarded prims w) (hcoherent : Coherent m w) (hsound : Sound w) (hunspent : Unspent m w)
include hw hcoherent hunspent

theorem During.guarded (h : During prims m w peer request w') : Guarded prims w' := by
  obtain ⟨p, hjob, hframe⟩ := h.job
  -- the assignment whose forwarding is turned on
  have hlive : ∀ slot receipt, p.event (.forwarded slot receipt) → ∃ owned challenge,
      Live slot owned w ∧ .issued slot challenge ∈ w.trace ∧ w.forwards slot = 0
        ∧ owned.assigned.record.authenticates prims challenge receipt := by
    intro slot receipt hevent
    obtain ⟨owned, challenge, rfl, ⟨s, hs⟩, hchallenge, hauth⟩ := hjob.forwards hevent
    have hlive := hcoherent.live s owned hs
    obtain ⟨hissued, hzero⟩ := hunspent s owned challenge hs hchallenge
    rw [hlive.bundle]
    exact ⟨owned, challenge, hlive, hissued, hzero, hauth⟩
  refine ⟨fun u slot hmem => ?_, fun u r slot launch challenge hmem => ?_, fun slot receipt hmem => ?_,
    fun slot => ?_⟩
  · exact (h.handed u slot hmem).elim (fun hold => (hw.handed u slot hold).frame hframe) fun h => h
  · obtain ⟨howned, hissued⟩ := hw.replied u r slot launch challenge (h.replied hmem)
    exact ⟨howned.frame hframe, hframe.mem_trace hissued⟩
  · rcases hframe.of_mem_trace hmem with hold | hevent
    · obtain ⟨record, challenge, hslot, hfile, hissued, hauth⟩ := hw.forwarded slot receipt hold
      exact ⟨record, challenge, hslot, hframe.records _ _ _ hfile, hframe.mem_trace hissued, hauth⟩
    · obtain ⟨owned, challenge, hlive, hissued, -, hauth⟩ := hlive slot receipt hevent
      exact ⟨owned.assigned.record, challenge, hlive.record, (hlive.frame hframe).file,
        hframe.mem_trace hissued, hauth⟩
  · by_cases hevent : ∃ receipt, p.event (.forwarded slot receipt)
    · obtain ⟨receipt, hevent⟩ := hevent
      obtain ⟨owned, challenge, -, -, hzero, -⟩ := hlive slot receipt hevent
      have honce := h.once slot
      omega
    · rw [hframe.forwards_eq fun receipt hp => hevent ⟨receipt, hp⟩]
      exact hw.once slot

include hsound

theorem Done.unspent (h : Done prims m w peer request reply m' w') : Unspent m' w' := by
  obtain ⟨p, -, hframe⟩ := h.during.job
  intro slot owned challenge howned hchallenge
  have hquiet := h.quiet slot owned challenge howned hchallenge
  rw [hquiet]
  cases h.live slot owned howned with
  | kept hold =>
    obtain ⟨hissued, hzero⟩ := hunspent slot owned challenge hold hchallenge
    exact ⟨hframe.mem_trace hissued, hzero⟩
  | spent hold hpeer hrecord hbundle hspent =>
    rw [hspent] at hchallenge
    cases hchallenge
  | @claimed claim bundle m₁ assigned hrequest htakes hnew =>
    obtain ⟨other, hother, hissued⟩ := hnew.challenge
    obtain rfl : other = challenge := Option.some.inj (hother.symm.trans hchallenge)
    refine ⟨hissued, countP_forwards fun receipt hmem => ?_⟩
    -- forwarding is only turned on for recorded slots, and this one was new
    obtain ⟨record, _, _, hfile, _⟩ := hw.forwarded bundle.slot receipt hmem
    rw [htakes.record_none hsound hcoherent rfl] at hfile
    cases hfile

theorem Done.guarded (h : Done prims m w peer request reply m' w') : Guarded prims (w'.log (.replied peer request reply)) := by
  refine (h.during.guarded hw hcoherent hunspent).log fun slot launch challenge hreply => ?_
  obtain ⟨owned, howned, hpeer, hchallenge, -⟩ := h.claimed slot launch challenge hreply
  refine ⟨hpeer ▸ (h.coherent.live slot owned howned).ownedBy, ?_⟩
  exact (h.unspent hw hcoherent hsound hunspent slot owned challenge howned hchallenge).1

theorem Serving.guarded (h : Serving prims m w peer request w') : Guarded prims w' := by
  cases h with
  | refusing h => exact hw
  | refused h => exact hw.log nofun
  | handling h hduring => exact hduring.guarded hw hcoherent hunspent
  | replied h hdone => exact hdone.guarded hw hcoherent hsound hunspent

theorem Served.unspent (h : Served prims m w peer request m' w') : Unspent m' w' := by
  cases h with
  | refused h => exact hunspent.log
  | replied h hdone => exact (hdone.unspent hw hcoherent hsound hunspent).log

end

theorem Guarded.boot (hw : Guarded prims w) (h : Frame (bootScope w.revive) w.revive w') : Guarded prims w' := by
  have hold : ∀ {event : Event}, event ∈ w'.trace → (∀ e s l z, event ≠ .prepared e s l z) →
      event ∈ w.trace := by
    intro event hmem hne
    refine (h.of_mem_trace hmem).resolve_right ?_
    rintro ⟨e, s, l, z, heq⟩
    exact hne e s l z heq
  refine ⟨fun u slot hmem => ?_, fun u r slot launch challenge hmem => ?_, fun slot receipt hmem => ?_,
    fun slot => ?_⟩
  · exact (hw.handed u slot (hold hmem nofun)).frame (w := w.revive) h
  · obtain ⟨howned, hissued⟩ := hw.replied u r slot launch challenge (hold hmem nofun)
    exact ⟨howned.frame (w := w.revive) h, h.mem_trace hissued⟩
  · obtain ⟨record, challenge, hslot, hfile, hissued, hauth⟩ := hw.forwarded slot receipt (hold hmem nofun)
    exact ⟨record, challenge, hslot, h.records _ _ _ hfile, h.mem_trace hissued, hauth⟩
  · rw [h.forwards_eq (by rintro _ ⟨_, _, _, _, heq⟩; cases heq)]
    exact hw.once slot

/-! ## Other owners' assignments -/

/-- The identities ever drawn have different short names. -/
def World.ShortsDistinct (w : World) : Prop :=
  ∀ id ∈ w.drawn, ∀ id' ∈ w.drawn, id.shortHex = id'.shortHex → id = id'

/-- The zone of the bundle that a request can end up releasing. -/
def MayFlush (m : State) (w : World) (peer : U32) (zone : ConntrackZone) : Request → Prop
  | .claim instance_ operation _ _ => m.operations (instance_, operation) = none ∧ match m.pool with
    | bundle :: _ => zone = bundle.zone
    | [] => zone.value = m.broker.nextZone
  | .activate slot _ =>
    ∃ owned, m.assigned slot = some owned ∧ owned.peer = peer ∧ zone = owned.assigned.bundle.zone
  | .release slot =>
    ∃ record : AssignmentRecord, record.slot = slot ∧ record.owner = peer ∧ zone = record.zone
      ∧ w.file (.record .assigned slot) = some record.encode
  | .reconcile => False

/-- What a request left alone of an assignment: its kernel objects, its release record, its live entry
with the port reservations, and the conntrack entries of its zone. -/
structure Untouched (m : State) (w : World) (peer : U32) (request : Request) (record : AssignmentRecord)
    (c : Config) : Prop where
  kernel : c.world.kernel record.slot.short = w.kernel record.slot.short
  release : c.world.file (.record .released record.slot) = w.file (.record .released record.slot)
  live : ∀ m', c.rest = .ret (some m') → m'.assigned record.slot = m.assigned record.slot
  zone : ¬ MayFlush m w peer record.zone request → c.world.flushed record.zone = w.flushed record.zone

/-- The parts of it that a world shows. -/
abbrev Aside (m : State) (w : World) (peer : U32) (request : Request) (record : AssignmentRecord) (w' : World) : Prop :=
  w'.kernel record.slot.short = w.kernel record.slot.short
    ∧ w'.file (.record .released record.slot) = w.file (.record .released record.slot)
    ∧ (¬ MayFlush m w peer record.zone request → w'.flushed record.zone = w.flushed record.zone)

theorem Job.bundle_record (h : Job prims m w peer w' request p) {slot : Slot} (hslot : p.bundle slot) : p.record .released slot := by
  cases h with
  | idle => cases hslot
  | claim hfree htakes hdrawn => exact hslot
  | replay hlive hpeer => cases hslot
  | activate hlive hpeer => exact ⟨rfl, hslot⟩
  | releaseLive hlive hpeer => exact ⟨rfl, hslot⟩
  | releaseRecord hdecoded howner => exact ⟨rfl, hslot⟩

section

variable (hcoherent : Coherent m w) (hsound : Sound w)
include hcoherent hsound

theorem Job.zone (h : Job prims m w peer w' request p) {zone : ConntrackZone} (hzone : p.zone zone) :
    MayFlush m w peer zone request := by
  cases h with
  | idle => cases hzone
  | claim hfree htakes hdrawn =>
    refine ⟨hfree, ?_⟩
    cases htakes with
    | pooled hpool =>
      rw [hpool]
      exact hzone
    | prepared hpool hid hreserve =>
      rw [hpool]
      obtain rfl : zone = _ := hzone
      exact (Broker.reserve_ok hreserve).2.2.1
  | replay hlive hpeer => cases hzone
  | activate hlive hpeer => exact ⟨_, hlive, hpeer, hzone⟩
  | releaseLive hlive hpeer =>
    have hlive := hcoherent.live _ _ hlive
    refine ⟨_, hlive.record, hlive.owner.symm.trans hpeer, ?_, hlive.file⟩
    rw [← hlive.zone]
    exact hzone
  | releaseRecord hdecoded howner =>
    obtain ⟨hslot, hfile⟩ := hsound.decoded hdecoded
    exact ⟨_, hslot, howner, hzone, hfile⟩

theorem Job.bundle_owner (h : Job prims m w peer w' request p) {slot : Slot}
    (hslot : p.bundle slot ∨ ∃ kind, p.record kind slot) :
    OwnedBy w slot peer ∨ ∀ kind s, s.bundle = slot.bundle → w.file (.record kind s) = none := by
  cases h with
  | idle | replay => rcases hslot with h | ⟨_, h⟩ <;> cases h
  | claim hfree htakes hdrawn =>
    obtain rfl : slot = _ := hslot.elim (fun h => h) fun ⟨_, h⟩ => h
    exact .inr fun kind s hs => htakes.record_none hsound hcoherent hs
  | activate hlive hpeer | releaseLive hlive hpeer =>
    have hlive := hcoherent.live _ _ hlive
    obtain rfl : slot = _ := hslot.elim (fun h => h) fun ⟨_, h⟩ => h.2
    rw [hlive.bundle, ← hpeer]
    exact .inl hlive.ownedBy
  | releaseRecord hdecoded howner =>
    obtain ⟨hslot', hfile⟩ := hsound.decoded hdecoded
    obtain rfl : slot = _ := hslot.elim (fun h => h) fun ⟨_, h⟩ => h.2
    exact .inl ⟨_, rfl, howner, hslot' ▸ hfile⟩

variable {record : AssignmentRecord} (hfile : w.file (.record .assigned record.slot) = some record.encode)
  (howner : record.owner ≠ peer)
include hfile howner

theorem Job.bundle_ne (h : Job prims m w peer w' request p) {slot : Slot}
    (hslot : p.bundle slot ∨ ∃ kind, p.record kind slot) : slot.bundle ≠ record.slot.bundle := by
  intro heq
  rcases h.bundle_owner hcoherent hsound hslot with ⟨other, hother, howner', hfile'⟩ | hnone
  · obtain rfl : slot = record.slot := hsound.generations _ _ _ _ hfile' hfile heq
    rw [hfile] at hfile'
    rw [AssignmentRecord.encode_injective (Option.some.inj hfile')] at howner
    exact howner howner'
  · rw [hnone .assigned record.slot heq.symm] at hfile
    cases hfile

theorem During.untouched (h : During prims m w peer request w') (hshort : w'.ShortsDistinct) :
    Aside m w peer request record w' := by
  obtain ⟨p, hjob, hframe⟩ := h.job
  refine ⟨hframe.kernel _ fun slot hslot heq => ?_, hframe.files _ fun hrecord => ?_, fun hzone => ?_⟩
  · have hdrawn := hjob.record_drawn hcoherent hsound hframe.drawn (hjob.bundle_record hslot)
    have hdrawn' := hframe.drawn _ (hsound.drawn _ _ hfile)
    exact hjob.bundle_ne hcoherent hsound hfile howner (.inl hslot) (hshort _ hdrawn _ hdrawn' heq)
  · exact hjob.bundle_ne hcoherent hsound hfile howner (.inr ⟨.released, hrecord⟩) rfl
  · exact hframe.flushed _ fun hp => hzone (hjob.zone hcoherent hsound hp)

theorem Done.live_untouched (h : Done prims m w peer request reply m' w') :
    m'.assigned record.slot = m.assigned record.slot := by
  cases hold : m.assigned record.slot with
  | some owned =>
    refine h.others _ owned hold fun hpeer => howner ?_
    have hlive := hcoherent.live _ owned hold
    have hsame := hlive.file
    rw [hfile] at hsame
    rw [AssignmentRecord.encode_injective (Option.some.inj hsame), ← hlive.owner, hpeer]
  | none =>
    cases hnew : m'.assigned record.slot with
    | none => rfl
    | some owned =>
      generalize hslot : record.slot = slot at *
      cases h.live slot owned hnew with
      | kept hkept =>
        rw [hold] at hkept
        cases hkept
      | spent hkept =>
        rw [hold] at hkept
        cases hkept
      | claimed hrequest htakes hnew =>
        rw [htakes.record_none hsound hcoherent rfl] at hfile
        cases hfile

end

/-- In every run, when the drawn identities have different short names: descriptors and challenges went to
owners, forwarding was turned on at most once and for an authentic receipt, and a request leaves the
assignments of other owners untouched. The zone of such an assignment is flushed only if the request can
release a bundle with the same zone. -/
theorem others_untouched {c : Config} (h : Reach (broker prims) anyRun .empty c)
    (hshort : c.world.ShortsDistinct) :
    Guarded prims c.world
      ∧ ∀ peer request m w, c.serving = some ((peer, request), m, w) → ∀ record : AssignmentRecord,
        w.file (.record .assigned record.slot) = some record.encode → record.owner ≠ peer →
        Untouched m w peer request record c := by
  have hheld := broker_invariant le_rfl (Guarded prims) Unspent ?init ?boot ?serve h
  case init => exact ⟨nofun, nofun, nofun, fun slot => Nat.zero_le _⟩
  case boot =>
    intro options w hsound hw _
    have hrevive : Sound w.revive := hsound.of_files (fun _ => rfl) fun _ h => h
    refine (boot_spec le_rfl options hrevive).mono (fun w' hframe => hw.boot hframe) ?_
    intro m? w' _ hm m hsome slot owned challenge howned
    rw [(hm m hsome).2 slot] at howned
    cases howned
  case serve =>
    intro peer request m w hsound hcoherent hw hunspent _
    exact (serveRequest_spec le_rfl hcoherent hsound).mono
      (fun w' hserving => hserving.guarded hw hcoherent hsound hunspent)
      fun _ _ _ hserved => hserved.unspent hw hcoherent hsound hunspent
  refine ⟨hheld.world, fun peer request m w hserving record hfile howner => ?_⟩
  obtain ⟨hsound, hcoherent, -, -, -, hpoint⟩ := hheld.serving peer request m w hserving
  have hparts : Aside m w peer request record c.world := by
    generalize c.world = w' at hpoint hshort
    cases hpoint with
    | refusing | refused => exact ⟨rfl, rfl, fun _ => rfl⟩
    | handling h hduring => exact hduring.untouched hcoherent hsound hfile howner hshort
    | replied h hdone => exact (hdone.during.untouched hcoherent hsound hfile howner hshort :)
  refine ⟨hparts.1, hparts.2.1, fun m' hrest => ?_, hparts.2.2⟩
  have hserved := hheld.served peer request m w m' hserving hrest
  generalize c.world = w' at hserved
  cases hserved with
  | refused h => rfl
  | replied h hdone => exact hdone.live_untouched hcoherent hsound hfile howner

/-! ## Two peers -/

/-- The request that was served last is this one, and found a record of this owner and zone in a slot. -/
def found (c : Config) (peer : U32) (request : Request) (slot : Slot) (owner : U32) (zone : ConntrackZone) : Bool :=
  match c.serving with
  | some ((u, r), _, w) => decide (u = peer ∧ r = request) &&
      match w.decoded Sample.primitives (.record .assigned slot) with
      | some (.ok record) => decide (record.owner = owner ∧ record.zone = zone)
      | _ => false
  | none => false

theorem exists_of_found {c : Config} {slot : Slot} {owner : U32} {zone : ConntrackZone}
    (hreach : Reach (broker Sample.primitives) anyRun .empty c) (h : found c peer request slot owner zone) :
    ∃ m w, c.serving = some ((peer, request), m, w) ∧ ∃ record : AssignmentRecord, record.slot = slot
      ∧ record.owner = owner ∧ record.zone = zone
      ∧ w.file (.record .assigned record.slot) = some record.encode := by
  unfold found at h
  split at h
  · next u r m w hserving =>
    obtain ⟨hrequest, hrecord⟩ := (Bool.and_eq_true _ _).mp h
    obtain ⟨rfl, rfl⟩ := of_decide_eq_true hrequest
    split at hrecord
    · next record hdecoded =>
      obtain ⟨howner, hzone⟩ := of_decide_eq_true hrecord
      have hsound := ((Reach.held le_rfl hreach).serving u r m w hserving).1
      obtain ⟨hslot, hfile⟩ := hsound.decoded hdecoded
      exact ⟨m, w, hserving, record, hslot, howner, hzone, hslot ▸ hfile⟩
    · cases hrecord
  · cases h

def Sample.receipt : ActivationReceipt :=
  ⟨⟨.fill 32 5, rfl⟩, ⟨.fill 32 9, rfl⟩⟩

open Sample in
/-- Peer 2000 claims and activates bundle 11; peer 1000 then asks to release it. -/
theorem untouched_after_refused_release : ∃ c : Config,
    Reach (broker primitives) anyRun .empty c ∧ c.world.ShortsDistinct
      ∧ c.world.forwards (slot 11) = 1 ∧ Guarded primitives c.world
      ∧ ∃ m w, c.serving = some ((1000, .release (slot 11)), m, w)
        ∧ ∃ record : AssignmentRecord, record.owner = 2000
          ∧ w.file (.record .assigned record.slot) = some record.encode
          ∧ Untouched m w 1000 (.release (slot 11)) record c := by
  have hrun : ∃ c : Config, Reach (broker primitives) anyRun .empty c
      ∧ (found c 1000 (.release (slot 11)) (slot 11) 2000 firstZone ∧ c.world.forwards (slot 11) = 1
        ∧ ∀ id ∈ c.world.drawn, ∀ id' ∈ c.world.drawn, id.shortHex = id'.shortHex → id = id') :=
    Reach.exists_of_play anyCheck
      (starts ++ asks 2000 (claimOf 2).frame 11 ++ asks 2000 (.activate (slot 11) receipt) 0
        ++ asks 1000 (.release (slot 11)) 0) anyCheck_le (by decide +kernel)
  obtain ⟨c, hreach, hfound, hforwards, hshort⟩ := hrun
  obtain ⟨m, w, hserving, record, -, howner, -, hfile⟩ := exists_of_found hreach hfound
  have hne : record.owner ≠ 1000 := by
    rw [howner]
    decide
  obtain ⟨hguarded, hothers⟩ := others_untouched hreach hshort
  exact ⟨c, hreach, hshort, hforwards, hguarded, m, w, hserving, record, howner, hfile,
    hothers 1000 _ m w hserving record hfile hne⟩

open Sample in
/-- Peer 2000 claims bundle 11; after a restart peer 1000 claims bundle 12, which gets the same zone, and
releases it: the conntrack entries of bundle 11 are flushed. -/
theorem release_flushes_zone_of_other_owner : ∃ (c : Config) (m : State) (w : World)
    (record : AssignmentRecord), Reach (broker primitives) anyRun .empty c
      ∧ c.world.ShortsDistinct ∧ c.serving = some ((1000, .release (slot 12)), m, w)
      ∧ w.file (.record .assigned record.slot) = some record.encode ∧ record.owner = 2000
      ∧ Unsettled c.world record.slot ∧ c.world.flushed record.zone ≠ w.flushed record.zone := by
  have hrun : ∃ c : Config, Reach (broker primitives) anyRun .empty c
      ∧ (found c 1000 (.release (slot 12)) (slot 11) 2000 firstZone
        ∧ (c.serving.any fun s => decide (c.world.flushed firstZone ≠ s.2.2.flushed firstZone))
        ∧ .settled (slot 11) ∉ c.world.trace
        ∧ ∀ id ∈ c.world.drawn, ∀ id' ∈ c.world.drawn, id.shortHex = id'.shortHex → id = id') :=
    Reach.exists_of_play anyCheck
      (starts ++ asks 2000 (claimOf 2).frame 11 ++ starts ++ asks 1000 (claimOf 3).frame 12
        ++ asks 1000 (.release (slot 12)) 0) anyCheck_le (by decide +kernel)
  obtain ⟨c, hreach, hfound, hflushed, hunsettled, hshort⟩ := hrun
  obtain ⟨m, w, hserving, record, hslot, howner, hzone, hfile⟩ := exists_of_found hreach hfound
  rw [hserving] at hflushed
  refine ⟨c, m, w, record, hreach, hshort, hserving, hfile, howner, ?_, ?_⟩
  · rw [hslot]
    exact hunsettled
  · rw [hzone]
    exact of_decide_eq_true hflushed

end Soma.Netd
