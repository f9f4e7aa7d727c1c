import Soma.Netd.Runs

/-! # Leases and zones of live bundles

Each process counts its leases and zones from the start, and nothing reads the ledger when it does.

* **`Apart`**: two bundles that were prepared, by any process, and whose releases have not completed have
  different guest leases, transit leases and zones.
* It fails when a process is started over bundles of an earlier one (`restart_reuses_lease`).
* **`live_bundles_apart`**: that is the only way it fails. Within one process the counters keep bundles
  apart (`Bounded`).
-/

namespace Soma.Netd

open Soma.Codec Soma.Lib Soma.Guest Prog

variable {prims : Primitives} {m : State} {w w' : World} {peer : U32} {request : Request}

/-- A bundle that the process of an epoch prepared and whose release has not completed. -/
structure Holding (w : World) (epoch : ℕ) (slot : Slot) (leases : LeasePair) (zone : ConntrackZone) :
    Prop where
  prepared : .prepared epoch slot leases zone ∈ w.trace
  unsettled : Unsettled w slot

def Apart (w : World) : Prop :=
  ∀ epoch slot leases zone epoch' slot' leases' zone', Holding w epoch slot leases zone →
    Holding w epoch' slot' leases' zone' → slot ≠ slot' →
    leases.guest.index ≠ leases'.guest.index ∧ leases.transit.index ≠ leases'.transit.index ∧ zone ≠ zone'

/-- A record names the leases and the zone its bundle was prepared with. -/
def RecordsPrepared (w : World) : Prop :=
  ∀ record : AssignmentRecord, w.file (.record .assigned record.slot) = some record.encode →
    ∃ epoch leases, .prepared epoch record.slot leases record.zone ∈ w.trace
      ∧ record.leaseIndex = BitVec.ofNat 32 leases.guest.index
      ∧ record.transitIndex = BitVec.ofNat 32 leases.transit.index

/-- The next lease index and zone of a broker are not those of a bundle. -/
def Broker.Avoids (broker : Broker) (leases : LeasePair) (zone : ConntrackZone) : Prop :=
  leases.guest.index ≠ broker.ipam.next ∧ leases.transit.index ≠ broker.ipam.next
    ∧ zone.value ≠ broker.nextZone

/-- A process starts only when no live bundle has one of the leases or zones its pool will get; and a
claim that finds the pool empty comes only when no live bundle of an earlier process has the next ones. -/
def leaseGuard : Guard where
  act := DrawsNew
  request q m w := m.authority.permits q.1 q.2.capability → q.2.operation.isSome →
    (∀ operation, q.2.operation = some operation → m.operations operation = none) → m.pool = [] →
    ∀ epoch slot leases zone, epoch ≠ w.epoch → Holding w epoch slot leases zone →
      m.broker.Avoids leases zone
  restart options w := ∀ epoch slot leases zone, Holding w epoch slot leases zone →
    options.prepared ≤ leases.guest.index ∧ options.prepared ≤ leases.transit.index
      ∧ options.prepared < zone.value.toNat

/-! ## Counters -/

variable {leases : LeasePair} {zone : ConntrackZone}

theorem Broker.reserve_ok {broker broker' : Broker} (h : broker.reserve = (.ok (leases, zone), broker')) :
    leases.guest.index = broker.ipam.next ∧ leases.transit.index = broker.ipam.next
      ∧ zone.value = broker.nextZone ∧ broker'.ipam.next = broker.ipam.next + 1
      ∧ broker'.nextZone.toNat = broker.nextZone.toNat + 1 := by
  unfold Broker.reserve at h
  split at h
  · cases h
  · next pair ipam hallocate =>
    obtain ⟨hguest, htransit, rfl⟩ := Ipam.allocate_ok hallocate
    split at h
    · cases h
    · next z hzone =>
      have hvalue : z.value = broker.nextZone := by
        unfold NonZero.new at hzone
        split_ifs at hzone
        cases hzone
        rfl
      split_ifs at h with hmax
      · cases h
      · cases h
        refine ⟨hguest, htransit, hvalue, rfl, ?_⟩
        have hlt := broker.nextZone.isLt
        have hne : broker.nextZone.toNat ≠ 2 ^ 16 - 1 := fun heq => hmax (BitVec.eq_of_toNat_eq heq)
        have hone : (1 : BitVec 16).toNat = 1 := rfl
        rw [BitVec.toNat_add, hone, Nat.mod_eq_of_lt]
        omega

theorem Broker.reserve_mono (broker : Broker) : broker.ipam.next ≤ broker.reserve.2.ipam.next
    ∧ broker.nextZone.toNat ≤ broker.reserve.2.nextZone.toNat := by
  have hnext := broker.ipam.next_le_allocate
  rcases hreserve : broker.reserve with ⟨error | ⟨leases, zone⟩, broker'⟩
  · unfold Broker.reserve at hreserve
    split at hreserve
    · next hallocate =>
      cases hreserve
      rw [hallocate] at hnext
      exact ⟨hnext, le_rfl⟩
    · next hallocate =>
      rw [hallocate] at hnext
      split at hreserve
      · cases hreserve
        exact ⟨hnext, le_rfl⟩
      · split_ifs at hreserve
        · cases hreserve
          exact ⟨hnext, le_rfl⟩
        · cases hreserve
  · obtain ⟨-, -, -, hipam, hzone⟩ := Broker.reserve_ok hreserve
    simp only
    omega

/-- The bundles of the running process are below its counters. -/
def Bounded (broker : Broker) (w : World) : Prop :=
  ∀ slot leases zone, .prepared w.epoch slot leases zone ∈ w.trace →
    leases.guest.index < broker.ipam.next ∧ leases.transit.index < broker.ipam.next
      ∧ zone.value.toNat < broker.nextZone.toNat

theorem Bounded.avoids {broker : Broker} (h : Bounded broker w) {slot : Slot}
    (hmem : .prepared w.epoch slot leases zone ∈ w.trace) : broker.Avoids leases zone := by
  obtain ⟨hguest, htransit, hzone⟩ := h slot leases zone hmem
  refine ⟨hguest.ne, htransit.ne, fun heq => ?_⟩
  rw [heq] at hzone
  exact hzone.ne rfl

theorem Bounded.mono {broker broker' : Broker} (h : Bounded broker w) (hnext : broker.ipam.next ≤ broker'.ipam.next)
    (hzone : broker.nextZone.toNat ≤ broker'.nextZone.toNat) (hepoch : w'.epoch = w.epoch) (hnone : NoneNew w w') :
    Bounded broker' w' := by
  intro slot leases zone hmem
  rw [hepoch] at hmem
  obtain ⟨h₁, h₂, h₃⟩ := h slot leases zone (hnone _ _ _ _ hmem)
  omega

/-! ## One new bundle -/

variable {p : Scope}

theorem Holding.old {epoch : ℕ} {slot : Slot} (h : Holding w' epoch slot leases zone) (hframe : Frame p w w')
    (hold : .prepared epoch slot leases zone ∈ w.trace) : Holding w epoch slot leases zone :=
  ⟨hold, fun hmem => h.unsettled (hframe.mem_trace hmem)⟩

theorem Apart.frame (h : Apart w) (hframe : Frame p w w') (hnone : NoneNew w w') : Apart w' :=
  fun e s l z e' s' l' z' hs hs' => h e s l z e' s' l' z' (hs.old hframe (hnone _ _ _ _ hs.prepared))
    (hs'.old hframe (hnone _ _ _ _ hs'.prepared))

section prepare

variable {slot : Slot} {broker broker' : Broker} (hreserve : broker.reserve = (.ok (leases, zone), broker'))
  (hframe : Frame p w w') (hp : ∀ e s l z, p.event (.prepared e s l z) → s = slot ∧ l = leases ∧ z = zone)
include hreserve hframe hp

theorem Apart.prepare (h : Apart w) (havoids : ∀ e s l z, Holding w e s l z → broker.Avoids l z) : Apart w' := by
  obtain ⟨hguest, htransit, hzone, -, -⟩ := Broker.reserve_ok hreserve
  intro e s l z e' s' l' z' hs hs' hne
  rcases hframe.of_mem_trace hs.prepared with hold | hnew
  · rcases hframe.of_mem_trace hs'.prepared with hold' | hnew'
    · exact h e s l z e' s' l' z' (hs.old hframe hold) (hs'.old hframe hold') hne
    · obtain ⟨rfl, rfl, rfl⟩ := hp _ _ _ _ hnew'
      obtain ⟨h₁, h₂, h₃⟩ := havoids e s l z (hs.old hframe hold)
      refine ⟨hguest ▸ h₁, htransit ▸ h₂, fun heq => h₃ ?_⟩
      rw [heq, hzone]
  · obtain ⟨rfl, rfl, rfl⟩ := hp _ _ _ _ hnew
    rcases hframe.of_mem_trace hs'.prepared with hold' | hnew'
    · obtain ⟨h₁, h₂, h₃⟩ := havoids e' s' l' z' (hs'.old hframe hold')
      refine ⟨hguest ▸ h₁.symm, htransit ▸ h₂.symm, fun heq => h₃ ?_⟩
      rw [← heq, hzone]
    · exact (hne (hp _ _ _ _ hnew').1.symm).elim

theorem Bounded.prepare (h : Bounded broker w) : Bounded broker' w' := by
  obtain ⟨hguest, htransit, hzone, hnext, hnextZone⟩ := Broker.reserve_ok hreserve
  intro s l z hmem
  rw [hframe.epoch] at hmem
  rcases hframe.of_mem_trace hmem with hold | hnew
  · obtain ⟨h₁, h₂, h₃⟩ := h s l z hold
    omega
  · obtain ⟨rfl, rfl, rfl⟩ := hp _ _ _ _ hnew
    rw [hguest, htransit, hzone]
    omega

end prepare

/-! ## Runs -/

/-- The invariant of runs within the guard. -/
structure Leased (w : World) : Prop where
  apart : Apart w
  epochs : ∀ epoch slot leases zone, .prepared epoch slot leases zone ∈ w.trace → epoch ≤ w.epoch
  records : RecordsPrepared w

variable {event : Event}

theorem Leased.log (h : Leased w) (hevent : ∀ epoch slot leases zone, event ≠ .prepared epoch slot leases zone) :
    Leased (w.log event) := by
  have hold : ∀ {e s l z}, .prepared e s l z ∈ (w.log event).trace → .prepared e s l z ∈ w.trace :=
    fun hmem => (List.mem_cons.mp hmem).resolve_left fun heq => hevent _ _ _ _ heq.symm
  have hholding : ∀ {e s l z}, Holding (w.log event) e s l z → Holding w e s l z :=
    fun hs => ⟨hold hs.prepared, fun hmem => hs.unsettled (List.mem_cons_of_mem _ hmem)⟩
  refine ⟨fun e s l z e' s' l' z' hs hs' => ?_, fun e s l z hmem => h.epochs e s l z (hold hmem),
    fun record hfile => ?_⟩
  · exact h.apart e s l z e' s' l' z' (hholding hs) (hholding hs')
  · obtain ⟨epoch, leases, hmem, hindices⟩ := h.records record hfile
    exact ⟨epoch, leases, List.mem_cons_of_mem _ hmem, hindices⟩

theorem Job.prepares (h : Job prims m w peer w' request p) (hframe : Frame p w w') (hnone : ¬ NoneNew w w') :
    ∃ (claim : ClaimRequest) (bundle : SterileBundle) (broker : Broker), request = claim.frame
      ∧ m.operations (claim.instance_, claim.operation) = none ∧ m.pool = []
      ∧ m.broker.reserve = (.ok (bundle.leases, bundle.zone), broker)
      ∧ ∀ e s l z, p.event (.prepared e s l z) → s = bundle.slot ∧ l = bundle.leases ∧ z = bundle.zone := by
  simp only [NoneNew, not_forall] at hnone
  obtain ⟨e, s, l, z, hmem, hnew⟩ := hnone
  have hevent := (hframe.of_mem_trace hmem).resolve_left hnew
  cases h with
  | idle => cases hevent
  | @claim claim bundle m₁ hfree htakes hdrawn =>
    have hscope : ∀ e s l z, (claimScope m bundle peer).event (.prepared e s l z) →
        m.pool = [] ∧ s = bundle.slot ∧ l = bundle.leases ∧ z = bundle.zone := by
      rintro e s l z (hassign | ⟨hpool, epoch, heq⟩)
      · rcases hassign with ⟨_, h⟩ | h | h <;> cases h
      · cases heq
        exact ⟨hpool, rfl, rfl, rfl⟩
    have hpool := (hscope e s l z hevent).1
    cases htakes with
    | pooled hcons =>
      rw [hpool] at hcons
      cases hcons
    | prepared _ hid hreserve =>
      exact ⟨claim, _, _, rfl, hfree, hpool, hreserve, fun e s l z h => (hscope e s l z h).2⟩
  | replay hlive hpeer => cases hevent
  | activate hlive hpeer => rcases hevent with h | ⟨h, -⟩ <;> cases h
  | releaseLive hlive hpeer => cases hevent
  | releaseRecord hdecoded howner => cases hevent

theorem During.recordsPrepared (h : During prims m w peer request w') (hw : RecordsPrepared w) :
    RecordsPrepared w' := by
  intro record hfile
  obtain ⟨p, -, hframe⟩ := h.job
  rcases h.assigned hfile with hold | ⟨claim, bundle, m₁, t, -, -, -, ⟨epoch, hprepared⟩, -, hfile'⟩
  · obtain ⟨epoch, leases, hmem, hindices⟩ := hw record hold
    exact ⟨epoch, leases, hframe.mem_trace hmem, hindices⟩
  · rw [hfile'] at hfile
    obtain rfl := AssignmentRecord.encode_injective (Option.some.inj hfile)
    exact ⟨epoch, bundle.leases, hprepared, rfl, rfl⟩

theorem Bounded.log {broker : Broker} (h : Bounded broker w)
    (hevent : ∀ epoch slot leases zone, event ≠ .prepared epoch slot leases zone) :
    Bounded broker (w.log event) := by
  intro slot leases zone hmem
  exact h slot leases zone ((List.mem_cons.mp hmem).resolve_left fun heq => hevent _ _ _ _ heq.symm)

section

variable {m' : State} (hw : Leased w) (hbounded : Bounded m.broker w)
include hbounded

theorem Done.bounded {reply : Reply} (h : Done prims m w peer request reply m' w') :
    Bounded m'.broker w' := by
  obtain ⟨p, hjob, hframe⟩ := h.during.job
  rcases h.broker with ⟨hbroker, hnone⟩ | ⟨-, hbroker⟩
  · rw [hbroker]
    exact hbounded.mono le_rfl le_rfl hframe.epoch hnone
  · rw [hbroker]
    by_cases hnone : NoneNew w w'
    · exact hbounded.mono m.broker.reserve_mono.1 m.broker.reserve_mono.2 hframe.epoch hnone
    · obtain ⟨claim, bundle, broker, -, -, -, hreserve, hp⟩ := hjob.prepares hframe hnone
      rw [hreserve]
      exact hbounded.prepare hreserve hframe hp

theorem Served.bounded (h : Served prims m w peer request m' w') : Bounded m'.broker w' := by
  cases h with
  | refused h => exact hbounded.log nofun
  | replied h hdone => exact (hdone.bounded hbounded).log nofun

variable (hguard : leaseGuard.request (peer, request) m w)
include hw hguard

theorem During.leased (h : During prims m w peer request w')
    (hpermits : m.authority.permits peer request.capability) : Leased w' := by
  obtain ⟨p, hjob, hframe⟩ := h.job
  refine ⟨?_, fun e s l z hmem => ?_, h.recordsPrepared hw.records⟩
  · by_cases hnone : NoneNew w w'
    · exact hw.apart.frame hframe hnone
    · obtain ⟨claim, bundle, broker, rfl, hfree, hpool, hreserve, hp⟩ := hjob.prepares hframe hnone
      refine hw.apart.prepare hreserve hframe hp fun e s l z hs => ?_
      by_cases hepoch : e = w.epoch
      · subst hepoch
        exact hbounded.avoids hs.prepared
      · refine hguard hpermits rfl ?_ hpool e s l z hepoch hs
        rintro operation ⟨⟩
        exact hfree
  · rw [hframe.epoch]
    rcases hframe.epoch_of_mem_trace hmem with hold | rfl
    · exact hw.epochs e s l z hold
    · exact le_rfl

theorem Serving.leased (h : Serving prims m w peer request w') : Leased w' := by
  cases h with
  | refusing h => exact hw
  | refused h => exact hw.log nofun
  | handling h hduring => exact hduring.leased hw hbounded hguard h
  | replied h hdone => exact (hdone.during.leased hw hbounded hguard h).log nofun

end

/-! ## The start of a process -/

/-- Older bundles leave room for `n` more of this process. -/
def Room (broker : Broker) (n : ℕ) (w : World) : Prop :=
  ∀ epoch slot leases zone, epoch ≠ w.epoch → Holding w epoch slot leases zone →
    broker.ipam.next + n ≤ leases.guest.index ∧ broker.ipam.next + n ≤ leases.transit.index
      ∧ broker.nextZone.toNat + n ≤ zone.value.toNat

variable {n : ℕ}

theorem Room.avoids {broker : Broker} (h : Room broker (n + 1) w) (hbounded : Bounded broker w) (e : ℕ) (s : Slot)
    (l : LeasePair) (z : ConntrackZone) (hs : Holding w e s l z) : broker.Avoids l z := by
  by_cases hepoch : e = w.epoch
  · subst hepoch
    exact hbounded.avoids hs.prepared
  · obtain ⟨h₁, h₂, h₃⟩ := h e s l z hepoch hs
    refine ⟨by omega, by omega, fun heq => ?_⟩
    rw [heq] at h₃
    omega

theorem Room.frame {broker broker' : Broker} {n k : ℕ} (h : Room broker k w) (hframe : Frame p w w')
    (hnext : broker'.ipam.next + n = broker.ipam.next + k)
    (hzone : broker'.nextZone.toNat + n = broker.nextZone.toNat + k) : Room broker' n w' := by
  intro e s l z hepoch hs
  rw [hframe.epoch] at hepoch
  have hold := (hframe.epoch_of_mem_trace hs.prepared).resolve_right hepoch
  obtain ⟨h₁, h₂, h₃⟩ := h e s l z hepoch (hs.old hframe hold)
  omega

theorem Leased.frame (h : Leased w) (hframe : Frame p w w') (hapart : Apart w')
    (hp : ∀ slot, ¬ p.record .assigned slot) : Leased w' where
  apart := hapart
  epochs e s l z hmem := by
    rw [hframe.epoch]
    rcases hframe.epoch_of_mem_trace hmem with hold | rfl
    · exact h.epochs e s l z hold
    · exact le_rfl
  records record hfile := by
    obtain ⟨epoch, leases, hmem, hindices⟩ :=
      h.records record ((hframe.files (.record .assigned record.slot) (hp record.slot)).symm.trans hfile)
    exact ⟨epoch, leases, hframe.mem_trace hmem, hindices⟩

theorem prepareScope_prepared {bundle : SterileBundle} (e : ℕ) (s : Slot) (l : LeasePair) (z : ConntrackZone)
    (h : (prepareScope bundle).event (.prepared e s l z)) :
    s = bundle.slot ∧ l = bundle.leases ∧ z = bundle.zone := by
  obtain ⟨epoch, heq⟩ := h
  cases heq
  exact ⟨rfl, rfl, rfl⟩

variable {allow : (a : Act) → Choice a → World → Prop}

theorem prepare_leased {broker : Broker} {id : BundleId} (hw : Leased w) (hbounded : Bounded broker w)
    (hroom : Room broker (n + 1) w) :
    (prepare prims broker id).Safe exec allow Leased (fun r w' => ∀ bundle, r.1 = .ok bundle →
      Bounded r.2 w' ∧ Room r.2 n w') w := by
  rcases hreserve : broker.reserve with ⟨error | ⟨leases, zone⟩, broker'⟩
  · rw [prepare_of_error hreserve]
    exact safe_ret hw nofun
  · obtain ⟨-, -, -, hnext, hzone⟩ := Broker.reserve_ok hreserve
    refine ((safe_of_within (prepare_within hreserve)).returns (prepare_returns hreserve)).mono ?_ ?_
    · intro w' hframe
      exact hw.frame hframe (hw.apart.prepare hreserve hframe prepareScope_prepared
        (hroom.avoids hbounded)) nofun
    · rintro ⟨r, after⟩ w' hframe ⟨-, rfl, -⟩ bundle _
      refine ⟨hbounded.prepare hreserve hframe prepareScope_prepared, hroom.frame hframe ?_ ?_⟩
      · omega
      · omega

theorem preparePool_leased (n : ℕ) {broker : Broker} (hw : Leased w) (hbounded : Bounded broker w)
    (hroom : Room broker n w) :
    (preparePool prims n broker).run.Safe exec allow Leased
      (fun r w' => ∀ pool broker', r = .ok (pool, broker') → Bounded broker' w') w := by
  induction n generalizing broker w with
  | zero =>
    refine safe_ret hw fun pool broker' h => ?_
    cases h
    exact hbounded
  | succ n ih =>
    refine safe_act hw fun e r w₁ hexec _ => ?_
    cases e with
    | error error =>
      cases hexec
      exact safe_ret hw (by rintro _ _ ⟨⟩)
    | ok id =>
      cases hexec
      have hdraw : Frame idleScope w { w with drawn := id :: w.drawn } := .draw id
      have hnone := hdraw.noneNew (by rintro _ _ _ _ ⟨⟩)
      have hw₁ := hw.frame hdraw (hw.apart.frame hdraw hnone) (by rintro _ ⟨⟩)
      have hbounded₁ := hbounded.mono le_rfl le_rfl rfl hnone
      refine Safe.andThen (prepare_leased hw₁ hbounded₁ (hroom.frame hdraw rfl rfl)).lift ?_
        (by rintro _ _ _ ⟨_, ⟨⟩, _⟩)
      rintro x w₂ hw₂ ⟨⟨result, broker'⟩, hr, hresult⟩
      cases hr
      rcases result with error | bundle
      · exact safe_ret hw₂ (by rintro _ _ ⟨⟩)
      obtain ⟨hbounded₂, hroom₂⟩ := hresult bundle rfl
      change Safe exec allow _ _ (ExceptT.run (preparePool prims n broker' >>= fun r =>
        pure (bundle :: r.1, r.2))) w₂
      refine Safe.andThen (ih hw₂ hbounded₂ hroom₂) ?_ fun _ _ _ _ _ _ h => by cases h
      rintro ⟨pool, broker₂⟩ w₃ hw₃ hpool
      refine safe_ret hw₃ fun all broker₃ h => ?_
      cases h
      exact hpool pool broker₂ rfl

theorem Leased.revive (h : Leased w) : Leased w.revive := by
  refine ⟨fun e s l z e' s' l' z' hs hs' => ?_, fun e s l z hmem => ?_, h.records⟩
  · exact h.apart e s l z e' s' l' z' ⟨hs.prepared, hs.unsettled⟩ ⟨hs'.prepared, hs'.unsettled⟩
  · exact (h.epochs e s l z hmem).trans (Nat.le_succ _)

theorem boot_leased {options : Options} (hw : Leased w) (hguard : leaseGuard.restart options w) :
    (serve prims options).Safe exec allow Leased (fun m? w' => ∀ m, m? = some m → Bounded m.broker w')
      w.revive := by
  refine (serve_of_preparePool (P := fun _ broker w' => Bounded broker w') hw.revive ?_).mono
    (fun _ h => h) fun _ _ _ h m hm => (h m hm).1
  intro ipam hipam
  have hnext : ipam.next = 0 := by
    unfold Ipam.new at hipam
    split_ifs at hipam
    cases hipam
    rfl
  refine preparePool_leased options.prepared hw.revive ?_ ?_
  · -- no bundle of the new epoch yet
    intro slot leases zone hmem
    have hle : w.epoch + 1 ≤ w.epoch := hw.epochs _ slot leases zone hmem
    omega
  · intro e s l z _ hs
    obtain ⟨h₁, h₂, h₃⟩ := hguard e s l z ⟨hs.prepared, hs.unsettled⟩
    have hone : (1 : BitVec 16).toNat = 1 := rfl
    simp only [hnext, hone]
    omega

/-- In every run within the guard, live bundles have different leases and zones, and every record names
the leases and the zone of its bundle. -/
theorem live_bundles_apart {c : Config} (h : Service.Reach (broker prims) leaseGuard .empty c) :
    Apart c.world ∧ RecordsPrepared c.world := by
  have hheld := broker_invariant le_rfl Leased (fun m w => Bounded m.broker w) ?init ?boot ?serve h
  case init =>
    refine ⟨?_, nofun, nofun⟩
    rintro e s l z e' s' l' z' ⟨hmem, -⟩
    cases hmem
  case boot =>
    intro options w _ hw hguard
    exact boot_leased hw hguard
  case serve =>
    intro peer request m w hsound hcoherent hw hbounded hguard
    exact (serveRequest_spec le_rfl hcoherent hsound).mono
      (fun w' hserving => hserving.leased hw hbounded hguard) fun _ _ _ hserved => hserved.bounded hbounded
  exact ⟨hheld.world.apart, hheld.world.records⟩

/-- Starts only over an empty trace; claims always. -/
def leaseCheck : Service.Check Choice World Options State (U32 × Request) where
  act := drawsNew
  request _ _ w := w.epoch = 1 ∧ w.trace.all fun event => match event with
    | .prepared epoch _ _ _ => epoch = 1
    | _ => true
  restart _ w := w.trace.isEmpty

theorem leaseCheck_le : leaseCheck.guard.Le leaseGuard where
  act _ _ _ := drawsNew_sound
  request q m w h := by
    obtain ⟨hepoch, hall⟩ := of_decide_eq_true h
    intro _ _ _ _ e s l z hne hs
    have he : e = 1 := by simpa using List.all_eq_true.mp hall _ hs.prepared
    exact (hne (he.trans hepoch.symm)).elim
  restart options w h := by
    intro e s l z hs
    have hmem := hs.prepared
    rw [List.isEmpty_iff.mp h] at hmem
    cases hmem

open Sample in
/-- One process serves two claims from an empty pool. -/
theorem apart_after_two_claims : ∃ c : Config,
    Service.Reach (broker primitives) leaseGuard .empty c
      ∧ (holds c.world (slot 11) (claimOf 2) ∧ holds c.world (slot 12) (claimOf 3))
      ∧ Apart c.world ∧ RecordsPrepared c.world := by
  have hrun : ∃ c : Config, Service.Reach (broker primitives) leaseGuard .empty c
      ∧ (holds c.world (slot 11) (claimOf 2) ∧ holds c.world (slot 12) (claimOf 3)) :=
    Service.Reach.exists_of_play leaseCheck
      (starts ++ asks 1000 (claimOf 2).frame 11 ++ asks 1000 (claimOf 3).frame 12) leaseCheck_le
      (by decide +kernel)
  obtain ⟨c, hreach, hholds⟩ := hrun
  exact ⟨c, hreach, hholds, live_bundles_apart hreach⟩

def Sample.firstLeases : LeasePair :=
  ⟨⟨ipv4 10 200 0 0, 0⟩, ⟨ipv4 10 201 0 0, 0⟩⟩

def Sample.firstZone : ConntrackZone :=
  ⟨1, firstZone_nonzero⟩

open Sample in
/-- Bundle 11 is claimed, the process is started again, and bundle 12 gets the leases and the zone that
bundle 11 still holds. -/
theorem restart_reuses_lease : ∃ c : Config,
    Service.Reach (broker primitives) anyRun .empty c ∧ ¬ Apart c.world := by
  have hrun : ∃ c : Config, Service.Reach (broker primitives) anyRun .empty c
      ∧ (.prepared 1 (slot 11) firstLeases firstZone ∈ c.world.trace
        ∧ .prepared 2 (slot 12) firstLeases firstZone ∈ c.world.trace
        ∧ .settled (slot 11) ∉ c.world.trace ∧ .settled (slot 12) ∉ c.world.trace) :=
    Service.Reach.exists_of_play anyCheck
      (starts ++ asks 1000 (claimOf 2).frame 11 ++ starts ++ asks 1000 (claimOf 3).frame 12)
      anyCheck_le (by decide +kernel)
  obtain ⟨c, hreach, hfirst, hsecond, hun, hun'⟩ := hrun
  refine ⟨c, hreach, fun hapart => ?_⟩
  have hne : slot 11 ≠ slot 12 := by decide
  exact (hapart _ _ _ _ _ _ _ _ ⟨hfirst, hun⟩ ⟨hsecond, hun'⟩ hne).1 rfl

end Soma.Netd
