import Soma.Netd.Runs

/-! # One bundle for one Launch operation

The broker keeps the operations that hold a bundle in memory: filled when a claim delivers, cleared by any
completed release that names the operation, empty after a restart.

* **`AtMostOne`**: an operation is assigned at most one bundle whose release has not completed.
* It fails when a claim comes while the map has forgotten an unsettled bundle of its operation
  (`repeated_release_frees_operation`).
* **`one_bundle_per_operation`**: that is the only way it fails.
-/

namespace Soma.Netd

open Soma.Codec Soma.Lib Soma.Guest

variable {prims : Primitives} {m : State} {w w' : World} {peer : U32} {request : Request}

def AtMostOne (w : World) : Prop :=
  ∀ operation slot slot', AssignedTo w slot operation → AssignedTo w slot' operation →
    Unsettled w slot → Unsettled w slot' → slot = slot'

/-- Every answered claim names a bundle of its own operation. -/
def AnsweredAlike (w : World) : Prop :=
  ∀ peer request operation slot launch challenge, request.operation = some operation →
    .replied peer request (.claimed slot launch challenge) ∈ w.trace → AssignedTo w slot operation

/-- A claim whose operation the process holds no bundle for comes only when the ledger has none either,
or only settled ones. -/
def reservationGuard : Guard where
  act := DrawsNew
  request q m w := ∀ operation, m.authority.permits q.1 q.2.capability → q.2.operation = some operation →
    m.operations operation = none → ∀ slot, AssignedTo w slot operation → ¬ Unsettled w slot
  restart _ _ := True

section

variable (h : During prims m w peer request w')
include h

/-- An assignment after part of a request was there before, or is that of a claim that held nothing. -/
theorem During.assignedTo {slot : Slot} {operation : InstanceId × OperationId}
    (hassigned : AssignedTo w' slot operation) :
    AssignedTo w slot operation ∨ (request.operation = some operation ∧ m.operations operation = none
      ∧ Claims prims m w peer request slot w') := by
  obtain ⟨record, hslot, hoperation, hfile⟩ := hassigned
  rcases h.assigned hfile with hold | hclaims
  · exact .inl ⟨record, hslot, hoperation, hold⟩
  · obtain ⟨claim, bundle, m₁, t, hrequest, hfree, htakes, -, hbundle, hfile'⟩ := id hclaims
    rw [hfile'] at hfile
    obtain rfl := AssignmentRecord.encode_injective (Option.some.inj hfile)
    obtain rfl : (claim.instance_, claim.operation) = operation := hoperation
    exact .inr ⟨by rw [hrequest]; rfl, hfree, hclaims⟩

theorem During.unsettled {slot : Slot} (hslot : Unsettled w' slot) : Unsettled w slot := by
  obtain ⟨p, -, hframe⟩ := h.job
  exact fun hmem => hslot (hframe.mem_trace hmem)

theorem During.atMostOne (hsound : Sound w) (hcoherent : Coherent m w) (hone : AtMostOne w)
    (hguard : ∀ operation, request.operation = some operation → m.operations operation = none →
      ∀ slot, AssignedTo w slot operation → ¬ Unsettled w slot) : AtMostOne w' := by
  intro operation slot slot' hslot hslot' hun hun'
  rcases h.assignedTo hslot with hold | ⟨hrequest, hfree, hclaims⟩
  · rcases h.assignedTo hslot' with hold' | ⟨hrequest, hfree, hclaims'⟩
    · exact hone operation slot slot' hold hold' (h.unsettled hun) (h.unsettled hun')
    · exact (hguard operation hrequest hfree slot hold (h.unsettled hun)).elim
  · rcases h.assignedTo hslot' with hold' | ⟨-, -, hclaims'⟩
    · exact (hguard operation hrequest hfree slot' hold' (h.unsettled hun')).elim
    · exact h.claims_unique hcoherent hsound hclaims hclaims'

end

theorem AtMostOne.log {event : Event} (h : AtMostOne w) : AtMostOne (w.log event) :=
  fun operation slot slot' hslot hslot' hun hun' => h operation slot slot' hslot hslot'
    (fun hmem => hun (List.mem_cons_of_mem _ hmem)) fun hmem => hun' (List.mem_cons_of_mem _ hmem)

theorem During.answeredAlike (h : During prims m w peer request w') (hanswered : AnsweredAlike w) :
    AnsweredAlike w' := by
  intro u r operation slot launch challenge hr hmem
  obtain ⟨p, -, hframe⟩ := h.job
  exact (hanswered u r operation slot launch challenge hr (h.replied hmem)).frame hframe

theorem Done.answeredAlike {reply : Reply} {m' : State} (h : Done prims m w peer request reply m' w')
    (hanswered : AnsweredAlike w) : AnsweredAlike (w'.log (.replied peer request reply)) := by
  intro u r operation slot launch challenge hr hmem
  rcases List.mem_cons.mp hmem with heq | hold
  · cases heq
    obtain ⟨owned, -, -, -, other, hother, hassigned⟩ := h.claimed slot launch challenge rfl
    rw [hr] at hother
    cases hother
    exact hassigned
  · exact h.during.answeredAlike hanswered u r operation slot launch challenge hr hold

theorem Serving.atMostOne (h : Serving prims m w peer request w') (hsound : Sound w) (hcoherent : Coherent m w)
    (hguard : reservationGuard.request (peer, request) m w) (hw : AtMostOne w ∧ AnsweredAlike w) :
    AtMostOne w' ∧ AnsweredAlike w' := by
  cases h with
  | refusing h => exact hw
  | refused h =>
    refine ⟨hw.1.log, fun u r operation slot launch challenge hr hmem => ?_⟩
    rcases List.mem_cons.mp hmem with heq | hold
    · cases heq
    · exact hw.2 u r operation slot launch challenge hr hold
  | handling h hduring =>
    exact ⟨hduring.atMostOne hsound hcoherent hw.1 fun operation => hguard operation h, hduring.answeredAlike hw.2⟩
  | replied h hdone =>
    exact ⟨(hdone.during.atMostOne hsound hcoherent hw.1 fun operation => hguard operation h).log,
      hdone.answeredAlike hw.2⟩

theorem AtMostOne.boot (hw : AtMostOne w ∧ AnsweredAlike w) (h : Frame (bootScope w.revive) w.revive w') :
    AtMostOne w' ∧ AnsweredAlike w' := by
  have hassigned : ∀ slot operation, AssignedTo w' slot operation → AssignedTo w slot operation := by
    rintro slot operation ⟨record, hslot, hoperation, hfile⟩
    refine ⟨record, hslot, hoperation, ?_⟩
    rw [← hfile]
    exact (h.files _ nofun).symm
  have hsettled : ∀ slot, Unsettled w' slot → Unsettled w slot := fun slot hun hmem => hun (h.mem_trace hmem)
  refine ⟨fun operation slot slot' hslot hslot' hun hun' => ?_, ?_⟩
  · exact hw.1 operation slot slot' (hassigned _ _ hslot) (hassigned _ _ hslot') (hsettled _ hun)
      (hsettled _ hun')
  · intro u r operation slot launch challenge hr hmem
    refine AssignedTo.frame ?_ h
    refine hw.2 u r operation slot launch challenge hr ((h.of_mem_trace hmem).resolve_right ?_)
    rintro ⟨_, _, _, _, heq⟩
    cases heq

/-- In every run whose claims meet the guard, an operation holds at most one bundle whose release has not
completed, and every answered claim names a bundle of its operation. -/
theorem one_bundle_per_operation {c : Config} (h : Service.Reach (broker prims) reservationGuard .empty c) :
    AtMostOne c.world ∧ AnsweredAlike c.world := by
  refine (broker_invariant le_rfl (fun w => AtMostOne w ∧ AnsweredAlike w) (fun _ _ => True) ?_ ?_ ?_ h).world
  · refine ⟨?_, nofun⟩
    rintro operation slot slot' ⟨record, -, -, hfile⟩
    cases hfile
  · intro options w hsound hw _
    have hrevive : Sound w.revive := hsound.of_files (fun _ => rfl) fun _ h => h
    exact (boot_spec le_rfl options hrevive).mono (fun w' hframe => AtMostOne.boot hw hframe) fun _ _ _ _ _ _ => trivial
  · intro peer request m w hsound hcoherent hw _ hguard
    exact (serveRequest_spec le_rfl hcoherent hsound).mono
      (fun w' hserving => hserving.atMostOne hsound hcoherent hguard hw) fun _ _ _ _ => trivial

/-- Every assignment on the ledger is settled. -/
def allSettled (w : World) : Bool :=
  w.files.keys.all fun
    | .record .assigned slot => .settled slot ∈ w.trace
    | _ => true

/-- Every recorded bundle is settled, or the process holds the operation. -/
def reservationCheck : Service.Check Choice World Options State (U32 × Request) where
  act := drawsNew
  request q m w := q.2.operation.all fun operation => allSettled w || (m.operations operation).isSome
  restart _ _ := true

theorem reservationCheck_le : reservationCheck.guard.Le reservationGuard := by
  refine ⟨fun _ _ _ => drawsNew_sound, ?_, fun _ _ _ => trivial⟩
  intro q m w hcheck operation _ hoperation hfree slot hassigned
  obtain ⟨record, -, -, hfile⟩ := hassigned
  have hsettled : allSettled w = true := by
    change q.2.operation.all _ = true at hcheck
    simpa [hoperation, hfree] using hcheck
  have hkey : FileName.record .assigned slot ∈ w.files.keys := by
    rw [← AList.mem_keys, ← AList.lookup_isSome]
    exact Option.isSome_of_eq_some hfile
  exact not_not_intro (of_decide_eq_true (List.all_eq_true.mp hsettled _ hkey))

open Sample in
/-- A claim on an empty ledger, its replay, the release of its bundle and a second claim, which gets another one. -/
theorem one_bundle_after_replay : ∃ c : Config,
    Service.Reach (broker primitives) reservationGuard .empty c
      ∧ (holds c.world (slot 11) (claimOf 2) ∧ .settled (slot 11) ∈ c.world.trace
        ∧ holds c.world (slot 12) (claimOf 2)) ∧ AtMostOne c.world ∧ AnsweredAlike c.world := by
  have hrun : ∃ c : Config, Service.Reach (broker primitives) reservationGuard .empty c
      ∧ (holds c.world (slot 11) (claimOf 2) ∧ .settled (slot 11) ∈ c.world.trace
        ∧ holds c.world (slot 12) (claimOf 2)) :=
    Service.Reach.exists_of_play reservationCheck
      (starts ++ asks 1000 (claimOf 2).frame 11 ++ asks 1000 (claimOf 2).frame 12 ++ asks 1000 (.release (slot 11)) 0
        ++ asks 1000 (claimOf 2).frame 12) reservationCheck_le
      (by decide +kernel)
  obtain ⟨c, hreach, hholds⟩ := hrun
  exact ⟨c, hreach, hholds, one_bundle_per_operation hreach⟩

open Sample in
/-- Bundle 11 is released, bundle 12 takes its place, and a second release of bundle 11 clears the
operation from the map: the next claim gets bundle 13 while bundle 12 is held. -/
theorem repeated_release_frees_operation : ∃ c : Config,
    Service.Reach (broker primitives) anyRun .empty c ∧ ¬ AtMostOne c.world := by
  have hrun : ∃ c : Config, Service.Reach (broker primitives) anyRun .empty c
      ∧ (holds c.world (slot 12) (claimOf 2) ∧ holds c.world (slot 13) (claimOf 2)
        ∧ .settled (slot 12) ∉ c.world.trace ∧ .settled (slot 13) ∉ c.world.trace) :=
    Service.Reach.exists_of_play anyCheck (starts ++ asks 1000 (claimOf 2).frame 11 ++ asks 1000 (.release (slot 11)) 0
        ++ asks 1000 (claimOf 2).frame 12 ++ asks 1000 (.release (slot 11)) 0
        ++ asks 1000 (claimOf 2).frame 13) anyCheck_le
      (by decide +kernel)
  obtain ⟨c, hreach, hholds, hholds', hun, hun'⟩ := hrun
  refine ⟨c, hreach, fun hone => ?_⟩
  have hsound := (Reach.held le_rfl hreach).sound
  have heq := hone _ _ _ (assignedTo_of_holds hsound hholds) (assignedTo_of_holds hsound hholds') hun hun'
  revert heq
  decide

end Soma.Netd
