import Soma.Netd.Runs

/-! # A completed release is durable

The reply of a release says whether the teardown completed; whether its record was written is a separate
flag that the reply does not carry. And the recorder takes the error of a leftover temporary file for a
record that is already there.

* A failed write of the release record leaves a release answered as complete without a record
  (`unrecorded_release_reported_complete`).
* **`completed_release_is_recorded`**: while the stat, the temporary file and the writes of a missing record
  succeed, every release answered as complete has its record for good; and the recorder succeeds only with
  a record, whatever else fails.
-/

namespace Soma.Netd

open Soma.Codec Soma.Lib Soma.Guest Prog Service World

variable {prims : Primitives} {m : State} {w w' : World} {peer : U32} {request : Request}

/-- The release record of a slot exists. -/
def World.Released (w : World) (slot : Slot) : Prop :=
  (w.file (.record .released slot)).isSome

instance {slot : Slot} : Decidable (w.Released slot) :=
  inferInstanceAs (Decidable ((w.file (.record .released slot)).isSome = true))

theorem World.Released.frame {p : Scope} {slot : Slot} (h : w.Released slot) (hframe : Frame p w w') :
    w'.Released slot := by
  obtain ⟨bytes, hfile⟩ := Option.isSome_iff_exists.mp h
  unfold Released
  rw [hframe.records _ _ _ hfile]
  rfl

/-- No temporary file is in the way of a release record that is still missing. -/
def clearTemp : (a : Act) → Choice a → World → Prop
  | .create (.temp pid .released slot), _, w =>
    w.Released slot ∨ w.file (.temp pid .released slot) = none
  | _, _, _ => True

/-- The actions for a release record that is still missing succeed. -/
def writesSucceed : (a : Act) → Choice a → World → Prop
  | .exists_ (.record .assigned slot), failed, w => w.Released slot ∨ failed = false
  | .create (.temp _ .released slot), e, w => w.Released slot ∨ e = none
  | .write (.temp _ .released slot) _, e, w => w.Released slot ∨ e = none
  | .sync (.temp _ .released slot), e, w => w.Released slot ∨ e = none
  | .link (.temp _ .released slot) _, e, w => w.Released slot ∨ e = none
  | _, _, _ => True

/-- No file is taken for absent because its stat failed. -/
def statsSucceed : (a : Act) → Choice a → World → Prop
  | .exists_ _, failed, _ => failed = false
  | _, _, _ => True

def durableGuard : Guard where
  act a e w := DrawsNew a e w ∧ clearTemp a e w ∧ writesSucceed a e w
  request _ _ _ := True
  restart _ _ := True

theorem durableGuard_draws : durableGuard.act ≤ DrawsNew := fun _ _ _ h => h.1

/-! ## The recorder -/

section recorder

variable {pid : ℕ} {slot : Slot}

variable {allow : (a : Act) → Choice a → World → Prop}

theorem released_of_within {α : Type} {prog : Op α} {p : Scope} (h : w.Released slot)
    (hall : prog.All (Act.Within p)) : prog.Safe exec allow (fun _ => True) (fun _ w' => w'.Released slot) w :=
  (safe_of_within hall).mono (fun _ _ => trivial) fun _ _ _ hframe => h.frame hframe

/-- Publishing a release record, up to its link. -/
def linkReleased (pid : ℕ) (slot : Slot) : ExceptT IoError Op Unit := do
  writeTemp (.temp pid .released slot) RELEASED
  attempt (perform (.link (.temp pid .released slot) (.record .released slot)))

theorem publish_released_eq : publish pid .released slot RELEASED = (do
    let result ← (linkReleased pid slot).run
    let _ ← perform (.remove (.temp pid .released slot))
    match result with
    | .error error => return .error error
    | .ok () => perform .syncDir) :=
  rfl

theorem publish_of_link {P : Except IoError Unit → Prop}
    (h : (linkReleased pid slot).run.Safe exec allow (fun _ => True)
      (fun r w' => P r → w'.Released slot) w)
    (hok : ∀ r, r ≠ .error .alreadyExists → P r → P (.ok ())) :
    (publish pid .released slot RELEASED).Safe exec allow (fun _ => True)
      (fun r w' => P r → w'.Released slot) w := by
  rw [publish_released_eq]
  refine h.bind fun r w₁ _ h₁ => ?_
  refine safe_act trivial fun e r' w₂ hexec _ => ?_
  have h₂ : w₁.Released slot → w₂.Released slot := by
    rcases exec_remove hexec with rfl | ⟨-, rfl⟩
    · exact fun h => h
    · intro h
      unfold Released
      rw [file_removeFile, if_neg nofun]
      exact h
  cases r with
  | error error => exact safe_ret trivial fun hr => h₂ (h₁ hr)
  | ok _ =>
    refine safe_act trivial fun e r w₃ hexec _ => ?_
    obtain ⟨rfl, hr⟩ := exec_syncDir hexec
    exact safe_ret trivial fun hP => h₂ (h₁ (hok r hr hP))

theorem publish_clear (hallow : ∀ a e w, allow a e w → clearTemp a e w) :
    (publish pid .released slot RELEASED).Safe exec allow (fun _ => True)
      (fun r w' => r = .ok () ∨ r = .error .alreadyExists → w'.Released slot) w := by
  refine publish_of_link ?_ fun r hne h => .inl rfl
  refine Safe.andThen (writeTemp_spec.and_here.weaken fun _ _ => trivial) ?_ ?_
  · intro _ w₁ _ _
    refine safe_act trivial fun e r w₂ hexec _ => ?_
    rcases exec_link hexec with ⟨error, rfl, hexists, rfl⟩ | ⟨bytes, rfl, -, -, rfl⟩
    · refine safe_ret trivial ?_
      rintro (hr | hr)
      · cases hr
      · cases hr
        exact hexists rfl
    · refine safe_ret trivial fun _ => ?_
      unfold Released
      rw [file_setFile, if_pos rfl]
      rfl
  · rintro error w₁ - ⟨hsame, -, hexists⟩ (hr | hr)
    · cases hr
    · cases hr
      obtain ⟨htemp, e, hclear⟩ := hexists rfl
      unfold Released
      rw [hsame (.record .released slot) nofun]
      refine (hallow _ _ _ hclear).resolve_right fun hnone => ?_
      rw [hnone] at htemp
      cases htemp

theorem recordRelease_clear (hallow : ∀ a e w, allow a e w → clearTemp a e w) :
    (recordRelease pid slot).run.Safe exec allow (fun _ => True)
      (fun r w' => r = .ok () → w'.Released slot) w := by
  refine safe_act trivial fun e r w₁ hexec _ => ?_
  obtain ⟨-, rfl⟩ := exec_exists hexec
  cases r with
  | false => exact safe_ret trivial nofun
  | true =>
    refine (publish_clear hallow).bind fun r w₂ _ h₂ => ?_
    rcases r with (_ | errno) | _
    · exact safe_ret trivial fun _ => h₂ (.inr rfl)
    · exact safe_ret trivial nofun
    · exact safe_ret trivial fun _ => h₂ (.inl rfl)

theorem released_setFile {content : List UInt8} :
    (w.setFile (.temp pid .released slot) content).Released slot ↔ w.Released slot := by
  unfold Released
  rw [file_setFile, if_neg nofun]

theorem publish_durable :
    (publish pid .released slot RELEASED).Safe exec durableGuard.act (fun _ => True)
      (fun _ w' => w'.Released slot) w := by
  by_cases hreleased : w.Released slot
  · exact released_of_within (p := { idleScope with record := fun _ _ => True }) hreleased (publish_within trivial)
  refine (publish_of_link (P := fun _ => True) ?_ fun _ _ _ => trivial).mono (fun _ h => h) fun _ _ _ h => h trivial
  refine safe_act trivial fun e r w₁ hexec hallow => ?_
  obtain rfl := hallow.2.2.resolve_left hreleased
  have hnone := hallow.2.1.resolve_left hreleased
  simp only [exec, hnone, Option.isSome_none, Bool.false_eq_true, if_false] at hexec
  cases hexec
  have h₁ : ¬ (w.setFile (.temp pid .released slot) []).Released slot := fun h =>
    hreleased (released_setFile.mp h)
  refine safe_act trivial fun e r w₂ hexec hallow => ?_
  obtain rfl := hallow.2.2.resolve_left h₁
  cases hexec
  have h₂ : ¬ ((w.setFile (.temp pid .released slot) []).setFile (.temp pid .released slot)
      RELEASED).Released slot := fun h => h₁ (released_setFile.mp h)
  refine safe_act trivial fun e r w₃ hexec hallow => ?_
  obtain rfl := hallow.2.2.resolve_left h₂
  cases hexec
  refine safe_act trivial fun e r w₄ hexec hallow => ?_
  obtain rfl := hallow.2.2.resolve_left h₂
  -- the source was just written and the target is not there
  simp only [exec, file_setFile, if_true] at hexec
  rw [if_neg (by simpa [Released] using h₂)] at hexec
  cases hexec
  refine safe_ret trivial fun _ => ?_
  unfold Released
  rw [file_setFile, if_pos rfl]
  rfl

theorem recordRelease_durable (hassigned : (w.file (.record .assigned slot)).isSome) :
    (recordRelease pid slot).run.Safe exec durableGuard.act (fun _ => True)
      (fun _ w' => w'.Released slot) w := by
  by_cases hreleased : w.Released slot
  · exact released_of_within (p := { idleScope with record := fun _ _ => True }) hreleased
      (recordRelease_within trivial)
  refine safe_act trivial fun e r w₁ hexec hallow => ?_
  obtain rfl := hallow.2.2.resolve_left hreleased
  obtain ⟨rfl, rfl⟩ := exec_exists hexec
  simp only [hassigned, Bool.not_false, Bool.true_and]
  refine publish_durable.bind fun r w₂ _ h₂ => ?_
  rcases r with (_ | errno) | _ <;> exact safe_ret trivial h₂

end recorder

/-! ## Releases -/

theorem settle_durable {pid : ℕ} {slot : Slot} {evidence : ReleaseEvidence}
    (hassigned : (w.file (.record .assigned slot)).isSome) :
    (settle pid slot evidence).Safe exec durableGuard.act (fun _ => True)
      (fun evidence w' => evidence.complete → w'.Released slot) w := by
  unfold settle
  split_ifs with hcomplete
  · refine safe_act trivial fun e r w₁ hexec _ => ?_
    cases hexec
    change Safe exec _ _ _ ((recordRelease pid slot).run >>= fun r => _) _
    refine Safe.bind (recordRelease_durable hassigned) fun r w₂ _ h₂ => ?_
    cases r <;> exact safe_ret trivial fun _ => h₂
  · exact safe_ret trivial fun h => (hcomplete h).elim

theorem releaseSlot_durable {pid : ℕ} {slot : Slot} {zone : ConntrackZone} {tap : Bool}
    {reservations : List PortReservation} (hassigned : (w.file (.record .assigned slot)).isSome) :
    (teardown slot zone tap reservations >>= settle pid slot).Safe exec durableGuard.act (fun _ => True)
      (fun evidence w' => evidence.complete → w'.Released slot) w := by
  obtain ⟨bytes, hbytes⟩ := Option.isSome_iff_exists.mp hassigned
  have hwithin : (teardown slot zone tap reservations).All (Act.Within (releaseScope slot zone)) :=
    teardown_within rfl rfl
  refine Safe.bind ((safe_of_within hwithin).weaken (fun _ _ => trivial)) ?_
  intro evidence w₁ _ hframe
  refine settle_durable ?_
  rw [hframe.records _ _ _ hbytes]
  rfl

theorem handleRelease_durable (hcoherent : Coherent m w) (hsound : Sound w) {slot : Slot} :
    (handleRelease prims m peer slot).Safe exec durableGuard.act (fun _ => True)
      (fun r w' => r.1 = .released true → w'.Released slot) w := by
  have hreply : ∀ {evidence : ReleaseEvidence} {w₁ : World}, (evidence.complete → w₁.Released slot) →
      Reply.released evidence.complete = .released true → w₁.Released slot := by
    intro evidence w₁ h heq
    exact h (Reply.released.inj heq)
  unfold handleRelease
  split
  · next owned howned =>
    have hlive := hcoherent.live slot owned howned
    simp only
    split_ifs
    · exact safe_ret trivial nofun
    · have hrelease : (release m.broker.pid owned.assigned).Safe exec durableGuard.act (fun _ => True)
          (fun evidence w' => evidence.complete → w'.Released slot) w := by
        unfold release releaseSterile
        rw [hlive.bundle]
        exact releaseSlot_durable (by rw [hlive.file]; rfl)
      exact hrelease.bind fun evidence w₁ _ h₁ => safe_ret trivial (hreply h₁)
  · change Safe exec _ _ _ ((lookup prims slot).run >>= fun entry => _) w
    refine Safe.bind (lookup_spec.and_here.weaken (fun _ _ => trivial)) ?_
    rintro (error | entry) _ - ⟨rfl, hentry, -⟩
    · exact safe_ret trivial nofun
    obtain ⟨hslot, hfile⟩ := hsound.decoded (hentry entry rfl)
    simp only
    split_ifs
    · exact safe_ret trivial nofun
    · have hrelease : ∀ w₁ : World, w₁.file (.record .assigned slot) = some entry.record.encode →
          (releaseRecord m.broker.pid entry.record).Safe exec durableGuard.act (fun _ => True)
            (fun evidence w' => evidence.complete → w'.Released slot) w₁ := by
        intro w₁ hfile₁
        unfold releaseRecord
        rw [hslot]
        exact releaseSlot_durable (by rw [hfile₁]; rfl)
      exact (hrelease _ hfile).bind fun evidence w₁ _ h₁ => safe_ret trivial (hreply h₁)

/-- Every release answered as complete has its record. -/
def DurableReplies (w : World) : Prop :=
  ∀ peer slot, .replied peer (.release slot) (.released true) ∈ w.trace → w.Released slot

theorem During.durable (h : During prims m w peer request w') (hw : DurableReplies w) : DurableReplies w' := by
  intro u slot hmem
  obtain ⟨p, -, hframe⟩ := h.job
  exact (hw u slot (h.replied hmem)).frame hframe

theorem DurableReplies.log {reply : Reply} (hw : DurableReplies w)
    (h : ∀ slot, request = .release slot → reply = .released true → w.Released slot) :
    DurableReplies (w.log (.replied peer request reply)) := by
  intro u slot hmem
  rcases List.mem_cons.mp hmem with heq | hold
  · cases heq
    exact h slot rfl rfl
  · exact hw u slot hold

theorem handle_durable (hcoherent : Coherent m w) (hsound : Sound w) :
    (handle prims m peer request).Safe exec durableGuard.act (fun _ => True)
      (fun r w' => ∀ slot, request = .release slot → r.1 = .released true → w'.Released slot) w := by
  cases request with
  | release slot =>
    refine (handleRelease_durable hcoherent hsound).mono (fun _ h => h) ?_
    rintro r w' - h _ ⟨⟩ hr
    exact h hr
  | _ => exact (handle_spec durableGuard_draws hcoherent hsound).mono (fun _ _ => trivial) fun _ _ _ _ slot h => nomatch h

theorem serveRequest_durable (hcoherent : Coherent m w) (hsound : Sound w) (hw : DurableReplies w) :
    (serveRequest prims peer request m).Safe exec durableGuard.act DurableReplies (fun _ _ => True) w := by
  unfold serveRequest
  split_ifs with hpermits
  · change Safe exec _ _ _ (handle prims m peer request >>= fun r => _) w
    refine Safe.bind (((handle_spec durableGuard_draws hcoherent hsound).conj
      (handle_durable hcoherent hsound)).and_here.weaken (fun w' h => h.1.durable hw)) ?_
    rintro ⟨reply, m'⟩ w₁ hC₁ ⟨-, -, hreply⟩
    refine safe_act hC₁ fun e r w₂ hexec _ => ?_
    cases hexec
    exact safe_ret (hC₁.log hreply) trivial
  · refine safe_act hw fun e r w₂ hexec _ => ?_
    cases hexec
    exact safe_ret (hw.log fun _ _ h => nomatch h) trivial

theorem lookup_released {slot : Slot} (h : w.Released slot) :
    (lookup prims slot).run.Safe exec statsSucceed (· = w)
      (fun r _ => ∀ entry, r = .ok entry → entry.released) w := by
  refine safe_act rfl fun e r w₁ hexec _ => ?_
  obtain ⟨-, rfl⟩ := exec_exists hexec
  cases r with
  | false => exact safe_ret rfl nofun
  | true =>
    refine Safe.andThen (readRecord_spec.and_here) ?_ fun _ _ _ _ _ h => nomatch h
    rintro record _ - ⟨rfl, -⟩
    refine safe_act rfl fun e r w₂ hexec hstat => ?_
    obtain rfl : e = false := hstat
    obtain ⟨rfl, rfl⟩ := exec_exists hexec
    refine safe_ret rfl fun entry hentry => ?_
    cases hentry
    simpa [Released] using h

/-- While the actions for a missing release record succeed: every release answered as complete has its record,
so every later look-up whose stats succeed reports it; and the recorder succeeds only when there is a record,
from any world. -/
theorem completed_release_is_recorded :
    (∀ c : Config, Reach (broker prims) durableGuard .empty c → ∀ peer slot,
      .replied peer (.release slot) (.released true) ∈ c.world.trace →
        c.world.Released slot ∧ (lookup prims slot).run.Safe exec statsSucceed (· = c.world)
          (fun r _ => ∀ entry, r = .ok entry → entry.released) c.world)
    ∧ ∀ (w : World) (pid : ℕ) (slot : Slot), (recordRelease pid slot).run.Safe exec clearTemp
        (fun _ => True) (fun r w' => r = .ok () → w'.Released slot) w := by
  refine ⟨fun c h peer slot hmem => ?_, fun w pid slot => recordRelease_clear fun _ _ _ h => h⟩
  have hheld := broker_invariant durableGuard_draws DurableReplies (fun _ _ => True) ?init ?boot ?serve h
  case init => exact nofun
  case boot =>
    intro options w hsound hw _
    have hrevive : Sound w.revive := hsound.of_files (fun _ => rfl) fun _ h => h
    refine (boot_spec durableGuard_draws options hrevive).mono (fun w' hframe => ?_) fun _ _ _ _ _ _ => trivial
    intro u s hs
    refine (hw u s ((hframe.of_mem_trace hs).resolve_right ?_)).frame (w := w.revive) hframe
    rintro ⟨_, _, _, _, heq⟩
    cases heq
  case serve =>
    intro u request m w hsound hcoherent hw _ _
    exact serveRequest_durable hcoherent hsound hw
  have hreleased := hheld.world peer slot hmem
  exact ⟨hreleased, lookup_released hreleased⟩

/-- Files are looked up and written without a failure, and temporary files are new. -/
def durableCheck : Check Choice World Options State (U32 × Request) where
  act
    | .exists_ _, failed, _ => !failed
    | .create file, e, w => e.isNone && (w.file file).isNone
    | .write _ _, e, _ => e.isNone
    | .sync _, e, _ => e.isNone
    | .link _ _, e, _ => e.isNone
    | a, e, w => drawsNew a e w
  request _ _ _ := true
  restart _ _ := true

theorem durableCheck_le : durableCheck.guard.Le durableGuard := by
  refine ⟨fun a e w h => ?_, fun _ _ _ _ => trivial, fun _ _ _ => trivial⟩
  cases a with
  | create file =>
    obtain ⟨he, hfile⟩ := (Bool.and_eq_true _ _).mp h
    rw [Option.isNone_iff_eq_none] at he hfile
    rcases file with _ | ⟨pid, _ | _, slot⟩
    · exact ⟨trivial, trivial, trivial⟩
    · exact ⟨trivial, trivial, trivial⟩
    · exact ⟨trivial, .inr hfile, .inr he⟩
  | exists_ file =>
    have he := Bool.not_eq_true' _ |>.mp h
    rcases file with ⟨_ | _, slot⟩ | _
    · exact ⟨trivial, trivial, .inr he⟩
    · exact ⟨trivial, trivial, trivial⟩
    · exact ⟨trivial, trivial, trivial⟩
  | write file | sync file | link file =>
    have he := Option.isNone_iff_eq_none.mp h
    rcases file with _ | ⟨pid, _ | _, slot⟩
    · exact ⟨trivial, trivial, trivial⟩
    · exact ⟨trivial, trivial, trivial⟩
    · exact ⟨trivial, trivial, .inr he⟩
  | freshId => exact ⟨drawsNew_sound (a := .freshId) (e := e) h, trivial, trivial⟩
  | _ => exact ⟨trivial, trivial, trivial⟩

open Sample in
/-- A claimed bundle is released, and the process stopped right after. -/
theorem recorded_after_release : ∃ c : Config,
    Reach (broker primitives) durableGuard .empty c
      ∧ .replied 1000 (.release (slot 11)) (.released true) ∈ c.world.trace
      ∧ c.world.Released (slot 11) := by
  have hrun : ∃ c : Config, Reach (broker primitives) durableGuard .empty c
      ∧ .replied 1000 (.release (slot 11)) (.released true) ∈ c.world.trace :=
    Reach.exists_of_play durableCheck
      (starts ++ asks 1000 (claimOf 2).frame 11 ++ asks 1000 (.release (slot 11)) 0 ++ starts)
      durableCheck_le (by decide +kernel)
  obtain ⟨c, hreach, hmem⟩ := hrun
  exact ⟨c, hreach, hmem, (completed_release_is_recorded.1 c hreach 1000 (slot 11) hmem).1⟩

/-- Writing the release record fails. -/
def Sample.fullDisk (id : UInt8) : (a : Act) → Choice a
  | .write (.temp _ .released _) _ => some (28, 0)
  | a => calm id a

open Sample in
/-- A release is answered as complete without a record, because its write failed; and because a process
with the same identifier was stopped while it wrote the record. -/
theorem unrecorded_release_reported_complete :
    (∃ c : Config, Reach (broker primitives) anyRun .empty c
      ∧ .replied 1000 (.release (slot 11)) (.released true) ∈ c.world.trace ∧ ¬ c.world.Released (slot 11)
      ∧ c.world.file (.record .assigned (slot 11)) ≠ none ∧ c.world.epoch = 1)
    ∧ ∃ c : Config, Reach (broker primitives) anyRun .empty c
      ∧ .replied 1000 (.release (slot 11)) (.released true) ∈ c.world.trace ∧ ¬ c.world.Released (slot 11)
      ∧ c.world.file (.record .assigned (slot 11)) ≠ none ∧ c.world.epoch = 2 := by
  constructor
  · exact Reach.exists_of_play anyCheck (starts ++ asks 1000 (claimOf 2).frame 11
        ++ [.request (1000, .release (slot 11)), .finish (fullDisk 0)])
      anyCheck_le (by decide +kernel)
  · exact Reach.exists_of_play anyCheck (starts ++ asks 1000 (claimOf 2).frame 11
        ++ [.request (1000, .release (slot 11)), .act (calm 0) 18]
        ++ starts ++ asks 1000 (.release (slot 11)) 0)
      anyCheck_le (by decide +kernel)

end Soma.Netd
