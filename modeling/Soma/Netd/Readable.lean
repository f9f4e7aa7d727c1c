import Soma.Netd.Runs

/-! # The ledger stays readable

The writer takes the profile of a record from the broker and the intent from the request; the reader
compares the two. The listing reads every file whose name ends in `.assigned`, and the temporary files
have such names too.

* A claim with the intent of another profile writes a record that cannot be read back
  (`foreign_profile_corrupts_ledger`).
* **`ledger_stays_readable`**: with intents of the broker's own profile every record reads back unchanged
  and no look-up reports a corrupt ledger; nor does a listing between requests, unless an unfinished
  temporary file was left behind.
-/

namespace Soma.Netd

open Soma.Codec Soma.Lib Soma.Guest Prog AssignmentRecord

variable {prims : Primitives} {m : State} {w w' : World} {peer : U32} {request : Request} (prims)

/-- Every assignment record reads back as what it encodes. -/
def Readable (w : World) : Prop :=
  ∀ slot bytes, w.file (.record .assigned slot) = some bytes →
    ∃ record : AssignmentRecord, record.slot = slot ∧ bytes = record.encode
      ∧ decode prims bytes = .ok record

/-- A file that the listing can read, or that is not there. -/
def World.Legible (w : World) (file : FileName) : Prop :=
  w.decoded prims file ≠ some (.error .ledgerCorrupt)

/-- Every file the listing reads is legible. -/
def Tidy (w : World) : Prop :=
  ∀ file, file.kind = .assigned → w.Legible prims file

/-- Claims carry intents of the broker's profile, and no illegible temporary file is left behind: its
removal fails only when it is legible, and a process is stopped only when it left none. -/
def readableGuard : Guard where
  act
    | .remove file, some _, w => file.kind = .assigned → w.Legible prims file
    | a, e, w => DrawsNew a e w
  request q m _ := ∀ claim : ClaimRequest, m.authority.permits q.1 q.2.capability → q.2 = claim.frame →
    m.operations (claim.instance_, claim.operation) = none →
    claim.intent.profile = m.broker.profile.digest prims
  restart _ w := ∀ file, file.isTemp → file.kind = .assigned → w.Legible prims file

variable {prims}

theorem readableGuard_draws : (readableGuard prims).act ≤ DrawsNew := by
  intro a e w h
  cases a with
  | remove file => trivial
  | _ => exact h

/-! ## Records -/

theorem Broker.reserve_profile {broker : Broker} : broker.reserve.2.profile = broker.profile := by
  unfold Broker.reserve
  split
  · rfl
  · split
    · rfl
    · split_ifs <;> rfl

variable {bundle : SterileBundle}

theorem Takes.profile {m₁ : State} (h : Takes prims m w bundle m₁) : m₁.broker.profile = m.broker.profile := by
  cases h with
  | pooled hpool => rfl
  | prepared hpool hid hreserve =>
    have hprofile := m.broker.reserve_profile
    rw [hreserve] at hprofile
    exact hprofile

theorem decode_recordOf {broker : Broker} {request : ClaimRequest} {t : U64} :
    decode prims (broker.recordOf prims bundle peer request t).encode
        = .ok (broker.recordOf prims bundle peer request t)
      ↔ request.intent.profile = broker.profile.digest prims := by
  rw [decode_encode_eq_ok]
  exact ⟨fun h => h.2, fun h => ⟨rfl, h⟩⟩

theorem During.readable (h : During prims m w peer request w') (hreadable : Readable prims w)
    (hguard : ∀ claim : ClaimRequest, request = claim.frame →
      m.operations (claim.instance_, claim.operation) = none →
      claim.intent.profile = m.broker.profile.digest prims) : Readable prims w' := by
  intro slot bytes hfile
  rcases h.assigned hfile with hold | ⟨claim, bundle, m₁, t, hrequest, hfree, htakes, -, rfl, hfile'⟩
  · exact hreadable slot bytes hold
  · rw [hfile'] at hfile
    cases hfile
    refine ⟨_, rfl, rfl, decode_recordOf.mpr ?_⟩
    rw [htakes.profile]
    exact hguard claim hrequest hfree

theorem Serving.readable (h : Serving prims m w peer request w') (hreadable : Readable prims w)
    (hguard : (readableGuard prims).request (peer, request) m w) : Readable prims w' := by
  cases h with
  | refusing h => exact hreadable
  | refused h => exact hreadable
  | handling h hduring => exact hduring.readable hreadable fun claim => hguard claim h
  | replied h hdone => exact hdone.during.readable hreadable fun claim => hguard claim h

theorem Readable.legible (h : Readable prims w) (slot : Slot) : w.Legible prims (.record .assigned slot) := by
  intro hcorrupt
  obtain ⟨bytes, hfile, hdecode⟩ := Option.map_eq_some_iff.mp hcorrupt
  obtain ⟨record, -, rfl, hrecord⟩ := h slot bytes hfile
  rw [take_encode, hrecord] at hdecode
  cases hdecode

/-! ## Temporary files -/

theorem legible_of_file {file : FileName} (h : w'.file file = w.file file) (hw : w.Legible prims file) :
    w'.Legible prims file := by
  unfold World.Legible World.decoded at hw ⊢
  rwa [h]

variable {p : Scope}

theorem Tidy.frame (h : Tidy prims w) (hframe : Frame p w w') (hp : ∀ slot, ¬ p.record .assigned slot) :
    Tidy prims w' := by
  intro file hkind
  refine legible_of_file (hframe.files file ?_) (h file hkind)
  rw [hkind]
  exact hp file.slot

variable {allow : (a : Act) → Choice a → World → Prop}

theorem tidy_of_within {α : Type} {prog : Op α} (h : Tidy prims w) (hall : prog.All (Act.Within p))
    (hp : ∀ slot, ¬ p.record .assigned slot) : prog.Safe exec allow (fun _ => True) (fun _ w' => Tidy prims w') w :=
  (safe_of_within hall).mono (fun _ _ => trivial) fun _ _ _ hframe => h.frame hframe hp

/-- Work that leaves the ledger tidy. -/
abbrev KeepsTidy (prims : Primitives) {α : Type} (prog : Op α) (w : World) : Prop :=
  prog.Safe exec (readableGuard prims).act (fun _ => True) (fun _ w' => Tidy prims w') w

/-- Every file the listing reads is legible, but for one. -/
def TidyBut (prims : Primitives) (temp : FileName) (w : World) : Prop :=
  ∀ file, file.kind = .assigned → file ≠ temp → w.Legible prims file

variable {record : AssignmentRecord}

theorem publish_tidy {pid : ℕ} {slot : Slot} (hrecord : decode prims record.encode = .ok record) (h : Tidy prims w) :
    KeepsTidy prims (publish pid .assigned slot record.encode) w := by
  have hlinked : ExceptT.run (do
      writeTemp (.temp pid .assigned slot) record.encode
      attempt (perform (.link (.temp pid .assigned slot) (.record .assigned slot)))) |>.Safe exec
        (readableGuard prims).act (fun _ => True)
        (fun _ w' => TidyBut prims (.temp pid .assigned slot) w') w := by
    refine Safe.andThen (P := fun r w' => TidyBut prims (.temp pid .assigned slot) w' ∧
      (r = .ok () → w'.file (.temp pid .assigned slot) = some record.encode)) ?_ ?_ fun _ _ _ h => h.1
    · exact writeTemp_spec.mono (fun _ _ => trivial) fun r w' hsame hP =>
        ⟨fun file hkind hne => legible_of_file (hsame file hne) (h file hkind), hP.1⟩
    intro _ w₁ _ hP
    refine safe_act trivial fun e r w₂ hexec _ => ?_
    rcases exec_link hexec with ⟨error, rfl, -, rfl⟩ | ⟨content, rfl, hsource, -, rfl⟩
    · exact safe_ret trivial hP.1
    · rw [hP.2 rfl] at hsource
      cases hsource
      refine safe_ret trivial fun file hkind hne => ?_
      by_cases hfile : file = .record .assigned slot
      · unfold World.Legible World.decoded
        rw [World.file_setFile, if_pos hfile, Option.map_some, take_encode, hrecord]
        nofun
      · refine legible_of_file ?_ (hP.1 file hkind hne)
        rw [World.file_setFile, if_neg hfile]
  refine hlinked.bind fun r w₁ _ h₁ => ?_
  refine safe_act trivial fun e r' w₂ hexec hallow => ?_
  have htidy : Tidy prims w₂ := by
    rcases e with _ | errno
    · cases hexec
      intro file hkind
      by_cases htemp : file = .temp pid .assigned slot
      · rw [htemp]
        unfold World.Legible World.decoded
        rw [World.file_removeFile, if_pos rfl]
        nofun
      · refine legible_of_file ?_ (h₁ file hkind htemp)
        rw [World.file_removeFile, if_neg htemp]
    · cases hexec
      intro file hkind
      by_cases htemp : file = .temp pid .assigned slot
      · rw [htemp]
        exact hallow rfl
      · exact h₁ file hkind htemp
  cases r with
  | error error => exact safe_ret trivial htidy
  | ok _ =>
    refine safe_act trivial fun e r w₃ hexec _ => ?_
    obtain ⟨rfl, -⟩ := exec_syncDir hexec
    exact safe_ret trivial htidy

/-! ## Claims -/

section claim

variable {claimed : ClaimRequest} {bundle : SterileBundle} {broker : Broker}

theorem recordAssignment_tidy {pid : ℕ} (hrecord : decode prims record.encode = .ok record) (h : Tidy prims w) :
    KeepsTidy prims (recordAssignment prims pid record).run w := by
  refine (publish_tidy hrecord h).bind fun r w₁ _ h₁ => ?_
  rcases r with (_ | errno) | _
  · refine Safe.andThen (tidy_of_within (p := idleScope) h₁ readRecord_within nofun) ?_ fun _ _ _ h => h
    intro existing w₂ _ h₂
    change Safe exec _ _ _ (ExceptT.run (if existing.replays record then pure RecordOutcome.replayed
      else if existing.operation = record.operation then throw Error.replayMismatch
      else throw Error.ledgerConflict)) w₂
    split_ifs <;> exact safe_ret trivial h₂
  · exact safe_ret trivial h₁
  · exact safe_ret trivial h₁

section

variable (hprofile : claimed.intent.profile = broker.profile.digest prims)
include hprofile

theorem recordClaim_tidy (h : Tidy prims w) :
    KeepsTidy prims (recordClaim prims broker bundle peer claimed).run w := by
  refine Safe.andThen (tidy_of_within (p := idleScope) h nowNanos_within nofun) ?_ fun _ _ _ h => h
  intro t w₁ _ h₁
  refine Safe.andThen (recordAssignment_tidy (decode_recordOf.mpr hprofile) h₁) ?_ fun _ _ _ h => h
  intro outcome w₂ _ h₂
  cases outcome with
  | recorded => exact safe_ret trivial h₂
  | replayed =>
    refine Safe.andThen (tidy_of_within (p := idleScope) h₂ lookup_within nofun) ?_ fun _ _ _ h => h
    intro _ w₃ _ h₃
    exact safe_ret trivial h₃

theorem tryAssign_tidy (h : Tidy prims w) :
    KeepsTidy prims (tryAssign prims broker bundle peer claimed).run w := by
  refine Safe.andThen (recordClaim_tidy hprofile h) ?_ fun _ _ _ h => h
  intro record w₁ _ h₁
  -- the rest works on the kernel and issues the challenge
  refine tidy_of_within (p := { quietScope bundle.slot with event := fun _ => True }) h₁ ?_ nofun
  refine All.andThen reserve_within fun reservations => ?_
  refine All.andThen trivial fun published => ?_
  refine All.andThen (kernel_within rfl nofun) fun _ => ?_
  split
  · trivial
  · refine All.andThen (perform_within trivial) fun activation => ?_
    exact ⟨trivial, fun _ => trivial⟩

end

theorem assignTo_tidy (hprofile : claimed.intent.profile = m.broker.profile.digest prims) (h : Tidy prims w) :
    KeepsTidy prims (assignTo prims m peer claimed bundle) w := by
  have hrelease : ∀ {b : SterileBundle} {reservations : List PortReservation} {w₁ : World},
      Tidy prims w₁ → KeepsTidy prims (releaseSterile m.broker.pid b reservations) w₁ := fun {b} _ _ h =>
    tidy_of_within (p := releaseScope b.slot b.zone) h (releaseSterile_within rfl rfl ⟨rfl, rfl⟩ rfl)
      fun _ h => nomatch h.1
  refine (tryAssign_tidy hprofile h).bind fun r w₁ _ h₁ => ?_
  rcases r with error | assigned
  · exact (hrelease h₁).bind fun _ w₂ _ h₂ => safe_ret trivial h₂
  · refine Safe.bind (tidy_of_within (p := replayScope peer assigned.record.slot) h₁
      (deliverDescriptor_within fun _ _ => rfl) nofun) fun r w₂ _ h₂ => ?_
    rcases r with error | reply
    · exact (hrelease h₂).bind fun _ w₃ _ h₃ => safe_ret trivial h₃
    · exact safe_ret trivial h₂

end claim

theorem Job.not_assigned (h : Job prims m w peer w' request p) (hrequest : request.operation = none) (slot : Slot) :
    ¬ p.record .assigned slot := by
  cases h with
  | idle | replay => nofun
  | claim => cases hrequest
  | activate | releaseLive | releaseRecord => exact fun h => nomatch h.1

theorem claim_tidy {claimed : ClaimRequest} (hcoherent : Coherent m w) (h : Tidy prims w)
    (hprofile : m.operations (claimed.instance_, claimed.operation) = none →
      claimed.intent.profile = m.broker.profile.digest prims) :
    KeepsTidy prims (claim prims m peer claimed) w := by
  unfold claim
  split
  · next slot hheld =>
    have hwithin : (replay prims m peer claimed slot).All
        (Act.Within { idleScope with event := fun _ => True }) := by
      unfold replay
      split
      · trivial
      · split_ifs
        · trivial
        · trivial
        · refine All.bind (deliverDescriptor_within fun _ _ => trivial) fun r => ?_
          cases r <;> trivial
    exact (tidy_of_within h hwithin nofun).bind fun reply w₁ _ h₁ => safe_ret trivial h₁
  · next hfree =>
    change Safe exec _ _ _ (takeBundle prims m >>= fun r => _) w
    refine Safe.bind ((takeBundle_spec readableGuard_draws hcoherent).and_here.weaken (fun _ _ => trivial)) ?_
    rintro ⟨error | bundle, m₁⟩ w₁ - ⟨htaking, hok, -⟩
    all_goals
      have h₁ : Tidy prims w₁ := by
        rcases htaking with hframe | ⟨_, _, _, _, _, hframe⟩ <;> exact h.frame hframe nofun
    · exact safe_ret trivial h₁
    · refine assignTo_tidy ?_ h₁
      rw [(hok bundle rfl).1.profile]
      exact hprofile hfree

theorem handle_tidy (hcoherent : Coherent m w) (hsound : Sound w) (h : Tidy prims w)
    (hguard : ∀ claimed : ClaimRequest, request = claimed.frame →
      m.operations (claimed.instance_, claimed.operation) = none →
      claimed.intent.profile = m.broker.profile.digest prims) :
    KeepsTidy prims (handle prims m peer request) w := by
  have hother : request.operation = none → KeepsTidy prims (handle prims m peer request) w := by
    refine fun hnone => (handle_spec readableGuard_draws hcoherent hsound).mono (fun _ _ => trivial) fun r w' _ hdone => ?_
    obtain ⟨p, hjob, hframe⟩ := hdone.during.job
    exact h.frame hframe (hjob.not_assigned hnone)
  cases request with
  | claim instance_ operation vsockCid intent =>
    exact claim_tidy hcoherent h (hguard ⟨instance_, operation, vsockCid, intent⟩ rfl)
  | activate slot receipt => exact hother rfl
  | release slot => exact hother rfl
  | reconcile => exact hother rfl

theorem serveRequest_tidy (hcoherent : Coherent m w) (hsound : Sound w) (h : Tidy prims w)
    (hguard : (readableGuard prims).request (peer, request) m w) :
    KeepsTidy prims (serveRequest prims peer request m) w := by
  unfold serveRequest
  split_ifs with hpermits
  · change Safe exec _ _ _ (handle prims m peer request >>= fun r => _) w
    refine Safe.bind (handle_tidy hcoherent hsound h fun claimed => hguard claimed hpermits) ?_
    rintro ⟨reply, m'⟩ w₁ - h₁
    refine safe_act trivial fun e r w₂ hexec _ => ?_
    cases hexec
    exact safe_ret trivial h₁
  · refine safe_act trivial fun e r w₂ hexec _ => ?_
    cases hexec
    exact safe_ret trivial h

/-- In every run within the guard: every record reads back unchanged, no look-up reports a corrupt ledger,
and between requests no listing does. -/
theorem ledger_stays_readable {c : Config} (h : Service.Reach (broker prims) (readableGuard prims) .empty c) :
    Readable prims c.world
      ∧ (∀ slot, (lookup prims slot).run.Safe exec (fun _ _ _ => True) (· = c.world)
          (fun r _ => r ≠ .error .ledgerCorrupt) c.world)
      ∧ ∀ m, c.rest = .ret (some m) → (entries prims).run.Safe exec (fun _ _ _ => True) (· = c.world)
          (fun r _ => r ≠ .error .ledgerCorrupt) c.world := by
  have hheld := broker_invariant readableGuard_draws (Readable prims) (fun _ w => Tidy prims w) ?init ?boot ?serve h
  case init => exact nofun
  case boot =>
    intro options w hsound hreadable hrestart
    have hrevive : Sound w.revive := hsound.of_files (fun _ => rfl) fun _ h => h
    have htidy : Tidy prims w := by
      intro file hkind
      cases file with
      | record kind slot =>
        obtain rfl : kind = .assigned := hkind
        exact hreadable.legible slot
      | temp pid kind slot => exact hrestart _ rfl hkind
    refine (boot_spec readableGuard_draws options hrevive).and_here.mono (fun w' hframe => ?_) ?_
    · intro slot bytes hfile
      exact hreadable slot bytes ((hframe.files _ nofun).symm.trans hfile)
    · rintro m? w' - ⟨hframe, -⟩ m -
      exact Tidy.frame (w := w.revive) htidy hframe nofun
  case serve =>
    intro peer request m w hsound hcoherent hreadable htidy hguard
    exact ((serveRequest_spec readableGuard_draws hcoherent hsound).conj (serveRequest_tidy hcoherent hsound htidy hguard)).mono
      (fun w' hserving => hserving.1.readable hreadable hguard) fun _ _ _ h => h.2
  refine ⟨hheld.world, fun slot => ?_, fun m hrest => ?_⟩
  · exact lookup_spec.mono (fun _ h => h) fun r w' _ hr hcorrupt =>
      hheld.world.legible slot (hr.2 hcorrupt)
  · exact entries_spec (hheld.idle m hrest).2

/-- Removals succeed, intents are of the broker's profile, and it starts on an empty ledger. -/
def readableCheck (prims : Primitives) : Service.Check Choice World Options State (U32 × Request) where
  act
    | .remove _, some _, _ => false
    | a, e, w => drawsNew a e w
  request
    | (_, .claim _ _ _ intent), m, _ => intent.profile = m.broker.profile.digest prims
    | _, _, _ => true
  restart _ w := w.files.keys.isEmpty

theorem readableCheck_le : (readableCheck prims).guard.Le (readableGuard prims) where
  act a e w h := by
    cases a with
    | remove file =>
      rcases e with _ | errno
      · trivial
      · cases h
    | freshId => exact drawsNew_sound (a := .freshId) (e := e) h
    | _ => trivial
  request q m w h := by
    intro claim _ hframe _
    obtain ⟨peer, request⟩ := q
    obtain rfl : request = claim.frame := hframe
    exact of_decide_eq_true h
  restart options w h := by
    intro file _ _ hcorrupt
    rw [World.decoded, file_of_keys_empty h] at hcorrupt
    cases hcorrupt

open Sample in
theorem readable_after_claim : ∃ c : Config,
    Service.Reach (broker primitives) (readableGuard primitives) .empty c
      ∧ holds c.world (slot 11) (claimOf 2) ∧ Readable primitives c.world
      ∧ (∀ slot, (lookup primitives slot).run.Safe exec (fun _ _ _ => True) (· = c.world)
          (fun r _ => r ≠ .error .ledgerCorrupt) c.world)
      ∧ ∀ m, c.rest = .ret (some m) → (entries primitives).run.Safe exec (fun _ _ _ => True)
          (· = c.world) (fun r _ => r ≠ .error .ledgerCorrupt) c.world := by
  have hrun : ∃ c : Config, Service.Reach (broker primitives) (readableGuard primitives) .empty c
      ∧ holds c.world (slot 11) (claimOf 2) :=
    Service.Reach.exists_of_play (readableCheck primitives)
      (starts ++ asks 1000 (claimOf 2).frame 11 ++ asks 1000 .reconcile 0) readableCheck_le
      (by decide +kernel)
  obtain ⟨c, hreach, hholds⟩ := hrun
  exact ⟨c, hreach, hholds, ledger_stays_readable hreach⟩

def World.corruptAt (prims : Primitives) (w : World) (slot : Slot) : Bool :=
  match w.decoded prims (.record .assigned slot) with
  | some (.error .ledgerCorrupt) => true
  | _ => false

open Sample in
/-- A claim whose intent names another profile is served; its record then fails every listing. -/
theorem foreign_profile_corrupts_ledger : ∃ c : Config, Service.Reach (broker primitives) anyRun .empty c
    ∧ ¬ Readable primitives c.world
    ∧ .replied 1000 .reconcile (failed .ledgerCorrupt) ∈ c.world.trace := by
  have hrun : ∃ c : Config, Service.Reach (broker primitives) anyRun .empty c
      ∧ (c.world.corruptAt primitives (slot 11)
        ∧ .replied 1000 .reconcile (failed .ledgerCorrupt) ∈ c.world.trace) :=
    Service.Reach.exists_of_play anyCheck
      (starts ++ asks 1000 (.claim (Sample.idOf .instance_ 1) (Sample.idOf .operation 2) 7
        ⟨.denied, [], [], ⟨List.replicate 32 8, rfl⟩, by decide, by decide⟩) 11
        ++ asks 1000 .reconcile 0) anyCheck_le (by decide +kernel)
  obtain ⟨c, hreach, hcorrupt, hreply⟩ := hrun
  refine ⟨c, hreach, fun hreadable => hreadable.legible (slot 11) ?_, hreply⟩
  unfold World.corruptAt at hcorrupt
  split at hcorrupt
  · assumption
  · cases hcorrupt

end Soma.Netd
