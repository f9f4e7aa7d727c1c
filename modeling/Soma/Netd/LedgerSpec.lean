import Soma.Netd.Footprint

/-! # What the ledger programs do

* **`publish_spec`**: at every point the record is as it was or has the published content; it has that
  content when publishing succeeds, and is as it was when something already existed.
* **`recordClaim_spec`**, **`lookup_spec`** and **`entries_spec`** say what the programs over it answer.
-/

namespace Soma.Netd

open Soma.Codec Soma.Lib Soma.Guest Prog

/-! ## Publishing -/

variable {allow : (a : Act) → Choice a → World → Prop}

/-- The record is as it was, or was published with `bytes`. -/
def Published (kind : Kind) (slot : Slot) (bytes : List UInt8) (w₀ w : World) : Prop :=
  w.file (.record kind slot) = w₀.file (.record kind slot) ∨ w.file (.record kind slot) = some bytes

variable {pid : ℕ} {slot : Slot} {w : World}

theorem writeTemp_spec {temp : FileName} {bytes : List UInt8} :
    (writeTemp temp bytes).run.Safe exec allow (fun w' => ∀ file, file ≠ temp → w'.file file = w.file file)
      (fun r w' => (r = .ok () → w'.file temp = some bytes)
        ∧ (r = .error .alreadyExists → (w.file temp).isSome ∧ ∃ e, allow (.create temp) e w)) w := by
  refine safe_act (fun _ _ => rfl) fun e r w₁ hexec hallow => ?_
  rcases exec_create hexec with ⟨error, rfl, hexists, rfl⟩ | ⟨rfl, -, rfl⟩
  · refine safe_ret (fun _ _ => rfl) ⟨nofun, fun h => ⟨hexists ?_, e, hallow⟩⟩
    cases h
    rfl
  refine safe_act (fun file hne => by simp [hne]) fun e r w₂ hexec _ => ?_
  obtain ⟨content, rfl, hcontent, hnew⟩ := exec_write hexec
  have hframe : ∀ file, file ≠ temp →
      ((w.setFile temp []).setFile temp content).file file = w.file file := fun file hne => by simp [hne]
  cases r with
  | error error => exact safe_ret hframe ⟨nofun, fun h => (hnew (by cases h; rfl)).elim⟩
  | ok _ =>
    obtain rfl := hcontent rfl
    refine safe_act hframe fun e r w₃ hexec _ => ?_
    obtain ⟨rfl, hnew⟩ := exec_sync hexec
    cases r with
    | error error => exact safe_ret hframe ⟨nofun, fun h => (hnew (by cases h; rfl)).elim⟩
    | ok _ => exact safe_ret hframe ⟨fun _ => by simp, nofun⟩

theorem publish_spec {kind : Kind} {bytes : List UInt8} :
    (publish pid kind slot bytes).Safe exec allow (Published kind slot bytes w)
      (fun r w' => (r = .ok () → w'.file (.record kind slot) = some bytes)
        ∧ (r = .error .alreadyExists → w'.file (.record kind slot) = w.file (.record kind slot))) w := by
  -- up to the link
  have hlinked : ExceptT.run (do
      writeTemp (.temp pid kind slot) bytes
      attempt (perform (.link (.temp pid kind slot) (.record kind slot)))) |>.Safe exec allow
        (Published kind slot bytes w) (fun r w' =>
          (r = .ok () → w'.file (.record kind slot) = some bytes)
          ∧ ((∃ error, r = .error error) → w'.file (.record kind slot) = w.file (.record kind slot))) w := by
    refine Safe.andThen (P := fun r w' => (r = .ok () → w'.file (.temp pid kind slot) = some bytes)
      ∧ w'.file (.record kind slot) = w.file (.record kind slot))
      (writeTemp_spec.mono (fun w' h => .inl (h _ nofun)) fun r w' hC hP => ⟨hP.1, hC _ nofun⟩) ?_ ?_
    · intro _ w₁ hC hP
      refine safe_act hC fun e r w₂ hexec _ => ?_
      rcases exec_link hexec with ⟨error, rfl, -, rfl⟩ | ⟨content, rfl, hsource, -, rfl⟩
      · exact safe_ret hC ⟨nofun, fun _ => hP.2⟩
      · rw [hP.1 rfl] at hsource
        cases hsource
        refine safe_ret (.inr (by simp)) ⟨fun _ => by simp, ?_⟩
        rintro ⟨error, herror⟩
        cases herror
    · intro error w₁ _ hP
      exact ⟨nofun, fun _ => hP.2⟩
  refine hlinked.bind fun r w₁ hC hP => ?_
  refine safe_act hC fun e r' w₂ hexec _ => ?_
  have hsame : w₂.file (.record kind slot) = w₁.file (.record kind slot) := by
    rcases exec_remove hexec with rfl | ⟨-, rfl⟩
    · rfl
    · simp
  have hC₂ : Published kind slot bytes w w₂ := by
    unfold Published
    rw [hsame]
    exact hC
  cases r with
  | error error => exact safe_ret hC₂ ⟨nofun, fun _ => hsame.trans (hP.2 ⟨error, rfl⟩)⟩
  | ok _ =>
    refine safe_act hC₂ fun e r w₃ hexec _ => ?_
    obtain ⟨rfl, hr⟩ := exec_syncDir hexec
    exact safe_ret hC₂ ⟨fun _ => hsame.trans (hP.1 rfl), fun h => absurd h hr⟩

/-! ## Reading -/

/-- What the reader takes from a file. -/
def World.decoded (prims : Primitives) (w : World) (file : FileName) :
    Option (Except Error AssignmentRecord) :=
  (w.file file).map fun bytes =>
    AssignmentRecord.decode prims (bytes.take (AssignmentRecord.MAX_RECORD + 1))

variable {prims : Primitives}

theorem readRecord_spec {file : FileName} :
    (readRecord prims file).run.Safe exec allow (· = w)
      (fun r _ => (∀ record, r = .ok record → w.decoded prims file = some (.ok record))
        ∧ (r = .error .ledgerCorrupt → w.decoded prims file = some (.error .ledgerCorrupt))) w := by
  refine safe_act rfl fun e r w₁ hexec _ => ?_
  obtain ⟨rfl, hcorrupt, hread⟩ := exec_read hexec
  cases r with
  | error error =>
    refine safe_ret rfl ⟨nofun, fun h => (hcorrupt ?_).elim⟩
    cases h
    rfl
  | ok content =>
    obtain ⟨bytes, hfile, rfl⟩ := hread content rfl
    have hdecoded : w₁.decoded prims file =
        some (AssignmentRecord.decode prims (bytes.take (AssignmentRecord.MAX_RECORD + 1))) := by
      rw [World.decoded, hfile]
      rfl
    refine safe_ret rfl ⟨fun record hrecord => ?_, fun hrecord => ?_⟩ <;>
      exact hdecoded.trans (congrArg some hrecord)

theorem lookup_spec :
    (lookup prims slot).run.Safe exec allow (· = w)
      (fun r _ => (∀ entry, r = .ok entry →
          w.decoded prims (.record .assigned slot) = some (.ok entry.record))
        ∧ (r = .error .ledgerCorrupt →
          w.decoded prims (.record .assigned slot) = some (.error .ledgerCorrupt))) w := by
  refine safe_act rfl fun e r w₁ hexec _ => ?_
  obtain ⟨-, rfl⟩ := exec_exists hexec
  cases r with
  | false => exact safe_ret rfl ⟨nofun, nofun⟩
  | true =>
    refine Safe.andThen readRecord_spec ?_ ?_
    · rintro record _ rfl hP
      refine safe_act rfl fun e r w₂ hexec _ => ?_
      obtain ⟨-, rfl⟩ := exec_exists hexec
      refine safe_ret rfl ⟨fun entry hentry => ?_, nofun⟩
      cases hentry
      exact hP.1 record rfl
    · rintro error _ rfl hP
      refine ⟨nofun, fun h => hP.2 ?_⟩
      cases h
      rfl

theorem readEntries_spec {files : List FileName}
    (h : ∀ file ∈ files, w.decoded prims file ≠ some (.error .ledgerCorrupt)) :
    (readEntries prims files).run.Safe exec allow (· = w) (fun r _ => r ≠ .error .ledgerCorrupt) w := by
  induction files with
  | nil => exact safe_ret rfl nofun
  | cons file files ih =>
    refine Safe.andThen readRecord_spec ?_ ?_
    · rintro record _ rfl -
      refine safe_act rfl fun e r w₁ hexec _ => ?_
      obtain ⟨-, rfl⟩ := exec_exists hexec
      refine Safe.andThen (ih fun file hfile => h file (List.mem_cons_of_mem _ hfile)) ?_ ?_
      · rintro entries _ rfl -
        exact safe_ret rfl nofun
      · rintro error _ rfl hP herror
        cases herror
        exact hP rfl
    · rintro error _ rfl hP herror
      cases herror
      exact h file (List.mem_cons_self ..) (hP.2 rfl)

/-- The listing reads every file of the assigned kind, temporaries included. -/
theorem entries_spec (h : ∀ file, file.kind = .assigned → w.decoded prims file ≠ some (.error .ledgerCorrupt)) :
    (entries prims).run.Safe exec allow (· = w) (fun r _ => r ≠ .error .ledgerCorrupt) w := by
  refine safe_act rfl fun e r w₁ hexec _ => ?_
  obtain ⟨rfl, hcorrupt, -⟩ := exec_readDir hexec
  cases r with
  | error error =>
    refine safe_ret rfl fun herror => hcorrupt ?_
    cases herror
    rfl
  | ok names =>
    refine readEntries_spec fun file hfile => h file ?_
    rw [List.mem_insertionSort, List.mem_filter] at hfile
    simpa using hfile.2

/-! ## Recording a claim -/

theorem recordAssignment_spec {record : AssignmentRecord} (hnone : w.file (.record .assigned record.slot) = none) :
    (recordAssignment prims pid record).run.Safe exec allow
      (Published .assigned record.slot record.encode w)
      (fun r w' => ∀ outcome, r = .ok outcome →
        outcome = .recorded ∧ w'.file (.record .assigned record.slot) = some record.encode) w := by
  refine publish_spec.bind fun r w₁ hC hP => ?_
  rcases r with (_ | errno) | _
  · -- nothing was there, so the record it is compared with cannot be read
    have hnone₁ : w₁.decoded prims (.record .assigned record.slot) = none := by
      rw [World.decoded, hP.2 rfl, hnone]
      rfl
    refine Safe.andThen (readRecord_spec.weaken ?_) ?_ ?_
    · rintro _ rfl
      exact hC
    · intro existing w₂ _ hread
      rw [hnone₁] at hread
      cases hread.1 existing rfl
    · intro error w₂ _ _ outcome houtcome
      cases houtcome
  · exact safe_ret hC nofun
  · refine safe_ret hC fun outcome houtcome => ?_
    cases houtcome
    exact ⟨rfl, hP.1 rfl⟩

/-- The record of the bundle is as it was, or is the one this claim writes. -/
def Recorded (prims : Primitives) (broker : Broker) (bundle : SterileBundle) (owner : U32) (request : ClaimRequest)
    (w₀ w : World) : Prop :=
  w.file (.record .assigned bundle.slot) = w₀.file (.record .assigned bundle.slot)
    ∨ ∃ t, w.file (.record .assigned bundle.slot)
        = some (broker.recordOf prims bundle owner request t).encode

theorem recordClaim_spec {broker : Broker} {bundle : SterileBundle} {owner : U32} {request : ClaimRequest}
    (hnone : w.file (.record .assigned bundle.slot) = none) :
    (recordClaim prims broker bundle owner request).run.Safe exec allow
      (Recorded prims broker bundle owner request w)
      (fun r w' => ∀ record, r = .ok record →
        (∃ t, record = broker.recordOf prims bundle owner request t)
          ∧ w'.file (.record .assigned bundle.slot) = some record.encode) w := by
  have hclock : nowNanos.run.Safe exec allow (· = w) (fun _ _ => True) w := by
    refine safe_act rfl fun e r w₁ hexec _ => ?_
    cases hexec
    cases e with
    | error error => exact safe_ret rfl trivial
    | ok nanos =>
      change Safe exec allow _ _ (ExceptT.run (if nanos = 0 then throw _ else pure nanos)) w
      split_ifs <;> exact safe_ret rfl trivial
  refine Safe.andThen (hclock.mono ?_ fun _ _ h _ => h) ?_ ?_
  · rintro _ rfl
    exact .inl rfl
  · rintro nanos _ - rfl
    refine Safe.andThen ((recordAssignment_spec hnone).weaken ?_) ?_ ?_
    · rintro w₁ (h | h)
      · exact .inl h
      · exact .inr ⟨nanos, h⟩
    · intro outcome w₁ hC hP
      obtain ⟨rfl, hfile⟩ := hP outcome rfl
      refine safe_ret hC fun record hrecord => ?_
      cases hrecord
      exact ⟨⟨nanos, rfl⟩, hfile⟩
    · intro error w₁ _ _ record hrecord
      cases hrecord
  · intro error w₁ _ _ record hrecord
    cases hrecord

end Soma.Netd
