import Soma.Netd.Daemon

/-! # What each program touches

* **`Scope`** says what a program may touch: the bundles whose kernel objects it changes, the conntrack
  zones it flushes, the ledger records it writes, and the events it causes.
* **File actions** are inverted once each (`exec_create`, `exec_link`, …).
* **`Frame p w w'`**: between `w` and `w'` nothing outside `p` changed. Every action within a scope keeps
  the frame (`exec_frame`), so every program within it does (`safe_of_within`).
* One lemma per program says what scope it needs.
-/

namespace Soma.Netd

open Soma.Codec Soma.Lib Soma.Guest Prog Act All

structure Scope where
  bundle : Slot → Prop
  zone : ConntrackZone → Prop
  record : Kind → Slot → Prop
  event : Event → Prop

def FileName.isTemp : FileName → Bool
  | .record .. => false
  | .temp .. => true

/-- What an action may do within a scope. Files are only ever changed through their temporaries. -/
def Act.Within (p : Scope) : Act → Prop
  | .create file => p.record file.kind file.slot ∧ file.isTemp
  | .write file _ => p.record file.kind file.slot ∧ file.isTemp
  | .remove file => p.record file.kind file.slot ∧ file.isTemp
  | .link _ target => p.record target.kind target.slot
  | .kernel slot op => p.bundle slot ∧ ∀ receipt, op = .forwardingOn receipt → p.event (.forwarded slot receipt)
  | .flushZone _ zone => p.zone zone
  | .sendTap peer slot => p.event (.handed peer slot)
  | .reply peer request answer => p.event (.replied peer request answer)
  | .prepared slot leases zone => ∀ epoch, p.event (.prepared epoch slot leases zone)
  | .issued slot activation => p.event (.issued slot activation)
  | .settled slot => p.event (.settled slot)
  | _ => True

/-- A preparation is logged under the epoch of its process. -/
def Event.At (epoch : ℕ) : Event → Prop
  | .prepared e _ _ _ => e = epoch
  | _ => True

/-- Nothing outside the scope changed. -/
structure Frame (p : Scope) (w w' : World) : Prop where
  kernel : ∀ short, (∀ slot, p.bundle slot → slot.short ≠ short) → w'.kernel short = w.kernel short
  flushed : ∀ zone, ¬ p.zone zone → w'.flushed zone = w.flushed zone
  files : ∀ file, ¬ p.record file.kind file.slot → w'.file file = w.file file
  records : ∀ kind slot bytes, w.file (.record kind slot) = some bytes →
    w'.file (.record kind slot) = some bytes
  trace : ∃ events, w'.trace = events ++ w.trace ∧ ∀ event ∈ events, p.event event ∧ event.At w.epoch
  epoch : w'.epoch = w.epoch
  drawn : ∀ id ∈ w.drawn, id ∈ w'.drawn

variable {leases : LeasePair}

namespace Frame

variable {p : Scope} {w w₁ w₂ : World}

theorem refl (p : Scope) (w : World) : Frame p w w :=
  ⟨fun _ _ => rfl, fun _ _ => rfl, fun _ _ => rfl, fun _ _ _ h => h, ⟨[], rfl, by simp⟩, rfl, fun _ h => h⟩

theorem trans (h₁ : Frame p w w₁) (h₂ : Frame p w₁ w₂) : Frame p w w₂ where
  kernel short hs := (h₂.kernel short hs).trans (h₁.kernel short hs)
  flushed zone hz := (h₂.flushed zone hz).trans (h₁.flushed zone hz)
  files file hf := (h₂.files file hf).trans (h₁.files file hf)
  records kind slot bytes h := h₂.records kind slot bytes (h₁.records kind slot bytes h)
  trace := by
    obtain ⟨es₁, ht₁, he₁⟩ := h₁.trace
    obtain ⟨es₂, ht₂, he₂⟩ := h₂.trace
    refine ⟨es₂ ++ es₁, by rw [ht₂, ht₁, List.append_assoc], fun event hevent => ?_⟩
    rw [h₁.epoch] at he₂
    exact (List.mem_append.mp hevent).elim (he₂ event) (he₁ event)
  epoch := h₂.epoch.trans h₁.epoch
  drawn id h := h₂.drawn id (h₁.drawn id h)

variable {event : Event}

theorem mem_trace (h : Frame p w w₁) (hmem : event ∈ w.trace) : event ∈ w₁.trace := by
  obtain ⟨es, ht, -⟩ := h.trace
  rw [ht]
  exact List.mem_append_right _ hmem

theorem of_mem_trace (h : Frame p w w₁) (hmem : event ∈ w₁.trace) : event ∈ w.trace ∨ p.event event := by
  obtain ⟨es, ht, he⟩ := h.trace
  rw [ht] at hmem
  exact (List.mem_append.mp hmem).symm.imp_right fun h => (he event h).1

theorem epoch_of_mem_trace (h : Frame p w w₁) {epoch : ℕ} {slot : Slot} {zone : ConntrackZone}
    (hmem : .prepared epoch slot leases zone ∈ w₁.trace) :
    .prepared epoch slot leases zone ∈ w.trace ∨ epoch = w.epoch := by
  obtain ⟨es, ht, he⟩ := h.trace
  rw [ht] at hmem
  exact (List.mem_append.mp hmem).symm.imp_right fun h => (he (.prepared epoch slot leases zone) h).2

end Frame

namespace World

variable {w : World} {name file : FileName} {bytes : List UInt8}

@[simp] theorem file_setFile : (w.setFile name bytes).file file = if file = name then some bytes else w.file file := by
  unfold setFile World.file
  split_ifs with h
  · rw [h, AList.lookup_insert]
  · rw [AList.lookup_insert_ne h]

@[simp] theorem file_removeFile : (w.removeFile name).file file = if file = name then none else w.file file := by
  unfold removeFile World.file
  split_ifs with h
  · rw [h, AList.lookup_erase]
  · rw [AList.lookup_erase_ne h]

end World

namespace Frame

variable {p : Scope} {w : World}

theorem setFile {file : FileName} (hrecord : p.record file.kind file.slot) (hnew : file.isTemp ∨ w.file file = none)
    (bytes : List UInt8) : Frame p w (w.setFile file bytes) where
  __ := refl p w
  files other hother := by
    rw [World.file_setFile, if_neg]
    rintro rfl
    exact hother hrecord
  records kind slot content h := by
    rw [World.file_setFile, if_neg, h]
    rintro rfl
    rcases hnew with hnew | hnew
    · cases hnew
    · rw [h] at hnew
      cases hnew

theorem removeTemp {file : FileName} (hrecord : p.record file.kind file.slot) (htemp : file.isTemp) :
    Frame p w (w.removeFile file) where
  __ := refl p w
  files other hother := by
    rw [World.file_removeFile, if_neg]
    rintro rfl
    exact hother hrecord
  records kind slot content h := by
    rw [World.file_removeFile, if_neg, h]
    rintro rfl
    cases htemp

theorem setKernel {slot : Slot} (hbundle : p.bundle slot) (k : BundleKernel) :
    Frame p w (w.setKernel slot.short k) where
  __ := refl p w
  kernel _ h := Function.update_of_ne (h slot hbundle).symm _ _

theorem flush {zone : ConntrackZone} (hzone : p.zone zone) (n : ℕ) :
    Frame p w { w with flushed := Function.update w.flushed zone n } where
  __ := refl p w
  flushed other hother := by
    refine Function.update_of_ne ?_ _ _
    rintro rfl
    exact hother hzone

theorem log {event : Event} (hevent : p.event event) (hat : event.At w.epoch) : Frame p w (w.log event) where
  __ := refl p w
  trace := ⟨[event], rfl, by simpa using ⟨hevent, hat⟩⟩

theorem draw (id : BundleId) : Frame p w { w with drawn := id :: w.drawn } where
  __ := refl p w
  drawn _ h := List.mem_cons_of_mem _ h

end Frame

/-! ## File actions -/

section actions

variable {w w' : World} {file : FileName} {bytes : List UInt8}

theorem exec_exists {e r : Bool} (h : exec (.exists_ file) e w = some (r, w')) :
    r = (!e && (w.file file).isSome) ∧ w' = w := by
  cases h
  exact ⟨rfl, rfl⟩

variable {e : Option ℤ} {r : Except IoError Unit}

theorem exec_create (h : exec (.create file) e w = some (r, w')) :
    (∃ error, r = .error error ∧ (error = .alreadyExists → (w.file file).isSome) ∧ w' = w) ∨
      r = .ok () ∧ w.file file = none ∧ w' = w.setFile file [] := by
  rcases e with _ | errno
  · simp only [exec] at h
    split_ifs at h with hfile
    · cases h
      exact .inl ⟨_, rfl, fun _ => hfile, rfl⟩
    · cases h
      exact .inr ⟨rfl, by simpa using hfile, rfl⟩
  · cases h
    exact .inl ⟨_, rfl, nofun, rfl⟩

theorem exec_write {e : Option (ℤ × ℕ)} (h : exec (.write file bytes) e w = some (r, w')) :
    ∃ content, w' = w.setFile file content ∧ (r = .ok () → content = bytes)
      ∧ r ≠ .error .alreadyExists := by
  rcases e with _ | ⟨errno, arrived⟩
  · cases h
    exact ⟨bytes, rfl, fun _ => rfl, nofun⟩
  · cases h
    exact ⟨_, rfl, nofun, nofun⟩

theorem exec_sync (h : exec (.sync file) e w = some (r, w')) : w' = w ∧ r ≠ .error .alreadyExists := by
  rcases e with _ | errno <;> cases h <;> exact ⟨rfl, nofun⟩

theorem exec_syncDir (h : exec .syncDir e w = some (r, w')) : w' = w ∧ r ≠ .error .alreadyExists := by
  rcases e with _ | errno <;> cases h <;> exact ⟨rfl, nofun⟩

theorem exec_link {source target : FileName} (h : exec (.link source target) e w = some (r, w')) :
    (∃ error, r = .error error ∧ (error = .alreadyExists → (w.file target).isSome) ∧ w' = w) ∨
      ∃ content, r = .ok () ∧ w.file source = some content ∧ w.file target = none
        ∧ w' = w.setFile target content := by
  rcases e with _ | errno
  · simp only [exec] at h
    split at h
    · cases h
      exact .inl ⟨_, rfl, nofun, rfl⟩
    · next content hsource =>
      split_ifs at h with htarget
      · cases h
        exact .inl ⟨_, rfl, fun _ => htarget, rfl⟩
      · cases h
        exact .inr ⟨content, rfl, hsource, by simpa using htarget, rfl⟩
  · cases h
    exact .inl ⟨_, rfl, nofun, rfl⟩

theorem exec_remove (h : exec (.remove file) e w = some (r, w')) : w' = w ∨ e = none ∧ w' = w.removeFile file := by
  rcases e with _ | errno
  · cases h
    exact .inr ⟨rfl, rfl⟩
  · cases h
    exact .inl rfl

theorem exec_read {r : Except Error (List UInt8)} (h : exec (.read file) e w = some (r, w')) :
    w' = w ∧ r ≠ .error .ledgerCorrupt ∧ ∀ content, r = .ok content →
      ∃ bytes, w.file file = some bytes ∧ content = bytes.take (AssignmentRecord.MAX_RECORD + 1) := by
  rcases e with _ | errno
  · simp only [exec] at h
    split at h
    · cases h
      exact ⟨rfl, nofun, nofun⟩
    · next bytes hfile =>
      cases h
      refine ⟨rfl, nofun, fun content hcontent => ⟨bytes, hfile, ?_⟩⟩
      cases hcontent
      rfl
  · cases h
    exact ⟨rfl, nofun, nofun⟩

theorem exec_readDir {r : Except Error (List FileName)} (h : exec .readDir e w = some (r, w')) :
    w' = w ∧ r ≠ .error .ledgerCorrupt ∧ ∀ names, r = .ok names →
      ∀ name ∈ names, (w.file name).isSome := by
  rcases e with _ | errno
  · cases h
    refine ⟨rfl, nofun, ?_⟩
    intro names hnames name hname
    cases hnames
    exact AList.lookup_isSome.mpr hname
  · cases h
    exact ⟨rfl, nofun, nofun⟩

end actions

/-! ## One action -/

variable {p : Scope} {w w' : World}

theorem exec_kernel_frame {slot : Slot} {op : KernelOp} {e : Option (Error × Bool)} {r : Except Error Bool}
    (hbundle : p.bundle slot) (hevent : ∀ receipt, op = .forwardingOn receipt → p.event (.forwarded slot receipt))
    (h : exec (.kernel slot op) e w = some (r, w')) : Frame p w w' := by
  unfold exec at h
  simp only at h
  split_ifs at h with hpin
  · cases h
    exact .refl p w
  · cases h
    have hchange : Frame p w (w.change slot op e) := by
      rcases e with _ | ⟨error, _ | _⟩
      · exact .setKernel hbundle _
      · exact .refl p w
      · exact .setKernel hbundle _
    cases op with
    | forwardingOn receipt => exact hchange.trans (.log (hevent receipt rfl) trivial)
    | _ => exact hchange

/-- **What one action changes.** -/
theorem exec_frame {a : Act} {e : Choice a} {r : Answer a} (ha : a.Within p) (h : exec a e w = some (r, w')) :
    Frame p w w' := by
  cases a with
  | kernel slot op => exact exec_kernel_frame ha.1 ha.2 h
  | create file =>
    rcases exec_create h with ⟨error, -, -, rfl⟩ | ⟨-, -, rfl⟩
    · exact .refl p w'
    · exact .setFile ha.1 (.inl ha.2) _
  | write file bytes =>
    obtain ⟨content, rfl, -⟩ := exec_write h
    exact .setFile ha.1 (.inl ha.2) _
  | link source target =>
    rcases exec_link h with ⟨error, -, -, rfl⟩ | ⟨content, -, -, htarget, rfl⟩
    · exact .refl p w'
    · exact .setFile ha (.inr htarget) _
  | remove file =>
    rcases exec_remove h with rfl | ⟨-, rfl⟩
    · exact .refl p w'
    · exact .removeTemp ha.1 ha.2
  | flushZone slot zone =>
    rcases e with _ | ⟨error, changed⟩
    · cases h
      exact .flush ha _
    · cases changed
      · cases h
        exact .refl p w
      · cases h
        exact .flush ha _
  | freshId =>
    rcases e with error | id
    · cases h
      exact .refl p w
    · cases h
      exact .draw id
  | prepared slot leases zone =>
    cases h
    exact .log (ha _) rfl
  | sendTap | reply | issued | settled =>
    cases h
    exact .log ha trivial
  | sync file => exact (exec_sync h).1 ▸ .refl p w
  | syncDir => exact (exec_syncDir h).1 ▸ .refl p w
  | read file => exact (exec_read h).1 ▸ .refl p w
  | readDir => exact (exec_readDir h).1 ▸ .refl p w
  | query slot query => rcases e with _ | error <;> cases h <;> exact .refl p w
  | _ =>
    cases h
    exact .refl p w

variable {α : Type}

/-- A program that acts within a scope keeps the frame at every point. -/
theorem safe_of_within {prog : Op α} {allow : (a : Act) → Choice a → World → Prop} {w : World}
    (hall : prog.All (Within p)) : prog.Safe exec allow (Frame p w) (fun _ => Frame p w) w :=
  Safe.of_all hall (fun _ _ _ _ _ ha hC hexec _ => hC.trans (exec_frame ha hexec)) (.refl p w)

/-! ## The ledger -/

/-- A program that may stop early acts within a scope. -/
abbrev Stays (p : Scope) (prog : ExceptT ε Op α) : Prop :=
  prog.run.All (Within p)

section programs

variable {p : Scope}

theorem perform_within {a : Act} (h : a.Within p) : (perform a).All (Within p) :=
  all_call h

variable {pid : ℕ} {slot : Slot}

theorem writeTemp_within {kind : Kind} {bytes : List UInt8} (h : p.record kind slot) :
    Stays p (writeTemp (.temp pid kind slot) bytes) :=
  andThen (perform_within ⟨h, rfl⟩) fun _ =>
    andThen (perform_within ⟨h, rfl⟩) fun _ => perform_within trivial

theorem publish_within {kind : Kind} {bytes : List UInt8} (h : p.record kind slot) :
    (publish pid kind slot bytes).All (Within p) := by
  have hlink : (perform (.link (.temp pid kind slot) (.record kind slot))).All (Within p) :=
    perform_within h
  refine (andThen (writeTemp_within h) fun _ => hlink).bind fun result => ⟨⟨h, rfl⟩, fun _ => ?_⟩
  cases result with
  | error error => trivial
  | ok _ => exact perform_within trivial

variable {prims : Primitives}

theorem readRecord_within {file : FileName} : Stays p (readRecord prims file) :=
  andThen (perform_within trivial) fun _ => trivial

theorem lookup_within : Stays p (lookup prims slot) := by
  refine ⟨trivial, fun found => ?_⟩
  cases found with
  | false => trivial
  | true => exact andThen readRecord_within fun _ => ⟨trivial, fun _ => trivial⟩

theorem readEntries_within {files : List FileName} : Stays p (readEntries prims files) := by
  induction files with
  | nil => trivial
  | cons file files ih =>
    refine andThen readRecord_within fun _ => ⟨trivial, fun _ => ?_⟩
    exact andThen ih fun _ => trivial

theorem entries_within : Stays p (entries prims) :=
  andThen (perform_within trivial) fun _ => readEntries_within

variable {record : AssignmentRecord}

theorem recordAssignment_within (h : p.record .assigned record.slot) :
    Stays p (recordAssignment prims pid record) := by
  refine (publish_within h).bind fun result => ?_
  rcases result with (_ | errno) | _
  · refine andThen readRecord_within fun existing => ?_
    split_ifs <;> trivial
  · trivial
  · trivial

theorem recordRelease_within (h : p.record .released slot) : Stays p (recordRelease pid slot) := by
  refine ⟨trivial, fun found => ?_⟩
  cases found with
  | false => trivial
  | true =>
    refine (publish_within h).bind fun result => ?_
    rcases result with (_ | errno) | _ <;> trivial

/-! ## Bundles -/

variable {op : KernelOp} {query : KernelQuery}

theorem ask_within : Stays p (ask slot query) :=
  perform_within trivial

theorem step_within {failure : Option Error} {run : Fallible StepResult} (h : Stays p run) :
    (step failure run).All (Within p) := by
  refine h.bind fun result => ?_
  cases result <;> trivial

section

variable {f : Bool → Fallible α} (h : p.bundle slot)
  (hevent : ∀ receipt, op = .forwardingOn receipt → p.event (.forwarded slot receipt))
include h hevent

theorem kernel_within : Stays p (kernel slot op) :=
  perform_within ⟨h, hevent⟩

theorem kernel_then (hf : ∀ x, Stays p (f x)) : Stays p (kernel slot op >>= f) :=
  andThen (kernel_within h hevent) hf

theorem deleteTable_within : Stays p (deleteTable slot query op) := by
  refine andThen ask_within fun found => ?_
  cases found with
  | false => trivial
  | true => exact andThen (kernel_within h hevent) fun _ => trivial

end

theorem forwardingStep_within (h : p.bundle slot) : Stays p (forwardingStep slot) := by
  refine ⟨trivial, fun found => ?_⟩
  cases found with
  | false => trivial
  | true =>
    exact kernel_then h nofun fun _ =>
      kernel_then h nofun fun _ => trivial

theorem unpin_within (h : p.bundle slot) : Stays p (unpin slot) := by
  refine ⟨trivial, fun found => ?_⟩
  cases found with
  | false => trivial
  | true =>
    exact kernel_then h nofun fun _ =>
      kernel_then h nofun fun _ => trivial

theorem inspect_within : Stays p (inspect slot) := by
  refine ⟨trivial, fun found => ?_⟩
  cases found with
  | true => trivial
  | false =>
    refine andThen ask_within fun found => ?_
    cases found with
    | true => trivial
    | false =>
      refine andThen ask_within fun found => ?_
      cases found with
      | true => trivial
      | false =>
        refine andThen ask_within fun found => ?_
        cases found <;> trivial

variable {zone : ConntrackZone} {reservations : List PortReservation}

theorem teardown_within {tap : Bool} (h : p.bundle slot)
    (hzone : p.zone zone) : (teardown slot zone tap reservations).All (Within p) := by
  have hpublication : Stays p (deleteTable slot .publicationTable .deletePublication) :=
    deleteTable_within h nofun
  have hflush : ExceptT.run (do
      attempt (perform (.flushZone slot zone))
      return StepResult.removed) |>.All (Within p) :=
    andThen (perform_within hzone) fun _ => trivial
  have hveth : ExceptT.run (do
      return removed (← kernel slot .deleteHostVeth)) |>.All (Within p) :=
    kernel_then h nofun fun _ => trivial
  have hhost : Stays p (deleteTable slot .hostTable .deleteHostTable) :=
    deleteTable_within h nofun
  refine (step_within hpublication).bind fun _ => ?_
  refine (step_within (forwardingStep_within h)).bind fun _ => ?_
  refine (step_within hflush).bind fun _ => ?_
  refine (step_within hveth).bind fun _ => ?_
  refine (step_within (unpin_within h)).bind fun _ => ?_
  refine (step_within hhost).bind fun _ => ?_
  exact (step_within inspect_within).bind fun _ => trivial

theorem settle_within {evidence : ReleaseEvidence} (hrecord : p.record .released slot)
    (hevent : p.event (.settled slot)) : (settle pid slot evidence).All (Within p) := by
  unfold settle
  split_ifs
  · refine ⟨hevent, fun _ => (recordRelease_within hrecord).bind fun result => ?_⟩
    cases result <;> trivial
  · trivial

variable {bundle : SterileBundle}

theorem releaseSterile_within (h : p.bundle bundle.slot)
    (hzone : p.zone bundle.zone) (hrecord : p.record .released bundle.slot)
    (hevent : p.event (.settled bundle.slot)) : (releaseSterile pid bundle reservations).All (Within p) :=
  (teardown_within h hzone).bind fun _ => settle_within hrecord hevent

theorem releaseRecord_within (h : p.bundle record.slot) (hzone : p.zone record.zone)
    (hrecord : p.record .released record.slot) (hevent : p.event (.settled record.slot)) :
    (releaseRecord pid record).All (Within p) :=
  (teardown_within h hzone).bind fun _ => settle_within hrecord hevent

/-! ## Preparation and assignment -/

theorem createNamespace_within (h : p.bundle slot) : Stays p (createNamespace slot) := by
  refine kernel_then h nofun fun _ => ?_
  refine andThen ?_ fun _ => kernel_then h nofun fun _ => trivial
  refine bind (kernel_within h nofun) fun result => ?_
  cases result with
  | ok _ => trivial
  | error error => exact bind (kernel_within h nofun) fun _ => trivial

theorem build_within {profile : NetworkProfile} (h : p.bundle slot) :
    Stays p (build prims profile slot leases zone) :=
  kernel_then h nofun fun _ =>
  kernel_then h nofun fun _ =>
  kernel_then h nofun fun _ =>
  kernel_then h nofun fun _ =>
  kernel_then h nofun fun _ =>
  kernel_then h nofun fun _ =>
  kernel_then h nofun fun _ =>
  kernel_then h nofun fun _ => trivial

theorem nowNanos_within : Stays p nowNanos := by
  refine andThen (perform_within trivial) fun nanos => ?_
  split_ifs <;> trivial

theorem reserve_within {publications : List PortPublication} : Stays p (reserve publications) := by
  induction publications with
  | nil => trivial
  | cons publication publications ih =>
    exact andThen (perform_within trivial) fun _ => andThen ih fun _ => trivial

variable {owner : U32} {request : ClaimRequest}

theorem recordClaim_within {broker : Broker} (h : p.record .assigned bundle.slot) :
    Stays p (recordClaim prims broker bundle owner request) := by
  refine andThen nowNanos_within fun nanos => ?_
  refine andThen (recordAssignment_within h) fun outcome => ?_
  cases outcome with
  | recorded => trivial
  | replayed => exact andThen lookup_within fun _ => trivial

theorem tryAssign_within {broker : Broker} (hrecord : p.record .assigned bundle.slot) (h : p.bundle bundle.slot)
    (hevent : ∀ challenge, p.event (.issued bundle.slot challenge)) :
    Stays p (tryAssign prims broker bundle owner request) := by
  refine andThen (recordClaim_within hrecord) fun record => ?_
  refine andThen reserve_within fun reservations => ?_
  refine andThen trivial fun published => ?_
  refine kernel_then h nofun fun _ => ?_
  split
  · trivial
  · refine andThen (perform_within trivial) fun activation => ?_
    exact ⟨hevent activation, fun _ => trivial⟩

/-! ## Requests -/

theorem require_within {holds : Bool} {drift : Drift} : Stays p (require holds drift) := by
  unfold require
  split_ifs <;> trivial

theorem asked_within {drift : Drift} {test : Bool → Bool} {f : Unit → Fallible α} (hf : Stays p (f ())) :
    Stays p (do let x ← ask slot query; require (test x) drift >>= f) :=
  andThen ask_within fun _ => andThen require_within fun _ => hf

theorem verify_within : Stays p (verify slot) := by
  refine ⟨trivial, fun _ => andThen require_within fun _ => ?_⟩
  refine asked_within ?_
  refine asked_within ?_
  refine asked_within ?_
  refine asked_within ?_
  refine asked_within ?_
  refine asked_within ?_
  refine asked_within ?_
  refine asked_within ?_
  exact andThen ask_within fun _ => require_within

theorem install_within {published : List PublishedPort} (h : p.bundle slot) :
    Stays p (install slot published) := by
  have hpublish : ExceptT.run (do
      let _ ← kernel slot (.applyPublication published)) |>.All (Within p) :=
    kernel_then h nofun fun _ => trivial
  unfold install
  split_ifs
  · trivial
  · exact kernel_then h nofun fun _ => hpublish
  · exact hpublish

variable {assigned : Assigned} {receipt : ActivationReceipt}

theorem raise_within (h : p.bundle assigned.bundle.slot)
    (hevent : p.event (.forwarded assigned.bundle.slot receipt)) :
    Stays p (raise assigned receipt) := by
  refine andThen verify_within fun _ => ?_
  refine kernel_then h (by rintro _ ⟨⟩) fun _ => ?_
  refine kernel_then h (by rintro _ ⟨⟩) fun _ => ?_
  refine kernel_then h (by rintro _ ⟨⟩) fun _ => ?_
  refine kernel_then h (by rintro _ ⟨⟩) fun _ => ?_
  refine kernel_then h (by rintro _ ⟨⟩) fun _ => ?_
  refine andThen (kernel_within h ?_) fun _ => install_within h
  intro other heq
  cases heq
  exact hevent

theorem activate_within (h : p.bundle assigned.bundle.slot)
    (hevent : ∀ challenge, assigned.activation = some challenge →
      assigned.record.authenticates prims challenge receipt → p.event (.forwarded assigned.bundle.slot receipt)) :
    (activate prims assigned receipt).All (Within p) := by
  unfold activate
  split
  · trivial
  · next challenge hchallenge =>
    simp only
    split
    · trivial
    · next scope hscope =>
      split_ifs with hverify
      · have hauth : assigned.record.authenticates prims challenge receipt := by
          rw [AssignmentRecord.authenticates, hscope]
          exact hverify
        refine bind (raise_within h (hevent challenge hchallenge hauth)) fun result => ?_
        cases result <;> trivial
      · trivial

theorem deliverDescriptor_within {peer : U32}
    (hevent : ∀ challenge, assigned.activation = some challenge → p.event (.handed peer assigned.record.slot)) :
    Stays p (deliverDescriptor peer assigned) := by
  unfold deliverDescriptor
  split
  · trivial
  · next challenge hchallenge =>
    exact andThen (perform_within (hevent challenge hchallenge)) fun _ => trivial

theorem reconcile_within : Stays p (reconcile prims) :=
  andThen (perform_within trivial) fun _ =>
  andThen (perform_within trivial) fun _ =>
  andThen (perform_within trivial) fun _ =>
  andThen entries_within fun _ => trivial

end programs

end Soma.Netd
