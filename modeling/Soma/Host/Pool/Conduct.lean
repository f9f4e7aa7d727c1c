import Soma.Host.Pool.Discipline

/-! # Every operation keeps the discipline

One lemma per subroutine: from what it starts with, it only performs actions it is entitled to,
whatever it is answered, and ends with what the lemma says. Nothing here looks at shared state; a
branch that the discipline knows to be impossible needs no argument.

The main result is `program_conduct`: every call starts and ends with nothing.
-/

namespace Soma.Host.Pool

open Soma.Lib Tenure

/-- Holding `ℓ`, the operation keeps the discipline and ends with `Q`. -/
abbrev Conduct {α : Type} (ℓ : Local) (p : Op α) (Q : α → Local → Prop) : Prop :=
  p.Obeys discipline Q ℓ

/-- Holding `ℓ`, the operation keeps the discipline and ends with what its answer says. -/
abbrev Ends {α : Type} (ℓ : Local) (p : Op α) (after : α → Local) : Prop :=
  Conduct ℓ p fun x ℓ' => ℓ' = after x

/-- The operation keeps the discipline and leaves what is held. -/
abbrev Keeps {α : Type} (ℓ : Local) (p : Op α) : Prop :=
  Ends ℓ p fun _ => ℓ

variable {ℓ : Local} {α : Type}

theorem Ends.bind {β : Type} {p : Op α} {after : α → Local} {k : α → Op β} {Q : β → Local → Prop}
    (h : Ends ℓ p after) (hk : ∀ x, Conduct (after x) (k x) Q) : Conduct ℓ (p >>= k) Q := by
  refine Prog.Obeys.bind h ?_
  rintro x _ rfl
  exact hk x

variable {a : Act} {Q : α → Local → Prop}

theorem Conduct.step {k : Answer a → Op α} (h : ℓ.Obeys a)
    (hk : ∀ r ℓ', ℓ.next a r = some ℓ' → Conduct ℓ' (k r) Q) : Conduct ℓ (perform a >>= k) Q :=
  ⟨h, hk⟩

theorem Conduct.last {Q : Answer a → Local → Prop} (h : ℓ.Obeys a) (hk : ∀ r ℓ', ℓ.next a r = some ℓ' → Q r ℓ') :
    Conduct ℓ (perform a) Q :=
  ⟨h, hk⟩

/-- What a thread holds outside of reconciliation, reclaiming and a pending start. -/
abbrev working (t : Tenure) (h : Option Capacity.Reservation) (c : Standing) (win : Window) : Local :=
  { tenure := t, held := h, standing := c, window := win }

/-- What a thread holds between the calls of an operation: at most a window. -/
abbrev resting (win : Window) : Local := working .idle none .idle win

/-! ### Records and replies -/

variable {r : Record}

theorem Record.outcome?_eq_none (h : r.kind ≠ .claiming) : r.outcome? = none := by
  simp [Record.outcome?, Record.claim?, h]

variable {c : Standing} {stored : Bool}

theorem Standing.appended_of_ne (h : r.kind ≠ .claiming) : c.appended r stored = c := by
  unfold Standing.appended
  rw [Record.outcome?_eq_none h]
  cases c <;> rfl

theorem Window.replied_true (c : Window) : c.replied true = c := by
  cases c <;> simp [Window.replied]

/-- A window that no teardown reply or record changes. -/
def Window.Quiet (c : Window) : Prop :=
  (∀ b, c.replied b = c) ∧ ∀ r b, c.appended r b = c

theorem Window.quiet_none : Window.none.Quiet :=
  ⟨fun _ => rfl, fun _ _ => rfl⟩

theorem Window.appended_of_ne {c : Window} (h : r.kind ≠ .destroying) : c.appended r stored = c := by
  cases c <;> simp [Window.appended, h]

variable {h : Option Capacity.Reservation} {win : Window} {t : Tenure} {stage : Stage} {w : Worker}

section

variable (hown : ownRecord r.kind = true)
include hown

theorem next_append (hclaim : r.kind ≠ .claiming) (answer : Except LedgerError Unit) :
    (working t h c win).next (.append r) answer =
      some (working (t.appended r answer.isOk) h c (win.appended r answer.isOk)) := by
  have hrunning : r.kind ≠ .running := by
    intro hk
    simp [hk, ownRecord] at hown
  simp [Local.next, next, Reclaim.next, heldNext, Standing.next, pendingNext, Recon.next, Window.next, Standing.appended_of_ne hclaim, hrunning, Recon.appended]

theorem obeys_append (hclaim : r.kind ≠ .claiming) (hwindow : win.obeys (.append r))
    (hwrite : (stage.write r.kind true).isSome) (hid : r.worker = w.id) (hgen : r.leaseGeneration = w.generation) :
    (working (.holds w stage) h c win).Obeys (.append r) := by
  have hne : r.kind ≠ .running ∧ r.kind ≠ .suspect ∧ r.kind ≠ .reconciled := by
    refine ⟨?_, ?_, ?_⟩ <;> rintro hk <;> simp [hk, ownRecord] at hown
  exact {
    tenure := fun _ => ⟨w, stage, rfl, hwrite, hid, hgen⟩
    held := trivial
    standing := fun hk => absurd hk hclaim
    pending := fun hk => absurd hk hne.1
    recon := ⟨fun hk => absurd hk hne.2.1, fun hk => absurd hk hne.2.2⟩
    window := hwindow
    reclaim := trivial }

end

theorem obeys_append_other (hown : ownRecord r.kind = false) (hpending : pendingObeys ℓ.pending (.append r))
    (hrecon : ℓ.recon.obeys (.append r)) : ℓ.Obeys (.append r) where
  tenure hk := by simp [hown] at hk
  held := trivial
  standing hk := by simp [hk, ownRecord] at hown
  pending := hpending
  recon := hrecon
  window hk := by simp [hk, ownRecord] at hown
  reclaim := trivial

theorem obeys_env (ℓ : Local) (query : Query) : ℓ.Obeys (.env query) :=
  ⟨trivial, trivial, trivial, trivial, trivial, trivial, trivial⟩

theorem Conduct.env {query : Query} {k : Answer (.env query) → Op α}
    (hk : ∀ reply, Conduct { ℓ with window := ℓ.window.next (.env query) reply } (k reply) Q) :
    Conduct ℓ (perform (.env query) >>= k) Q := by
  refine Conduct.step (obeys_env ℓ query) ?_
  rintro reply ℓ' ⟨⟩
  exact hk reply

theorem Conduct.append {k : Except LedgerError Unit → Op α}
    (hown : ownRecord r.kind = true) (hkind : r.kind ≠ .claiming ∧ r.kind ≠ .destroying)
    (hwindow : win.obeys (.append r)) (hwrite : (stage.write r.kind true).isSome) (hid : r.worker = w.id)
    (hgen : r.leaseGeneration = w.generation)
    (hk : ∀ answer, Conduct (working ((holds w stage).appended r answer.isOk) h c win) (k answer) Q) :
    Conduct (working (.holds w stage) h c win) (perform (.append r) >>= k) Q := by
  refine Conduct.step (obeys_append hown hkind.1 hwindow hwrite hid hgen) ?_
  intro answer ℓ' hnext
  rw [next_append hown hkind.1, Window.appended_of_ne hkind.2] at hnext
  cases hnext
  exact hk answer

variable {target : Phase}

theorem obeys_advance (hmove : (stage.move target).isSome) :
    (working (.holds w stage) h c win).Obeys (.advance w target w.generation) :=
  ⟨.inl ⟨stage, rfl, hmove, rfl⟩, trivial, trivial, trivial, trivial, trivial, trivial⟩

variable {after : Option Stage}

theorem next_advance {g : LeaseGeneration} {answer : Except StateRace Worker} {ℓ' : Local}
    (hmove : stage.move target = some after)
    (hnext : (working (.holds w stage) h c win).next (.advance w target g) answer = some ℓ') :
    ∃ w', answer = .ok w' ∧ w' = { w with phase := target, generation := g } ∧
      ℓ' = working (after.elim .idle (.holds w')) h c win := by
  cases answer with
  | error race => cases hnext
  | ok w' =>
    simp only [Local.next, next, moved] at hnext
    split_ifs at hnext with hw'
    · refine ⟨w', rfl, hw', ?_⟩
      rw [hmove] at hnext
      cases after <;> cases hnext <;> rfl
    · cases hnext

theorem Conduct.advance {k : Except StateRace Worker → Op α} (hmove : stage.move target = some after)
    (hk : ∀ w', w' = { w with phase := target } →
      Conduct (working (after.elim .idle (.holds w')) h c win) (k (.ok w')) Q) :
    Conduct (working (.holds w stage) h c win) (perform (.advance w target w.generation) >>= k) Q := by
  refine Conduct.step (obeys_advance (by simp [hmove])) ?_
  intro answer ℓ' hnext
  obtain ⟨w', rfl, hw', rfl⟩ := next_advance hmove hnext
  exact hk w' hw'

open Conduct

variable (ℓ)

theorem destroyProcess_conduct (handle : Option LauncherHandle) (identity : WorkerIdentity) :
    Ends ℓ (destroyProcess handle identity) fun outcome =>
      { ℓ with window := ℓ.window.replied outcome.complete } := by
  unfold destroyProcess
  split
  · refine last (obeys_env _ _) ?_
    rintro outcome ℓ' ⟨⟩
    rfl
  · split_ifs
    · refine last (obeys_env _ _) ?_
      rintro outcome ℓ' ⟨⟩
      rfl
    · simp [noProcess, Window.replied_true]

theorem releaseResources_conduct (resources : Resources) :
    Ends ℓ (releaseResources resources) fun released =>
      { ℓ with window := ℓ.window.replied released.complete } := by
  cases resources with
  | none => simp [releaseResources, noResources, Window.replied_true]
  | _ =>
    refine last (obeys_env _ _) ?_
    rintro released ℓ' ⟨⟩
    rfl

theorem releaseCapacity_conduct : Ends ℓ (releaseCapacity ℓ.held) fun _ => { ℓ with held := none } := by
  cases hheld : ℓ.held with
  | none =>
    obtain ⟨t, held, c, p, rc, win, rl⟩ := ℓ
    simp only at hheld
    subst hheld
    simp [releaseCapacity]
  | some reservation =>
    refine last ⟨trivial, hheld, trivial, trivial, trivial, trivial, trivial⟩ ?_
    rintro _ ℓ' ⟨⟩
    rfl

theorem capacityLaunched_conduct :
    Ends ℓ (capacityLaunched ℓ.held) fun reservation =>
      { ℓ with held := reservation } := by
  cases hheld : ℓ.held with
  | none =>
    obtain ⟨t, held, c, p, rc, win, rl⟩ := ℓ
    simp only at hheld
    subst hheld
    simp [capacityLaunched]
  | some reservation =>
    refine step ⟨trivial, hheld, trivial, trivial, trivial, trivial, trivial⟩ ?_
    rintro _ ℓ' ⟨⟩
    rfl

variable {ℓ}

/-! ### Teardown -/

section teardown

variable (setup : Setup) {h : Option Capacity.Reservation} {c : Standing} {win : Window}

theorem teardown_conduct (w : Worker) (handle : Option LauncherHandle) (identity : WorkerIdentity)
    (resources : Resources) (reason : DestroyReason) :
    Conduct (working (.holds w .closing) h c win) (teardown setup w handle identity resources reason)
      fun evidence ℓ' => ∃ r stored, r.kind = .destroying ∧
        ℓ' = working .idle h c (((win.appended r stored).replied evidence.destroyed.complete).replied
          evidence.released.complete) := by
  unfold teardown
  refine step (obeys_append rfl nofun nofun rfl rfl rfl) ?_
  intro opened ℓ₁ h₁
  rw [next_append rfl (by simp [Setup.record])] at h₁
  cases h₁
  refine (destroyProcess_conduct _ _ _).bind ?_
  intro destroyed
  refine (releaseResources_conduct _ _).bind ?_
  intro released
  refine append rfl ⟨nofun, nofun⟩ nofun rfl rfl rfl ?_
  intro closed
  refine advance rfl ?_
  rintro w' -
  exact ⟨{ setup.record .destroying w with detail := reason.code, identity := some identity },
    opened.isOk, rfl, rfl⟩

theorem teardown_quiet (hq : win.Quiet) (w : Worker) (handle : Option LauncherHandle) (identity : WorkerIdentity)
    (resources : Resources) (reason : DestroyReason) :
    Ends (working (.holds w .closing) h c win) (teardown setup w handle identity resources reason)
      fun _ => working .idle h c win := by
  refine (teardown_conduct setup w handle identity resources reason).mono ?_
  rintro evidence _ ⟨r, stored, -, rfl⟩
  rw [hq.2, hq.1, hq.1]

variable {stage : Stage} {w : Worker}

theorem destroyClaiming_conduct (hq : win.Quiet)
    (hstage : stage = .unrecorded ∨ stage = .claimed) {held : Holdings} (hheld : held.reservation = h)
    (reason : DestroyReason) :
    Ends (working (.holds w stage) h c win) (destroyClaiming setup w held reason)
      fun _ => working .idle none c win := by
  have hmove : stage.move .destroying = some (some .closing) := by
    rcases hstage with rfl | rfl <;> rfl
  subst hheld
  unfold destroyClaiming
  refine advance hmove ?_
  rintro w' -
  have hclose : Ends (working (.holds w' .closing) held.reservation c win)
      (closeClaiming setup held reason (.ok w'))
      fun _ => working .idle held.reservation c win :=
    (teardown_quiet setup hq w' _ _ _ _).bind fun _ => rfl
  refine hclose.bind ?_
  intro disposition
  exact (releaseCapacity_conduct (working .idle held.reservation c win)).bind fun _ => rfl

variable {owned : Owned}

theorem destroyOwned_conduct (hstage : stage = .assigned ∨ stage = .owned)
    (hw : owned.worker = w) (hheld : owned.reservation = h) (reason : DestroyReason) :
    Conduct (working (.holds w stage) h c win) (destroyOwned setup owned reason)
      fun evidence ℓ' => ∃ r stored, r.kind = .destroying ∧
        ℓ' = working .idle none c (((win.appended r stored).replied
          evidence.destroyed.complete).replied evidence.released.complete) := by
  have hmove : stage.move .destroying = some (some .closing) := by
    rcases hstage with rfl | rfl <;> rfl
  subst hw hheld
  unfold destroyOwned
  refine (releaseCapacity_conduct (working (.holds owned.worker stage) owned.reservation c win)).bind ?_
  intro _
  refine advance hmove ?_
  rintro w' -
  exact teardown_conduct setup w' _ _ _ _

theorem destroyOwned_quiet (hq : win.Quiet) (hstage : stage = .assigned ∨ stage = .owned) (hw : owned.worker = w) (hheld : owned.reservation = h) (reason : DestroyReason) :
    Ends (working (.holds w stage) h c win) (destroyOwned setup owned reason)
      fun _ => working .idle none c win := by
  refine (destroyOwned_conduct setup hstage hw hheld reason).mono ?_
  rintro evidence _ ⟨r, stored, -, rfl⟩
  rw [hq.2, hq.1, hq.1]

end teardown

/-! ### Construction -/

section construction

variable (setup : Setup) {h : Option Capacity.Reservation} {c : Standing} {win : Window} (hq : win.Quiet)
include hq

variable (w : Worker)

theorem failConstruction_conduct (handle : Option LauncherHandle) (sterile : Option SterileToken)
    (fault : ConstructionFault) :
    Ends (working (.holds w .constructing) h c win)
      (failConstruction setup w handle sterile fault) fun _ => working .idle h c win := by
  unfold failConstruction
  refine (destroyProcess_conduct _ _ _).bind ?_
  intro destroyed
  refine (releaseResources_conduct _ _).bind ?_
  intro released
  rw [hq.1, hq.1]
  refine append rfl ⟨nofun, nofun⟩ nofun rfl rfl rfl ?_
  intro recorded
  refine advance rfl ?_
  rintro w' -
  rfl

theorem publish_conduct (handle : LauncherHandle) (sterile : SterileToken) (refs : ResourceRefs) :
    Ends (working (.holds w .constructing) h c win) (publish setup w handle sterile refs)
      fun _ => working .idle h c win := by
  unfold publish
  refine append rfl ⟨nofun, nofun⟩ nofun rfl rfl rfl ?_
  intro recorded
  cases recorded with
  | error error => exact (failConstruction_conduct setup hq w _ _ _).bind fun _ => rfl
  | ok =>
    refine step ⟨⟨w, rfl, rfl⟩, trivial, trivial, trivial, trivial, trivial, trivial⟩ ?_
    rintro _ ℓ₂ ⟨⟩
    refine advance rfl ?_
    rintro w' -
    rfl

theorem constructParts_conduct :
    Ends (working (.holds w .constructing) h c win) (constructParts setup w)
      fun _ => working .idle h c win := by
  unfold constructParts
  refine env ?_
  intro constructed
  cases constructed with
  | error fault => exact (failConstruction_conduct setup hq w _ _ _).bind fun _ => rfl
  | ok handle =>
    refine env ?_
    intro prepared
    cases prepared with
    | error fault => exact (failConstruction_conduct setup hq w _ _ _).bind fun _ => rfl
    | ok parts =>
      refine env ?_
      intro late
      cases late with
      | true => exact (failConstruction_conduct setup hq w _ _ _).bind fun _ => rfl
      | false => exact publish_conduct setup hq w handle parts.1 parts.2

theorem constructReserved_conduct : Keeps (working .idle h c win) (constructReserved setup) := by
  unfold constructReserved
  refine step (by constructor <;> trivial) ?_
  rintro unreconciled ℓ₁ ⟨⟩
  cases unreconciled with
  | true => rfl
  | false =>
    refine step (by constructor <;> trivial) ?_
    rintro id ℓ₂ ⟨⟩
    refine step
      ⟨.inl ⟨rfl, rfl, rfl⟩, trivial, trivial, trivial, by simp [Recon.obeys, Recon.next], trivial, trivial⟩ ?_
    rintro (overloaded | slot) ℓ₃ ⟨⟩
    · rfl
    refine step ⟨⟨_, rfl, rfl⟩, trivial, trivial, trivial, trivial, trivial, trivial⟩ ?_
    intro w ℓ₄ h₄
    obtain ⟨rfl, rfl⟩ : w = ⟨slot, id, .constructing, LeaseGeneration.first⟩ ∧
        ℓ₄ = working (.holds w .opened) h c win := by
      simp only [Local.next, next] at h₄
      split_ifs at h₄ with hw
      · cases h₄
        exact ⟨hw, by rw [hw]; rfl⟩
      · cases h₄
    refine append rfl ⟨nofun, nofun⟩ nofun rfl rfl rfl ?_
    intro recorded
    cases recorded with
    | error error =>
      refine advance rfl ?_
      rintro w' -
      rfl
    | ok => exact constructParts_conduct setup hq _

theorem constructOne_conduct : Keeps (working .idle h c win) (constructOne setup) := by
  unfold constructOne
  refine step (by constructor <;> trivial) ?_
  rintro (current | ⟨⟩) ℓ₁ ⟨⟩
  · rfl
  refine (constructReserved_conduct setup hq).bind ?_
  intro result
  refine step (by constructor <;> trivial) ?_
  rintro _ ℓ₂ ⟨⟩
  rfl

end construction

/-! ### Claims -/

section claims

variable (setup : Setup) {h : Option Capacity.Reservation} {c : Standing} {win : Window}

/-- What a thread holds after it tried to claim a slot. -/
def wonTenure : Option Worker → Tenure
  | some worker => .holds worker .won
  | none => .idle

theorem tryClaim_conduct (slot : ℕ) :
    Ends (working .idle h c win) (tryClaim slot)
      fun won => working (wonTenure won) h c win := by
  unfold tryClaim
  refine step (by constructor <;> trivial) ?_
  rintro observed ℓ₁ ⟨⟩
  split_ifs with hphase
  · rfl
  cases hnext : observed.generation.next with
  | error error => rfl
  | ok generation =>
    refine step ⟨.inr ⟨rfl, by simpa using hphase, .inl ⟨rfl, hnext⟩⟩, trivial, trivial, trivial, trivial,
        trivial, trivial⟩ ?_
    rintro (race | worker) ℓ₂ ⟨⟩ <;> rfl

theorem firstClaim_conduct (slots : List ℕ) :
    Ends (working .idle h c win) (firstClaim slots)
      fun won => working (wonTenure won) h c win := by
  induction slots with
  | nil => rfl
  | cons slot slots ih =>
    unfold firstClaim
    refine (tryClaim_conduct slot).bind ?_
    rintro (_ | worker)
    · exact ih
    · rfl

theorem exhausted_conduct (ℓ : Local) : Keeps ℓ (exhausted setup) := by
  refine step (by constructor <;> trivial) ?_
  rintro occupancy ℓ₁ ⟨⟩
  rfl

/-- What a thread holds after it acquired a worker, or did not. -/
def acquiredTenure : Except ClaimError (Worker × ClaimClass) → Tenure
  | .ok won => .holds won.1 .won
  | .error _ => .idle

theorem claimConstructed_conduct (id : WorkerId) :
    Ends (working .idle h c win) (claimConstructed setup id)
      fun won => working (acquiredTenure won) h c win := by
  unfold claimConstructed
  refine step ⟨trivial, trivial, trivial, trivial, by simp [Recon.obeys], trivial, trivial⟩ ?_
  rintro found ℓ₁ ⟨⟩
  have htry : Ends (working .idle h c win) (tryClaimFound found) fun won => working (wonTenure won) h c win := by
    cases found with
    | none => rfl
    | some slot => exact tryClaim_conduct slot
  refine htry.bind ?_
  rintro (_ | worker)
  · exact (exhausted_conduct setup _).bind fun _ => rfl
  · rfl

variable (hq : win.Quiet) {operation : OperationId} {fingerprint : Fingerprint}

theorem clearBinding_conduct {β : Type} (x : β) :
    Conduct (working .idle h (.attempting operation fingerprint) win)
      (perform (.clearBinding operation) >>= fun _ => pure x)
      fun y ℓ' => y = x ∧ ℓ' = working .idle h .idle win := by
  refine step ⟨trivial, trivial, ⟨fingerprint, rfl⟩, trivial, trivial, trivial, trivial⟩ ?_
  rintro _ ℓ₁ ⟨⟩
  exact ⟨rfl, rfl⟩

theorem next_append_claim {w : Worker} {outcome : ClaimOutcome} {r : Record} (hkind : r.kind = .claiming)
    (houtcome : r.outcome? = some outcome) (answer : Except LedgerError Unit) :
    (working (.holds w .taken) h (.attempting operation fingerprint) win).next (.append r) answer =
      some (if answer.isOk then
          working (.holds w .claimed) h (.recorded operation fingerprint outcome) win
        else working (.holds w .unrecorded) h (.attempting operation fingerprint) win) := by
  have hwin : win.appended r answer.isOk = win := Window.appended_of_ne (by simp [hkind])
  cases answer <;>
    simp_all [Local.next, next, Reclaim.next, heldNext, Standing.next, pendingNext,
      Recon.next, Window.next, Standing.appended, appended, Recon.appended, Stage.write,
      Except.isOk, Except.toBool]

variable (operation fingerprint)

theorem claimRecord_outcome (w : Worker) (claimClass : ClaimClass) (prepared : Prepared) :
    (claimRecord setup w claimClass prepared operation fingerprint).outcome? =
      some ⟨w.id, w.generation, operation, claimClass⟩ := by
  simp [Record.outcome?, Record.claim?, claimRecord, Setup.record, outcomeOf]

include hq

theorem acquire_conduct :
    Ends (working .idle h c win) (acquire setup)
      fun won => working (acquiredTenure won) h c win := by
  unfold acquire
  refine step (by constructor <;> trivial) ?_
  rintro slots ℓ₁ ⟨⟩
  refine (firstClaim_conduct slots).bind ?_
  rintro (_ | worker)
  · dsimp only
    split
    · exact (exhausted_conduct setup _).bind fun _ => rfl
    · refine (constructOne_conduct setup hq).bind ?_
      rintro (failure | id)
      · rfl
      · exact claimConstructed_conduct setup id
  · rfl

/-- What a thread holds after a claim. -/
def claimedLocal (win : Window) (operation : OperationId) (fingerprint : Fingerprint) :
    Except ClaimError (ClaimOutcome × Option Claimed) → Local
  | .ok (outcome, some claimed) =>
    working (.holds claimed.worker .claimed) claimed.reservation
      (.granted operation fingerprint outcome) win
  | .ok (outcome, none) => working .idle none (.replayed operation fingerprint outcome) win
  | .error _ => working .idle none .idle win

theorem recordClaim_conduct (w : Worker) (claimClass : ClaimClass) :
    Ends (working (.holds w .won) h (.attempting operation fingerprint) win)
      (recordClaim setup w claimClass h operation fingerprint)
      fun result => claimedLocal win operation fingerprint result := by
  unfold recordClaim
  refine step ⟨⟨w, .won, rfl, .inl rfl, rfl⟩, trivial, trivial, trivial, trivial, trivial, trivial⟩ ?_
  rintro (_ | prepared) ℓ₁ ⟨⟩
  change Conduct (working (.holds w .taken) h (.attempting operation fingerprint) win) _ _
  have houtcome := claimRecord_outcome setup operation fingerprint w claimClass prepared
  refine step ?_ ?_
  · exact {
      tenure := fun _ => ⟨w, .taken, rfl, rfl, rfl, rfl⟩
      held := trivial
      standing := fun _ => ⟨operation, fingerprint, _, rfl, rfl, rfl, houtcome⟩
      pending := nofun
      recon := ⟨nofun, nofun⟩
      window := nofun
      reclaim := trivial }
  · intro recorded ℓ₂ h₂
    rw [next_append_claim rfl houtcome] at h₂
    cases recorded with
    | error error =>
      cases h₂
      refine (destroyClaiming_conduct setup hq (.inl rfl) (by rfl) _).bind ?_
      intro disposition
      refine (clearBinding_conduct _).mono ?_
      rintro result _ ⟨rfl, rfl⟩
      rfl
    | ok =>
      cases h₂
      refine step (by constructor <;> trivial) ?_
      rintro _ ℓ₃ ⟨⟩
      rfl

theorem claim_conduct :
    Ends (resting win) (claim setup operation fingerprint)
      fun result => claimedLocal win operation fingerprint result := by
  unfold claim
  refine step (by constructor <;> trivial) ?_
  rintro (error | (_ | outcome)) ℓ₁ ⟨⟩
  · rfl
  · refine step (by constructor <;> trivial) ?_
    rintro (rejection | reservation) ℓ₂ ⟨⟩
    · refine (clearBinding_conduct _).mono ?_
      rintro result _ ⟨rfl, rfl⟩
      rfl
    · refine (acquire_conduct (h := some reservation) setup hq).bind ?_
      rintro (error | ⟨worker, claimClass⟩)
      · refine (releaseCapacity_conduct _).bind ?_
        intro _
        refine (clearBinding_conduct _).mono ?_
        rintro result _ ⟨rfl, rfl⟩
        rfl
      · exact recordClaim_conduct setup hq operation fingerprint worker claimClass
  · rfl

/-- What a thread holds once the claim is reported. -/
def reportedLocal (win : Window) : Except ClaimError (ClaimOutcome × Option Claimed) → Local
  | .ok (_, some claimed) =>
    working (.holds claimed.worker .claimed) claimed.reservation .idle win
  | _ => working .idle none .idle win

theorem claimReported_conduct :
    Ends (resting win) (claimReported setup operation fingerprint)
      fun result => reportedLocal win result := by
  unfold claimReported
  refine (claim_conduct setup hq operation fingerprint).bind ?_
  rintro (error | ⟨outcome, _ | claimed⟩)
  all_goals
    refine step (by constructor <;> trivial) ?_
    rintro _ ℓ₁ ⟨⟩
    rfl

end claims

/-! ### The transfer -/

section transfer

variable (setup : Setup) {c : Standing} {win : Window} (hq : win.Quiet) (claimed : Claimed) (attempt : Attempt)
  (intent : AssignmentIntent)

/-- What a thread holds while it transfers. -/
def attemptLocal (c : Standing) (win : Window) (attempt : Attempt) : Local :=
  working (.holds attempt.worker .claimed) attempt.reservation c win

theorem deliverFrame_conduct (step : TransferStep) :
    Keeps (attemptLocal c win attempt) (deliverFrame setup attempt intent step) := by
  unfold deliverFrame
  refine env ?_
  intro late
  cases late with
  | true => rfl
  | false =>
    refine env ?_
    rintro (fault | ⟨⟩)
    · rfl
    · exact append rfl ⟨nofun, nofun⟩ nofun rfl rfl rfl fun _ => rfl

theorem deliver_conduct (step : TransferStep) :
    Keeps (attemptLocal c win attempt) (deliver setup attempt intent step) := by
  unfold deliver
  refine (deliverFrame_conduct setup attempt intent step).bind ?_
  rintro (fault | ⟨⟩)
  · exact append rfl ⟨nofun, nofun⟩ nofun rfl rfl rfl fun _ => rfl
  · rfl

section

include hq

theorem abort_conduct (step : Option TransferStep) (fault : TransferFault) :
    Ends (attemptLocal c win attempt) (abort setup attempt step fault)
      fun _ => working .idle none c win := by
  unfold abort
  exact (destroyClaiming_conduct setup hq (.inr rfl) (by rfl) _).bind fun _ => rfl

theorem refuseGrant_conduct (reason : DestroyReason) (fault : TransferFault) :
    Ends (working (.holds claimed.worker .claimed) claimed.reservation c win)
      (refuseGrant setup claimed reason fault) fun _ => working .idle none c win := by
  unfold refuseGrant
  exact (destroyClaiming_conduct setup hq (.inr rfl) (by rfl) _).bind fun _ => rfl

/-- What a thread holds after the claim was admitted or refused. -/
def admittedLocal (c : Standing) (win : Window) :
    Except TransferFailure (Attempt × LaunchNetwork) → Local
  | .ok (attempt, _) => attemptLocal c win attempt
  | .error _ => working .idle none c win

theorem assignResources_conduct :
    Ends (working (.holds claimed.worker .claimed) claimed.reservation c win)
      (assignResources setup claimed intent) fun result => admittedLocal c win result := by
  unfold assignResources
  refine env ?_
  rintro (fault | ⟨refs, launch⟩)
  · exact (destroyClaiming_conduct setup hq (.inr rfl) (by rfl) _).bind fun _ => rfl
  · refine append rfl ⟨nofun, nofun⟩ nofun rfl rfl rfl ?_
    intro recorded
    cases recorded with
    | error error => exact (abort_conduct setup hq ⟨_, _, _, _, _⟩ _ _).bind fun _ => rfl
    | ok => rfl

theorem admitGrant_conduct :
    Ends (working (.holds claimed.worker .claimed) claimed.reservation c win)
      (admitGrant setup claimed intent) fun result => admittedLocal c win result := by
  unfold admitGrant
  split_ifs
  · exact (refuseGrant_conduct setup hq claimed _ _).bind fun _ => rfl
  · refine env ?_
    intro late
    cases late with
    | true =>
      exact (refuseGrant_conduct setup hq claimed _ _).bind fun _ => rfl
    | false => exact assignResources_conduct setup hq claimed intent

theorem deliverAll_conduct (steps : List TransferStep) (n : ℕ) :
    Ends (attemptLocal c win attempt) (deliverAll setup attempt intent steps n)
      fun result => match result with
        | .ok _ => attemptLocal c win attempt
        | .error _ => working .idle none c win := by
  induction steps generalizing n with
  | nil => rfl
  | cons step rest ih =>
    unfold deliverAll
    refine (deliver_conduct setup attempt intent step).bind ?_
    rintro (fault | ⟨⟩)
    · exact (abort_conduct setup hq attempt _ _).bind fun _ => rfl
    · exact ih (n + 1)

end

/-- The window once a worker of its Instance is owned. -/
def Window.owning (win : Window) (worker : WorkerId) : Window :=
  match win with
  | .missed i => .committed i worker
  | _ => win

/-- What a thread holds after a transfer. -/
def transferredLocal {α : Type} (c : Standing) (win : Window) (worker : WorkerId) :
    Except TransferFailure α → Local
  | .ok _ => working .idle none c (win.owning worker)
  | .error _ => working .idle none c win

/-- The Instance of the window is the intent's. -/
def Window.Admits (win : Window) (i : InstanceId) : Prop :=
  win = .missed i ∨ win = .raw i

theorem Window.Admits.quiet {i : InstanceId} (h : win.Admits i) : win.Quiet := by
  rcases h with rfl | rfl <;> exact ⟨fun _ => rfl, fun _ _ => rfl⟩

theorem ownAssigned_conduct (launch : LaunchNetwork) (hwin : win.Admits intent.instanceId) {w : Worker}
    (hid : attempt.worker.id = w.id) (hgen : attempt.worker.generation = w.generation) :
    Ends (working (.holds w .assigned) attempt.reservation c win)
      (ownAssigned setup attempt intent launch w)
      fun result => transferredLocal c win w.id result := by
  unfold ownAssigned
  refine (capacityLaunched_conduct (working (.holds w .assigned) attempt.reservation c win)).bind ?_
  intro reservation
  refine append rfl ⟨nofun, nofun⟩ (fun _ => ⟨_, rfl, hwin⟩) rfl hid hgen ?_
  intro recorded
  cases recorded with
  | error error =>
    exact (destroyOwned_quiet setup hwin.quiet (.inl rfl) (by rfl) (by rfl) _).bind fun _ => rfl
  | ok =>
    refine step ?_ ?_
    · exact {
        tenure := ⟨.owned, rfl, .inl rfl, rfl⟩
        held := rfl
        standing := trivial
        pending := trivial
        recon := trivial
        window := hwin.elim .inl fun h => .inr (.inl h)
        reclaim := trivial }
    · rintro _ ℓ₂ ⟨⟩
      rcases hwin with rfl | rfl <;> rfl

theorem commit_conduct (launch : LaunchNetwork) (hwin : win.Admits intent.instanceId) :
    Ends (attemptLocal c win attempt) (commit setup attempt intent launch)
      fun result => transferredLocal c win attempt.worker.id result := by
  unfold commit
  refine env ?_
  intro late
  cases late with
  | true =>
    exact (abort_conduct setup hwin.quiet attempt _ _).bind fun _ => rfl
  | false =>
    refine advance rfl ?_
    rintro w' rfl
    exact ownAssigned_conduct setup attempt intent launch hwin rfl rfl

theorem transfer_conduct (hwin : win.Admits intent.instanceId) :
    Ends (working (.holds claimed.worker .claimed) claimed.reservation c win)
      (transfer setup claimed intent) fun result => match result with
        | .ok evidence => working .idle none c (win.owning evidence.worker)
        | .error _ => working .idle none c win := by
  unfold transfer
  refine (admitGrant_conduct setup hwin.quiet claimed intent).bind ?_
  rintro (failure | ⟨attempt, launch⟩)
  · rfl
  refine env ?_
  intro seeded
  cases seeded with
  | false =>
    exact (abort_conduct setup hwin.quiet attempt _ _).bind fun _ => rfl
  | true =>
    refine (deliverAll_conduct setup hwin.quiet attempt intent _ _).bind ?_
    rintro (failure | steps)
    · rfl
    refine (commit_conduct setup attempt intent launch hwin).bind ?_
    rintro (failure | ⟨⟩) <;> rfl

theorem useGrant_conduct :
    Conduct (working (.holds claimed.worker .claimed) claimed.reservation .idle .none)
      (useGrant setup claimed) fun _ ℓ' => ∃ win, (win.launches = none ∧ win.destroys = none) ∧
        ℓ' = resting win := by
  unfold useGrant
  refine env ?_
  rintro (intent | _ | _)
  · refine (transfer_conduct setup claimed intent (.inr rfl)).bind ?_
    rintro (failure | evidence) <;> exact ⟨.raw intent.instanceId, ⟨rfl, rfl⟩, rfl⟩
  · refine (refuseGrant_conduct setup Window.quiet_none claimed _ _).bind ?_
    intro failure
    exact ⟨.none, ⟨rfl, rfl⟩, rfl⟩
  · refine (destroyClaiming_conduct setup Window.quiet_none (.inr rfl) (by rfl) _).bind ?_
    intro disposition
    exact ⟨.none, ⟨rfl, rfl⟩, rfl⟩

theorem claimAndUse_conduct (operation : OperationId) (fingerprint : Fingerprint) :
    Conduct (resting .none) (claimAndUse setup operation fingerprint)
      fun _ ℓ' => ∃ win, (win.launches = none ∧ win.destroys = none) ∧
        ℓ' = resting win := by
  unfold claimAndUse
  refine (claimReported_conduct setup Window.quiet_none operation fingerprint).bind ?_
  rintro (error | ⟨outcome, _ | claimed⟩)
  · exact ⟨.none, ⟨rfl, rfl⟩, rfl⟩
  · exact ⟨.none, ⟨rfl, rfl⟩, rfl⟩
  · exact useGrant_conduct setup claimed

end transfer

/-! ### Lifecycle -/

section lifecycle

variable (setup : Setup)

theorem startProcess_conduct (ℓ : Local) (handle : Option LauncherHandle) :
    Keeps ℓ (startProcess handle) := by
  cases handle with
  | none => rfl
  | some handle =>
    refine last (obeys_env _ _) ?_
    rintro started ℓ₁ ⟨⟩
    rfl

theorem append_running_conduct (owned : Owned) :
    Ends { pending := some (owned.worker.id, owned.worker.generation) }
      (perform (.append (runningRecord setup owned)))
      fun _ => resting .none := by
  refine last (obeys_append_other rfl (fun _ => rfl) ⟨nofun, nofun⟩) ?_
  rintro recorded ℓ₁ ⟨⟩
  have hstanding : Standing.idle.appended (runningRecord setup owned) recorded.isOk = .idle :=
    Standing.appended_of_ne (by simp [runningRecord, Setup.record])
  change ({ standing := Standing.idle.appended (runningRecord setup owned) recorded.isOk } : Local) = _
  rw [hstanding]

theorem start_conduct (worker : WorkerId) : Keeps (resting .none) (start setup worker) := by
  unfold start
  refine step (by constructor <;> trivial) ?_
  rintro (error | handle) ℓ₁ ⟨⟩
  · rfl
  refine (startProcess_conduct _ handle).bind ?_
  intro started
  refine step (by constructor <;> trivial) ?_
  intro ended ℓ₂ h₂
  cases ended with
  | unknown =>
    cases h₂
    rfl
  | faulted owned =>
    cases started with
    | ok => cases h₂
    | error fault =>
      cases h₂
      exact (destroyOwned_quiet setup Window.quiet_none (.inr rfl) (by rfl) (by rfl) _).bind fun _ => rfl
  | notAssigned =>
    cases h₂
    rfl
  | raced race =>
    cases h₂
    rfl
  | running owned =>
    cases h₂
    exact (append_running_conduct setup owned).bind fun _ => rfl

/-- What a thread holds after a release. -/
def ReleasedLocal (win : Window) (result : Except LifecycleError ReleaseEvidence) (ℓ : Local) : Prop :=
  match result with
  | .ok evidence => ∃ r stored, r.kind = .destroying ∧
      ℓ = working .idle none .idle ((((win.disowned true).appended r stored).replied
        evidence.destroyed.complete).replied evidence.released.complete)
  | .error _ => ℓ = working .idle none .idle (win.disowned false)

theorem release_conduct {win : Window} {worker : WorkerId} (hwin : win = .none ∨ ∃ i, win = .found i worker) :
    Conduct (resting win) (release setup worker) (ReleasedLocal win) := by
  unfold release
  refine step ⟨rfl, rfl, trivial, trivial, trivial, hwin, trivial⟩ ?_
  rintro (error | owned) ℓ₁ ⟨⟩
  · rfl
  refine (destroyOwned_conduct setup (.inr rfl) (by rfl) (by rfl) _).bind ?_
  rintro evidence _ ⟨r, stored, hr, rfl⟩
  exact ⟨r, stored, hr, rfl⟩

theorem tryEvict_conduct (slot : ℕ) :
    Ends (resting .none) (tryEvict slot) fun moved =>
      match moved with
        | some worker => working (.holds worker .evicting) none .idle .none
        | none => resting .none := by
  unfold tryEvict
  refine step (by constructor <;> trivial) ?_
  rintro observed ℓ₁ ⟨⟩
  split_ifs with hphase
  · rfl
  refine step ⟨.inr ⟨rfl, by simpa using hphase, .inr ⟨rfl, rfl⟩⟩, trivial, trivial, trivial, trivial,
      trivial, trivial⟩ ?_
  rintro (race | worker) ℓ₂ ⟨⟩ <;> rfl

theorem evictSlots_conduct (slots : List ℕ) : Keeps (resting .none) (evictSlots setup slots) := by
  induction slots with
  | nil => rfl
  | cons slot slots ih =>
    unfold evictSlots
    refine (tryEvict_conduct slot).bind ?_
    rintro (_ | worker)
    · exact ih
    refine step ⟨⟨worker, .evicting, rfl, .inr rfl, rfl⟩, trivial, trivial, trivial, trivial, trivial,
        trivial⟩ ?_
    rintro prepared ℓ₁ ⟨⟩
    refine (teardown_quiet setup Window.quiet_none worker _ _ _ _).bind ?_
    intro evidence
    refine ih.bind ?_
    intro rest
    rfl

theorem evictSterile_conduct : Keeps (resting .none) (evictSterile setup) := by
  unfold evictSterile
  refine step (by constructor <;> trivial) ?_
  rintro slots ℓ₁ ⟨⟩
  exact evictSlots_conduct setup slots

end lifecycle

/-! ### Restart -/

section restart

variable (setup : Setup) {snapshot : List Entry}

/-- What a thread holds under the reconcile gate. -/
abbrev gated (t : Tenure) (h : Option Capacity.Reservation) (snapshot : List Entry) (focus : Focus) :
    Local :=
  { tenure := t, held := h, recon := .gated snapshot focus }

/-- A retained suspect is at rest again, up to a slot that nobody will own. -/
def RetainedLocal (snapshot : List Entry) (entry : Entry) (ℓ : Local) : Prop :=
  ℓ = gated .idle none snapshot
      (.suspect entry.worker entry.leaseGeneration Phase.running.code) ∨
    ∃ t, (t = .idle ∨ ∃ w, t = .holds w .restored) ∧
      ℓ = gated t none snapshot (.restored entry.worker entry.leaseGeneration)

variable (entry : Entry)

theorem adopt_conduct {w : Worker} (hid : w.id = entry.worker) :
    Conduct (gated (.holds w .restored) none snapshot (.restored entry.worker entry.leaseGeneration))
      (adopt entry w) fun _ ℓ' => RetainedLocal snapshot entry ℓ' := by
  unfold adopt
  split
  · refine step (by constructor <;> trivial) ?_
    intro reserved ℓ₁ h₁
    obtain rfl : ℓ₁ = gated (.holds w .restored) reserved.toOption snapshot
        (.restored entry.worker entry.leaseGeneration) := by
      cases reserved <;> cases h₁ <;> rfl
    refine (capacityLaunched_conduct (gated (.holds w .restored) reserved.toOption snapshot
      (.restored entry.worker entry.leaseGeneration))).bind ?_
    intro reservation
    refine step ⟨⟨.restored, rfl, .inr rfl, hid⟩, rfl, trivial, trivial, trivial,
      .inr (.inr ⟨rfl, rfl⟩), trivial⟩ ?_
    rintro _ ℓ₂ ⟨⟩
    exact .inr ⟨.idle, .inl rfl, rfl⟩
  · exact .inr ⟨.holds w .restored, .inr ⟨w, rfl⟩, rfl⟩

variable {focus : Focus}

theorem next_attach {w : Worker} {h : Option Capacity.Reservation} {slot : ℕ} {phase : Phase}
    {attached : Option Worker} {ℓ' : Local}
    (hnext : (gated (.holds w .restored) h snapshot focus).next (.attach slot phase) attached =
      some ℓ') : attached = some w ∧ ℓ' = gated (.holds w .restored) h snapshot focus := by
  by_cases hw : attached = some w
  · simp only [Local.next, next, hw, if_true] at hnext
    cases hnext
    exact ⟨hw, rfl⟩
  · simp only [Local.next, next, hw, if_false] at hnext
    cases hnext

theorem retain_conduct :
    Conduct (gated .idle none snapshot
        (.suspect entry.worker entry.leaseGeneration Phase.running.code))
      (retain entry) fun _ ℓ' => RetainedLocal snapshot entry ℓ' := by
  unfold retain
  refine step ⟨.inr ⟨rfl, rfl⟩, trivial, trivial, trivial, ⟨snapshot, rfl⟩, trivial, trivial⟩ ?_
  rintro (overloaded | slot) ℓ₁ ⟨⟩
  · exact .inl rfl
  refine step ⟨⟨_, rfl, rfl, rfl⟩, trivial, trivial, trivial, trivial, trivial, trivial⟩ ?_
  intro attached ℓ₂ h₂
  obtain ⟨rfl, rfl⟩ := next_attach h₂
  exact adopt_conduct entry (by rfl)

theorem probe_conduct (ℓ : Local) (identity : Option WorkerIdentity) : Keeps ℓ (probe identity) := by
  cases identity with
  | none => rfl
  | some identity =>
    refine env ?_
    intro liveness
    rfl

theorem terminateSuspect_conduct (h : Option Capacity.Reservation) (focus : Focus)
    (identity : Option WorkerIdentity) (liveness : Option Liveness) :
    Keeps (gated .idle h snapshot focus) (terminateSuspect identity liveness) := by
  unfold terminateSuspect
  split
  · exact env fun _ => rfl
  · exact env fun _ => rfl
  · rfl

/-- Whether a record of the decision can be written: a restored worker is retained. -/
def DecidedLocal (snapshot : List Entry) (entry : Entry) (disposition : ReconcileDisposition) (ℓ : Local) : Prop :=
  ℓ = gated .idle none snapshot (.suspect entry.worker entry.leaseGeneration entry.phase.code) ∨
    (disposition = .retained ∧ ∃ t, (t = .idle ∨ ∃ w, t = .holds w .restored) ∧
      ℓ = gated t none snapshot (.restored entry.worker entry.leaseGeneration))

theorem decideSuspect_conduct (liveness : Option Liveness) :
    Conduct (gated .idle none snapshot
        (.suspect entry.worker entry.leaseGeneration entry.phase.code))
      (decideSuspect entry liveness)
      fun decision ℓ' => DecidedLocal snapshot entry decision.1 ℓ' := by
  unfold decideSuspect
  split_ifs with hretain
  · have hcode : entry.phase.code = Phase.running.code := by rw [hretain.1]
    rw [hcode]
    refine (retain_conduct entry).bind ?_
    rintro retained _ (rfl | ⟨t, ht, rfl⟩)
    · exact .inl (by rw [hcode])
    · exact .inr ⟨rfl, t, ht, rfl⟩
  · unfold closeSuspect
    refine (terminateSuspect_conduct _ _ _ _).bind ?_
    intro destroyed
    refine env ?_
    intro released
    exact .inl rfl

theorem append_reconciled_conduct {r : Record} (hkind : r.kind = .reconciled) (hworker : r.worker = entry.worker)
    (hgen : r.leaseGeneration = entry.leaseGeneration) {disposition : ReconcileDisposition}
    (hdetail : r.detail = disposition.code) {ℓ : Local} (hℓ : DecidedLocal snapshot entry disposition ℓ) :
    ℓ.Obeys (.append r) ∧ ∀ answer, ℓ.next (.append r) answer = some (gated .idle none snapshot .none) := by
  have hne : ∀ kind, kind ≠ .reconciled → r.kind ≠ kind := by
    rintro kind hkind' rfl
    exact hkind' hkind
  have hnext : ∀ (t : Tenure) (focus : Focus) (answer : Except LedgerError Unit),
      (t = .idle ∨ ∃ w, t = .holds w .restored) →
      (gated t none snapshot focus).next (.append r) answer = some (gated .idle none snapshot .none) := by
    intro t focus answer ht
    have hstanding : Standing.idle.appended r answer.isOk = .idle :=
      Standing.appended_of_ne (hne _ (by simp))
    have hwindow : Window.none.appended r answer.isOk = .none := rfl
    have htenure : t.appended r answer.isOk = .idle := by
      rcases ht with rfl | ⟨w, rfl⟩
      · rfl
      · simp [appended, hkind]
    simp [Local.next, next, Reclaim.next, heldNext, Standing.next, pendingNext, Recon.next,
      Window.next, Recon.appended, hstanding, hwindow, htenure, hkind]
  have hobeys : ∀ (t : Tenure) (focus : Focus),
      (Recon.gated snapshot focus).obeys (.append r) → (gated t none snapshot focus).Obeys (.append r) := by
    intro t focus hrecon
    exact obeys_append_other (by rw [hkind]; rfl) (fun hk => absurd hk (hne _ (by simp))) hrecon
  rcases hℓ with rfl | ⟨rfl, t, ht, rfl⟩
  · refine ⟨hobeys _ _ ⟨fun hk => absurd hk (hne _ (by simp)), fun _ => ⟨snapshot, .inl ?_⟩⟩,
      fun answer => hnext _ _ answer (.inl rfl)⟩
    exact ⟨entry.phase.code, by rw [hworker, hgen]⟩
  · refine ⟨hobeys _ _ ⟨fun hk => absurd hk (hne _ (by simp)), fun _ => ⟨snapshot, .inr ?_⟩⟩,
      fun answer => hnext _ _ answer ht⟩
    exact ⟨by rw [hworker, hgen], hdetail⟩

theorem next_append_suspect {r : Record} (hkind : r.kind = .suspect) (answer : Except LedgerError Unit) :
    (gated .idle none snapshot focus).next (.append r) answer =
      some (gated .idle none snapshot
        (if answer.isOk then .suspect r.worker r.leaseGeneration r.detail else .none)) := by
  have hstanding : Standing.idle.appended r answer.isOk = .idle :=
    Standing.appended_of_ne (by simp [hkind])
  have hwindow : Window.none.appended r answer.isOk = .none := rfl
  have htenure : idle.appended r answer.isOk = .idle := rfl
  simp [Local.next, next, Reclaim.next, heldNext, Standing.next, pendingNext, Recon.next,
    Window.next, Recon.appended, hstanding, hwindow, htenure, hkind]

theorem reconcileSuspect_conduct {entry : Entry} (hmem : entry ∈ snapshot)
    (hphase : entry.phase.isNonterminal = true) :
    Ends (gated .idle none snapshot (.looking entry.worker)) (reconcileSuspect setup entry)
      fun _ => gated .idle none snapshot .none := by
  unfold reconcileSuspect
  refine step (obeys_append_other rfl nofun
    ⟨fun _ => ⟨snapshot, rfl, entry, hmem, rfl, rfl, rfl, hphase⟩, nofun⟩) ?_
  intro marked ℓ₁ h₁
  rw [next_append_suspect rfl] at h₁
  cases h₁
  cases marked with
  | error error => rfl
  | ok =>
    refine (probe_conduct _ _).bind ?_
    intro liveness
    refine env ?_
    intro resources
    refine (decideSuspect_conduct entry liveness).bind ?_
    intro decision ℓ₃ hℓ₃
    obtain ⟨hobeys, hnext⟩ := append_reconciled_conduct
      (r := reconciledRecord setup entry decision.1) entry rfl rfl rfl rfl hℓ₃
    refine step hobeys ?_
    intro recorded ℓ₄ h₄
    rw [hnext] at h₄
    cases h₄
    rfl

theorem reconcileEntries_conduct (entries : List Entry) (hsub : ∀ e ∈ entries, e ∈ snapshot) (focus : Focus) :
    Conduct (gated .idle none snapshot focus) (reconcileEntries setup entries)
      fun _ ℓ' => ∃ focus', ℓ' = gated .idle none snapshot focus' := by
  induction entries generalizing focus with
  | nil => exact ⟨focus, rfl⟩
  | cons entry entries ih =>
    have hrest := ih fun e he => hsub e (List.mem_cons_of_mem _ he)
    unfold reconcileEntries
    split_ifs with hphase
    · have hentry : (Recon.gated snapshot focus).obeys (.findSlot entry.worker) := by
        rintro _ _ ⟨⟩
        exact ⟨entry, hsub entry (List.mem_cons_self ..), rfl⟩
      refine step ⟨trivial, trivial, trivial, trivial, hentry, trivial, trivial⟩ ?_
      rintro (_ | slot) ℓ₁ ⟨⟩
      · refine (reconcileSuspect_conduct setup (hsub entry (List.mem_cons_self ..)) hphase).bind ?_
        rintro (error | finding)
        · exact ⟨.none, rfl⟩
        · refine (hrest .none).bind ?_
          rintro rest _ ⟨focus', rfl⟩
          exact ⟨focus', rfl⟩
      · exact hrest .none
    · exact hrest focus

theorem reconcile_conduct : Keeps (resting .none) (reconcile setup) := by
  unfold reconcile
  refine step (by constructor <;> trivial) ?_
  rintro _ ℓ₁ ⟨⟩
  have hgated : Conduct (gated .idle none [] .none) (reconcileGated setup)
      fun _ ℓ' => ∃ snapshot focus, ℓ' = gated .idle none snapshot focus := by
    unfold reconcileGated
    refine step (by constructor <;> trivial) ?_
    rintro (error | entries) ℓ₂ ⟨⟩
    · exact ⟨[], .none, rfl⟩
    refine (reconcileEntries_conduct setup entries (fun _ he => he) .none).bind ?_
    rintro (error | findings) _ ⟨focus, rfl⟩
    · exact ⟨entries, focus, rfl⟩
    refine step (by constructor <;> trivial) ?_
    rintro _ ℓ₃ ⟨⟩
    exact ⟨entries, focus, rfl⟩
  refine hgated.bind ?_
  rintro result _ ⟨snapshot, focus, rfl⟩
  refine step ⟨trivial, trivial, trivial, trivial, by simp [Recon.obeys], trivial, trivial⟩ ?_
  rintro _ ℓ₂ ⟨⟩
  rfl

end restart

/-! ### Instances -/

section instances

variable (setup : Setup)

theorem inspect_conduct (t : Tenure) (h : Option Capacity.Reservation) (c : Standing) (win : Window)
    (worker : WorkerId) : Keeps (working t h c win) (inspect worker) := by
  unfold inspect
  refine step ⟨trivial, trivial, trivial, trivial, by simp [Recon.obeys], trivial, trivial⟩ ?_
  rintro (_ | slot) ℓ₁ ⟨⟩
  · rfl
  refine step (by constructor <;> trivial) ?_
  rintro observed ℓ₂ ⟨⟩
  refine step (by constructor <;> trivial) ?_
  rintro owned ℓ₃ ⟨⟩
  rfl

/-- What a thread holds while it reclaims bindings. -/
abbrev reclaiming (win : Window) (views : List InstanceView) (probe : Option (WorkerId × ℕ))
    (gone : List WorkerId) : Local :=
  { window := win, reclaim := .active views probe gone }

theorem inspect_reclaim {win : Window} {views : List InstanceView} {p : Option (WorkerId × ℕ)}
    {gone : List WorkerId} (worker : WorkerId) :
    Conduct (reclaiming win views p gone) (inspect worker) fun inspected ℓ' =>
      ∃ p' gone', ℓ' = reclaiming win views p' gone' ∧ (∀ w ∈ gone, w ∈ gone') ∧
        (inspected.any (!·.phase.isTerminal) = false → worker ∈ gone') := by
  unfold inspect
  refine step ⟨trivial, trivial, trivial, trivial, by simp [Recon.obeys], trivial, trivial⟩ ?_
  rintro (_ | slot) ℓ₁ ⟨⟩
  · exact ⟨none, worker :: gone, rfl, fun w hw => List.mem_cons_of_mem _ hw, by simp⟩
  refine step (by constructor <;> trivial) ?_
  intro observed ℓ₂ h₂
  have hseen : ℓ₂ = reclaiming win views none (if observed.phase.isTerminal then worker :: gone else gone) := by
    by_cases hid : observed.id = worker
    · simp only [Local.next, next, Reclaim.next, hid, ne_eq, not_true_eq_false, if_false] at h₂
      cases h₂
      rfl
    · simp only [Local.next, next, Reclaim.next, hid, ne_eq, not_true_eq_false, if_false,
        not_false_eq_true, if_true] at h₂
      cases h₂
  subst hseen
  refine step (by constructor <;> trivial) ?_
  rintro owned ℓ₃ ⟨⟩
  refine ⟨none, _, rfl, ?_, ?_⟩
  · intro w hw
    split_ifs
    · exact List.mem_cons_of_mem _ hw
    · exact hw
  · intro hterminal
    have : observed.phase.isTerminal = true := by simpa using hterminal
    simp [this]

theorem goneInstances_conduct {win : Window} {all : List InstanceView} (views : List InstanceView)
    (hsub : ∀ v ∈ views, v ∈ all) (p : Option (WorkerId × ℕ)) (gone : List WorkerId) :
    Conduct (reclaiming win all p gone) (goneInstances views) fun ids ℓ' =>
      ∃ p' gone', ℓ' = reclaiming win all p' gone' ∧ (∀ w ∈ gone, w ∈ gone') ∧
        ∀ i ∈ ids, ∃ v ∈ all, v.instanceId = i ∧ v.worker ∈ gone' := by
  induction views generalizing p gone with
  | nil => exact ⟨p, gone, rfl, fun _ hw => hw, by simp⟩
  | cons view views ih =>
    unfold goneInstances
    refine (inspect_reclaim view.worker).bind ?_
    rintro inspected _ ⟨p₁, gone₁, rfl, hgone₁, hterminal⟩
    refine (ih (fun v hv => hsub v (List.mem_cons_of_mem _ hv)) p₁ gone₁).bind ?_
    rintro rest _ ⟨p₂, gone₂, rfl, hgone₂, hids⟩
    refine ⟨p₂, gone₂, rfl, fun w hw => hgone₂ w (hgone₁ w hw), ?_⟩
    intro i hi
    split_ifs at hi with hlive
    · exact hids i hi
    · rcases List.mem_cons.mp hi with rfl | hi
      · exact ⟨view, hsub view (List.mem_cons_self ..), rfl, hgone₂ _ (hterminal (by simpa using hlive))⟩
      · exact hids i hi

theorem reclaim_conduct (win : Window) : Keeps (resting win) reclaim := by
  unfold reclaim
  refine step (by constructor <;> trivial) ?_
  rintro views ℓ₁ ⟨⟩
  refine (goneInstances_conduct views (fun _ hv => hv) none []).bind ?_
  rintro ids _ ⟨p, gone, rfl, -, hids⟩
  refine last ⟨trivial, trivial, trivial, trivial, trivial, trivial, ⟨views, p, gone, rfl, hids⟩⟩ ?_
  rintro _ ℓ₂ ⟨⟩
  rfl

variable (i : InstanceId)

/-- What a thread holds after a launch that found no binding. -/
def LaunchedLocal (ℓ : Local) : Prop :=
  ∃ win, (win = .missed i ∨ win = .bound i) ∧ ℓ = resting win

variable (intent : AssignmentIntent)

theorem rebind_conduct (outcome : ClaimOutcome) :
    Conduct (resting (.missed intent.instanceId)) (rebind setup intent outcome)
      fun _ ℓ' => LaunchedLocal intent.instanceId ℓ' := by
  unfold rebind
  refine (inspect_conduct _ _ _ _ outcome.worker).bind ?_
  rintro (_ | view)
  · exact ⟨_, .inl rfl, rfl⟩
  dsimp only
  split_ifs
  · exact ⟨_, .inl rfl, rfl⟩
  · split
    · exact ⟨_, .inl rfl, rfl⟩
    · refine step ⟨trivial, trivial, trivial, trivial, trivial, .inl rfl, trivial⟩ ?_
      rintro _ ℓ₁ ⟨⟩
      exact ⟨_, .inr rfl, rfl⟩

theorem transferAndBind_conduct (claimed : Claimed) :
    Conduct (working (.holds claimed.worker .claimed) claimed.reservation .idle
        (.missed intent.instanceId)) (transferAndBind setup intent claimed)
      fun _ ℓ' => LaunchedLocal intent.instanceId ℓ' := by
  unfold transferAndBind
  refine (transfer_conduct setup claimed intent (.inl rfl)).bind ?_
  rintro (failure | evidence)
  · exact ⟨_, .inl rfl, rfl⟩
  refine step ⟨trivial, trivial, trivial, trivial, trivial, .inr rfl, trivial⟩ ?_
  rintro _ ℓ₁ ⟨⟩
  exact ⟨_, .inr rfl, rfl⟩

theorem launchAbsent_conduct :
    Conduct (resting (.missed intent.instanceId)) (launchAbsent setup intent)
      fun _ ℓ' => LaunchedLocal intent.instanceId ℓ' := by
  unfold launchAbsent
  refine (claimReported_conduct setup ⟨fun _ => rfl, fun _ _ => rfl⟩ _ _).bind ?_
  rintro (error | ⟨outcome, _ | claimed⟩)
  · exact ⟨_, .inl rfl, rfl⟩
  · exact rebind_conduct setup intent outcome
  · exact transferAndBind_conduct setup intent claimed

theorem launch_conduct :
    Conduct (resting (.launching intent.instanceId)) (launch setup intent)
      fun _ ℓ' => ∃ win, (win = .launching intent.instanceId ∨ win = .missed intent.instanceId ∨
        win = .bound intent.instanceId) ∧ ℓ' = resting win := by
  unfold launch
  refine (reclaim_conduct _).bind ?_
  intro _
  refine step (by constructor <;> trivial) ?_
  rintro (_ | live) ℓ₁ ⟨⟩
  · refine (launchAbsent_conduct setup intent).mono ?_
    rintro result _ ⟨win, hwin, rfl⟩
    exact ⟨win, .inr hwin, rfl⟩
  · exact ⟨_, .inl rfl, rfl⟩

theorem recordedTerminal_conduct :
    Conduct (resting (.reading i)) (recordedTerminal i)
      fun result ℓ' => ∃ win, ℓ' = resting win ∧ win.destroys = some i ∧
        ∀ receipt, result = .ok receipt → win.Proves i receipt := by
  unfold recordedTerminal
  refine step (by constructor <;> trivial) ?_
  rintro (error | entries) ℓ₁ ⟨⟩
  · exact ⟨_, rfl, rfl, by simp⟩
  · exact ⟨_, rfl, rfl, fun receipt hreceipt => ⟨rfl, hreceipt⟩⟩

theorem torn_window (w : WorkerId) {r : Record} (hr : r.kind = .destroying) (stored destroyed released : Bool) :
    (((Window.found i w).disowned true).appended r stored |>.replied destroyed |>.replied released) =
      if stored then .closed i w (destroyed && released) else .failed i := by
  cases stored <;> simp [Window.disowned, Window.appended, hr, Window.replied]

theorem destroy_conduct :
    Conduct (resting (.destroying i)) (destroy setup i)
      fun result ℓ' => ∃ win, ℓ' = resting win ∧ win.destroys = some i ∧
        ∀ receipt, result = .ok receipt → win.Proves i receipt := by
  unfold destroy
  refine step (by constructor <;> trivial) ?_
  rintro (_ | live) ℓ₁ ⟨⟩
  · exact recordedTerminal_conduct i
  refine (release_conduct setup (.inr ⟨i, rfl⟩)).bind ?_
  rintro (error | evidence) ℓ₂ hℓ₂
  · obtain rfl : ℓ₂ = resting (.stale i) := hℓ₂
    cases error with
    | unknown _ =>
      refine step ⟨trivial, trivial, trivial, trivial, trivial, .inr (.inl rfl), trivial⟩ ?_
      rintro _ ℓ₃ ⟨⟩
      exact recordedTerminal_conduct i
    | _ => exact ⟨_, rfl, rfl, by simp⟩
  · obtain ⟨r, stored, hr, rfl⟩ := hℓ₂
    rw [torn_window i live.worker hr]
    cases stored with
    | true =>
      refine step ⟨trivial, trivial, trivial, trivial, trivial, .inl ⟨_, _, rfl⟩, trivial⟩ ?_
      rintro _ ℓ₃ ⟨⟩
      refine ⟨_, rfl, rfl, ?_⟩
      rintro receipt ⟨⟩
      exact ⟨rfl, rfl, rfl, fun hall => hall⟩
    | false =>
      refine step ⟨trivial, trivial, trivial, trivial, trivial, .inr (.inr rfl), trivial⟩ ?_
      rintro _ ℓ₃ ⟨⟩
      refine ⟨_, rfl, rfl, ?_⟩
      rintro receipt ⟨⟩
      exact rfl

/-- Nothing is held but, at most, the window of a client's own transfer. -/
def Local.AtRest (ℓ : Local) : Prop :=
  ∃ win : Window, ℓ = working .idle none .idle win ∧ win.launches = none ∧ win.destroys = none

theorem Local.atRest_idle : Local.AtRest {} :=
  ⟨.none, rfl, rfl, rfl⟩

/-- **Conduct.**  Every call keeps the discipline and ends at rest. -/
theorem program_conduct (operation : Operation) : Conduct {} (operation.program setup) fun _ ℓ' => ℓ'.AtRest := by
  have hend : ∀ {α : Type} {p : Op α}, Ends {} p (fun _ => resting .none) →
      Conduct {} (p >>= fun _ => pure ()) fun _ ℓ' => ℓ'.AtRest := by
    intro α p hp
    exact hp.bind fun _ => Local.atRest_idle
  cases operation with
  | construct => exact hend (constructOne_conduct setup Window.quiet_none)
  | claim operation fingerprint =>
    refine (claimAndUse_conduct setup operation fingerprint).mono ?_
    rintro _ _ ⟨win, hwin, rfl⟩
    exact ⟨win, rfl, hwin⟩
  | start worker => exact hend (start_conduct setup worker)
  | release worker =>
    refine (release_conduct setup (.inl rfl)).bind ?_
    rintro (error | evidence) _ hℓ
    · rw [hℓ]
      exact Local.atRest_idle
    · obtain ⟨r, stored, -, rfl⟩ := hℓ
      exact Local.atRest_idle
  | evictSterile => exact hend (evictSterile_conduct setup)
  | reconcile => exact hend (reconcile_conduct setup)
  | launch intent =>
    refine step (by constructor <;> trivial) ?_
    rintro _ ℓ₁ ⟨⟩
    refine (launch_conduct setup intent).bind ?_
    rintro result _ ⟨win, hwin, rfl⟩
    refine last ⟨trivial, trivial, trivial, trivial, trivial, hwin, trivial⟩ ?_
    rintro _ ℓ₂ ⟨⟩
    exact Local.atRest_idle
  | destroy i =>
    refine step (by constructor <;> trivial) ?_
    rintro _ ℓ₁ ⟨⟩
    refine (destroy_conduct setup i).bind ?_
    rintro result _ ⟨win, rfl, hdestroys, hproves⟩
    refine last ⟨trivial, trivial, trivial, trivial, trivial, ?_, trivial⟩ ?_
    · cases result with
      | error error => exact hdestroys
      | ok receipt => exact hproves receipt rfl
    · rintro _ ℓ₂ ⟨⟩
      exact Local.atRest_idle
  | get i =>
    refine hend ((reclaim_conduct _).bind fun _ => ?_)
    refine last (by constructor <;> trivial) ?_
    rintro live ℓ₁ ⟨⟩
    rfl
  | list after =>
    refine hend ((reclaim_conduct _).bind fun _ => ?_)
    refine step (by constructor <;> trivial) ?_
    rintro views ℓ₁ ⟨⟩
    rfl

end instances

end Soma.Host.Pool
