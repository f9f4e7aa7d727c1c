import Mathlib.Data.Multiset.Bind
import Soma.Host.Admission.Conservation
import Soma.Host.Pool.OwnershipStep

/-! # Where the committed capacity is

A reservation is handed to the thread that reserves it, moves with the thread to the owned entry it
writes, and goes back to the thread that takes the entry out. So at any moment every reservation that
was handed out and not released is in one place: held by one thread or written in one owned entry.

* **`charges`** is what the owned entries hold, `heldBy` what the threads hold.
* **`Charged`** says that the usage is that of exactly these reservations, and that every reservation
  handed out since the pool was opened was released or is among them, once.
-/

namespace Soma.Host.Pool

open Std Soma.Lib Capacity Multiset Shared

/-- The reservations of the owned entries. -/
def Shared.charges (s : Shared) : Multiset Reservation :=
  (s.owned.values : Multiset Owned).bind fun o => o.reservation.toList

/-- What the answer of an action hands out. -/
def issuedBy : (a : Act) → Answer a → Option ℕ
  | .reserveCapacity, .ok r => some r.id
  | _, _ => none

/-- What an action gives back. -/
def releasedBy : Act → Option ℕ
  | .releaseCapacity r => some r.id
  | _ => none

/-- The reservations handed out in a history. -/
def issuedIn (h : History Answer) : List ℕ :=
  h.filterMap fun x => issuedBy x.1 x.2

/-- The reservations given back in a history. -/
def releasedIn (h : History Answer) : List ℕ :=
  h.filterMap fun x => releasedBy x.1

/-- A thread's holdings with its history. -/
abbrev Account := Local × History Answer

variable (H : Multiset Account)

/-- The reservations the threads hold. -/
def heldBy : Multiset Reservation :=
  H.bind fun ℓ => ℓ.1.held.toList

/-- The reservations handed out to the threads. -/
def issuedTo : Multiset ℕ :=
  H.bind fun ℓ => issuedIn ℓ.2

/-- The reservations the threads gave back. -/
def releasedFrom : Multiset ℕ :=
  H.bind fun ℓ => releasedIn ℓ.2

/-- The usage is that of the reservations that are held, and no reservation is lost or given back
twice. -/
structure Charged (a : Admission) (s : Shared) (H : Multiset Account) : Prop where
  committed : Committed a.profile (heldBy H + s.charges) s.admission.usage
  accounted : issuedTo H = releasedFrom H + (heldBy H + s.charges).map (·.id)
  distinct : (issuedTo H).Nodup
  fresh : ∀ id ∈ issuedTo H, id < s.admission.nextId

/-! ### The owned entries -/

section charges

variable {s : Shared} {id : WorkerId} {o o' : Owned}

theorem charges_of_perm {t : TreeMap WorkerId Owned} (h : s.owned.values.Perm (o :: t.values)) :
    s.charges = o.reservation.toList + charges { s with owned := t } := by
  rw [charges, coe_eq_coe.mpr h, ← cons_coe, cons_bind]
  rfl

theorem charges_insert (h : s.owned[id]? = none) :
    charges { s with owned := s.owned.insert id o } = o.reservation.toList + s.charges :=
  charges_of_perm (s := { s with owned := s.owned.insert id o }) (Table.values_insert h)

theorem charges_erase (h : s.owned[id]? = some o) :
    s.charges = o.reservation.toList + charges { s with owned := s.owned.erase id } :=
  charges_of_perm (Table.values_erase h)

theorem charges_replace (h : s.owned[id]? = some o) (hsame : o'.reservation = o.reservation) :
    charges { s with owned := s.owned.insert id o' } = s.charges := by
  have hperm := charges_of_perm (s := { s with owned := s.owned.insert id o' }) (t := s.owned.erase id)
    Table.values_replace
  rw [hperm, charges_erase h, hsame]

theorem charges_congr {s' : Shared} (h : s'.owned = s.owned) : s'.charges = s.charges := by
  rw [charges, h, charges]

theorem charges_of_isEmpty (h : s.owned.isEmpty = true) : s.charges = 0 := by
  have hvalues : s.owned.values = [] := by
    rw [Table.values_eq, List.map_eq_nil_iff, ← List.isEmpty_iff, TreeMap.isEmpty_toList, h]
  rw [charges, hvalues]
  rfl

end charges

variable {ℓ : Local}

theorem Own.absent {s : Shared} {F : Multiset Local} (h : Own s (ℓ ::ₘ F)) {id : WorkerId} {o : Owned}
    (hobeys : ℓ.Obeys (.own id o)) : s.owned[id]? = none := by
  obtain ⟨stage, htenure, hstage, rfl⟩ := hobeys.tenure
  obtain ⟨hholds, hfits⟩ := h.head.tenure.holds _ _ htenure
  have hlive : o.worker.phase ≠ .dead := by
    intro hdead
    rw [hdead] at hfits
    rcases hstage with rfl | rfl <;> simp [Stage.fits] at hfits
  cases hentry : s.owned[o.worker.id]? with
  | none => rfl
  | some o' =>
    obtain ⟨hholds', hid, hphase⟩ := h.sound.owned _ _ hentry
    have hlive' : o'.worker.phase ≠ .dead := by rcases hphase with hp | hp <;> simp [hp]
    have hsame := h.sound.ids _ _ _ (hid ▸ hholds'.live hlive') (hholds.live hlive)
    exact absurd hsame (h.head.tenure.apart _ _ htenure _ _ hentry)

/-! ### One step -/

section act

variable {ℓ ℓ' : Local} {hist : History Answer} {F : Multiset Account} {a : Act} {r : Answer a}

theorem filterMap_act (f : Sigma Answer → Option ℕ) (x : Sigma Answer) :
    ((hist ++ [x]).filterMap f : Multiset ℕ) = (f x).toList + hist.filterMap f := by
  rw [List.filterMap_append, ← coe_add, add_comm]
  cases hx : f x <;> simp [hx]

theorem issuedTo_act : issuedTo ((ℓ', hist ++ [⟨a, r⟩]) ::ₘ F) =
    (issuedBy a r).toList + issuedTo ((ℓ, hist) ::ₘ F) := by
  rw [issuedTo, cons_bind, issuedIn, filterMap_act, issuedTo, cons_bind, add_assoc, issuedIn]

theorem releasedFrom_act : releasedFrom ((ℓ', hist ++ [⟨a, r⟩]) ::ₘ F) =
    (releasedBy a).toList + releasedFrom ((ℓ, hist) ::ₘ F) := by
  rw [releasedFrom, cons_bind, releasedIn, filterMap_act, releasedFrom, cons_bind, add_assoc, releasedIn]

end act

namespace Charged

variable {setup : Setup} {s s' : Shared} {ℓ ℓ' : Local} {hist : History Answer} {F : Multiset Account}
  {a : Act} {r : Answer a}

variable {id : WorkerId}

theorem endStart_charges (hsound : Sound s) {handle : Option LauncherHandle} {started : Except StartFault Unit}
    {answer : StartEnd} (hheld : ℓ.held = none) (hexec : s.endStart id handle started = some (answer, s')) :
    ((heldNext ℓ.held (.endStart id handle started) answer).toList : Multiset Reservation) + s'.charges =
      ℓ.held.toList + s.charges := by
  rcases hsound.endStart_eq hexec with ⟨rfl, rfl⟩ | ⟨o, ho, hcases⟩
  · rfl
  have hback : charges
      { s with owned := s.owned.insert id { o with handle, starting := false } } = s.charges :=
    charges_replace ho rfl
  have hget : (s.owned.insert id { o with handle, starting := false })[id]? =
      some { o with handle, starting := false } := by simp
  rcases hcases with ⟨fault, rfl, rfl, rfl⟩ | ⟨rfl, rfl⟩ | ⟨cell, -, -, -, -, rfl, rfl⟩
  · rw [hheld, ← hback, charges_erase
      (s := { s with owned := s.owned.insert id { o with handle, starting := false } }) hget]
    exact (zero_add _).symm
  · exact congrArg _ hback
  · refine congrArg _ (Eq.trans ?_ hback)
    exact charges_replace (s := { s with owned := s.owned.insert id { o with handle, starting := false } }) hget rfl

theorem disown_charges {answer : Except LifecycleError Owned} (hheld : ℓ.held = none)
    (hexec : s.disown id = (answer, s')) :
    ((heldNext ℓ.held (.disown id) answer).toList : Multiset Reservation) + s'.charges =
      ℓ.held.toList + s.charges := by
  unfold disown at hexec
  split at hexec
  · cases hexec
    rfl
  rename_i o ho
  split_ifs at hexec
  · cases hexec
    rfl
  · cases hexec
    rw [hheld, charges_erase ho]
    exact (zero_add _).symm

theorem beginStart_charges {answer : Except LifecycleError (Option LauncherHandle)}
    (hexec : s.beginStart id = (answer, s')) : s'.charges = s.charges := by
  unfold beginStart at hexec
  split at hexec
  · cases hexec
    rfl
  rename_i o ho
  split_ifs at hexec
  · cases hexec
    rfl
  · cases hexec
    rfl
  · cases hexec
    exact charges_replace ho rfl

section

variable {x : Reservation} (h : Charged setup.admission s ((ℓ, hist) ::ₘ F))
include h

theorem acts
    (hcommitted : Committed setup.admission.profile
      (heldBy ((ℓ', hist ++ [⟨a, r⟩]) ::ₘ F) + s'.charges) s'.admission.usage)
    (hheld : ((issuedBy a r).toList : Multiset ℕ) + (heldBy ((ℓ, hist) ::ₘ F) + s.charges).map (·.id) =
      (releasedBy a).toList + (heldBy ((ℓ', hist ++ [⟨a, r⟩]) ::ₘ F) + s'.charges).map (·.id))
    (hnew : ∀ id ∈ issuedBy a r, s.admission.nextId ≤ id ∧ id < s'.admission.nextId)
    (hnext : s.admission.nextId ≤ s'.admission.nextId) :
    Charged setup.admission s' ((ℓ', hist ++ [⟨a, r⟩]) ::ₘ F) where
  committed := hcommitted
  accounted := by
    rw [issuedTo_act (ℓ := ℓ), releasedFrom_act (ℓ := ℓ), h.accounted, add_left_comm, hheld, add_left_comm, add_assoc]
  distinct := by
    rw [issuedTo_act (ℓ := ℓ)]
    cases hissued : issuedBy a r with
    | none => exact (zero_add (issuedTo _)).symm ▸ h.distinct
    | some id =>
      refine nodup_cons.mpr ⟨?_, h.distinct⟩
      intro hmem
      exact absurd (h.fresh id hmem) (hnew id hissued).1.not_gt
  fresh id hmem := by
    rw [issuedTo_act (ℓ := ℓ), mem_add, mem_coe, Option.mem_toList] at hmem
    rcases hmem with hmem | hmem
    · exact (hnew id hmem).2
    · exact (h.fresh id hmem).trans_le hnext

theorem moves (hissued : issuedBy a r = none)
    (hreleased : releasedBy a = none) (hadmission : s'.admission = s.admission)
    (hmove : (ℓ'.held.toList : Multiset Reservation) + s'.charges = ℓ.held.toList + s.charges) :
    Charged setup.admission s' ((ℓ', hist ++ [⟨a, r⟩]) ::ₘ F) := by
  have hheld : heldBy ((ℓ', hist ++ [⟨a, r⟩]) ::ₘ F) + s'.charges = heldBy ((ℓ, hist) ::ₘ F) + s.charges := by
    simp only [heldBy, cons_bind]
    rw [add_right_comm, hmove, add_right_comm]
  refine h.acts ?_ ?_ ?_ ?_
  · rw [hheld, hadmission]
    exact h.committed
  · rw [hheld, hissued, hreleased]
  · rw [hissued]
    exact nofun
  · rw [hadmission]

theorem reserve (hheld : ℓ.held = none)
    {admission : Capacity.State} (hreserve : setup.admission.reserve s.admission setup.shape = .ok (x, admission))
    (hheld' : ℓ'.held = some x) :
    Charged setup.admission { s with admission }
      ((ℓ', hist ++ [⟨.reserveCapacity, .ok x⟩]) ::ₘ F) := by
  obtain ⟨d, node, -, -, -, hx, hadmission⟩ := Admission.reserve_eq_ok_iff.mp hreserve
  have hid : x.id = s.admission.nextId := by rw [hx]
  have hnext : admission.nextId = s.admission.nextId + 1 := by rw [hadmission]; rfl
  have hheldBy : heldBy ((ℓ', hist ++ [⟨.reserveCapacity, .ok x⟩]) ::ₘ F) + charges { s with admission } =
      x ::ₘ (heldBy ((ℓ, hist) ::ₘ F) + s.charges) := by
    change _ + s.charges = _
    simp [heldBy, hheld, hheld', singleton_add]
  refine h.acts ?_ ?_ ?_ (hnext ▸ Nat.le_succ _)
  · rw [hheldBy]
    exact h.committed.reserve hreserve
  · rw [hheldBy, map_cons]
    exact (singleton_add _ _).trans (zero_add _).symm
  · rintro id ⟨⟩
    change _ ∧ _ < admission.nextId
    omega

theorem release (hheld : ℓ.held = some x) (hheld' : ℓ'.held = none) :
    Charged setup.admission { s with admission := setup.admission.release s.admission x }
      ((ℓ', hist ++ [⟨.releaseCapacity x, ()⟩]) ::ₘ F) := by
  have hheldBy : heldBy ((ℓ, hist) ::ₘ F) + s.charges =
      x ::ₘ (heldBy ((ℓ', hist ++ [⟨.releaseCapacity x, ()⟩]) ::ₘ F) + s.charges) := by
    simp [heldBy, hheld, hheld', singleton_add]
  have hcommitted := h.committed
  rw [hheldBy] at hcommitted
  refine h.acts hcommitted.release ?_ nofun le_rfl
  rw [hheldBy, map_cons]
  exact (zero_add _).trans (singleton_add _ _).symm

theorem launched (hheld : ℓ.held = some x) (hheld' : ℓ'.held = some (Admission.launched s.admission x).1) :
    Charged setup.admission { s with admission := (Admission.launched s.admission x).2 }
      ((ℓ', hist ++ [⟨.capacityLaunched x, (Admission.launched s.admission x).1⟩]) ::ₘ F) := by
  have hid : (Admission.launched s.admission x).1.id = x.id ∧
      (Admission.launched s.admission x).2.nextId = s.admission.nextId := by
    unfold Admission.launched
    split_ifs <;> exact ⟨rfl, rfl⟩
  have hbefore : heldBy ((ℓ, hist) ::ₘ F) + s.charges = x ::ₘ (heldBy F + s.charges) := by
    simp [heldBy, hheld, singleton_add]
  have hafter : ∀ hist, heldBy ((ℓ', hist) ::ₘ F) + s.charges =
      (Admission.launched s.admission x).1 ::ₘ (heldBy F + s.charges) := by
    simp [heldBy, hheld', singleton_add]
  have hcommitted := h.committed
  rw [hbefore] at hcommitted
  refine h.acts ?_ ?_ nofun hid.2.ge
  · change Committed _ (_ + s.charges) _
    rw [hafter]
    exact hcommitted.launched
  · change 0 + _ = 0 + map _ (_ + s.charges)
    rw [hbefore, hafter, map_cons, map_cons, hid.1]

/-- **Step lemma.** -/
theorem step (hown : Own s (ℓ ::ₘ F.map (·.1))) {e : Choice a}
    (hobeys : ℓ.Obeys a) (hexec : exec setup a e s = some (r, s')) (hnext : ℓ.next a r = some ℓ') :
    Charged setup.admission s' ((ℓ', hist ++ [⟨a, r⟩]) ::ₘ F) := by
  have hheld' := Local.next_held hnext
  have hframe := exec_frame hexec
  have hheld := hobeys.held
  cases a
  case reserveCapacity =>
    simp only [exec] at hexec
    split at hexec
    · cases hexec
      exact h.moves rfl rfl rfl (by rw [hheld']; rfl)
    · cases hexec
      rename_i hreserve
      exact h.reserve hheld hreserve hheld'
  case releaseCapacity x =>
    cases hexec
    exact h.release hheld hheld'
  case capacityLaunched x =>
    cases hexec
    exact h.launched hheld hheld'
  case own id o =>
    cases hexec
    refine h.moves rfl rfl rfl ?_
    rw [hheld', ← hheld, charges_insert (hown.absent hobeys)]
    exact zero_add _
  case beginStart id =>
    refine h.moves rfl rfl (hframe.admission rfl) ?_
    rw [hheld', beginStart_charges (Option.some.inj hexec)]
    rfl
  case endStart id handle started =>
    refine h.moves rfl rfl (hframe.admission rfl) ?_
    rw [hheld']
    exact endStart_charges hown.sound hheld hexec
  case disown id =>
    refine h.moves rfl rfl (hframe.admission rfl) ?_
    rw [hheld']
    exact disown_charges hheld (Option.some.inj hexec)
  all_goals
    refine h.moves rfl rfl (hframe.admission rfl) ?_
    rw [hheld', charges_congr (hframe.owned rfl)]
    rfl

end

theorem idle {H : Multiset Account} (h : Charged setup.admission s H) :
    Charged setup.admission s (({}, []) ::ₘ H) := by
  have hheld : heldBy (({}, []) ::ₘ H) = heldBy H := by simp [heldBy]
  have hissued : issuedTo (({}, []) ::ₘ H) = issuedTo H := by simp [issuedTo, issuedIn]
  have hreleased : releasedFrom (({}, []) ::ₘ H) = releasedFrom H := by
    simp [releasedFrom, releasedIn]
  refine ⟨hheld ▸ h.committed, ?_, hissued ▸ h.distinct, hissued ▸ h.fresh⟩
  rw [hheld, hissued, hreleased]
  exact h.accounted

theorem empty (howned : s.owned = ∅) (hadmission : s.admission = setup.admission.init) :
    Charged setup.admission s 0 := by
  have hcharges : s.charges = 0 := charges_of_isEmpty (by rw [howned]; rfl)
  refine ⟨?_, ?_, nodup_zero, fun id hid => absurd hid (notMem_zero id)⟩
  · rw [hcharges, hadmission]
    exact .init setup.admission
  · rw [hcharges]
    rfl

theorem restart (hopened : s.opened setup = some s') : Charged setup.admission s' 0 := by
  obtain ⟨m, -, rfl⟩ := opened_eq_some hopened
  exact empty rfl rfl

/-- **Run lemma.** -/
theorem reach {c : Config Answer Shared} (hreach : Reach (machine setup) (anyRun setup) (init setup) c) :
    ∃ H : List Account,
      List.Forall₂ (Thread.Keeps discipline.recording fun ℓ => ℓ.1.AtRest) c.threads H ∧
        Charged setup.admission c.shared H := by
  obtain ⟨H, hkeeps, -, hcharged⟩ := hreach.invariant discipline.recording
    (fun s H => Own s (H.map (·.1)) ∧ Charged setup.admission s H) (fun ℓ => ℓ.1.AtRest)
    ⟨.init setup, empty rfl rfl⟩
    (fun p hp => by
      obtain ⟨operation, rfl⟩ := hp
      exact (program_conduct setup operation).recording [])
    (fun s H h => ⟨by rw [map_cons]; exact h.1.idle, h.2.idle⟩)
    (fun a e s hist ℓ F r s' h _ hobeys hdraws hexec => by
      obtain ⟨hown, hcharged⟩ := h
      rw [map_cons] at hown
      obtain ⟨ℓ', hnext, hown'⟩ := hown.step hobeys hdraws hexec
      refine ⟨(ℓ', ℓ.2 ++ [⟨a, r⟩]), ?_, ?_, hcharged.step hown hobeys hexec hnext⟩
      · exact Option.map_eq_some_iff.mpr ⟨ℓ', hnext, rfl⟩
      · rwa [map_cons])
    (fun s H s' h _ hopened => ⟨h.1.restart hopened, restart hopened⟩)
  exact ⟨H, hkeeps, hcharged⟩

end Charged

/-! ### Over a whole run -/

/-- The reservation a thread holds: the last one it was handed and did not pass on. -/
def heldOf (t : Thread Answer) : Option Reservation :=
  t.history.foldl (fun held x => heldNext held x.1 x.2) none

variable (c : Config Answer Shared)

/-- The reservations that are held, by a thread or by an owned entry. -/
def reservations : Multiset Reservation :=
  (c.threads : Multiset (Thread Answer)).bind (fun t => (heldOf t).toList) + c.shared.charges

/-- The reservations handed out since the pool was opened. -/
def issued : Multiset ℕ :=
  (c.threads : Multiset (Thread Answer)).bind fun t => issuedIn t.history

/-- The reservations given back since the pool was opened. -/
def released : Multiset ℕ :=
  (c.threads : Multiset (Thread Answer)).bind fun t => releasedIn t.history

theorem held_of_after {h : History Answer} (hafter : discipline.after h = some ℓ) :
    h.foldl (fun held x => heldNext held x.1 x.2) none = ℓ.held := by
  -- the fold from any holdings
  have hgeneral : ∀ (h : History Answer) (ℓ₀ : Local), h.foldlM (fun ℓ x => discipline.next ℓ x.1 x.2) ℓ₀ = some ℓ →
        h.foldl (fun held x => heldNext held x.1 x.2) ℓ₀.held = ℓ.held := by
    intro h
    induction h with
    | nil =>
      intro ℓ₀ hfold
      cases hfold
      rfl
    | cons x h ih =>
      intro ℓ₀ hfold
      rw [List.foldlM_cons] at hfold
      obtain ⟨ℓ₁, hnext, hfold⟩ := Option.bind_eq_some_iff.mp hfold
      rw [List.foldl_cons, ← Local.next_held hnext]
      exact ih ℓ₁ hfold
  exact hgeneral h {} hafter

variable {H : List Account} {P : Thread Answer → Account → Prop} {ts : List (Thread Answer)}

theorem bind_threads {α : Type} {f : Thread Answer → List α} {g : Account → List α} (h : List.Forall₂ P ts H)
    (hfg : ∀ t ℓ, P t ℓ → f t = g ℓ) :
    ((ts : Multiset (Thread Answer)).bind fun t => (f t : Multiset α)) =
      (H : Multiset Account).bind fun ℓ => (g ℓ : Multiset α) := by
  induction h with
  | nil => rfl
  | cons hab _ ih =>
    rw [← cons_coe, ← cons_coe, cons_bind, cons_bind, ih, hfg _ _ hab]

variable {t : Thread Answer}

theorem exists_of_mem_threads (h : List.Forall₂ P ts H) (ht : t ∈ ts) : ∃ ℓ, P t ℓ := by
  induction h with
  | nil => cases ht
  | cons hab _ ih =>
    rcases List.mem_cons.mp ht with rfl | ht
    · exact ⟨_, hab⟩
    · exact ih ht

theorem finished_held {ℓ : Account} (hk : t.Keeps discipline.recording (fun ℓ => ℓ.1.AtRest) ℓ)
    (hrest : t.rest = .ret ()) : ℓ.1.held = none := by
  have hobeys := hk.obeys
  rw [hrest] at hobeys
  obtain ⟨win, hℓ, -, -⟩ := hobeys
  rw [hℓ]

/-- **Capacity is conserved.**  In every configuration any run reaches, the committed usage is the
usage of the reservations that are held; every reservation handed out was given back or is held, and
not twice; so when every thread is finished or holds nothing, and nothing is owned, nothing is
committed. -/
theorem capacity_is_conserved {setup : Setup} {c : Config Answer Shared}
    (hreach : Reach (machine setup) (anyRun setup) (init setup) c) :
    c.shared.admission.usage = .ofReservations setup.admission.profile (reservations c) ∧
      issued c = released c + (reservations c).map (·.id) ∧ (issued c).Nodup ∧
      ((∀ t ∈ c.threads, t.rest = .ret () ∨ heldOf t = none) → c.shared.owned.isEmpty = true →
        c.shared.admission.usage = .empty setup.admission.profile) := by
  obtain ⟨H, hkeeps, hcharged⟩ := Charged.reach hreach
  have hkept : ∀ t ℓ, Thread.Keeps discipline.recording (fun ℓ => ℓ.1.AtRest) t ℓ →
      heldOf t = ℓ.1.held ∧ t.history = ℓ.2 := by
    intro t ℓ hk
    obtain ⟨hafter, hhist⟩ := Discipline.recording_after hk.after
    exact ⟨held_of_after hafter, hhist.symm⟩
  have hreservations : reservations c = heldBy H + c.shared.charges := by
    rw [reservations, heldBy]
    exact congrArg (· + c.shared.charges)
      (bind_threads hkeeps fun t ℓ hk => congrArg Option.toList (hkept t ℓ hk).1)
  have hissued : issued c = issuedTo H :=
    bind_threads hkeeps fun t ℓ hk => congrArg issuedIn (hkept t ℓ hk).2
  have hreleased : released c = releasedFrom H :=
    bind_threads hkeeps fun t ℓ hk => congrArg releasedIn (hkept t ℓ hk).2
  have husage : c.shared.admission.usage = .ofReservations setup.admission.profile (reservations c) := by
    rw [hreservations]
    exact hcharged.committed.usage
  refine ⟨husage, ?_, hissued ▸ hcharged.distinct, ?_⟩
  · rw [hreservations, hissued, hreleased]
    exact hcharged.accounted
  intro hquiet howned
  have hnone : ∀ t ∈ c.threads, heldOf t = none := by
    intro t ht
    rcases hquiet t ht with hrest | hheld
    · obtain ⟨ℓ, hk⟩ := exists_of_mem_threads hkeeps ht
      rw [(hkept t ℓ hk).1]
      exact finished_held hk hrest
    · exact hheld
  have hempty : reservations c = 0 := by
    rw [reservations, charges_of_isEmpty howned, bind_congr (g := fun _ => 0) fun t ht => ?_,
      bind_zero]
    · rfl
    · rw [hnone t ht]
      rfl
  rw [husage, hempty]
  exact (Committed.init setup.admission).usage.symm

/-- A worker is constructed, launched and destroyed: its reservation is given back. -/
theorem capacity_is_conserved_after_destroy :
    ∃ c, Reach (machine smallPool) (anyRun smallPool) (init smallPool) c ∧
      released c = {1} ∧ c.shared.admission.usage = .empty smallPool.admission.profile := by
  let moves := calls .construct 0 13 (calm 7) ++ calls (.launch ⟨5, 1, 0⟩) 1 48 (calm 8) ++
    calls (.destroy 5) 2 12 (calm 9)
  have hplay : ((play smallMachine ⟨init smallPool, []⟩ moves).map fun c =>
      (released c, c.threads.all fun t => (heldOf t).isNone, c.shared.owned.isEmpty)) =
        some ({1}, true, true) := by decide +kernel
  obtain ⟨c, hc, heq⟩ := Option.map_eq_some_iff.mp hplay
  simp only [Prod.mk.injEq, List.all_eq_true, Option.isNone_iff_eq_none] at heq
  obtain ⟨hreleased, hheld, howned⟩ := heq
  have hreach := ((onlyCalls.append onlyCalls).append onlyCalls).reach hc
  exact ⟨c, hreach, hreleased, (capacity_is_conserved hreach).2.2.2 (fun t ht => .inr (hheld t ht)) howned⟩

/-- A launched Instance and a claim of the same shape: the CPU cost is that of their vCPUs together,
rounded up once, and less than the sum of the demands' own costs. -/
theorem cpu_cost_is_rounded_once :
    ∃ c, Reach (machine smallPool) (anyRun smallPool) (init smallPool) c ∧
      c.shared.admission.usage.cpuMilliUnits = 667 ∧ total (·.cpuMilliUnits) (reservations c) = 668 := by
  let moves := calls .construct 0 13 (calm 7) ++ calls (.launch ⟨5, 1, 0⟩) 1 48 (calm 8) ++
    calls (.claim 2 2) 2 2 (calm 9)
  have hplay : ((play smallMachine ⟨init smallPool, []⟩ moves).map fun c =>
      (c.shared.admission.usage.cpuMilliUnits, total (·.cpuMilliUnits) (reservations c))) =
        some (667, 668) := by decide +kernel
  obtain ⟨c, hc, heq⟩ := Option.map_eq_some_iff.mp hplay
  obtain ⟨husage, htotal⟩ := Prod.mk.inj heq
  exact ⟨c, ((onlyCalls.append onlyCalls).append onlyCalls).reach hc, husage, htotal⟩

end Soma.Host.Pool
