import Mathlib.Algebra.Order.Floor.Div
import Mathlib.Tactic.Common

/-! # Checked and saturating 64-bit arithmetic

Unsigned machine words as natural numbers below `2 ^ 64`. The checked operations answer `none` on
overflow and the saturating ones clamp at `wordMax`; saturating subtraction is the truncated
subtraction of `ℕ` and checked division is division guarded by its divisor.

The lemmas say when a result is exact, and what a rounded-up quotient is bounded by.
-/

namespace Soma.Lib

open List

/-- The largest 64-bit word. -/
def wordMax : ℕ := 2 ^ 64 - 1

variable (a b : ℕ)

/-- Addition that refuses to overflow. -/
def checkedAdd : Option ℕ :=
  if a + b ≤ wordMax then some (a + b) else none

/-- Multiplication that refuses to overflow. -/
def checkedMul : Option ℕ :=
  if a * b ≤ wordMax then some (a * b) else none

/-- Addition that clamps at the largest word. -/
def satAdd : ℕ :=
  min (a + b) wordMax

/-- Multiplication that clamps at the largest word. -/
def satMul : ℕ :=
  min (a * b) wordMax

/-- Division that has no answer for a zero divisor. -/
def checkedDiv : Option ℕ :=
  if b = 0 then none else some (a / b)

variable {a b c : ℕ}

theorem checkedAdd_eq_some : checkedAdd a b = some c ↔ a + b ≤ wordMax ∧ c = a + b := by
  unfold checkedAdd
  split_ifs with h
  · simp [h, eq_comm]
  · simp [h]

theorem checkedMul_eq_some : checkedMul a b = some c ↔ a * b ≤ wordMax ∧ c = a * b := by
  unfold checkedMul
  split_ifs with h
  · simp [h, eq_comm]
  · simp [h]

theorem satAdd_eq {a b : ℕ} (h : a + b ≤ wordMax) : satAdd a b = a + b :=
  min_eq_left h

theorem satMul_eq {a b : ℕ} (h : a * b ≤ wordMax) : satMul a b = a * b :=
  min_eq_left h

/-- A quotient rounded up is within a limit exactly when the numerator is within its multiple. -/
theorem add_pred_div_le_iff {a b limit : ℕ} (hb : 0 < b) : (a + (b - 1)) / b ≤ limit ↔ a ≤ limit * b := by
  rw [Nat.div_le_iff_le_mul_add_pred hb, Nat.mul_comm b limit]
  omega

variable {ε α : Type}

/-- An optional value with the error for its absence. -/
def okOr (x : Option α) (e : ε) : Except ε α :=
  match x with
  | some a => .ok a
  | none => .error e

variable {ε α β : Type} {e : ε}

theorem okOr_eq_ok {x : Option α} {a : α} : okOr x e = .ok a ↔ x = some a := by
  cases x <;> simp [okOr]

variable {f : α → Except ε β} {x : Except ε α}

/-- A computation that binds answers `b` exactly when its first part answers something from which
the rest answers `b`. -/
theorem bind_eq_ok {b : β} : x >>= f = .ok b ↔ ∃ a, x = .ok a ∧ f a = .ok b := by
  cases x with
  | error e =>
    constructor
    · intro h
      cases h
    · rintro ⟨a, h, -⟩
      cases h
  | ok a =>
    constructor
    · intro h
      exact ⟨a, rfl, h⟩
    · rintro ⟨a', h, hf⟩
      cases h
      exact hf

theorem isOk_iff_exists : x.isOk = true ↔ ∃ a, x = .ok a := by
  cases x with
  | ok a => simp [Except.isOk, Except.toBool]
  | error e => simp [Except.isOk, Except.toBool]

/-- A computation that binds fails exactly where its first part fails or the rest fails. -/
theorem bind_eq_error : x >>= f = .error e ↔ x = .error e ∨ ∃ a, x = .ok a ∧ f a = .error e := by
  cases x with
  | error e' =>
    constructor
    · intro h
      injection h with h
      exact .inl (congrArg _ h)
    · rintro (h | ⟨a, h, -⟩)
      · injection h with h
        rw [h]
        rfl
      · cases h
  | ok a =>
    constructor
    · intro h
      exact .inr ⟨a, rfl, h⟩
    · rintro (h | ⟨a', h, hf⟩)
      · cases h
      · cases h
        exact hf

variable (check : α → Except ε Unit)

/-- The values that pass a check. -/
abbrev Valid := { x : α // check x = .ok () }

/-- A value that passed its check. -/
def validate (x : α) : Except ε (Valid check) :=
  match h : check x with
  | .ok () => .ok ⟨x, h⟩
  | .error e => .error e

variable {check : α → Except ε Unit} {y : Valid check}

theorem validate_val (y : Valid check) : validate check y.1 = .ok y := by
  unfold validate
  split
  · rfl
  · next e he => rw [y.2] at he; cases he

theorem val_of_validate {x : α} (h : validate check x = .ok y) : y.1 = x := by
  unfold validate at h
  split at h
  · cases h; rfl
  · cases h

theorem validate_eq_ok {x : α} : validate check x = .ok y ↔ y.1 = x :=
  ⟨val_of_validate, fun h => h ▸ validate_val y⟩

theorem validate_isOk {x : α} : (validate check x).isOk ↔ check x = .ok () := by
  unfold validate
  split
  · next h => simp [h, Except.isOk, Except.toBool]
  · next e h => simp [h, Except.isOk, Except.toBool]

/-- A condition with the error for its failure. -/
def ensure {ε : Type} (c : Prop) [Decidable c] (e : ε) : Except ε Unit :=
  if c then .ok () else .error e

/-- A check of a value that may be absent. -/
def forSome (x : Option α) (f : α → Except ε Unit) : Except ε Unit :=
  x.elim (.ok ()) f

theorem ensure_eq_ok {c : Prop} [Decidable c] {u : Unit} : ensure c e = .ok u ↔ c := by
  unfold ensure
  split_ifs with h
  · simp [h]
  · simp [h]

theorem forSome_eq_ok {x : Option α} {f : α → Except ε Unit} : forSome x f = .ok () ↔ ∀ a ∈ x, f a = .ok () := by
  cases x <;> simp [forSome]

/-- A check, then the rest. -/
theorem seq_eq_ok {x : Except ε Unit} {y : Unit → Except ε β} {b : β} :
    x >>= y = .ok b ↔ x = .ok () ∧ y () = .ok b := by
  rw [bind_eq_ok]
  constructor
  · rintro ⟨⟨⟩, hx, hy⟩
    exact ⟨hx, hy⟩
  · rintro ⟨hx, hy⟩
    exact ⟨(), hx, hy⟩

variable {xs : List α}

/-- A loop of checks passes exactly when every check does. -/
theorem forM_eq_ok {f : α → Except ε Unit} : xs.forM f = .ok () ↔ ∀ x ∈ xs, f x = .ok () := by
  induction xs with
  | nil => simp [pure, Except.pure]
  | cons x xs ih =>
    change (f x >>= fun _ => xs.forM f) = _ ↔ _
    rw [bind_eq_ok]
    simp only [mem_cons, forall_eq_or_imp, ← ih]
    constructor
    · rintro ⟨⟨⟩, hx, hxs⟩
      exact ⟨hx, hxs⟩
    · rintro ⟨hx, hxs⟩
      exact ⟨_, hx, hxs⟩

variable {ys : List β}

/-- A loop that turns each element into a result answers the results in order. -/
theorem mapM_eq_ok : xs.mapM f = .ok ys ↔ Forall₂ (fun x y => f x = .ok y) xs ys := by
  induction xs generalizing ys with
  | nil =>
    rw [mapM_nil, forall₂_nil_left_iff]
    constructor
    · intro h
      cases h
      rfl
    · intro h
      rw [h]
      rfl
  | cons x xs ih =>
    rw [mapM_cons, bind_eq_ok]
    constructor
    · intro h
      obtain ⟨y, hy, h⟩ := h
      obtain ⟨rest, hrest, h⟩ := bind_eq_ok.mp h
      cases h
      exact .cons hy (ih.mp hrest)
    · intro h
      cases h with
      | cons hy hrest => exact ⟨_, hy, bind_eq_ok.mpr ⟨_, ih.mpr hrest, rfl⟩⟩

variable {R : α → β → Prop}

/-- Elements related one by one have the same images where the relation says so. -/
theorem map_eq_of_forall₂ {γ : Type} {f : α → γ} {g : β → γ} (hR : ∀ x y, R x y → f x = g y)
    (h : Forall₂ R xs ys) : xs.map f = ys.map g := by
  induction h with
  | nil => rfl
  | cons hxy _ ih => rw [map_cons, map_cons, hR _ _ hxy, ih]

theorem exists_of_mem_forall₂ {x : α} (h : Forall₂ R xs ys) (hx : x ∈ xs) : ∃ y ∈ ys, R x y := by
  induction h with
  | nil => cases hx
  | cons hxy _ ih =>
    rcases mem_cons.mp hx with rfl | hx
    · exact ⟨_, mem_cons_self, hxy⟩
    · obtain ⟨y, hy, hR⟩ := ih hx
      exact ⟨y, mem_cons_of_mem _ hy, hR⟩

/-- What holds of the steps done so far is carried along a loop that succeeds. -/
theorem foldlM_run {σ : Type} {f : σ → α → Except ε σ} (P : List α → σ → Prop) {s s' : σ}
    (step : ∀ done x rest, xs = done ++ x :: rest → ∀ {t t'}, f t x = .ok t' → P done t →
      P (done ++ [x]) t')
    (h : xs.foldlM f s = .ok s') (hs : P [] s) : P xs s' := by
  suffices hgen : ∀ rest done t, xs = done ++ rest → rest.foldlM f t = .ok s' → P done t → P xs s' from
    hgen xs [] s rfl h hs
  intro rest
  induction rest with
  | nil =>
    intro done t hxs h hP
    have heq : t = s' := by simpa [pure, Except.pure] using h
    have hdone : xs = done := by simpa using hxs
    rw [hdone, ← heq]
    exact hP
  | cons x rest ih =>
    intro done t hxs h hP
    rw [foldlM_cons] at h
    obtain ⟨t', ht, hrest⟩ := bind_eq_ok.mp h
    have hnext : P (done ++ [x]) t' := step done x rest hxs ht hP
    exact ih (done ++ [x]) t' (by simpa using hxs) hrest hnext

/-- A loop of checks over the elements with their indices. -/
def forIdx (xs : List α) (f : ℕ → α → Except ε Unit) : Except ε Unit :=
  xs.zipIdx.forM fun (x, i) => f i x

variable {f : ℕ → α → Except ε Unit}

theorem forIdx_eq_ok :
    forIdx xs f = .ok () ↔ ∀ i x, xs[i]? = some x → f i x = .ok () := by
  rw [forIdx, forM_eq_ok]
  constructor
  · intro h i x hx
    exact h (x, i) (mem_zipIdx_iff_getElem?.mpr hx)
  · rintro h ⟨x, i⟩ hx
    exact h i x (mem_zipIdx_iff_getElem?.mp hx)

variable {P : α → Prop}

/-- The index only names the element that failed. -/
theorem forIdx_eq_ok_of (h : ∀ i x, f i x = .ok () ↔ P x) :
    forIdx xs f = .ok () ↔ ∀ x ∈ xs, P x := by
  rw [forIdx_eq_ok]
  constructor
  · intro hall x hx
    obtain ⟨i, hi⟩ := mem_iff_getElem?.mp hx
    exact (h i x).mp (hall i x hi)
  · intro hall i x hx
    exact (h i x).mpr (hall x (mem_iff_getElem?.mpr ⟨i, hx⟩))

/-- A loop that turns each element into a result, seeing the earlier elements and their results. -/
def collect {ε α β : Type} (f : List (α × β) → α → Except ε β) :
    List (α × β) → List α → Except ε (List β)
  | _, [] => .ok []
  | earlier, x :: xs => do
    let y ← f earlier x
    let ys ← collect f (earlier ++ [(x, y)]) xs
    return y :: ys

/-- Where an iteration computes `g`, under a condition on its element and one against each earlier
element, the loop computes `g` everywhere, under the conditions on the elements and on the pairs. -/
theorem collect_eq_ok {f : List (α × β) → α → Except ε β} {g : α → β} {Q : α → α → Prop} {earlier : List (α × β)}
    (hf : ∀ earlier, (∀ e ∈ earlier, e.2 = g e.1) → ∀ x ∈ xs, ∀ y,
      f earlier x = .ok y ↔ P x ∧ (∀ e ∈ earlier, Q e.1 x) ∧ y = g x)
    (hearlier : ∀ e ∈ earlier, e.2 = g e.1) :
    collect f earlier xs = .ok ys ↔ (∀ x ∈ xs, P x) ∧ xs.Pairwise Q
      ∧ (∀ e ∈ earlier, ∀ x ∈ xs, Q e.1 x) ∧ ys = xs.map g := by
  induction xs generalizing earlier ys with
  | nil => simp [collect, eq_comm]
  | cons x xs ih =>
    have hx := hf earlier hearlier x mem_cons_self
    have hnext : ∀ e ∈ earlier ++ [(x, g x)], e.2 = g e.1 :=
      forall_mem_append.mpr ⟨hearlier, forall_mem_singleton.mpr rfl⟩
    have ih : ∀ ys, _ := fun ys => @ih ys _ (fun e he y hy => hf e he y (mem_cons_of_mem _ hy)) hnext
    rw [collect, bind_eq_ok]
    simp only [mem_cons, forall_eq_or_imp, pairwise_cons, map_cons]
    constructor
    · rintro ⟨y, hy, h⟩
      obtain ⟨hP, hQ, rfl⟩ := (hx y).mp hy
      obtain ⟨rest, hrest, h⟩ := bind_eq_ok.mp h
      cases h
      obtain ⟨hPs, hpairs, hQs, rfl⟩ := (ih rest).mp hrest
      refine ⟨⟨hP, hPs⟩, ⟨fun b hb => ?_, hpairs⟩, fun e he => ⟨hQ e he, fun b hb => ?_⟩, rfl⟩
      · exact hQs (x, g x) (mem_append_right _ (mem_singleton_self _)) b hb
      · exact hQs e (mem_append_left _ he) b hb
    · rintro ⟨⟨hP, hPs⟩, ⟨hfirst, hpairs⟩, hQ, rfl⟩
      refine ⟨g x, (hx _).mpr ⟨hP, fun e he => (hQ e he).1, rfl⟩, ?_⟩
      refine bind_eq_ok.mpr ⟨xs.map g, (ih _).mpr ⟨hPs, hpairs, ?_, rfl⟩, rfl⟩
      exact forall_mem_append.mpr ⟨fun e he => (hQ e he).2, forall_mem_singleton.mpr hfirst⟩

/-- A loop of checks, each seeing the earlier elements. -/
def forEarlier (f : List α → α → Except ε Unit) : List α → List α → Except ε Unit
  | _, [] => .ok ()
  | earlier, x :: xs => do
    f earlier x
    forEarlier f (earlier ++ [x]) xs

theorem forEarlier_eq_ok {f : List α → α → Except ε Unit} {earlier xs : List α} :
    forEarlier f earlier xs = .ok () ↔
      ∀ before x after, xs = before ++ x :: after → f (earlier ++ before) x = .ok () := by
  induction xs generalizing earlier with
  | nil => simp [forEarlier]
  | cons y ys ih =>
    rw [forEarlier, seq_eq_ok, ih]
    constructor
    · rintro ⟨hy, hys⟩ before x after heq
      cases before with
      | nil =>
        cases heq
        rwa [append_nil]
      | cons b before =>
        cases heq
        rw [append_cons]
        exact hys before x after rfl
    · intro h
      refine ⟨?_, fun before x after heq => ?_⟩
      · have := h [] y ys rfl
        rwa [append_nil] at this
      · rw [← append_cons]
        exact h (y :: before) x after (by rw [heq, cons_append])

/-- Refuses an element that an earlier one equals in the compared parts. -/
def distinct (same : α → α → Bool) (e : α → ε) (xs : List α) : Except ε Unit :=
  forEarlier (fun earlier x => ensure (¬ earlier.any (same · x)) (e x)) [] xs

/-- A loop of checks over the neighbours. -/
def forNeighbours (f : α → α → Except ε Unit) : List α → Except ε Unit
  | x :: y :: rest => do
    f x y
    forNeighbours f (y :: rest)
  | _ => .ok ()

theorem forNeighbours_eq_ok {f : α → α → Except ε Unit} {R : α → α → Prop} (hf : ∀ x y, f x y = .ok () ↔ R x y) :
    forNeighbours f xs = .ok () ↔ xs.IsChain R := by
  induction xs with
  | nil => simp [forNeighbours]
  | cons x xs ih =>
    cases xs with
    | nil => simp [forNeighbours]
    | cons y rest => rw [forNeighbours, seq_eq_ok, hf, ih, isChain_cons_cons]

theorem mapError_eq_ok {ε' : Type} {f : ε → ε'} {a : α} : x.mapError f = .ok a ↔ x = .ok a := by
  cases x <;> simp [Except.mapError]

theorem okOr_eq_error {x : Option α} {e e' : ε} : okOr x e = .error e' ↔ x = none ∧ e = e' := by
  cases x <;> simp [okOr]

end Soma.Lib
