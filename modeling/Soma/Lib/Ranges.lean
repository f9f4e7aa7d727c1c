import Mathlib.Algebra.Order.Ring.Nat
import Mathlib.Order.Interval.Finset.Nat
import Mathlib.Data.Finset.Card
import Mathlib.Data.List.Chain
import Mathlib.Tactic.Common

/-! # Packing finite sets

Finite sets inside a finite set, as many elements together as it has: they are disjoint exactly when they
cover it. Half-open ranges of numbers are such sets, and a list of ranges in which each ends before the
next starts is pairwise disjoint.
-/

namespace Soma.Ranges

section packing

variable {α β : Type} [DecidableEq β]

/-- The elements some set of a list has. -/
def covered (f : α → Finset β) (xs : List α) : Finset β :=
  xs.foldr (fun x s => f x ∪ s) ∅

variable {f : α → Finset β} {xs : List α} {s : Finset β}

@[simp] theorem mem_covered {b : β} : b ∈ covered f xs ↔ ∃ x ∈ xs, b ∈ f x := by
  induction xs with
  | nil => simp [covered]
  | cons x xs ih =>
    rw [covered, List.foldr_cons, ← covered, Finset.mem_union, ih]
    simp

/-- Disjoint sets cover as many elements as they have together. -/
theorem card_covered (h : xs.Pairwise fun x y => Disjoint (f x) (f y)) :
    (covered f xs).card = (xs.map fun x => (f x).card).sum := by
  induction xs with
  | nil => rfl
  | cons x xs ih =>
    obtain ⟨hx, hxs⟩ := List.pairwise_cons.mp h
    have hdisjoint : Disjoint (f x) (covered f xs) := by
      rw [Finset.disjoint_left]
      intro b hb hcovered
      obtain ⟨y, hy, hby⟩ := mem_covered.mp hcovered
      exact Finset.disjoint_left.mp (hx y hy) hb hby
    rw [covered, List.foldr_cons, ← covered, Finset.card_union_of_disjoint hdisjoint, ih hxs,
      List.map_cons, List.sum_cons]

/-- Disjoint sets that have as many elements together as the set around them cover it. -/
theorem covered_eq_of_disjoint (hsub : ∀ x ∈ xs, f x ⊆ s) (hcard : (xs.map fun x => (f x).card).sum = s.card)
    (h : xs.Pairwise fun x y => Disjoint (f x) (f y)) : covered f xs = s := by
  refine Finset.eq_of_subset_of_card_le ?_ ?_
  · intro b hb
    obtain ⟨x, hx, hbx⟩ := mem_covered.mp hb
    exact hsub x hx hbx
  · rw [card_covered h, hcard]

end packing

section ranges

/-- The half-open range of `size` numbers from `start`. -/
def range (start size : ℕ) : Finset ℕ :=
  Finset.Ico start (start + size)

@[simp] theorem mem_range {start size n : ℕ} : n ∈ range start size ↔ start ≤ n ∧ n < start + size :=
  Finset.mem_Ico

@[simp] theorem card_range (start size : ℕ) : (range start size).card = size := by
  rw [range, Nat.card_Ico, Nat.add_sub_cancel_left]

theorem pairwise_disjoint_of_ascending {α : Type} {start size : α → ℕ} {xs : List α}
    (h : xs.IsChain fun x y => start x + size x ≤ start y) :
    xs.Pairwise fun x y => Disjoint (range (start x) (size x)) (range (start y) (size y)) := by
  have : IsTrans α fun x y => start x + size x ≤ start y :=
    ⟨fun x y z hxy hyz => by omega⟩
  refine (List.isChain_iff_pairwise.mp h).imp ?_
  intro x y hxy
  rw [Finset.disjoint_left]
  intro n hx hy
  have hx := (mem_range.mp hx).2
  have hy := (mem_range.mp hy).1
  omega

end ranges

end Soma.Ranges
