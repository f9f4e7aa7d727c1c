import Mathlib.Data.BitVec
import Mathlib.Tactic.Common

/-! # Machine words and free-running counters

A protocol counter of `w` bits only ever advances, modulo `2 ^ w`, and two of them are compared by
how far one is ahead of the other. As long as the distance stays below `2 ^ w` it behaves like a
difference of natural numbers, wherever on the circle the counters happen to be.
-/

namespace Soma

abbrev U16 := BitVec 16
abbrev U32 := BitVec 32
abbrev U64 := BitVec 64

namespace Serial

variable {w : ℕ}

/-- How far the counter `a` is ahead of the counter `b`. -/
def ahead (a b : BitVec w) : ℕ :=
  (a - b).toNat

theorem ahead_lt (a b : BitVec w) : ahead a b < 2 ^ w :=
  (a - b).isLt

@[simp] theorem ahead_self (a : BitVec w) : ahead a a = 0 := by
  simp [ahead]

/-- Advancing the leading counter widens the distance, short of a full turn. -/
theorem ahead_add_left {a b : BitVec w} {n : ℕ} (h : ahead a b + n < 2 ^ w) :
    ahead (a + BitVec.ofNat w n) b = ahead a b + n := by
  unfold ahead at h ⊢
  have hn : n < 2 ^ w := by omega
  rw [add_sub_right_comm, BitVec.toNat_add, BitVec.toNat_ofNat, Nat.mod_eq_of_lt hn, Nat.mod_eq_of_lt h]

/-- Advancing the trailing counter, at most up to the leading one, narrows the distance. -/
theorem ahead_add_right {a b : BitVec w} {n : ℕ} (h : n ≤ ahead a b) :
    ahead a (b + BitVec.ofNat w n) = ahead a b - n := by
  have hn : n < 2 ^ w := lt_of_le_of_lt h (ahead_lt a b)
  have hle : BitVec.ofNat w n ≤ a - b := by
    rw [BitVec.le_def, BitVec.toNat_ofNat, Nat.mod_eq_of_lt hn]
    exact h
  unfold ahead
  rw [sub_add_eq_sub_sub, BitVec.toNat_sub_of_le hle, BitVec.toNat_ofNat, Nat.mod_eq_of_lt hn]

/-- Two distances add up to the third, or to a full turn more. -/
theorem ahead_add_ahead (a b c : BitVec w) :
    ahead b c + ahead a b = ahead a c ∨ ahead b c + ahead a b = ahead a c + 2 ^ w := by
  have hsum : ahead a c = (ahead b c + ahead a b) % 2 ^ w := by
    unfold ahead
    rw [← BitVec.toNat_add, sub_add_sub_cancel']
  have hlt := ahead_lt b c
  have hlt' := ahead_lt a b
  rcases lt_or_ge (ahead b c + ahead a b) (2 ^ w) with h | h
  · exact .inl (by rw [hsum, Nat.mod_eq_of_lt h])
  · rw [Nat.mod_eq_sub_mod h, Nat.mod_eq_of_lt (by omega)] at hsum
    omega

end Serial

end Soma
