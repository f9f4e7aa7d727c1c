import Mathlib.Tactic.Common

/-! # First-match rule lists

A list of rules is read from the front: the first rule that applies to a subject decides, and a policy
decides when none does.

* **`verdict`** evaluates a list; the policy of a part of a list is what the rest of it decides
  (`verdict_append`), so a long list is read block by block.
* **`verdict_uniform`**: a block whose rules all decide alike is one condition.
-/

namespace Soma.FirstMatch

variable {R P V : Type} {applies : R → P → Bool} {decides : R → V} {policy : V} {p : P}

/-- The verdict of the first rule that applies, or else the policy. -/
def verdict (applies : R → P → Bool) (decides : R → V) (policy : V) (rules : List R) (p : P) : V :=
  match rules with
  | [] => policy
  | r :: rules => if applies r p then decides r else verdict applies decides policy rules p

@[simp] theorem verdict_nil : verdict applies decides policy [] p = policy :=
  rfl

theorem verdict_cons (r : R) (rules : List R) : verdict applies decides policy (r :: rules) p =
    if applies r p then decides r else verdict applies decides policy rules p :=
  rfl

/-- What follows a block is the policy of the block. -/
theorem verdict_append (rules rest : List R) : verdict applies decides policy (rules ++ rest) p =
    verdict applies decides (verdict applies decides policy rest p) rules p := by
  induction rules with
  | nil => rfl
  | cons r rules ih => rw [List.cons_append, verdict_cons, verdict_cons, ih]

variable {rules : List R}

/-- Rules that decide alike are one rule that applies when one of them does. -/
theorem verdict_uniform {v : V} (h : ∀ r ∈ rules, decides r = v) :
    verdict applies decides policy rules p = if ∃ r ∈ rules, applies r p then v else policy := by
  induction rules with
  | nil => simp
  | cons r rules ih =>
    rw [verdict_cons, ih fun r' hr' => h r' (List.mem_cons_of_mem _ hr'), h r (List.mem_cons_self ..)]
    by_cases hr : applies r p = true
    · simp [hr]
    · simp [hr]

/-- A block none of whose rules applies is passed. -/
theorem verdict_skip (h : ∀ r ∈ rules, applies r p = false) :
    verdict applies decides policy rules p = policy := by
  induction rules with
  | nil => rfl
  | cons r rules ih =>
    rw [verdict_cons, h r (List.mem_cons_self ..), ih fun r' hr' => h r' (List.mem_cons_of_mem _ hr')]
    rfl

/-- What is not the policy was decided by a rule that applies. -/
theorem exists_of_verdict {v : V} (h : verdict applies decides policy rules p = v) (hv : v ≠ policy) :
    ∃ r ∈ rules, applies r p ∧ decides r = v := by
  induction rules with
  | nil => exact absurd h.symm hv
  | cons r rules ih =>
    rw [verdict_cons] at h
    split_ifs at h with hr
    · exact ⟨r, List.mem_cons_self .., hr, h⟩
    · obtain ⟨r', hmem, hr'⟩ := ih h
      exact ⟨r', List.mem_cons_of_mem _ hmem, hr'⟩

end Soma.FirstMatch
