import Soma.Lib.Interleave

/-! # A program that runs alone

`Runs M p s h x s'`: started in shared state `s`, with no other thread acting, the program performs the
history `h`, answers `x` and leaves `s'`. The environment's choices are open; `runWith` executes one
run in which an oracle makes them.
-/

namespace Soma.Lib

variable {A : Type} {R E : A → Type} {S α β : Type}

inductive Runs (M : Machine R E S) : Prog R α → S → History R → α → S → Prop
  | ret {x : α} {s : S} : Runs M (.ret x) s [] x s
  | act {a : A} {k : R a → Prog R α} {e : E a} {r : R a} {s s₁ s' : S} {h : History R} {x : α} :
      M.exec a e s = some (r, s₁) → Runs M (k r) s₁ h x s' → Runs M (.act a k) s (⟨a, r⟩ :: h) x s'

namespace Runs

variable {M : Machine R E S} {s s' : S} {h : History R} {x : α}

theorem of_ret {y : α} (hrun : Runs M (.ret y) s h x s') : h = [] ∧ x = y ∧ s' = s := by
  cases hrun
  exact ⟨rfl, rfl, rfl⟩

theorem of_act {a : A} {k : R a → Prog R α} (hrun : Runs M (.act a k) s h x s') :
    ∃ e r s₁ h₁, M.exec a e s = some (r, s₁) ∧ h = ⟨a, r⟩ :: h₁ ∧ Runs M (k r) s₁ h₁ x s' := by
  cases hrun with
  | act hexec hrest => exact ⟨_, _, _, _, hexec, rfl, hrest⟩

theorem of_call_bind {a : A} {k : R a → Prog R α} (hrun : Runs M (Prog.call a >>= k) s h x s') :
    ∃ e r s₁ h₁, M.exec a e s = some (r, s₁) ∧ h = ⟨a, r⟩ :: h₁ ∧ Runs M (k r) s₁ h₁ x s' :=
  hrun.of_act

theorem of_bind {p : Prog R α} {f : α → Prog R β} {y : β} (hrun : Runs M (p >>= f) s h y s') :
    ∃ h₁ x s₁ h₂, h = h₁ ++ h₂ ∧ Runs M p s h₁ x s₁ ∧ Runs M (f x) s₁ h₂ y s' := by
  induction p generalizing s h with
  | ret x => exact ⟨[], x, s, h, rfl, .ret, hrun⟩
  | act a k ih =>
    obtain ⟨e, r, s₁, h₁, hexec, rfl, hrest⟩ := hrun.of_act
    obtain ⟨h₁, x, s₂, h₂, rfl, hp, hf⟩ := ih r hrest
    exact ⟨⟨a, r⟩ :: h₁, x, s₂, h₂, rfl, .act hexec hp, hf⟩

end Runs

/-- Executes a program alone; `none` when an action blocks. -/
def runWith (M : Machine R E S) (oracle : (a : A) → E a) :
    Prog R α → S → Option (History R × α × S)
  | .ret x, s => some ([], x, s)
  | .act a k, s =>
    match M.exec a (oracle a) s with
    | some (r, s₁) => (runWith M oracle (k r) s₁).map fun run => (⟨a, r⟩ :: run.1, run.2)
    | none => none

theorem Runs.of_runWith {M : Machine R E S} {oracle : (a : A) → E a} {p : Prog R α} {s s' : S}
    {h : History R} {x : α} (hrun : runWith M oracle p s = some (h, x, s')) : Runs M p s h x s' := by
  induction p generalizing s h with
  | ret y =>
    cases hrun
    exact .ret
  | act a k ih =>
    rw [runWith] at hrun
    split at hrun
    · rename_i r s₁ hexec
      obtain ⟨⟨h₁, x₁, s₂⟩, hrest, heq⟩ := Option.map_eq_some_iff.mp hrun
      cases heq
      exact .act hexec (ih r hrest)
    · cases hrun

end Soma.Lib
