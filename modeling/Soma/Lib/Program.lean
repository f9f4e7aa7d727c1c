import Mathlib.Tactic.Common

/-! # Programs of atomic actions

A concurrent operation is a tree of atomic actions: each node names one action and continues with
whatever that action answered. Nothing is said here about what an action does to shared state; that
is the business of a machine (`Soma.Lib.Interleave`).

* **`Prog R α`** is such a tree over actions `A`, where action `a` answers a value of `R a`; it is a
  monad, so operations are written in the order of their source.
* **`Discipline R L`** describes how a thread uses its own holdings `L` (handles, reservations, locks):
  it starts `idle`, `next` says what it holds after an answer, `obeys` says which actions its holdings
  entitle it to.
* **`Prog.Obeys`** says that a program only performs actions it is entitled to, whatever it is
  answered, and what it returns and holds at the end. Its rules (`ret`, `call`, `bind`, `mono`) follow
  the text of a program, so a program is checked once, without looking at shared state.
-/

namespace Soma.Lib

/-- A program over atomic actions, returning a value. -/
inductive Prog {A : Type} (R : A → Type) (α : Type) : Type
  | ret (value : α)
  | act (a : A) (k : R a → Prog R α)

namespace Prog

variable {A : Type} {R : A → Type} {α β : Type}

/-- Runs a program and continues with its value. -/
def bind : Prog R α → (α → Prog R β) → Prog R β
  | ret x, f => f x
  | act a k, f => act a fun r => (k r).bind f

instance : Monad (Prog R) where
  pure := ret
  bind := bind

/-- The program of one action. -/
def call (a : A) : Prog R (R a) :=
  act a ret

@[simp] theorem pure_eq (x : α) : (pure x : Prog R α) = ret x :=
  rfl

@[simp] theorem ret_bind (x : α) (f : α → Prog R β) : (ret x >>= f) = f x :=
  rfl

@[simp] theorem act_bind (a : A) (k : R a → Prog R α) (f : α → Prog R β) :
    (act a k >>= f) = act a fun r => k r >>= f :=
  rfl

@[simp] theorem call_bind (a : A) (f : R a → Prog R β) : (call a >>= f) = act a f :=
  rfl

end Prog

/-- What a thread did so far: its actions with their answers. -/
abbrev History {A : Type} (R : A → Type) := List (Sigma R)

/-- How a thread's own holdings change with what it is answered, and what they entitle it to. An
answer that leaves no holdings (`none`) is one the thread cannot be given. -/
structure Discipline {A : Type} (R : A → Type) (L : Type) where
  idle : L
  next : L → (a : A) → R a → Option L
  obeys : L → A → Prop

/-- The holdings of a thread after a history. -/
def Discipline.after {A : Type} {R : A → Type} {L : Type} (D : Discipline R L) (h : History R) :
    Option L :=
  h.foldlM (fun ℓ x => D.next ℓ x.1 x.2) D.idle

variable {A L : Type} {R : A → Type} {D : Discipline R L}

theorem Discipline.after_append {h : History R} {ℓ ℓ' : L} {a : A} {r : R a}
    (hh : D.after h = some ℓ) (hnext : D.next ℓ a r = some ℓ') : D.after (h ++ [⟨a, r⟩]) = some ℓ' := by
  unfold Discipline.after at hh ⊢
  rw [List.foldlM_append, hh]
  simpa using hnext

/-- The discipline whose holdings keep the history as well. -/
def Discipline.recording {A : Type} {R : A → Type} {L : Type} (D : Discipline R L) :
    Discipline R (L × History R) where
  idle := (D.idle, [])
  next ℓ a r := (D.next ℓ.1 a r).map fun ℓ' => (ℓ', ℓ.2 ++ [⟨a, r⟩])
  obeys ℓ a := D.obeys ℓ.1 a

theorem Discipline.recording_next {ℓ ℓ' : L × History R} {a : A} {r : R a}
    (h : D.recording.next ℓ a r = some ℓ') : ∃ ℓ₁, D.next ℓ.1 a r = some ℓ₁ ∧ ℓ' = (ℓ₁, ℓ.2 ++ [⟨a, r⟩]) := by
  obtain ⟨ℓ₁, hnext, heq⟩ := Option.map_eq_some_iff.mp h
  exact ⟨ℓ₁, hnext, heq.symm⟩

theorem Discipline.recording_after {h : History R} {ℓ : L × History R}
    (hafter : D.recording.after h = some ℓ) : D.after h = some ℓ.1 ∧ ℓ.2 = h := by
  -- the fold from any holdings with any past
  have hgeneral : ∀ (h past : History R) (ℓ₀ : L),
      h.foldlM (fun ℓ x => D.recording.next ℓ x.1 x.2) (ℓ₀, past) = some ℓ →
        h.foldlM (fun ℓ x => D.next ℓ x.1 x.2) ℓ₀ = some ℓ.1 ∧ ℓ.2 = past ++ h := by
    intro h
    induction h with
    | nil =>
      intro past ℓ₀ hfold
      cases hfold
      simp
    | cons x h ih =>
      intro past ℓ₀ hfold
      rw [List.foldlM_cons] at hfold ⊢
      obtain ⟨ℓ', hℓ', hfold⟩ := Option.bind_eq_some_iff.mp hfold
      obtain ⟨ℓ₁, hnext, rfl⟩ := recording_next hℓ'
      obtain ⟨hrest, hpast⟩ := ih _ _ hfold
      refine ⟨Option.bind_eq_some_iff.mpr ⟨ℓ₁, hnext, hrest⟩, ?_⟩
      rw [hpast, List.append_assoc]
      rfl
  exact hgeneral h [] D.idle hafter

namespace Prog

variable {A : Type} {R : A → Type} {L α β : Type} {D : Discipline R L}

/-- Holding `ℓ`, the program performs only actions it is entitled to and ends with `Q`. -/
def Obeys (D : Discipline R L) (Q : α → L → Prop) : L → Prog R α → Prop
  | ℓ, ret x => Q x ℓ
  | ℓ, act a k => D.obeys ℓ a ∧ ∀ r ℓ', D.next ℓ a r = some ℓ' → Obeys D Q ℓ' (k r)

variable {ℓ : L} {Q : α → L → Prop}

@[simp] theorem obeys_ret {x : α} : Obeys D Q ℓ (ret x) ↔ Q x ℓ :=
  Iff.rfl

variable {p : Prog R α}

theorem Obeys.mono {Q' : α → L → Prop} (h : Obeys D Q ℓ p) (hQ : ∀ x ℓ', Q x ℓ' → Q' x ℓ') : Obeys D Q' ℓ p := by
  induction p generalizing ℓ with
  | ret x => exact hQ x ℓ h
  | act a k ih => exact ⟨h.1, fun r ℓ' hnext => ih r (h.2 r ℓ' hnext)⟩

/-- Sequencing: the second program starts with what the first one left. -/
theorem Obeys.bind {Q' : β → L → Prop} {f : α → Prog R β} (h : Obeys D Q ℓ p)
    (hf : ∀ x ℓ', Q x ℓ' → Obeys D Q' ℓ' (f x)) : Obeys D Q' ℓ (p >>= f) := by
  induction p generalizing ℓ with
  | ret x => exact hf x ℓ h
  | act a k ih => exact ⟨h.1, fun r ℓ' hnext => ih r (h.2 r ℓ' hnext)⟩

theorem Obeys.recording (h : Obeys D Q ℓ p) (past : History R) :
    Obeys D.recording (fun x ℓ' => Q x ℓ'.1) (ℓ, past) p := by
  induction p generalizing ℓ past with
  | ret x => exact h
  | act a k ih =>
    refine ⟨h.1, ?_⟩
    intro r ℓ' hℓ'
    obtain ⟨ℓ₁, hnext, rfl⟩ := Discipline.recording_next hℓ'
    exact ih r (h.2 r ℓ₁ hnext) _

end Prog

end Soma.Lib
