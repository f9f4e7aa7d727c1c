import Mathlib.Data.Multiset.AddSub
import Soma.Lib.Program

/-! # Interleaved threads over shared state

A machine gives the atomic actions of `Soma.Lib.Program` a meaning on shared state; a configuration is
the shared state with any number of threads, each the rest of its program together with its history.

* **`Machine`**: `exec a e s` is the effect of action `a` when the environment chooses `e`; `none`
  means that the action blocks. `restart` is a crash followed by a new start over what survives.
* **`Guard`** restricts runs: which programs may start, which steps may be taken, which restarts
  happen. A step is judged by the action, the environment's choice, the shared state before it and
  the history of the acting thread.
* **`Reach`** is what runs within a guard reach.
* **`Reach.invariant`** is the proof rule: when every thread keeps a discipline, an invariant of the
  shared state and the multiset of all holdings that every entitled action preserves holds in every
  configuration reached, and every thread is still entitled to the rest of its program.
* **`play`** executes an explicit schedule, for concrete runs.
-/

namespace Soma.Lib

/-- The meaning of the atomic actions on shared state. -/
structure Machine {A : Type} (R E : A → Type) (S : Type) where
  exec : (a : A) → E a → S → Option (R a × S)
  restart : S → Option S

/-- A thread: what it did and what is left of its program. -/
structure Thread {A : Type} (R : A → Type) where
  history : History R
  rest : Prog R Unit

/-- Shared state with the running threads. -/
structure Config {A : Type} (R : A → Type) (S : Type) where
  shared : S
  threads : List (Thread R)

/-- What a run may do: start a thread, let a thread act, restart. -/
structure Guard {A : Type} (R E : A → Type) (S : Type) where
  spawn : Prog R Unit → Prop
  act : (a : A) → E a → S → History R → Prop
  restart : S → Prop

section run

variable {A : Type} {R E : A → Type} {S L : Type}

/-- One step of a run. -/
inductive Step (M : Machine R E S) (G : Guard R E S) : Config R S → Config R S → Prop
  | spawn {c : Config R S} {p : Prog R Unit} :
      G.spawn p → Step M G c ⟨c.shared, c.threads ++ [⟨[], p⟩]⟩
  | act {c : Config R S} {i : ℕ} {h : History R} {a : A} {k : R a → Prog R Unit} {e : E a} {r : R a}
      {s : S} :
      c.threads[i]? = some ⟨h, .act a k⟩ → M.exec a e c.shared = some (r, s) →
      G.act a e c.shared h →
      Step M G c ⟨s, c.threads.set i ⟨h ++ [⟨a, r⟩], k r⟩⟩
  | restart {c : Config R S} {s : S} :
      M.restart c.shared = some s → G.restart c.shared → Step M G c ⟨s, []⟩

/-- The configurations runs within the guard reach from shared state `s₀` with no thread. -/
inductive Reach (M : Machine R E S) (G : Guard R E S) (s₀ : S) : Config R S → Prop
  | init : Reach M G s₀ ⟨s₀, []⟩
  | step {c c' : Config R S} : Reach M G s₀ c → Step M G c c' → Reach M G s₀ c'

/-- A thread that keeps a discipline, with its holdings. -/
structure Thread.Keeps (D : Discipline R L) (Q : L → Prop) (t : Thread R) (ℓ : L) : Prop where
  after : D.after t.history = some ℓ
  obeys : t.rest.Obeys D (fun _ => Q) ℓ

/-- Replacing one thread replaces its holdings. -/
theorem forall₂_set {α β : Type} {P : α → β → Prop} {ts : List α} {H : List β} {i : ℕ} {t u : α}
    (h : List.Forall₂ P ts H) (hget : ts[i]? = some t) :
    ∃ ℓ F, P t ℓ ∧ (H : Multiset β) = ℓ ::ₘ F ∧
      ∀ ℓ', P u ℓ' → ∃ H' : List β, List.Forall₂ P (ts.set i u) H' ∧ (H' : Multiset β) = ℓ' ::ₘ F := by
  induction h generalizing i with
  | nil => simp at hget
  | @cons a b as bs hab hrest ih =>
    cases i with
    | zero =>
      obtain rfl : a = t := by simpa using hget
      refine ⟨b, (bs : Multiset β), hab, rfl, ?_⟩
      intro ℓ' hℓ'
      exact ⟨ℓ' :: bs, .cons hℓ' hrest, rfl⟩
    | succ i =>
      obtain ⟨ℓ, F, hℓ, hF, hset⟩ := ih (by simpa using hget)
      refine ⟨ℓ, b ::ₘ F, hℓ, ?_, ?_⟩
      · rw [← Multiset.cons_coe, hF, Multiset.cons_swap]
      · intro ℓ' hℓ'
        obtain ⟨H', hH', hF'⟩ := hset ℓ' hℓ'
        refine ⟨b :: H', .cons hab hH', ?_⟩
        rw [← Multiset.cons_coe, hF', Multiset.cons_swap]

variable {s₀ : S} {c : Config R S} {G : Guard R E S} {M : Machine R E S}

/-- **Invariant rule.**  Whatever holds at the start, survives the start of a thread, every action a
thread is entitled to, and a restart, holds in every configuration reached. -/
theorem Reach.invariant (D : Discipline R L) (I : S → Multiset L → Prop) (Q : L → Prop) (hinit : I s₀ 0)
    (hspawn : ∀ p, G.spawn p → p.Obeys D (fun _ => Q) D.idle) (hidle : ∀ s H, I s H → I s (D.idle ::ₘ H))
    (hact : ∀ a e s h ℓ F r s', I s (ℓ ::ₘ F) → D.after h = some ℓ → D.obeys ℓ a → G.act a e s h →
      M.exec a e s = some (r, s') → ∃ ℓ', D.next ℓ a r = some ℓ' ∧ I s' (ℓ' ::ₘ F))
    (hrestart : ∀ s H s', I s H → G.restart s → M.restart s = some s' → I s' 0)
    (h : Reach M G s₀ c) : ∃ H : List L, List.Forall₂ (Thread.Keeps D Q) c.threads H ∧ I c.shared H := by
  induction h with
  | init => exact ⟨[], .nil, hinit⟩
  | @step c c' _ hstep ih =>
    obtain ⟨H, hkeeps, hI⟩ := ih
    cases hstep with
    | spawn hs =>
      rename_i p
      refine ⟨H ++ [D.idle], List.rel_append hkeeps (.cons ⟨rfl, hspawn p hs⟩ .nil), ?_⟩
      have hperm : ((H ++ [D.idle] : List L) : Multiset L) = D.idle ::ₘ (H : Multiset L) :=
        Multiset.coe_eq_coe.mpr (List.perm_append_singleton D.idle H)
      rw [hperm]
      exact hidle _ _ hI
    | act hget hexec hguard =>
      rename_i i h a k e r s
      obtain ⟨ℓ, F, hℓ, hF, hset⟩ := forall₂_set (u := ⟨h ++ [⟨a, r⟩], k r⟩) hkeeps hget
      rw [hF] at hI
      obtain ⟨ℓ', hnext, hI'⟩ := hact a e _ h ℓ F r s hI hℓ.after hℓ.obeys.1 hguard hexec
      have hkept : Thread.Keeps D Q ⟨h ++ [⟨a, r⟩], k r⟩ ℓ' :=
        ⟨Discipline.after_append hℓ.after hnext, hℓ.obeys.2 r ℓ' hnext⟩
      obtain ⟨H', hH', hF'⟩ := hset ℓ' hkept
      exact ⟨H', hH', hF' ▸ hI'⟩
    | restart hs hguard => exact ⟨[], .nil, hrestart _ _ _ hI hguard hs⟩

/-! ### Concrete runs -/

/-- One move of an explicit schedule; the environment answers through an oracle. -/
inductive Move (R E : A → Type)
  | spawn (p : Prog R Unit)
  | act (i : ℕ) (oracle : (a : A) → E a)
  | restart

/-- Plays a schedule; `none` when a move is not possible. -/
def play (M : Machine R E S) (c : Config R S) : List (Move R E) → Option (Config R S)
  | [] => some c
  | .spawn p :: moves => play M ⟨c.shared, c.threads ++ [⟨[], p⟩]⟩ moves
  | .act i oracle :: moves =>
    match c.threads[i]? with
    | some ⟨h, .act a k⟩ =>
      match M.exec a (oracle a) c.shared with
      | some (r, s) => play M ⟨s, c.threads.set i ⟨h ++ [⟨a, r⟩], k r⟩⟩ moves
      | none => none
    | _ => none
  | .restart :: moves =>
    match M.restart c.shared with
    | some s => play M ⟨s, []⟩ moves
    | none => none

/-- The machine without the choices that a check refuses. -/
def Machine.checked (M : Machine R E S) (allow : (a : A) → E a → S → Bool) : Machine R E S where
  exec a e s := if allow a e s then M.exec a e s else none
  restart := M.restart

/-- A schedule that plays under a check is a run, when the guard allows the threads it starts and what the
check lets pass. -/
theorem Reach.play {allow : (a : A) → E a → S → Bool} (hallow : ∀ a e s h, allow a e s → G.act a e s h)
    (hrestart : ∀ s, G.restart s) {moves : List (Move R E)} (hspawn : ∀ p, Move.spawn p ∈ moves → G.spawn p)
    {c' : Config R S} (h : Reach M G s₀ c) (hplay : Soma.Lib.play (M.checked allow) c moves = some c') :
    Reach M G s₀ c' := by
  induction moves generalizing c with
  | nil =>
    obtain rfl : c = c' := by simpa [Soma.Lib.play] using hplay
    exact h
  | cons move moves ih =>
    have htail : ∀ p, Move.spawn p ∈ moves → G.spawn p :=
      fun p hp => hspawn p (List.mem_cons_of_mem _ hp)
    cases move with
    | spawn p => exact ih htail (h.step (.spawn (hspawn p (List.mem_cons_self ..)))) hplay
    | act i oracle =>
      simp only [Soma.Lib.play] at hplay
      split at hplay
      · rename_i hist a k hget
        split at hplay
        · rename_i r s hexec
          simp only [Machine.checked] at hexec
          split_ifs at hexec with hpass
          exact ih htail (h.step (.act hget hexec (hallow _ _ _ _ hpass))) hplay
        · cases hplay
      · cases hplay
    | restart =>
      simp only [Soma.Lib.play] at hplay
      split at hplay
      · rename_i s hs
        exact ih htail (h.step (.restart hs (hrestart _))) hplay
      · cases hplay

end run

end Soma.Lib
