import Soma.Lib.Program

/-! # A server that can crash

A service runs one program at a time over a world that outlives its process: it boots, serves requests
one after another, and can be stopped between any two actions and started again.

* **`Prog.Safe`**: from a world, whatever the environment chooses within an allowance, a condition holds
  at every point of a program (so it holds wherever the process is stopped), and the program ends with
  a postcondition. The rules `bind`, `mono`, `conj` follow the text of a program.
* **`Prog.All`** bounds the actions a program is written with and **`Prog.Returns`** the values it may
  return; `Safe.of_all` turns a footprint into a condition that holds at every point.
* **`Service.Reach`** is what runs within a guard reach; `Reach.invariant` is the proof rule. A request
  is judged against the memory and the world it found, which a configuration remembers.
* **`Service.play`** executes an explicit schedule under a computable guard, for concrete runs
  (`Reach.exists_of_play`).
-/

namespace Soma.Lib

variable {A : Type} {R E : A → Type} {S O M Q α β ε : Type}

namespace Prog

/-! ## Footprints -/

/-- Every action the program may perform satisfies `ok`. -/
def All (ok : A → Prop) : Prog R α → Prop
  | ret _ => True
  | act a k => ok a ∧ ∀ r, All ok (k r)

variable {ok : A → Prop}

theorem all_call {a : A} (h : ok a) : All ok (call a : Prog R (R a)) :=
  ⟨h, fun _ => trivial⟩

variable {p : Prog R α} {f : α → Prog R β}

theorem All.bind (hp : All ok p) (hf : ∀ x, All ok (f x)) : All ok (p >>= f) := by
  induction p with
  | ret x => exact hf x
  | act a k ih => exact ⟨hp.1, fun r => ih r (hp.2 r)⟩

/-- A program that stops at its first failure. -/
theorem All.andThen {p : ExceptT ε (Prog R) α} {f : α → ExceptT ε (Prog R) β} (hp : All ok p.run)
    (hf : ∀ x, All ok (f x).run) : All ok (p >>= f).run := by
  refine hp.bind fun r => ?_
  cases r with
  | ok x => exact hf x
  | error e => trivial

/-- Every value the program may return satisfies `P`. -/
def Returns (P : α → Prop) : Prog R α → Prop
  | ret x => P x
  | act _ k => ∀ r, Returns P (k r)

theorem returns_true : Returns (fun _ => True) p := by
  induction p with
  | ret x => trivial
  | act a k ih => exact ih

theorem Returns.bind {P : α → Prop} {P' : β → Prop} (hp : Returns P p) (hf : ∀ x, P x → Returns P' (f x)) :
    Returns P' (p >>= f) := by
  induction p with
  | ret x => exact hf x hp
  | act a k ih => exact fun r => ih r (hp r)

/-! ## Safety -/

section safe

variable (exec : (a : A) → E a → S → Option (R a × S)) (allow : (a : A) → E a → S → Prop)

/-- `C` holds at every point of the program and `P` at its end. -/
def Safe (C : S → Prop) (P : α → S → Prop) : Prog R α → S → Prop
  | ret x, s => C s ∧ P x s
  | act a k, s => C s ∧ ∀ e r s', exec a e s = some (r, s') → allow a e s → Safe C P (k r) s'

variable {exec allow} {C C' : S → Prop} {P P' : α → S → Prop} {p : Prog R α} {s : S}

theorem safe_ret {x : α} (hC : C s) (hP : P x s) : Safe exec allow C P (ret x) s :=
  ⟨hC, hP⟩

theorem safe_act {a : A} {k : R a → Prog R α} (hC : C s)
    (h : ∀ e r s', exec a e s = some (r, s') → allow a e s → Safe exec allow C P (k r) s') :
    Safe exec allow C P (act a k) s :=
  ⟨hC, h⟩

theorem safe_true : Safe exec allow (fun _ => True) (fun _ _ => True) p s := by
  induction p generalizing s with
  | ret x => exact ⟨trivial, trivial⟩
  | act a k ih => exact ⟨trivial, fun _ r _ _ _ => ih r⟩

theorem Safe.bind {f : α → Prog R β} {P' : β → S → Prop} (h : Safe exec allow C P p s)
    (hf : ∀ x s, C s → P x s → Safe exec allow C P' (f x) s) : Safe exec allow C P' (p >>= f) s := by
  induction p generalizing s with
  | ret x => exact hf x s h.1 h.2
  | act a k ih => exact ⟨h.1, fun e r s' hexec hallow => ih r (h.2 e r s' hexec hallow)⟩

section

variable (h : Safe exec allow C P p s)
include h

theorem Safe.here : C s := by
  cases p with
  | ret x => exact h.1
  | act a k => exact h.1

theorem Safe.mono (hC : ∀ s, C s → C' s) (hP : ∀ x s, C s → P x s → P' x s) : Safe exec allow C' P' p s := by
  induction p generalizing s with
  | ret x => exact ⟨hC s h.1, hP x s h.1 h.2⟩
  | act a k ih => exact ⟨hC s h.1, fun e r s' hexec hallow => ih r (h.2 e r s' hexec hallow)⟩

theorem Safe.weaken (hC : ∀ s, C s → C' s) : Safe exec allow C' P p s :=
  h.mono hC fun _ _ _ hP => hP

theorem Safe.and_here : Safe exec allow C (fun x s => C s ∧ P x s) p s :=
  h.mono (fun _ hC => hC) fun _ _ hC hP => ⟨hC, hP⟩

/-- A program without failures inside one that stops at its first failure. -/
theorem Safe.lift : Safe exec allow C (fun (r : Except ε α) s => ∃ x, r = .ok x ∧ P x s) (ExceptT.lift p).run s :=
  h.bind fun x _ hC hP => ⟨hC, x, rfl, hP⟩

theorem Safe.conj (h' : Safe exec allow C' P' p s) :
    Safe exec allow (fun s => C s ∧ C' s) (fun x s => P x s ∧ P' x s) p s := by
  induction p generalizing s with
  | ret x => exact ⟨⟨h.1, h'.1⟩, h.2, h'.2⟩
  | act a k ih =>
    exact ⟨⟨h.1, h'.1⟩, fun e r s' hexec hallow => ih r (h.2 e r s' hexec hallow) (h'.2 e r s' hexec hallow)⟩

theorem Safe.returns {P' : α → Prop} (hp : Returns P' p) : Safe exec allow C (fun x s => P x s ∧ P' x) p s := by
  induction p generalizing s with
  | ret x => exact ⟨h.1, h.2, hp⟩
  | act a k ih => exact ⟨h.1, fun e r s' hexec hallow => ih r (h.2 e r s' hexec hallow) (hp r)⟩

end

/-- Sequencing in a program that stops at its first failure. -/
theorem Safe.andThen {p : ExceptT ε (Prog R) α} {f : α → ExceptT ε (Prog R) β} {P : Except ε α → S → Prop}
    {P' : Except ε β → S → Prop} (h : Safe exec allow C P p.run s)
    (hok : ∀ x s, C s → P (.ok x) s → Safe exec allow C P' (f x).run s)
    (herror : ∀ e s, C s → P (.error e) s → P' (.error e) s) : Safe exec allow C P' (p >>= f).run s := by
  refine h.bind fun r s hC hP => ?_
  cases r with
  | ok x => exact hok x s hC hP
  | error e => exact ⟨hC, herror e s hC hP⟩

/-- **Footprint rule.**  What every action of the footprint preserves holds throughout. -/
theorem Safe.of_all {ok : A → Prop} (h : All ok p)
    (hstep : ∀ a e s r s', ok a → C s → exec a e s = some (r, s') → allow a e s → C s') (hs : C s) :
    Safe exec allow C (fun _ => C) p s := by
  induction p generalizing s with
  | ret x => exact ⟨hs, hs⟩
  | act a k ih =>
    exact ⟨hs, fun e r s' hexec hallow => ih r (h.2 r) (hstep a e s r s' h.1 hs hexec hallow)⟩

end safe

end Prog

/-! ## Services -/

/-- The meaning of the actions, what a restart finds, and the two programs of the process. A boot that
fails leaves no process (`none`). -/
structure Service {A : Type} (R E : A → Type) (S O M Q : Type) where
  exec : (a : A) → E a → S → Option (R a × S)
  revive : O → S → S
  boot : O → Prog R (Option M)
  serve : Q → M → Prog R M

namespace Service

/-- What a run may do. -/
structure Guard {A : Type} (E : A → Type) (S O M Q : Type) where
  act : (a : A) → E a → S → Prop
  request : Q → M → S → Prop
  restart : O → S → Prop

/-- The world, the rest of the running program, and the request being served (or served last) with the
memory and the world it found. -/
structure Config {A : Type} (R : A → Type) (S M Q : Type) where
  world : S
  rest : Prog R (Option M)
  serving : Option (Q × M × S)

inductive Step (V : Service R E S O M Q) (G : Guard E S O M Q) : Config R S M Q → Config R S M Q → Prop
  | act {c : Config R S M Q} {a : A} {k : R a → Prog R (Option M)} {e : E a} {r : R a} {s : S} :
      c.rest = .act a k → V.exec a e c.world = some (r, s) → G.act a e c.world →
      Step V G c ⟨s, k r, c.serving⟩
  | request {c : Config R S M Q} {m : M} {q : Q} :
      c.rest = .ret (some m) → G.request q m c.world →
      Step V G c ⟨c.world, V.serve q m >>= fun m => .ret (some m), some (q, m, c.world)⟩
  | restart {c : Config R S M Q} {o : O} :
      G.restart o c.world → Step V G c ⟨V.revive o c.world, V.boot o, none⟩

/-- The configurations runs within the guard reach from a world without a process. -/
inductive Reach (V : Service R E S O M Q) (G : Guard E S O M Q) (s₀ : S) : Config R S M Q → Prop
  | init : Reach V G s₀ ⟨s₀, .ret none, none⟩
  | step {c c' : Config R S M Q} : Reach V G s₀ c → Step V G c c' → Reach V G s₀ c'

variable {s₀ : S} {G : Guard E S O M Q} {V : Service R E S O M Q}

/-- **Invariant rule.**  `C` is a condition on the world at every point, given the request being served;
`I` is what additionally holds of memory and world between requests. -/
theorem Reach.invariant (C : Option (Q × M × S) → S → Prop) (I : Option (Q × M × S) → M → S → Prop)
    (hinit : C none s₀)
    (hboot : ∀ o serving s, C serving s → G.restart o s →
      (V.boot o).Safe V.exec G.act (C none) (fun m? s' => ∀ m, m? = some m → I none m s') (V.revive o s))
    (hserve : ∀ q serving m s, C serving s → I serving m s → G.request q m s →
      (V.serve q m).Safe V.exec G.act (C (some (q, m, s))) (I (some (q, m, s))) s)
    {c : Config R S M Q} (h : Reach V G s₀ c) :
    c.rest.Safe V.exec G.act (C c.serving) (fun m? s => ∀ m, m? = some m → I c.serving m s) c.world := by
  induction h with
  | init => exact ⟨hinit, fun m hm => by cases hm⟩
  | @step c c' _ hstep ih =>
    cases hstep with
    | act hrest hexec hallow =>
      rw [hrest] at ih
      exact ih.2 _ _ _ hexec hallow
    | request hrest hrequest =>
      rw [hrest] at ih
      refine (hserve _ _ _ _ ih.1 (ih.2 _ rfl) hrequest).bind fun m s hC hI => ⟨hC, ?_⟩
      intro m' hm'
      cases hm'
      exact hI
    | restart hrestart => exact hboot _ _ _ ih.here hrestart

/-- A guard that is at least as strict as another. -/
structure Guard.Le (G G' : Guard E S O M Q) : Prop where
  act : ∀ a e s, G.act a e s → G'.act a e s
  request : ∀ q m s, G.request q m s → G'.request q m s
  restart : ∀ o s, G.restart o s → G'.restart o s

/-- A stricter guard allows fewer runs. -/
theorem Reach.mono {G' : Guard E S O M Q} {c : Config R S M Q} (h : Reach V G s₀ c) (hle : G.Le G') :
    Reach V G' s₀ c := by
  induction h with
  | init => exact .init
  | step _ hstep ih =>
    refine ih.step ?_
    cases hstep with
    | act hrest hexec hallow => exact .act hrest hexec (hle.act _ _ _ hallow)
    | request hrest hallow => exact .request hrest (hle.request _ _ _ hallow)
    | restart hallow => exact .restart (hle.restart _ _ hallow)

/-! ### Concrete runs -/

/-- One move of an explicit schedule: run to the end of the program, or a number of actions, with an
oracle for the environment; serve a request; restart. -/
inductive Move (E : A → Type) (O Q : Type)
  | finish (oracle : (a : A) → E a)
  | act (oracle : (a : A) → E a) (n : ℕ)
  | request (q : Q)
  | restart (o : O)

/-- A guard that can be computed. -/
structure Check {A : Type} (E : A → Type) (S O M Q : Type) where
  act : (a : A) → E a → S → Bool
  request : Q → M → S → Bool
  restart : O → S → Bool

def Check.guard (D : Check E S O M Q) : Guard E S O M Q :=
  ⟨fun a e s => D.act a e s, fun q m s => D.request q m s, fun o s => D.restart o s⟩

/-- Runs a program for at most `n` actions. -/
def acts (V : Service R E S O M Q) (D : Check E S O M Q) (oracle : (a : A) → E a) :
    ℕ → Prog R (Option M) → S → Option (Prog R (Option M) × S)
  | 0, p, s => some (p, s)
  | _ + 1, .ret x, s => some (.ret x, s)
  | n + 1, .act a k, s =>
    if D.act a (oracle a) s then match V.exec a (oracle a) s with
      | some (r, s') => V.acts D oracle n (k r) s'
      | none => none
    else none

/-- Runs a program to its end. -/
def finish (V : Service R E S O M Q) (D : Check E S O M Q) (oracle : (a : A) → E a) :
    Prog R (Option M) → S → Option (Option M × S)
  | .ret x, s => some (x, s)
  | .act a k, s =>
    if D.act a (oracle a) s then match V.exec a (oracle a) s with
      | some (r, s') => V.finish D oracle (k r) s'
      | none => none
    else none

/-- Plays a schedule; `none` when a move is not possible or the check refuses it. -/
def play (V : Service R E S O M Q) (D : Check E S O M Q) (c : Config R S M Q) :
    List (Move E O Q) → Option (Config R S M Q)
  | [] => some c
  | .finish oracle :: moves => match V.finish D oracle c.rest c.world with
    | some (x, s) => V.play D ⟨s, .ret x, c.serving⟩ moves
    | none => none
  | .act oracle n :: moves => match V.acts D oracle n c.rest c.world with
    | some (p, s) => V.play D ⟨s, p, c.serving⟩ moves
    | none => none
  | .request q :: moves => match c.rest with
    | .ret (some m) =>
      if D.request q m c.world then
        V.play D ⟨c.world, V.serve q m >>= fun m => .ret (some m), some (q, m, c.world)⟩ moves
      else none
    | _ => none
  | .restart o :: moves =>
    if D.restart o c.world then V.play D ⟨V.revive o c.world, V.boot o, none⟩ moves else none

section play

variable {V : Service R E S O M Q} {D : Check E S O M Q} {s₀ : S} {s : S} {c : Config R S M Q}
  {oracle : (a : A) → E a}

theorem Reach.acts {n : ℕ} {p : Prog R (Option M)} (h : Reach V D.guard s₀ c)
    (hacts : V.acts D oracle n c.rest c.world = some (p, s)) : Reach V D.guard s₀ ⟨s, p, c.serving⟩ := by
  induction n generalizing c with
  | zero =>
    cases hacts
    exact h
  | succ n ih =>
    obtain ⟨world, rest, serving⟩ := c
    cases rest with
    | ret x =>
      cases hacts
      exact h
    | act a k =>
      rw [Service.acts] at hacts
      split_ifs at hacts with hallow
      split at hacts
      · next r s' hexec => exact ih (c := ⟨s', k r, serving⟩) (h.step (.act rfl hexec hallow)) hacts
      · cases hacts

theorem Reach.finish {x : Option M} (h : Reach V D.guard s₀ c)
    (hfinish : V.finish D oracle c.rest c.world = some (x, s)) : Reach V D.guard s₀ ⟨s, .ret x, c.serving⟩ := by
  obtain ⟨world, rest, serving⟩ := c
  induction rest generalizing world with
  | ret x =>
    cases hfinish
    exact h
  | act a k ih =>
    simp only [Service.finish] at hfinish
    split_ifs at hfinish with hallow
    split at hfinish
    · next r s' hexec => exact ih r s' (h.step (.act rfl hexec hallow)) hfinish
    · cases hfinish

/-- A schedule that plays is a run. -/
theorem Reach.play {moves : List (Move E O Q)} {c' : Config R S M Q} (h : Reach V D.guard s₀ c)
    (hplay : V.play D c moves = some c') : Reach V D.guard s₀ c' := by
  induction moves generalizing c with
  | nil =>
    cases hplay
    exact h
  | cons move moves ih =>
    cases move with
    | finish oracle =>
      simp only [Service.play] at hplay
      split at hplay
      · next x s hfinish => exact ih (h.finish hfinish) hplay
      · cases hplay
    | act oracle n =>
      simp only [Service.play] at hplay
      split at hplay
      · next p s hacts => exact ih (h.acts hacts) hplay
      · cases hplay
    | request q =>
      simp only [Service.play] at hplay
      split at hplay
      · next m hrest =>
        split_ifs at hplay with hallow
        exact ih (h.step (.request hrest hallow)) hplay
      · cases hplay
    | restart o =>
      simp only [Service.play] at hplay
      split_ifs at hplay with hallow
      exact ih (h.step (.restart hallow)) hplay

/-- A computed schedule shows that a configuration with a decidable property is reached. -/
theorem Reach.exists_of_play {G : Guard E S O M Q} (D : Check E S O M Q) (moves : List (Move E O Q))
    {P : Config R S M Q → Prop} [DecidablePred P] (hle : D.guard.Le G)
    (h : (V.play D ⟨s₀, .ret none, none⟩ moves).any fun c => decide (P c)) : ∃ c, Reach V G s₀ c ∧ P c := by
  cases hplay : V.play D ⟨s₀, .ret none, none⟩ moves with
  | none =>
    rw [hplay] at h
    cases h
  | some c =>
    rw [hplay] at h
    exact ⟨c, (Reach.init.play hplay).mono hle, of_decide_eq_true h⟩

end play

end Service

end Soma.Lib
