import Mathlib.Algebra.Order.BigOperators.Group.List
import Mathlib.Algebra.Order.Ring.Nat
import Mathlib.Data.List.DropRight
import Mathlib.Data.List.Infix
import Mathlib.Data.Multiset.Basic
import Mathlib.Tactic.Common

/-! # Separated paths

A path is a list of letters in which one letter, the separator, ends a component. `q` is above `p`
when `p` continues `q` by a separator; the paths above `p` are the cuts of `p` before its
separators, the last of them is its parent, and they are also what a loop over the components of
`p` builds when no component is empty.

In the lexicographic order a path comes after every path above it, and the paths under `q` are
exactly those between `q` followed by the separator and `q` followed by the next letter.
-/

namespace Soma.Path

variable {α : Type} {sep : α} {p q r : List α}

/-- The path `p` lies under `q`: it continues `q` by a separator. -/
def Under (sep : α) (q p : List α) : Prop :=
  q ++ [sep] <+: p

instance [DecidableEq α] (sep : α) (q p : List α) : Decidable (Under sep q p) :=
  inferInstanceAs (Decidable (q ++ [sep] <+: p))

namespace Under

theorem isPrefix (h : Under sep q p) : q <+: p :=
  (List.prefix_append q [sep]).trans h

theorem length_lt (h : Under sep q p) : q.length < p.length := by
  have hle : (q ++ [sep]).length ≤ p.length := List.IsPrefix.length_le h
  simp only [List.length_append, List.length_singleton] at hle
  omega

theorem irrefl : ¬ Under sep p p := fun h => lt_irrefl _ h.length_lt

theorem ne (h : Under sep q p) : q ≠ p := by
  rintro rfl
  exact irrefl h

theorem trans (hqp : Under sep q p) (hpr : Under sep p r) : Under sep q r :=
  List.IsPrefix.trans hqp hpr.isPrefix

theorem asymm (hqp : Under sep q p) : ¬ Under sep p q :=
  fun hpq => irrefl (hqp.trans hpq)

end Under

theorem not_under_nil : ¬ Under sep q [] := fun h => by
  have hlt := h.length_lt
  simp only [List.length_nil] at hlt
  omega

/-! ## The order of paths -/

section Order

open Std

variable [Ord α]

theorem compare_cons (x y : α) (xs ys : List α) :
    compare (x :: xs) (y :: ys) = (compare x y).then (compare xs ys) :=
  List.compareLex_cons_cons

variable [LawfulEqOrd α] {next : α} [TransOrd α]

/-- With `next` the letter after the separator, the paths under `q` are an interval. -/
theorem between_iff_under (hlt : compare sep next = .lt)
    (hnext : ∀ x, (compare sep x).isLE → compare x next = .lt → x = sep) :
    ∀ {q p : List α}, ((compare (q ++ [sep]) p).isLE ∧ compare p (q ++ [next]) = .lt) ↔ Under sep q p
  | q, [] => by
    cases q <;> simp [not_under_nil]
  | [], y :: ys => by
    have hunder : Under sep [] (y :: ys) ↔ sep = y := by simp [Under]
    rw [hunder, List.nil_append, List.nil_append, compare_cons, compare_cons]
    constructor
    · rintro ⟨hle, hl⟩
      have hy : compare y next = .lt := by
        cases hcmp : compare y next <;> cases ys <;> simp_all
      have hs : (compare sep y).isLE := by
        cases hcmp : compare sep y <;> simp_all
      exact (hnext y hs hy).symm
    · rintro rfl
      rw [hlt, ReflOrd.compare_self]
      cases ys <;> simp
  | x :: xs, y :: ys => by
    have ih := between_iff_under hlt hnext (q := xs) (p := ys)
    have hunder : Under sep (x :: xs) (y :: ys) ↔ x = y ∧ Under sep xs ys := List.cons_prefix_cons
    rw [hunder, ← ih, List.cons_append, List.cons_append, compare_cons, compare_cons,
      OrientedOrd.eq_swap (a := y) (b := x)]
    cases hcmp : compare x y with
    | lt =>
      have hne : x ≠ y := by
        rintro rfl
        simp at hcmp
      simp [hne]
    | eq =>
      have heq : x = y := LawfulEqOrd.eq_of_compare hcmp
      simp [heq]
    | gt => simp [show x ≠ y by rintro rfl; simp at hcmp]

end Order

/-! ## The paths above a path -/

variable [DecidableEq α]

/-- The paths above a path, shortest first. -/
def ancestors (sep : α) : List α → List (List α)
  | [] => []
  | x :: xs =>
    let rest := (ancestors sep xs).map (x :: ·)
    if x = sep then [] :: rest else rest

theorem mem_ancestors : ∀ {q p : List α}, q ∈ ancestors sep p ↔ Under sep q p
  | q, [] => by simp [ancestors, not_under_nil]
  | [], x :: xs => by
    by_cases hx : x = sep
    · simp [ancestors, Under, hx]
    · have hx' : sep ≠ x := Ne.symm hx
      simp [ancestors, Under, hx, hx']
  | y :: ys, x :: xs => by
    have ih : ys ∈ ancestors sep xs ↔ Under sep ys xs := mem_ancestors
    have hcons : Under sep (y :: ys) (x :: xs) ↔ y = x ∧ Under sep ys xs := List.cons_prefix_cons
    rw [hcons, ← ih]
    by_cases hx : x = sep <;> simp [ancestors, hx, and_comm, eq_comm]

theorem ancestors_of_not_mem : ∀ {p : List α}, sep ∉ p → ancestors sep p = []
  | [], _ => rfl
  | x :: xs, h => by
    obtain ⟨hx, hxs⟩ : sep ≠ x ∧ sep ∉ xs := by simpa using h
    simp [ancestors, Ne.symm hx, ancestors_of_not_mem hxs]

/-- The first component is the first path above, and the others continue it. -/
theorem ancestors_append : ∀ {c : List α} (rest : List α), sep ∉ c →
    ancestors sep (c ++ sep :: rest) = c :: (ancestors sep rest).map (c ++ sep :: ·)
  | [], rest, _ => by simp [ancestors]
  | x :: xs, rest, h => by
    obtain ⟨hx, hxs⟩ : sep ≠ x ∧ sep ∉ xs := by simpa using h
    simp [ancestors, Ne.symm hx, ancestors_append rest hxs, Function.comp_def]

/-- The last path above a path, or the empty path. -/
def parent (sep : α) (p : List α) : List α :=
  (p.rdropWhile (· ≠ sep)).dropLast

theorem parent_of_not_mem (h : sep ∉ p) : parent sep p = [] := by
  have hnil : p.rdropWhile (· ≠ sep) = [] := by
    rw [List.rdropWhile_eq_nil_iff]
    intro x hx
    have hne : x ≠ sep := fun heq => h (heq ▸ hx)
    simpa using hne
  rw [parent, hnil, List.dropLast_nil]

theorem parent_append {rest : List α} (h : sep ∉ rest) : parent sep (q ++ sep :: rest) = q := by
  have hdrop : (q ++ sep :: rest).rdropWhile (· ≠ sep) = q ++ [sep] := by
    have hsplit : q ++ sep :: rest = (q ++ [sep]) ++ rest := by simp
    have hall : ∀ x ∈ rest, decide (x ≠ sep) = true := by
      intro x hx
      have hne : x ≠ sep := fun heq => h (heq ▸ hx)
      simpa using hne
    rw [hsplit, List.rdropWhile, List.reverse_append, List.dropWhile_append_of_pos]
    · simp
    · intro x hx
      exact hall x (List.mem_reverse.mp hx)
  rw [parent, hdrop, List.dropLast_concat]

theorem eq_parent_append (h : sep ∈ p) : ∃ name, sep ∉ name ∧ p = parent sep p ++ sep :: name := by
  obtain ⟨back, front, hrev, hback⟩ := List.eq_append_cons_of_mem (List.mem_reverse.mpr h)
  have hp : p = front.reverse ++ sep :: back.reverse := by
    have heq := congrArg List.reverse hrev
    simpa using heq
  have hname : sep ∉ back.reverse := by simpa using hback
  refine ⟨back.reverse, hname, ?_⟩
  rw [hp, parent_append hname]

theorem under_parent (h : sep ∈ p) : Under sep (parent sep p) p := by
  obtain ⟨name, -, hp⟩ := eq_parent_append h
  exact ⟨name, by simpa using hp.symm⟩

/-- The last component. -/
def basename (sep : α) (p : List α) : List α :=
  p.rtakeWhile (· ≠ sep)

/-! ## Joining components -/

/-- A path with one more component. -/
def child (sep : α) (path name : List α) : List α :=
  if path = [] then name else path ++ sep :: name

/-- The path of a list of components. -/
def join (sep : α) (components : List (List α)) : List α :=
  components.foldl (child sep) []

/-- Induction on the components of a path: the last one, and a first one before the others. -/
@[elab_as_elim]
theorem components_induction (sep : α) {motive : List α → Prop} (last : ∀ p, sep ∉ p → motive p)
    (more : ∀ c rest, sep ∉ c → motive rest → motive (c ++ sep :: rest)) (p : List α) : motive p := by
  induction hn : p.length using Nat.strong_induction_on generalizing p with
  | _ n ih =>
    by_cases hsep : sep ∈ p
    · obtain ⟨c, rest, rfl, hc⟩ := List.eq_append_cons_of_mem hsep
      have hlen : rest.length < n := by
        simp only [List.length_append, List.length_cons] at hn
        omega
      exact more c rest hc (ih rest.length hlen rest rfl)
    · exact last p hsep

/-! ## Walking the components -/

/-- The paths a loop over components passes, joining each to what it has `built`. -/
def walk (sep : α) : List α → List (List α) → List (List α)
  | _, [] => []
  | built, component :: rest => child sep built component :: walk sep (child sep built component) rest

omit [DecidableEq α] in
theorem walk_dropLast : ∀ (built : List α) (components : List (List α)),
    walk sep built components.dropLast = (walk sep built components).dropLast
  | _, [] => rfl
  | _, [_] => rfl
  | built, c :: d :: rest => by
    have ih := walk_dropLast (child sep built c) (d :: rest)
    simp only [List.dropLast_cons_cons, walk] at ih ⊢
    simpa using ih

variable (hc : ∀ c ∈ p.splitOn sep, c ≠ [])
include hc

/-- From a nonempty path on, the walk passes the paths above and the path itself, each behind what was
built. -/
theorem walk_splitOn_of_ne_nil {built : List α} (hbuilt : built ≠ []) :
    walk sep built (p.splitOn sep) = (ancestors sep p ++ [p]).map (built ++ sep :: ·) := by
  induction p using (components_induction sep) generalizing built with
  | last p hsep =>
    rw [List.splitOn_eq_singleton hsep, ancestors_of_not_mem hsep]
    simp [walk, child, hbuilt]
  | more c rest hsep ih =>
    rw [List.splitOn_append_cons_self_of_not_mem hsep rest] at hc ⊢
    have hrest : ∀ d ∈ rest.splitOn sep, d ≠ [] := fun d hd => hc d (List.mem_cons_of_mem c hd)
    rw [walk, child, if_neg hbuilt, ih hrest (by simp), ancestors_append rest hsep]
    simp

/-- A walk over the components of a path with no empty component passes the paths above it and the path
itself. -/
theorem walk_splitOn : walk sep [] (p.splitOn sep) = ancestors sep p ++ [p] := by
  induction p using (components_induction sep) with
  | last p hsep =>
    rw [List.splitOn_eq_singleton hsep, ancestors_of_not_mem hsep]
    simp [walk, child]
  | more c rest hsep _ =>
    rw [List.splitOn_append_cons_self_of_not_mem hsep rest] at hc ⊢
    have hrest : ∀ d ∈ rest.splitOn sep, d ≠ [] := fun d hd => hc d (List.mem_cons_of_mem c hd)
    have hne : c ≠ [] := hc c List.mem_cons_self
    rw [walk, child, if_pos rfl, walk_splitOn_of_ne_nil hrest hne, ancestors_append rest hsep]
    simp

theorem walk_splitOn_dropLast : walk sep [] (p.splitOn sep).dropLast = ancestors sep p := by
  rw [walk_dropLast, walk_splitOn hc, List.dropLast_concat]

end Soma.Path
