import Soma.Lib.Path

/-! # Directory trees as functions

A directory tree is a partial function from separated paths to nodes, some of which are directories. It
is closed when everything above a node is a directory. The operations are those of a layered file
system, each an equation on functions:

* `withParents`, `put`: a node at a path, with directories made above it and nothing left under it;
* `without`: a set of paths taken out;
* `upgraded`: a set of paths turned into directories;
* `withDirectories`, `overlaid`: a whole layer of directories, or of other nodes, put at once.

Putting nodes one by one is putting the layer (`withDirectories_update`, `overlaid_update`), and every
operation keeps trees closed.
-/

namespace Soma.Overlay

open Soma.Path Function

variable {α ν : Type} {sep : α} {dir : ν → Bool} {implicit : ν}

/-- A directory tree. -/
abbrev View (α ν : Type) := List α → Option ν

variable {f : View α ν} {p q path : List α} {n : ν}

/-- The path is a directory of the tree. -/
def IsDir (dir : ν → Bool) (f : View α ν) (p : List α) : Prop :=
  ∃ n, f p = some n ∧ dir n = true

/-- The path is a directory or has no node. -/
def Free (dir : ν → Bool) (f : View α ν) (p : List α) : Prop :=
  ∀ n, f p = some n → dir n = true

/-- Everything above a node is a directory, and so is the root. -/
structure Closed (sep : α) (dir : ν → Bool) (f : View α ν) : Prop where
  root : IsDir dir f []
  above : ∀ {p q : List α} {n : ν}, f p = some n → Under sep q p → IsDir dir f q

theorem Closed.none_of_not_isDir (h : Closed sep dir f) (hp : ¬ IsDir dir f p) (hq : Under sep p q) :
    f q = none := by
  cases hn : f q with
  | none => rfl
  | some n => exact absurd (h.above hn hq) hp

theorem IsDir.free (h : IsDir dir f p) : Free dir f p := by
  obtain ⟨n, hn, hdir⟩ := h
  simp [Free, hn, hdir]

theorem Free.of_none (h : f p = none) : Free dir f p := by
  simp [Free, h]

/-- The path is strictly under a path, where everything else is under the root. -/
def Below (sep : α) (path p : List α) : Prop :=
  if path = [] then p ≠ [] else Under sep path p

instance [DecidableEq α] (path p : List α) : Decidable (Below sep path p) :=
  inferInstanceAs (Decidable (if path = [] then p ≠ [] else Under sep path p))

theorem Below.trans (h : Below sep path p) (hpq : Under sep p q) : Below sep path q := by
  unfold Below at h ⊢
  by_cases hpath : path = []
  · rw [if_pos hpath]
    rintro rfl
    exact not_under_nil hpq
  · rw [if_neg hpath] at h ⊢
    exact h.trans hpq

theorem Below.ne_nil (h : Below sep path p) : p ≠ [] := by
  unfold Below at h
  split at h
  · exact h
  · rintro rfl
    exact not_under_nil h

/-! ## Taking paths out -/

open scoped Classical in
/-- The tree without the paths of a set. -/
noncomputable def without (C : List α → Prop) (f : View α ν) : View α ν :=
  fun p => if C p then none else f p

theorem without_without (C D : List α → Prop) : without D (without C f) = without (fun p => C p ∨ D p) f := by
  funext p
  unfold without
  by_cases hD : D p
  · simp [hD]
  · by_cases hC : C p
    · simp [hC, hD]
    · simp [hC, hD]

theorem without_false : without (fun _ => False) f = f := by
  funext p
  simp [without]

/-- What is taken out takes what is under it along. -/
theorem Closed.without {C : List α → Prop} (h : Closed sep dir f) (hroot : ¬ C [])
    (hdown : ∀ {p q}, C q → Under sep q p → C p) : Closed sep dir (without C f) where
  root := by
    obtain ⟨n, hn, hdir⟩ := h.root
    exact ⟨n, by simp [Overlay.without, hroot, hn], hdir⟩
  above := by
    intro p q n hp hq
    unfold Overlay.without at hp
    split at hp
    · cases hp
    · next hC =>
      obtain ⟨m, hm, hdir⟩ := h.above hp hq
      have hCq : ¬ C q := fun hC' => hC (hdown hC' hq)
      exact ⟨m, by simp [Overlay.without, hCq, hm], hdir⟩

/-! ## Turning paths into directories -/

/-- The directory at a path: the one there, or else the one `made` for it. -/
def upgrade (dir : ν → Bool) (made : List α → ν) (f : View α ν) (p : List α) : ν :=
  match f p with
  | some n => if dir n then n else made p
  | none => made p

open scoped Classical in
/-- The tree with the paths of a set made directories. -/
noncomputable def upgraded (dir : ν → Bool) (made : List α → ν) (E : List α → Prop) (f : View α ν) :
    View α ν :=
  fun p => if E p then some (upgrade dir made f p) else f p

section Upgrade

variable {made : List α → ν} (hmade : ∀ p, dir (made p) = true)
include hmade

theorem dir_upgrade : dir (upgrade dir made f p) = true := by
  unfold upgrade
  split
  · split
    · assumption
    · exact hmade p
  · exact hmade p

theorem upgraded_upgraded (E F : List α → Prop) :
    upgraded dir made F (upgraded dir made E f) = upgraded dir made (fun p => E p ∨ F p) f := by
  funext p
  have hdir : dir (upgrade dir made f p) = true := dir_upgrade hmade
  unfold upgraded
  by_cases hE : E p
  · by_cases hF : F p
    · simp only [hE, hF, or_self, if_true]
      rw [upgrade]
      simp [hE, hdir]
    · simp [hE, hF]
  · by_cases hF : F p
    · simp only [hE, hF, or_true, if_true]
      rw [upgrade, upgrade]
      simp [hE]
    · simp [hE, hF]

/-- The set has to hold what is above its paths, as far as that is not a directory. -/
theorem Closed.upgraded {E : List α → Prop} (h : Closed sep dir f)
    (hup : ∀ {p q}, E p → Under sep q p → E q ∨ IsDir dir f q) : Closed sep dir (upgraded dir made E f) := by
  have hkeep : ∀ {q}, E q ∨ IsDir dir f q → IsDir dir (Overlay.upgraded dir made E f) q := by
    intro q hq
    by_cases hE : E q
    · exact ⟨upgrade dir made f q, by simp [Overlay.upgraded, hE], dir_upgrade hmade⟩
    · obtain ⟨m, hm, hdir⟩ := hq.resolve_left hE
      exact ⟨m, by simp [Overlay.upgraded, hE, hm], hdir⟩
  constructor
  · exact hkeep (.inr h.root)
  · intro p q n hp hq
    unfold Overlay.upgraded at hp
    split at hp
    · next hE => exact hkeep (hup hE hq)
    · exact hkeep (.inr (h.above hp hq))

end Upgrade

theorem upgraded_false {made : List α → ν} : upgraded dir made (fun _ => False) f = f := by
  funext p
  simp [upgraded]

/-! ## Layers -/

/-- The path lies under a node of a layer. -/
def Covered (sep : α) (layer : View α ν) (p : List α) : Prop :=
  ∃ a n, layer a = some n ∧ Under sep a p

/-- The path leads to a node of a layer. -/
def Leads (sep : α) (layer : View α ν) (p : List α) : Prop :=
  ∃ a n, layer a = some n ∧ Under sep p a

open scoped Classical in
/-- The tree with a layer of directories: each at its path, and directories made above them. -/
noncomputable def withDirectories (sep : α) (implicit : ν) (dirs f : View α ν) : View α ν :=
  fun p => match dirs p with
    | some n => some n
    | none => if Leads sep dirs p then some ((f p).getD implicit) else f p

open scoped Classical in
/-- The tree with a layer of nodes that keep nothing under them. -/
noncomputable def overlaid (sep : α) (implicit : ν) (placed f : View α ν) : View α ν :=
  fun p => match placed p with
    | some n => some n
    | none =>
      if Covered sep placed p then none
      else if Leads sep placed p then some ((f p).getD implicit)
      else f p

theorem withDirectories_empty : withDirectories sep implicit (fun _ => none) f = f := by
  funext p
  simp [withDirectories, Leads]

/-- What is in view under a layer is in view under one that agrees there and covers no more. -/
theorem overlaid_of_agrees {placed placed' : View α ν} {n : ν} (h : overlaid sep implicit placed f p = some n)
    (hn : n ≠ implicit) (hplaced : placed' p = placed p) (hcovered : Covered sep placed' p → Covered sep placed p) :
    overlaid sep implicit placed' f p = some n := by
  unfold overlaid at h ⊢
  rw [hplaced]
  split at h
  · exact h
  · cases hf : f p <;> grind

theorem overlaid_empty : overlaid sep implicit (fun _ => none) f = f := by
  funext p
  simp [overlaid, Leads, Covered]

/-! ## Putting one node -/

variable [DecidableEq α]

/-- The tree with directories made above a path. -/
def withParents (sep : α) (implicit : ν) (f : View α ν) (path : List α) : View α ν :=
  fun p => if Under sep p path then some ((f p).getD implicit) else f p

/-- The tree with a node put at a path that keeps nothing under it. -/
def put (sep : α) (implicit : ν) (f : View α ν) (path : List α) (node : ν) : View α ν :=
  fun p => if p = path then some node else if Under sep path p then none
    else withParents sep implicit f path p

theorem isDir_withParents (hfree : ∀ q, Under sep q path → Free dir f q) (himp : dir implicit = true)
    (hq : Under sep q path) : IsDir dir (withParents sep implicit f path) q := by
  refine ⟨(f q).getD implicit, by simp [withParents, hq], ?_⟩
  cases hf : f q with
  | none => exact himp
  | some n => exact hfree q hq n hf

theorem withParents_of_isDir (h : IsDir dir f p) : IsDir dir (withParents sep implicit f path) p := by
  obtain ⟨n, hn, hdir⟩ := h
  exact ⟨n, by simp [withParents, hn], hdir⟩

theorem Closed.withParents (h : Closed sep dir f) (himp : dir implicit = true)
    (hfree : ∀ q, Under sep q path → Free dir f q) : Closed sep dir (withParents sep implicit f path) where
  root := withParents_of_isDir h.root
  above := by
    intro p q n hp hq
    by_cases hpath : Under sep p path
    · exact isDir_withParents hfree himp (hq.trans hpath)
    · rw [Overlay.withParents, if_neg hpath] at hp
      exact withParents_of_isDir (h.above hp hq)

theorem Closed.update_dir (h : Closed sep dir f) (hn : dir n = true) (hup : ∀ q, Under sep q path → IsDir dir f q) :
    Closed sep dir (update f path (some n)) := by
  have hkeep : ∀ {q}, IsDir dir f q → IsDir dir (update f path (some n)) q := by
    rintro q ⟨m, hm, hdir⟩
    by_cases hq : q = path
    · exact ⟨n, by simp [hq], hn⟩
    · exact ⟨m, by simp [hq, hm], hdir⟩
  constructor
  · exact hkeep h.root
  · intro p q m hp hq
    by_cases hpath : p = path
    · exact hkeep (hup q (hpath ▸ hq))
    · rw [update_of_ne hpath] at hp
      exact hkeep (h.above hp hq)

theorem Closed.put (h : Closed sep dir f) (himp : dir implicit = true) (hpath : path ≠ [])
    (hfree : ∀ q, Under sep q path → Free dir f q) : Closed sep dir (put sep implicit f path n) := by
  have hparents := h.withParents himp hfree
  -- a directory above a surviving node survives: it is neither the path nor under it
  have hkeep : ∀ {q}, q ≠ path → ¬ Under sep path q →
      IsDir dir (Overlay.withParents sep implicit f path) q → IsDir dir (Overlay.put sep implicit f path n) q := by
    rintro q hq hunder ⟨m, hm, hdir⟩
    exact ⟨m, by simp [Overlay.put, hq, hunder, hm], hdir⟩
  constructor
  · exact hkeep (Ne.symm hpath) not_under_nil hparents.root
  · intro p q m hp hq
    unfold Overlay.put at hp
    split at hp
    · next heq =>
      subst heq
      exact hkeep hq.ne hq.asymm (isDir_withParents hfree himp hq)
    · split at hp
      · cases hp
      · next hne hunder =>
        exact hkeep (fun heq => hunder (heq ▸ hq)) (fun hu => hunder (hu.trans hq)) (hparents.above hp hq)

/-! ## Putting a layer node by node -/

variable {layer : View α ν}

theorem exists_update_iff {P : List α → Prop} (hnew : layer path = none) :
    (∃ a m, update layer path (some n) a = some m ∧ P a) ↔
      P path ∨ ∃ a m, layer a = some m ∧ P a := by
  constructor
  · rintro ⟨a, m, ha, hP⟩
    by_cases h : a = path
    · exact .inl (h ▸ hP)
    · rw [update_of_ne h] at ha
      exact .inr ⟨a, m, ha, hP⟩
  · rintro (hP | ⟨a, m, ha, hP⟩)
    · exact ⟨path, n, by simp, hP⟩
    · have h : a ≠ path := by
        rintro rfl
        rw [hnew] at ha
        cases ha
      exact ⟨a, m, by rw [update_of_ne h, ha], hP⟩

theorem covered_update (hnew : layer path = none) :
    Covered sep (update layer path (some n)) p ↔ Under sep path p ∨ Covered sep layer p :=
  exists_update_iff hnew

theorem leads_update (hnew : layer path = none) :
    Leads sep (update layer path (some n)) p ↔ Under sep p path ∨ Leads sep layer p :=
  exists_update_iff hnew

/-- One more directory is one more of the layer. -/
theorem withDirectories_update {dirs : View α ν} (hnew : dirs path = none) :
    update (withParents sep implicit (withDirectories sep implicit dirs f) path) path (some n) =
      withDirectories sep implicit (update dirs path (some n)) f := by
  classical
  funext p
  by_cases hp : p = path
  · subst hp
    simp [withDirectories]
  · rw [update_of_ne hp]
    unfold withParents withDirectories
    rw [update_of_ne hp]
    cases hd : dirs p with
    | some m => simp
    | none =>
      simp only [leads_update hnew]
      by_cases hu : Under sep p path
      · by_cases hold : Leads sep dirs p
        · simp [hu, hold]
        · simp [hu, hold]
      · simp [hu]

/-- One more node is one more of the layer, when no node of the layer is above or under it. -/
theorem overlaid_update {placed : View α ν} (hnew : placed path = none)
    (hapart : ∀ a m, placed a = some m → ¬ Under sep a path ∧ ¬ Under sep path a) :
    put sep implicit (overlaid sep implicit placed f) path n =
      overlaid sep implicit (update placed path (some n)) f := by
  classical
  funext p
  by_cases hp : p = path
  · subst hp
    simp [put, overlaid]
  · unfold put
    rw [if_neg hp]
    cases hd : placed p with
    | some m =>
      obtain ⟨h1, h2⟩ := hapart p m hd
      simp [withParents, overlaid, update_of_ne hp, hd, h1, h2]
    | none =>
      simp only [withParents, overlaid, update_of_ne hp, hd, covered_update hnew, leads_update hnew]
      by_cases hdown : Under sep path p
      · simp [hdown]
      · by_cases hunder : Covered sep placed p
        · -- a path between a node of the layer and the put one would make them comparable
          have hup : ¬ Under sep p path := by
            intro hup
            obtain ⟨a, m, ha, hap⟩ := hunder
            exact (hapart a m ha).1 (hap.trans hup)
          simp [hdown, hunder, hup]
        · by_cases hup : Under sep p path
          · by_cases hold : Leads sep placed p <;> simp [hdown, hunder, hup, hold]
          · simp [hdown, hunder, hup]

end Soma.Overlay
