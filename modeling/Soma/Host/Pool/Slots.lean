import Soma.Host.Pool.Discipline

/-! # Slots

What the actions on slots do to the cells and the table: one specification per action, so that no
later proof unfolds them.

A cell keeps its worker for ever and a dead cell stays dead (`Shared.Evolves`).
-/

namespace Soma.Host.Pool

open Soma.Lib

namespace Shared

variable (s : Shared)

/-- The slot of a handle is the worker's and in the handle's state. -/
def Holds (w : Worker) : Prop :=
  ∃ cell, s.cells[w.slot]? = some cell ∧ cell.id = w.id ∧ cell.word = .new w.phase w.generation

/-- A slot of the worker that is not dead. -/
def LiveAt (slot : ℕ) (id : WorkerId) : Prop :=
  ∃ cell, s.cells[slot]? = some cell ∧ cell.id = id ∧ cell.word.load.phase ≠ .dead

/-- Every slot of the worker is dead. -/
def Gone (id : WorkerId) : Prop :=
  ∀ slot, ¬ s.LiveAt slot id

/-- The worker has, or had, a slot. -/
def Known (id : WorkerId) : Prop :=
  ∃ (slot : ℕ) (cell : Slot), s.cells[slot]? = some cell ∧ cell.id = id

variable {s} {w : Worker}

theorem Holds.known (h : s.Holds w) : s.Known w.id := by
  obtain ⟨cell, hcell, hid, -⟩ := h
  exact ⟨w.slot, cell, hcell, hid⟩

theorem Holds.live (h : s.Holds w) (hphase : w.phase ≠ .dead) : s.LiveAt w.slot w.id := by
  obtain ⟨cell, hcell, hid, hword⟩ := h
  refine ⟨cell, hcell, hid, ?_⟩
  rwa [hword, StateWord.load_new]

variable {answer : Except StateRace Worker} {g : LeaseGeneration} {s s' : Shared}

theorem advance_eq_some {target : Phase} (h : s.advance w target g = some (answer, s')) :
    ∃ cell, s.cells[w.slot]? = some cell ∧
      ((answer = .ok ⟨w.slot, cell.id, target, g⟩ ∧ StateWord.Allowed w.packed ⟨target, g⟩ ∧
          cell.word = .new w.phase w.generation ∧
          s' = { s with cells := s.cells.set w.slot { cell with word := .new target g } }) ∨
        ((∃ race, answer = .error race) ∧ s' = s ∧
          ¬ (StateWord.Allowed w.packed ⟨target, g⟩ ∧ cell.word = .new w.phase w.generation))) := by
  unfold advance at h
  cases hcell : s.cells[w.slot]? with
  | none => simp [hcell] at h
  | some cell =>
    refine ⟨cell, rfl, ?_⟩
    rw [hcell] at h
    cases htrans : cell.word.transition w.packed ⟨target, g⟩ with
    | mk result word =>
      cases result with
      | ok =>
        obtain ⟨hallowed, hword, hword'⟩ := StateWord.transition_ok_iff.mp htrans
        simp only [htrans] at h
        cases h
        exact .inl ⟨rfl, hallowed, hword, by rw [hword']; rfl⟩
      | error race =>
        simp only [htrans] at h
        cases h
        refine .inr ⟨⟨race, rfl⟩, rfl, ?_⟩
        rintro ⟨hallowed, hword⟩
        have := StateWord.transition_ok_iff.mpr ⟨hallowed, hword, rfl⟩
        rw [htrans] at this
        cases this

theorem advance_of_holds {target : Phase} (hw : s.Holds w)
    (hallowed : StateWord.Allowed w.packed ⟨target, g⟩) (h : s.advance w target g = some (answer, s')) :
    ∃ cell, s.cells[w.slot]? = some cell ∧ cell.id = w.id ∧
      answer = .ok { w with phase := target, generation := g } ∧
      s' = { s with cells := s.cells.set w.slot { cell with word := .new target g } } := by
  obtain ⟨cell, hcell, hid, hword⟩ := hw
  obtain ⟨cell', hcell', hok | hlost⟩ := advance_eq_some h
  all_goals obtain rfl : cell = cell' := Option.some.inj (hcell.symm.trans hcell')
  · obtain ⟨hanswer, -, -, hs'⟩ := hok
    exact ⟨cell, hcell, hid, by rw [hanswer, hid], hs'⟩
  · exact absurd ⟨hallowed, hword⟩ hlost.2.2

/-- Slots evolve: workers keep their slots and dead slots stay dead. -/
def Evolves (s s' : Shared) : Prop :=
  ∀ (slot : ℕ) (cell : Slot), s.cells[slot]? = some cell → ∃ cell', s'.cells[slot]? = some cell' ∧
    cell'.id = cell.id ∧ (cell.word.load.phase = .dead → cell'.word.load.phase = .dead)

theorem Evolves.refl_of_cells (h : s'.cells = s.cells) : s.Evolves s' := by
  intro slot cell hcell
  exact ⟨cell, by rw [h, hcell], rfl, fun hdead => hdead⟩

variable {id : WorkerId}

theorem Evolves.known (h : s.Evolves s') (hk : s.Known id) : s'.Known id := by
  obtain ⟨slot, cell, hcell, hid⟩ := hk
  obtain ⟨cell', hcell', hid', -⟩ := h slot cell hcell
  exact ⟨slot, cell', hcell', by rw [hid', hid]⟩

variable {cell : Slot} {slot : ℕ}

theorem evolves_set {word : StateWord} (hcell : s.cells[slot]? = some cell) (hlive : cell.word.load.phase ≠ .dead) :
    s.Evolves { s with cells := s.cells.set slot { cell with word } } := by
  intro slot' cell' hcell'
  by_cases heq : slot = slot'
  · subst heq
    obtain rfl : cell = cell' := by rw [hcell] at hcell'; exact Option.some.inj hcell'
    have hlt : slot < s.cells.length := (List.getElem?_eq_some_iff.mp hcell).1
    refine ⟨{ cell with word }, List.getElem?_set_self hlt, rfl, fun hdead => absurd hdead hlive⟩
  · exact ⟨cell', by simp only [List.getElem?_set_ne heq, hcell'], rfl, fun hdead => hdead⟩

variable {a : ℕ}

theorem liveAt_of_set {word : StateWord} (hcell : s.cells[slot]? = some cell) (hlive : cell.word.load.phase ≠ .dead)
    (h : LiveAt { s with cells := s.cells.set slot { cell with word } } a id) : s.LiveAt a id := by
  obtain ⟨cell', hcell', hid, hphase⟩ := h
  by_cases heq : slot = a
  · subst heq
    have hlt : slot < s.cells.length := (List.getElem?_eq_some_iff.mp hcell).1
    simp only [List.getElem?_set_self hlt] at hcell'
    cases hcell'
    exact ⟨cell, hcell, hid, hlive⟩
  · simp only [List.getElem?_set_ne heq] at hcell'
    exact ⟨cell', hcell', hid, hphase⟩

theorem addSlot_eq {max : ℕ} {slot : Slot} {answer : Except Overloaded ℕ}
    (h : s.addSlot max slot = (answer, s')) :
    (∃ overloaded, answer = .error overloaded ∧
      s' = { s with table := s.table.filter fun a => !s.isDead a }) ∨
    (answer = .ok s.cells.length ∧
      s' = { s with
        cells := s.cells ++ [slot]
        table := (s.table.filter fun a => !s.isDead a) ++ [s.cells.length] } ∧
      ∀ a ∈ s.table, s.isDead a = false → ∀ cell, s.cells[a]? = some cell → cell.id ≠ slot.id) := by
  unfold addSlot at h
  simp only at h
  split_ifs at h with hany hmax <;> cases h
  · exact .inl ⟨_, rfl, rfl⟩
  · exact .inl ⟨_, rfl, rfl⟩
  · refine .inr ⟨rfl, rfl, ?_⟩
    intro a ha hdead cell hcell hid
    apply hany
    rw [List.any_eq_true]
    exact ⟨a, List.mem_filter.mpr ⟨ha, by simp [hdead]⟩, by simp [hcell, hid]⟩

theorem isDead_eq_false (hcell : s.cells[a]? = some cell) : s.isDead a = false ↔ cell.word.load.phase ≠ .dead := by
  simp [isDead, hcell]

theorem findSlot_eq_none (h : s.findSlot id = none) :
    ∀ a ∈ s.table, ∀ cell, s.cells[a]? = some cell → cell.id ≠ id := by
  intro a ha cell hcell hid
  have := List.find?_eq_none.mp h a ha
  simp [hcell, hid] at this

theorem findSlot_eq_some (h : s.findSlot id = some slot) :
    slot ∈ s.table ∧ ∃ cell, s.cells[slot]? = some cell ∧ cell.id = id := by
  refine ⟨List.mem_of_find?_eq_some h, ?_⟩
  have hid := List.find?_some h
  cases hcell : s.cells[slot]? with
  | none => simp [hcell] at hid
  | some cell => exact ⟨cell, rfl, by simpa [hcell] using hid⟩

theorem getElem?_append_cell {cells : List Slot} {slot cell : Slot} :
    (cells ++ [slot])[a]? = some cell ↔
      cells[a]? = some cell ∨ (a = cells.length ∧ cell = slot) := by
  rcases Nat.lt_trichotomy a cells.length with hlt | heq | hgt
  · simp [List.getElem?_append_left hlt, hlt.ne]
  · subst heq
    simp [eq_comm]
  · have hnone : cells[a]? = none := List.getElem?_eq_none hgt.le
    have hnone' : (cells ++ [slot])[a]? = none := List.getElem?_eq_none (by simp; omega)
    simp [hnone, hnone', hgt.ne']

end Shared

end Soma.Host.Pool
