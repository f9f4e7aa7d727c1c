import Soma.Host.Pool.Instances
import Soma.Lib.Table

/-! # Listing while the table changes

A client lists page after page, each after the last Instance it received, until a page is not full;
Instances are bound and removed in between.
-/

namespace Soma.Host.Pool

open Std Soma.Lib

/-- The live Instances, each under its own identity. -/
structure LiveTable where
  entries : TreeMap InstanceId InstanceView
  keyed : ∀ (i : InstanceId) (view : InstanceView), entries[i]? = some view → view.instanceId = i

namespace LiveTable

variable (table : LiveTable)

def bind (view : InstanceView) : LiveTable where
  entries := table.entries.insert view.instanceId view
  keyed i v h := by
    rw [Table.get_insert] at h
    split_ifs at h with heq
    · cases h
      exact heq
    · exact table.keyed i v h

def remove (instanceId : InstanceId) : LiveTable where
  entries := table.entries.erase instanceId
  keyed i v h := by
    rw [Table.get_erase] at h
    split_ifs at h
    exact table.keyed i v h

theorem ids : table.entries.values.map (·.instanceId) = table.entries.keys := by
  rw [Table.values_eq, ← TreeMap.map_fst_toList_eq_keys, List.map_map]
  apply List.map_congr_left
  rintro ⟨i, view⟩ hmem
  exact table.keyed i view (TreeMap.mem_toList_iff_getElem?_eq_some.mp hmem)

end LiveTable

/-- A table, what a client received of it, and whether the client's last page was not full. -/
structure Listing where
  table : LiveTable
  received : List InstanceId
  finished : Bool

inductive ListingEvent
  | bind (view : InstanceView)
  | remove (instanceId : InstanceId)
  | page

namespace Listing

def step (s : Listing) : ListingEvent → Listing
  | .bind view => { s with table := s.table.bind view }
  | .remove instanceId => { s with table := s.table.remove instanceId }
  | .page =>
    if s.finished then s
    else
      let next := (page s.table.entries.values s.received.getLast? maxListed).instances
      { s with received := s.received ++ next, finished := next.length < maxListed }

/-- The events' outcome, for a client that has asked for nothing. -/
def run (table : LiveTable) (events : List ListingEvent) : Listing :=
  events.foldl step ⟨table, [], false⟩

/-! ## One page -/

/-- What is left to list, in order. -/
def rest (s : Listing) : List InstanceId :=
  s.table.entries.keys.filter fun i => s.received.getLast?.all (· < i)

variable {s : Listing} {i : InstanceId}

theorem rest_sorted (s : Listing) : s.rest.Pairwise (· < ·) := by
  have hkeys := TreeMap.ordered_keys (t := s.table.entries)
  simp only [compare_lt_iff_lt] at hkeys
  exact hkeys.filter _

theorem mem_rest (h : s.received.Pairwise (· < ·)) :
    i ∈ s.rest ↔ i ∈ s.table.entries ∧ ∀ a ∈ s.received, a < i := by
  have hlast : s.received.getLast?.all (· < i) = true ↔ ∀ a ∈ s.received, a < i := by
    rcases s.received.eq_nil_or_concat with hnil | ⟨init, last, hconcat⟩
    · simp [hnil]
    · rw [hconcat, List.concat_eq_append, List.pairwise_append] at h
      simp only [hconcat, List.concat_eq_append, List.getLast?_concat, Option.all_some, decide_eq_true_eq,
        List.mem_append, List.mem_singleton, or_imp, forall_and, forall_eq]
      exact ⟨fun hlt => ⟨fun a ha => (h.2.2 a ha last (by simp)).trans hlt, hlt⟩, And.right⟩
  rw [rest, List.mem_filter, TreeMap.mem_keys, hlast]

/-- An Instance was received, or it is after all those received and the listing goes on. -/
def Reaches (i : InstanceId) (s : Listing) : Prop :=
  i ∈ s.received ∨ s.finished = false ∧ ∀ a ∈ s.received, a < i

theorem step_reaches (h : s.received.Pairwise (· < ·)) (event : ListingEvent) :
    (s.step event).received.Pairwise (· < ·) ∧
      ∀ i ∈ s.table.entries, Reaches i s → Reaches i (s.step event) := by
  cases event with
  | bind | remove => exact ⟨h, fun i _ hi => hi⟩
  | page =>
    have hsorted := rest_sorted s
    have hpage : (page s.table.entries.values s.received.getLast? maxListed).instances = s.rest.take maxListed := by
      simp only [page, s.table.ids, rest]
    rw [step, hpage]
    split_ifs with hfinished
    · exact ⟨h, fun i _ hi => hi⟩
    refine ⟨List.pairwise_append.mpr ⟨h, hsorted.take, fun a ha b hb => ?_⟩, fun i hlive hi => ?_⟩
    · exact ((mem_rest h).mp (List.mem_of_mem_take hb)).2 a ha
    · rcases hi with hi | ⟨-, hafter⟩
      · exact .inl (List.mem_append_left _ hi)
      have hrest : i ∈ s.rest := (mem_rest h).mpr ⟨hlive, hafter⟩
      rw [← List.take_append_drop maxListed s.rest] at hrest hsorted
      rcases List.mem_append.mp hrest with htake | hdrop
      · exact .inl (List.mem_append_right _ htake)
      · -- something is left, so the page is full and all of it is before `i`
        have hlength := List.length_pos_of_mem hdrop
        rw [List.length_drop] at hlength
        refine .inr ⟨by simp only [List.length_take, decide_eq_false_iff_not]; omega, ?_⟩
        refine List.forall_mem_append.mpr ⟨hafter, fun a ha => ?_⟩
        exact (List.pairwise_append.mp hsorted).2.2 a ha i hdrop

/-! ## Whole listings -/

theorem run_reaches (table : LiveTable) (events : List ListingEvent) :
    (run table events).received.Pairwise (· < ·) ∧
      ∀ i, (∀ earlier, earlier <+: events → i ∈ (run table earlier).table.entries) → Reaches i (run table events) := by
  induction events using List.reverseRecOn with
  | nil => exact ⟨.nil, fun i _ => .inr ⟨rfl, by simp [run]⟩⟩
  | append_singleton events event ih =>
    obtain ⟨hsorted, hreaches⟩ := ih
    have hrun : run table (events ++ [event]) = (run table events).step event := by simp [run]
    rw [hrun]
    obtain ⟨hsorted', hstep⟩ := step_reaches hsorted event
    refine ⟨hsorted', fun i hlive => hstep i (hlive events (events.prefix_append _)) (hreaches i ?_)⟩
    exact fun earlier hearlier => hlive earlier (hearlier.trans (events.prefix_append _))

/-- **A listing misses nothing.**  However bindings and removals come between the pages, the identities
received increase, and once a page is not full every Instance live all along was received exactly once. -/
theorem listing_misses_nothing (table : LiveTable) (events : List ListingEvent) :
    (run table events).received.Pairwise (· < ·) ∧
      ((run table events).finished = true → ∀ i,
        (∀ earlier, earlier <+: events → i ∈ (run table earlier).table.entries) →
          (run table events).received.count i = 1) := by
  obtain ⟨hsorted, hreaches⟩ := run_reaches table events
  refine ⟨hsorted, fun hfinished i hlive => ?_⟩
  have hnodup : (run table events).received.Nodup := hsorted.imp fun hlt => hlt.ne
  rcases hreaches i hlive with hmem | ⟨hopen, -⟩
  · exact List.count_eq_one_of_mem hnodup hmem
  · rw [hfinished] at hopen
    cases hopen

end Listing

end Soma.Host.Pool
