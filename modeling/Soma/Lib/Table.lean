import Mathlib.Data.Multiset.Basic
import Mathlib.Tactic.Common

/-! # The values of an ordered table

What a table's list of values is after an insertion or a removal, up to the order of the list.
-/

namespace Soma.Lib.Table

open Std TreeMap

variable {α β : Type*} {cmp : α → α → Ordering} {m : TreeMap α β cmp} {k : α} {v : β}

section Lookup

variable [TransCmp cmp] [LawfulEqCmp cmp] [DecidableEq α] {a : α}

/-- What an insertion leaves, with equality of keys in place of the order's. -/
theorem get_insert : (m.insert k v)[a]? = if k = a then some v else m[a]? := by
  rw [getElem?_insert]
  simp only [LawfulEqCmp.compare_eq_iff_eq]

theorem get_erase : (m.erase k)[a]? = if k = a then none else m[a]? := by
  rw [getElem?_erase]
  simp only [LawfulEqCmp.compare_eq_iff_eq]

end Lookup

theorem values_eq (m : TreeMap α β cmp) : m.values = m.toList.map Prod.snd := by
  have hvalues : m.values = m.inner.inner.toListModel.map (fun x => x.snd) :=
    DTreeMap.Internal.Impl.values_eq_map_snd
  have hlist : m.toList = m.inner.inner.toListModel.map (fun e => (e.fst, e.snd)) :=
    DTreeMap.Internal.Impl.Const.toList_eq_toListModel_map
  rw [hvalues, hlist, List.map_map]
  rfl

variable [TransCmp cmp] [LawfulEqCmp cmp]

theorem mem_values : v ∈ m.values ↔ ∃ k : α, m[k]? = some v := by
  rw [values_eq, List.mem_map]
  constructor
  · rintro ⟨⟨k, v⟩, hmem, rfl⟩
    exact ⟨k, mem_toList_iff_getElem?_eq_some.mp hmem⟩
  · rintro ⟨k, hk⟩
    exact ⟨(k, v), mem_toList_iff_getElem?_eq_some.mpr hk, rfl⟩

theorem values_insert [BEq α] [LawfulBEq α] [LawfulBEqCmp cmp] (h : m[k]? = none) :
    (m.insert k v).values.Perm (v :: m.values) := by
  have hfilter : m.toList.filter (fun x => decide ¬ (k == x.1) = true) = m.toList := by
    rw [List.filter_eq_self]
    rintro ⟨k', v'⟩ hmem
    have hk' := mem_toList_iff_getElem?_eq_some.mp hmem
    by_cases hkk : k = k'
    · subst hkk
      rw [h] at hk'
      cases hk'
    · simpa using hkk
  have hperm := toList_insert_perm (t := m) (k := k) (v := v)
  rw [hfilter] at hperm
  rw [values_eq, values_eq]
  exact hperm.map Prod.snd

theorem values_congr {m' : TreeMap α β cmp} (h : ∀ k : α, m[k]? = m'[k]?) : m.values = m'.values :=
  (Equiv.of_forall_constGet?_eq h).values_eq

theorem values_replace [BEq α] [LawfulBEq α] [LawfulBEqCmp cmp] :
    (m.insert k v).values.Perm (v :: (m.erase k).values) := by
  have hsame : (m.insert k v).values = ((m.erase k).insert k v).values := by
    refine values_congr fun k' => ?_
    rw [getElem?_insert, getElem?_insert, getElem?_erase]
    split_ifs <;> rfl
  rw [hsame]
  exact values_insert (by simp)

theorem values_erase [BEq α] [LawfulBEq α] [LawfulBEqCmp cmp] (h : m[k]? = some v) :
    m.values.Perm (v :: (m.erase k).values) := by
  have hsame : m.values = (m.insert k v).values := by
    refine values_congr fun k' => ?_
    rw [getElem?_insert]
    split_ifs with heq
    · rw [← LawfulEqCmp.eq_of_compare heq]
      exact h
    · rfl
  rw [hsame]
  exact values_replace

/-! ## Tables of lists -/

section Lists

variable {γ : Type*} [BEq α] [LawfulBEq α] [LawfulBEqCmp cmp] {m : TreeMap α (List γ) cmp} {x : γ}

theorem flatten_values_erase : m.values.flatten.Perm (m.getD k [] ++ (m.erase k).values.flatten) := by
  rw [getD_eq_getD_getElem?]
  cases hk : m[k]? with
  | some list => exact (values_erase hk).flatten
  | none =>
    have hsame : (m.erase k).values = m.values := by
      refine values_congr fun k' => ?_
      rw [getElem?_erase]
      split_ifs with heq
      · rw [← LawfulEqCmp.eq_of_compare heq, hk]
      · rfl
    simp [hsame]

theorem flatten_values_push : (m.insert k (m.getD k [] ++ [x])).values.flatten.Perm (x :: m.values.flatten) := by
  have hpush : (m.insert k (m.getD k [] ++ [x])).values.flatten.Perm
      ((m.getD k [] ++ [x]) ++ (m.erase k).values.flatten) := values_replace.flatten
  have hmove : ((m.getD k [] ++ [x]) ++ (m.erase k).values.flatten).Perm
      (x :: (m.getD k [] ++ (m.erase k).values.flatten)) := by
    rw [List.append_assoc]
    exact List.perm_middle
  exact (hpush.trans hmove).trans (flatten_values_erase.symm.cons x)

end Lists

end Soma.Lib.Table
