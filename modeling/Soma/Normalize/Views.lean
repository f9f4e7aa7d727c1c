import Soma.Lib.Overlay
import Soma.Normalize.Tree

/-! # The tree as a function

What each operation of the tree does to the nodes by path: the view of the result is an overlay
operation of the view before. On success nothing stood in the way: what had to be a directory was one
or was free.
-/

namespace Soma.Normalize

open Std Soma.Lib Soma.Overlay

def Node.isDirectory : Node → Bool
  | .directory _ => true
  | _ => false

/-- The directory made where a layer only names something under it. -/
def implicitNode : Node := .directory .implicitDirectory

def Tree.view (tree : Tree) : View UInt8 Node :=
  fun path => tree.entries[path]?

/-- Everything above a node is a directory, and so is the root. -/
abbrev ClosedView (f : View UInt8 Node) : Prop :=
  Closed slash Node.isDirectory f

theorem Node.isDirectory_iff {node : Node} : node.isDirectory = true ↔ ∃ m, node = .directory m := by
  cases node <;> simp [Node.isDirectory]

namespace Tree

variable {tree tree' : Tree} {path p q : GuestPath} {node : Node}

/-! ## Single entries -/

theorem insert_eq_ok (h : tree.insert path node = .ok tree') :
    tree'.entries = tree.entries.insert path node ∧ tree'.maximumEntries = tree.maximumEntries ∧
      tree'.maximumMetadataBytes = tree.maximumMetadataBytes ∧
      tree'.entries.size ≤ tree.maximumEntries := by
  simp only [insert, seq_eq_ok, ensure_eq_ok] at h
  obtain ⟨-, ⟨hsize, -⟩, h⟩ := h
  cases h
  refine ⟨rfl, rfl, rfl, ?_⟩
  rw [TreeMap.size_insert]
  exact hsize

theorem insert_view (h : tree.insert path node = .ok tree') :
    tree'.view = Function.update tree.view path (some node) := by
  funext p
  rw [view, (insert_eq_ok h).1, Table.get_insert]
  by_cases hp : p = path
  · simp [hp]
  · rw [Function.update_of_ne hp, if_neg (Ne.symm hp)]
    rfl

theorem removeExact_view (h : tree.removeExact path = .ok tree') : tree'.view = without (· = path) tree.view := by
  funext p
  unfold removeExact at h
  split at h
  · next hnone =>
    cases h
    by_cases hp : p = path
    · simp [without, hp, view, hnone]
    · simp [without, hp]
  · simp only [seq_eq_ok, ensure_eq_ok] at h
    obtain ⟨-, h⟩ := h
    cases h
    simp only [view, Table.get_erase, without]
    by_cases hp : p = path
    · simp [hp]
    · simp [hp, Ne.symm hp]

/-! ## Descendants -/

theorem inDescendantBounds_iff : inDescendantBounds path p = true ↔ Below slash path p := by
  unfold inDescendantBounds Below
  by_cases hpath : path = []
  · subst hpath
    cases p <;> simp
  · have hlt : compare slash (0x30 : UInt8) = .lt := by decide
    have hnext : ∀ x : UInt8, (compare slash x).isLE → compare x 0x30 = .lt → x = slash := by
      intro x hle hlt
      have hle' : slash ≤ x := Std.isLE_compare.mp hle
      have hlt' : x < 0x30 := Std.compare_eq_lt.mp hlt
      rw [UInt8.le_iff_toNat_le] at hle'
      rw [UInt8.lt_iff_toNat_lt] at hlt'
      apply UInt8.toNat_inj.mp
      simp only [slash, UInt8.reduceToNat] at *
      omega
    have hiff := Path.between_iff_under hlt hnext (q := path) (p := p)
    simp only [hpath, if_false, Bool.and_eq_true, decide_eq_true_eq]
    exact hiff

theorem removeDescendants_view (h : tree.removeDescendants path = .ok tree') :
    tree'.view = without (Below slash path) tree.view := by
  have hrun : tree'.view =
      without (· ∈ tree.entries.keys.filter (inDescendantBounds path)) tree.view := by
    refine foldlM_run (fun done t => t.view = without (· ∈ done) tree.view) ?_ h ?_
    · intro done x rest _ t t' ht hP
      rw [removeExact_view ht, hP, without_without]
      congr
      funext p
      simp
    · simp [without_false]
  rw [hrun]
  funext p
  unfold without
  by_cases hbelow : Below slash path p
  · rw [if_pos hbelow]
    split
    · rfl
    · next hmem =>
      have hkey : p ∉ tree.entries := by
        intro hin
        exact hmem (List.mem_filter.mpr ⟨TreeMap.mem_keys.mpr hin, inDescendantBounds_iff.mpr hbelow⟩)
      exact TreeMap.getElem?_eq_none hkey
  · have hmem : p ∉ tree.entries.keys.filter (inDescendantBounds path) := by
      intro hin
      exact hbelow (inDescendantBounds_iff.mp (List.mem_filter.mp hin).2)
    rw [if_neg hmem, if_neg hbelow]

theorem removeSubtree_view (h : tree.removeSubtree path = .ok tree') :
    tree'.view = without (fun p => p = path ∨ Below slash path p) tree.view := by
  obtain ⟨t, ht, h⟩ := bind_eq_ok.mp h
  rw [removeDescendants_view h, removeExact_view ht, without_without]

/-! ## Parents -/

theorem ensureParent_view (h : tree.ensureParent path = .ok tree') :
    Free Node.isDirectory tree.view path ∧
      tree'.view = Function.update tree.view path (some ((tree.view path).getD implicitNode)) := by
  unfold ensureParent at h
  split at h
  · next m hdir =>
    cases h
    have hview : tree.view path = some (.directory m) := hdir
    refine ⟨IsDir.free ⟨_, hview, rfl⟩, ?_⟩
    rw [hview, Option.getD_some, ← hview, Function.update_eq_self]
  · cases h
  · next hnone =>
    have hview : tree.view path = none := hnone
    refine ⟨Free.of_none hview, ?_⟩
    rw [insert_view h, hview]
    rfl

theorem foldlM_ensureParent_view {parents : List GuestPath} (h : parents.foldlM ensureParent tree = .ok tree') :
    (∀ q ∈ parents, Free Node.isDirectory tree.view q) ∧
      tree'.view = fun p =>
        if p ∈ parents then some ((tree.view p).getD implicitNode) else tree.view p := by
  refine foldlM_run (fun done t => (∀ q ∈ done, Free Node.isDirectory tree.view q) ∧
    t.view = fun p => if p ∈ done then some ((tree.view p).getD implicitNode) else tree.view p) ?_ h ?_
  · rintro done x rest - t t' ht ⟨hfree, hview⟩
    obtain ⟨hx, ht'⟩ := ensureParent_view ht
    have hxfree : Free Node.isDirectory tree.view x := by
      by_cases hmem : x ∈ done
      · exact hfree x hmem
      · intro n hn
        apply hx n
        rw [hview]
        simp [hmem, hn]
    refine ⟨?_, ?_⟩
    · exact List.forall_mem_append.mpr ⟨hfree, List.forall_mem_singleton.mpr hxfree⟩
    · funext p
      rw [ht', hview]
      by_cases hp : p = x
      · subst hp
        by_cases hmem : p ∈ done
        · simp [hmem]
        · simp [hmem]
      · simp [hp]
  · simp

theorem ensureParents_view (hpath : Normal path) (h : tree.ensureParents path = .ok tree') :
    (∀ q, Under q path → Free Node.isDirectory tree.view q) ∧
      tree'.view = withParents slash implicitNode tree.view path := by
  rw [ensureParents, hpath.walk] at h
  obtain ⟨hfree, hview⟩ := foldlM_ensureParent_view h
  refine ⟨fun q hq => hfree q (mem_ancestors.mpr hq), ?_⟩
  rw [hview]
  funext p
  simp only [withParents, mem_ancestors]

theorem putDirectory_view {metadata : Metadata} (hpath : Normal path)
    (h : tree.putDirectory path metadata = .ok tree') :
    (∀ q, Under q path → Free Node.isDirectory tree.view q) ∧
      tree'.view = Function.update (withParents slash implicitNode tree.view path) path
        (some (.directory metadata)) := by
  obtain ⟨t, ht, h⟩ := bind_eq_ok.mp h
  rw [insert_view h]
  split at ht
  · next hnil =>
    cases ht
    subst hnil
    have hnone : ∀ q, ¬ Under q [] := fun q => Path.not_under_nil
    refine ⟨fun q hq => absurd hq (hnone q), ?_⟩
    congr
    funext p
    simp [withParents, hnone p]
  · obtain ⟨hfree, hview⟩ := ensureParents_view hpath ht
    exact ⟨hfree, by rw [hview]⟩

theorem putNode_view (hpath : Normal path) (hclosed : ClosedView tree.view)
    (h : tree.putNode path node = .ok tree') :
    path ≠ [] ∧ (∀ q, Under q path → Free Node.isDirectory tree.view q) ∧
      tree'.view = put slash implicitNode tree.view path node := by
  simp only [putNode, bind_eq_ok, ensure_eq_ok, exists_const] at h
  obtain ⟨hne, t, ht, u, hu, h⟩ := h
  obtain ⟨hfree, hview⟩ := ensureParents_view hpath ht
  refine ⟨hne, hfree, ?_⟩
  -- a node that is not a directory has nothing under it, so clearing below it changes nothing
  have hclosed' : ClosedView t.view := hview ▸ hclosed.withParents rfl hfree
  have hclear : u.view = without (Under path) t.view := by
    split at hu
    · rw [removeDescendants_view hu]
      funext p
      simp [without, Below, hne]
    · next hnot =>
      cases hu
      funext p
      unfold without
      split
      · next hp =>
        apply hclosed'.none_of_not_isDir _ hp
        rintro ⟨n, hn, hdir⟩
        obtain ⟨m, rfl⟩ := Node.isDirectory_iff.mp hdir
        exact hnot m hn
      · rfl
  rw [insert_view h, hclear, hview]
  funext p
  by_cases hp : p = path
  · simp [hp, put]
  · by_cases hunder : Under path p <;> simp [hp, put, without, hunder]

end Tree

end Soma.Normalize
