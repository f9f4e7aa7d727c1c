import Soma.Normalize.Views

/-! # The passes of a layer

What each of the first four passes over a plan does to the view of the tree, for a whole list of
whiteouts or additions: the whiteouts' directories are made (`upgraded`), the whiteouts take paths out
(`without`), the planned directories and then the other planned nodes are a layer put over the tree
(`withDirectories`, `overlaid`). Every pass keeps the tree closed.
-/

namespace Soma.Normalize

open Std Soma.Lib Soma.Overlay List

/-- A plan whose paths and targets are normal. -/
structure LayerPlan.Normalized (plan : LayerPlan) : Prop where
  path : ∀ {p : GuestPath} {n : PlannedNode}, plan.additions[p]? = some n → Normal p
  target : ∀ {p t : GuestPath}, plan.additions[p]? = some (.hardlink t) → Normal t
  whiteout : ∀ w ∈ plan.whiteouts, Normal w.path

variable {w : Whiteout}

theorem Whiteout.directory_normal (h : Normal w.path) : Normal w.directory := by
  cases w with
  | remove path => exact Normal.parent h
  | makeOpaque path => exact h

/-- A node is the one a plan asks for; files get a fresh inode, and a hard link is no node of its own. -/
def Realizes : PlannedNode → Node → Prop
  | .directory metadata, node => node = .directory metadata
  | .regular metadata digest size, node => ∃ inode, node = .regular ⟨inode, metadata, digest, size⟩
  | .symlink metadata target, node => node = .symlink metadata target
  | .fifo metadata, node => node = .fifo metadata
  | .hardlink _, _ => False

/-- A planned node other than a directory or a hard link. -/
def PlannedNode.isPlain : PlannedNode → Bool
  | .regular .. | .symlink .. | .fifo _ => true
  | .directory _ | .hardlink _ => false

theorem PlannedNode.isDirectory_of_isPlain {planned : PlannedNode} (h : planned.isPlain = true) :
    planned.isDirectory = false := by
  cases planned with
  | directory metadata => cases h
  | _ => rfl

/-- The paths a whiteout takes out. -/
def Whiteout.Removes : Whiteout → GuestPath → Prop
  | .remove path, p => p = path ∨ Below slash path p
  | .makeOpaque path, p => Below slash path p

theorem Whiteout.Removes.down {p q : GuestPath} (h : w.Removes q) (hp : Under q p) : w.Removes p := by
  cases w with
  | remove path =>
    right
    rcases h with rfl | hb
    · unfold Below
      split
      · rintro rfl
        exact Path.not_under_nil hp
      · exact hp
    · exact hb.trans hp
  | makeOpaque path => exact Below.trans h hp

namespace Tree

variable {tree tree' : Tree} {path p q : GuestPath}
  {additions : TreeMap GuestPath PlannedNode compare}

/-! ## The hierarchy of the additions -/

/-- No addition lies under one that is not a directory. -/
def Hierarchical (additions : TreeMap GuestPath PlannedNode compare) : Prop :=
  ∀ {p q : GuestPath} {n m : PlannedNode}, additions[p]? = some n → additions[q]? = some m → Under q p →
    m.isDirectory = true

theorem validateAdditionHierarchy_eq_ok (h : validateAdditionHierarchy additions = .ok ()) :
    Hierarchical additions := by
  intro p q n m hp hq hunder
  have hkey : p ∈ additions.keys := TreeMap.mem_keys.mpr (TreeMap.mem_iff_isSome_getElem?.mpr (by simp [hp]))
  have hforp := forM_eq_ok.mp h p hkey
  have hforq := forM_eq_ok.mp hforp q (mem_ancestors.mpr hunder)
  exact ensure_eq_ok.mp hforq m hq

/-! ## The directories of the whiteouts -/

/-- The directory a plan makes for a whiteout. -/
def made (additions : TreeMap GuestPath PlannedNode compare) (path : GuestPath) : Node :=
  .directory ((plannedDirectory additions path).getD .implicitDirectory)

theorem made_isDirectory (p : GuestPath) : (made additions p).isDirectory = true := rfl

/-- A node that is not a directory may only give way to a planned directory. -/
def Replaceable (additions : TreeMap GuestPath PlannedNode compare) (f : View UInt8 Node) (p : GuestPath) :
    Prop :=
  Free Node.isDirectory f p ∨ (plannedDirectory additions p).isSome

theorem ensureWhiteoutDirectory_view (h : tree.ensureWhiteoutDirectory additions path = .ok tree') :
    Replaceable additions tree.view path ∧
      tree'.view = upgraded Node.isDirectory (made additions) (· = path) tree.view := by
  -- inserting the directory is upgrading the path, when the node there is not one
  have hupdate : ∀ {n : Node}, n = upgrade Node.isDirectory (made additions) tree.view path →
      Function.update tree.view path (some n) =
        upgraded Node.isDirectory (made additions) (· = path) tree.view := by
    rintro n rfl
    funext p
    by_cases hp : p = path
    · simp [upgraded, hp]
    · simp [upgraded, hp]
  unfold ensureWhiteoutDirectory at h
  split at h
  · next m hdir =>
    cases h
    have hview : tree.view path = some (.directory m) := hdir
    refine ⟨.inl (IsDir.free ⟨_, hview, rfl⟩), ?_⟩
    rw [← hupdate (n := .directory m) (by simp [upgrade, hview, Node.isDirectory]), ← hview,
      Function.update_eq_self]
  · next other hnot hsome =>
    have hview : tree.view path = some other := hsome
    obtain ⟨metadata, hplanned, h⟩ := bind_eq_ok.mp h
    rw [okOr_eq_ok] at hplanned
    refine ⟨.inr (by simp [hplanned]), ?_⟩
    rw [insert_view h]
    apply hupdate
    have hother : other.isDirectory = false := by
      cases other with
      | directory m => exact absurd rfl (hnot m)
      | _ => rfl
    simp [upgrade, hview, hother, made, hplanned]
  · next hnone =>
    have hview : tree.view path = none := hnone
    refine ⟨.inl (Free.of_none hview), ?_⟩
    rw [insert_view h]
    apply hupdate
    simp [upgrade, hview, made]

/-- The paths a directory needs: itself and those above it, the root apart. -/
def Needs (directory p : GuestPath) : Prop :=
  directory ≠ [] ∧ (p = directory ∨ Under p directory)

theorem Needs.up {directory : GuestPath} (h : Needs directory p) (hq : Under q p) : Needs directory q := by
  obtain ⟨hne, hp⟩ := h
  refine ⟨hne, .inr ?_⟩
  rcases hp with rfl | hp
  · exact hq
  · exact hq.trans hp

theorem Replaceable.of_upgraded {E : GuestPath → Prop} {f : View UInt8 Node} (hE : ¬ E p)
    (h : Replaceable additions (upgraded Node.isDirectory (made additions) E f) p) : Replaceable additions f p := by
  rcases h with hfree | hplanned
  · left
    intro n hn
    exact hfree n (by simp [upgraded, hE, hn])
  · exact .inr hplanned

theorem foldlM_upgraded {ι : Type} {step : Tree → ι → Except NormalizeError Tree} {E : ι → GuestPath → Prop}
    {xs : List ι} (hstep : ∀ x ∈ xs, ∀ {t t'}, step t x = .ok t' → (∀ p, E x p → Replaceable additions t.view p) ∧
      t'.view = upgraded Node.isDirectory (made additions) (E x) t.view) (h : xs.foldlM step tree = .ok tree') :
    (∀ p, (∃ x ∈ xs, E x p) → Replaceable additions tree.view p) ∧
      tree'.view = upgraded Node.isDirectory (made additions) (fun p => ∃ x ∈ xs, E x p) tree.view := by
  refine foldlM_run (fun done t => (∀ p, (∃ x ∈ done, E x p) → Replaceable additions tree.view p) ∧
    t.view = upgraded Node.isDirectory (made additions) (fun p => ∃ x ∈ done, E x p) tree.view) ?_ h ?_
  · rintro done x rest hxs t t' ht ⟨hrep, hview⟩
    obtain ⟨hx, ht'⟩ := hstep x (by simp [hxs]) ht
    simp only [mem_append, mem_singleton, or_and_right, exists_or, exists_eq_left]
    refine ⟨?_, ?_⟩
    · intro p hp
      by_cases hdone : ∃ y ∈ done, E y p
      · exact hrep p hdone
      · exact Replaceable.of_upgraded hdone (hview ▸ hx p (hp.resolve_left hdone))
    · rw [ht', hview, upgraded_upgraded made_isDirectory]
  · simp [upgraded_false]

theorem ensureWhiteoutParent_view (hpath : Normal path) (h : tree.ensureWhiteoutParent path additions = .ok tree') :
    (∀ p, Needs path p → Replaceable additions tree.view p) ∧
      tree'.view = upgraded Node.isDirectory (made additions) (Needs path) tree.view := by
  unfold ensureWhiteoutParent at h
  split at h
  · next hnil =>
    cases h
    have hfalse : Needs path = fun _ => False := by
      funext p
      simp [Needs, hnil]
    rw [hfalse]
    exact ⟨fun p hp => hp.elim, upgraded_false.symm⟩
  · next hne =>
    rw [hpath.walk_self hne] at h
    have hneeds : Needs path = fun p => ∃ x ∈ ancestors path ++ [path], p = x := by
      funext p
      simp [Needs, hne, mem_ancestors, or_comm]
    rw [hneeds]
    exact foldlM_upgraded (fun x _ _ _ ht =>
      (ensureWhiteoutDirectory_view ht).imp_left fun hrep p hp => hp ▸ hrep) h

/-- The directories of the whiteouts and those above them. -/
def Needed (whiteouts : List Whiteout) (p : GuestPath) : Prop :=
  ∃ w ∈ whiteouts, Needs w.directory p

variable {whiteouts : List Whiteout}

theorem ensureWhiteoutParents_view (hnormal : ∀ w ∈ whiteouts, Normal w.path)
    (h : whiteouts.foldlM (fun tree w => tree.ensureWhiteoutParent w.directory additions) tree = .ok tree') :
    (∀ p, Needed whiteouts p → Replaceable additions tree.view p) ∧
      tree'.view = upgraded Node.isDirectory (made additions) (Needed whiteouts) tree.view := by
  exact foldlM_upgraded (fun w hw _ _ ht =>
    ensureWhiteoutParent_view (Whiteout.directory_normal (hnormal w hw)) ht) h

/-! ## The whiteouts -/

theorem applyWhiteout_view {w : Whiteout} (h : tree.applyWhiteout w = .ok tree') :
    ¬ w.Removes [] ∧ tree'.view = without w.Removes tree.view := by
  have hnotBelow : ∀ path : GuestPath, ¬ Below slash path [] := fun path hb => hb.ne_nil rfl
  cases w with
  | remove path =>
    simp only [applyWhiteout, seq_eq_ok, ensure_eq_ok] at h
    obtain ⟨hne, h⟩ := h
    refine ⟨?_, removeSubtree_view h⟩
    rintro (heq | hb)
    · exact hne heq.symm
    · exact hnotBelow path hb
  | makeOpaque path =>
    refine ⟨hnotBelow path, ?_⟩
    simp only [applyWhiteout, makeOpaque] at h
    split at h
    · exact removeDescendants_view h
    · exact removeDescendants_view h
    · cases h

def Removed (whiteouts : List Whiteout) (p : GuestPath) : Prop :=
  ∃ w ∈ whiteouts, w.Removes p

theorem Removed.down (h : Removed whiteouts q) (hp : Under q p) : Removed whiteouts p := by
  obtain ⟨w, hw, hq⟩ := h
  exact ⟨w, hw, hq.down hp⟩

theorem applyWhiteouts_view (h : whiteouts.foldlM applyWhiteout tree = .ok tree') :
    ¬ Removed whiteouts [] ∧ tree'.view = without (Removed whiteouts) tree.view := by
  refine foldlM_run
    (fun done t => ¬ Removed done [] ∧ t.view = without (Removed done) tree.view) ?_ h ?_
  · rintro done w rest - t t' ht ⟨hroot, hview⟩
    obtain ⟨hw, ht'⟩ := applyWhiteout_view ht
    have hsplit : Removed (done ++ [w]) = fun p => Removed done p ∨ w.Removes p := by
      funext p
      simp [Removed, or_and_right, exists_or]
    rw [hsplit]
    refine ⟨?_, ?_⟩
    · rintro (hdone | hlast)
      · exact hroot hdone
      · exact hw hlast
    · rw [ht', hview, without_without]
  · have hfalse : Removed [] = fun _ => False := by
      funext p
      simp [Removed]
    rw [hfalse]
    exact ⟨id, without_false.symm⟩

/-! ## The layer of a plan -/

/-- The nodes a selection of planned nodes puts, by path. -/
def layerOf (select : PlannedNode → Option Node) (items : List (GuestPath × PlannedNode)) :
    View UInt8 Node :=
  fun p => items.findSome? fun item => if item.1 = p then select item.2 else none

variable {select : PlannedNode → Option Node} {items : List (GuestPath × PlannedNode)}
  {planned : PlannedNode} {node : Node}

theorem layerOf_of_not_mem (h : p ∉ items.map Prod.fst) : layerOf select items p = none := by
  rw [layerOf, findSome?_eq_none_iff]
  intro item hitem
  rw [if_neg]
  rintro rfl
  exact h (mem_map_of_mem hitem)

theorem layerOf_append (items' : List (GuestPath × PlannedNode)) :
    layerOf select (items ++ items') p = (layerOf select items p).or (layerOf select items' p) :=
  findSome?_append

theorem layerOf_concat_none (hsel : select planned = none) :
    layerOf select (items ++ [(path, planned)]) = layerOf select items := by
  funext p
  simp [layerOf, hsel]

theorem layerOf_concat (h : path ∉ items.map Prod.fst) (hsel : select planned = some node) :
    layerOf select (items ++ [(path, planned)]) =
      Function.update (layerOf select items) path (some node) := by
  funext p
  rw [layerOf_append]
  by_cases hp : p = path
  · subst hp
    rw [layerOf_of_not_mem h]
    simp [layerOf, hsel]
  · simp [layerOf, hp, Ne.symm hp]

variable {rest : List (GuestPath × PlannedNode)}

section

variable (h : additions.toList = items ++ (path, planned) :: rest)
include h

theorem not_mem_of_toList_eq : path ∉ items.map Prod.fst ∧ path ∉ rest.map Prod.fst := by
  have hnodup : (additions.toList.map Prod.fst).Nodup := by
    rw [TreeMap.map_fst_toList_eq_keys]
    exact TreeMap.nodup_keys
  rw [h, map_append, map_cons, nodup_middle, nodup_cons, mem_append] at hnodup
  exact not_or.mp hnodup.1

theorem getElem?_of_toList_eq : additions[path]? = some planned := by
  have hmem : (path, planned) ∈ additions.toList := by
    rw [h]
    simp
  exact TreeMap.mem_toList_iff_getElem?_eq_some.mp hmem

end

theorem layerOf_toList (additions : TreeMap GuestPath PlannedNode compare) :
    layerOf select additions.toList p = additions[p]?.bind select := by
  cases hget : additions[p]? with
  | none =>
    refine layerOf_of_not_mem fun hmem => ?_
    rw [TreeMap.map_fst_toList_eq_keys, TreeMap.mem_keys, TreeMap.mem_iff_isSome_getElem?, hget] at hmem
    cases hmem
  | some planned =>
    obtain ⟨before, after, hlist⟩ := append_of_mem (TreeMap.mem_toList_iff_getElem?_eq_some.mpr hget)
    obtain ⟨hbefore, hafter⟩ := not_mem_of_toList_eq hlist
    rw [hlist, layerOf_append, layerOf_of_not_mem hbefore, ← singleton_append, layerOf_append,
      layerOf_of_not_mem hafter]
    simp [layerOf]

/-! ## The planned directories -/

def directoryNode : PlannedNode → Option Node
  | .directory metadata => some (.directory metadata)
  | _ => none

def directories (additions : TreeMap GuestPath PlannedNode compare) : View UInt8 Node :=
  fun p => additions[p]?.bind directoryNode

theorem putPlannedDirectories_view (hnormal : ∀ {p n}, additions[p]? = some n → Normal p)
    (hclosed : ClosedView tree.view) (h : additions.toList.foldlM putPlannedDirectory tree = .ok tree') :
    ClosedView tree'.view ∧
      tree'.view = withDirectories slash implicitNode (directories additions) tree.view := by
  have hrun : ClosedView tree'.view ∧ tree'.view =
      withDirectories slash implicitNode (layerOf directoryNode additions.toList) tree.view := by
    refine foldlM_run (fun done t => ClosedView t.view ∧
      t.view = withDirectories slash implicitNode (layerOf directoryNode done) tree.view) ?_ h ?_
    · rintro done ⟨path, planned⟩ rest hlist t t' ht ⟨hc, hview⟩
      cases planned with
      | directory metadata =>
        have hpath : Normal path := hnormal (getElem?_of_toList_eq hlist)
        have hnew := (not_mem_of_toList_eq hlist).1
        obtain ⟨hfree, ht'⟩ := putDirectory_view hpath ht
        rw [layerOf_concat hnew rfl]
        refine ⟨?_, ?_⟩
        · rw [ht']
          have hdirs : ∀ q, Under q path →
              IsDir Node.isDirectory (withParents slash implicitNode t.view path) q :=
            fun q hq => isDir_withParents hfree rfl hq
          exact (hc.withParents rfl hfree).update_dir rfl hdirs
        · rw [ht', hview, withDirectories_update (layerOf_of_not_mem hnew)]
      | _ =>
        cases ht
        rw [layerOf_concat_none rfl]
        exact ⟨hc, hview⟩
    · refine ⟨hclosed, ?_⟩
      have hempty : layerOf directoryNode [] = fun _ => none := rfl
      rw [hempty, withDirectories_empty]
  have hlayer : layerOf directoryNode additions.toList = directories additions := by
    funext p
    exact layerOf_toList additions
  rwa [hlayer] at hrun

/-! ## The other planned nodes -/

/-- The layer of the plain nodes of a plan: each is put as planned, and nothing else is put. -/
structure Placement (items : List (GuestPath × PlannedNode)) (placed : View UInt8 Node) : Prop where
  put : ∀ {p planned}, (p, planned) ∈ items → planned.isPlain = true →
    ∃ node, placed p = some node ∧ Realizes planned node
  only : ∀ {p node}, placed p = some node → ∃ planned, (p, planned) ∈ items ∧ planned.isPlain = true

theorem putPlannedNode_plain (hplain : planned.isPlain = true)
    (h : tree.putPlannedNode (path, planned) = .ok tree') :
    ∃ (t : Tree) (node : Node), t.view = tree.view ∧ Realizes planned node ∧
      t.putNode path node = .ok tree' := by
  cases planned with
  | regular metadata digest size =>
    simp only [putPlannedNode, putRegular, seq_eq_ok, ensure_eq_ok] at h
    exact ⟨{ tree with nextInode := tree.nextInode + 1 }, _, rfl, ⟨_, rfl⟩, h.2⟩
  | symlink | fifo => exact ⟨tree, _, rfl, rfl, h⟩
  | directory | hardlink => cases hplain

theorem putPlannedNode_of_not_plain (hplain : planned.isPlain = false)
    (h : tree.putPlannedNode (path, planned) = .ok tree') : tree' = tree := by
  cases planned with
  | directory | hardlink => cases h; rfl
  | _ => cases hplain

theorem Hierarchical.apart (h : Hierarchical additions) {n m : PlannedNode} (hp : additions[p]? = some n)
    (hn : n.isDirectory = false) (hq : additions[q]? = some m) (hm : m.isDirectory = false) :
    ¬ Under p q ∧ ¬ Under q p := by
  refine ⟨fun hpq => ?_, fun hqp => ?_⟩
  · have hdir := h hq hp hpq
    rw [hn] at hdir
    cases hdir
  · have hdir := h hp hq hqp
    rw [hm] at hdir
    cases hdir

theorem putPlannedNodes_view (hnormal : ∀ {p n}, additions[p]? = some n → Normal p) (hier : Hierarchical additions)
    (hclosed : ClosedView tree.view) (h : additions.toList.foldlM putPlannedNode tree = .ok tree') :
    ClosedView tree'.view ∧ ∃ placed, Placement additions.toList placed ∧
      tree'.view = overlaid slash implicitNode placed tree.view := by
  refine foldlM_run (fun done t => ClosedView t.view ∧ ∃ placed, Placement done placed ∧
    t.view = overlaid slash implicitNode placed tree.view) ?_ h ?_
  · rintro done ⟨path, planned⟩ rest hlist t t' ht ⟨hc, placed, hplaced, hview⟩
    cases hplain : planned.isPlain with
    | false =>
      rw [putPlannedNode_of_not_plain hplain ht]
      refine ⟨hc, placed, ⟨?_, ?_⟩, hview⟩
      · intro p m hmem hm
        rcases mem_append.mp hmem with hdone | hlast
        · exact hplaced.put hdone hm
        · cases mem_singleton.mp hlast
          rw [hplain] at hm
          cases hm
      · intro p node hp
        obtain ⟨m, hmem, hm⟩ := hplaced.only hp
        exact ⟨m, mem_append_left _ hmem, hm⟩
    | true =>
      have hget := getElem?_of_toList_eq hlist
      have hfresh := (not_mem_of_toList_eq hlist).1
      obtain ⟨u, node, hu, hreal, hput⟩ := putPlannedNode_plain hplain ht
      obtain ⟨hne, hfree, ht'⟩ := putNode_view (hnormal hget) (hu ▸ hc) hput
      rw [hu] at hfree ht'
      have hnew : placed path = none := by
        cases hp : placed path with
        | none => rfl
        | some n =>
          obtain ⟨m, hmem, -⟩ := hplaced.only hp
          exact absurd (mem_map_of_mem hmem) hfresh
      have hapart : ∀ a m, placed a = some m → ¬ Under a path ∧ ¬ Under path a := by
        intro a m ha
        obtain ⟨k, hmem, hk⟩ := hplaced.only ha
        have hgeta : additions[a]? = some k := by
          apply TreeMap.mem_toList_iff_getElem?_eq_some.mp
          rw [hlist]
          simp [hmem]
        exact hier.apart hgeta (PlannedNode.isDirectory_of_isPlain hk) hget
          (PlannedNode.isDirectory_of_isPlain hplain)
      refine ⟨?_, Function.update placed path (some node), ⟨?_, ?_⟩, ?_⟩
      · rw [ht']
        exact hc.put rfl hne hfree
      · intro p m hmem hm
        rcases mem_append.mp hmem with hdone | hlast
        · rw [Function.update_of_ne (ne_of_mem_of_not_mem (mem_map_of_mem hdone) hfresh)]
          exact hplaced.put hdone hm
        · cases mem_singleton.mp hlast
          exact ⟨node, by simp, hreal⟩
      · intro p n hp
        by_cases heq : p = path
        · exact ⟨planned, by simp [heq], hplain⟩
        · rw [Function.update_of_ne heq] at hp
          obtain ⟨m, hmem, hm⟩ := hplaced.only hp
          exact ⟨m, mem_append_left _ hmem, hm⟩
      · rw [ht', hview, overlaid_update hnew hapart]
  · refine ⟨hclosed, fun _ => none, ⟨?_, ?_⟩, overlaid_empty.symm⟩
    · simp
    · simp

end Tree

end Soma.Normalize
