import Soma.Normalize.Hardlinks

/-! # Applying a layer

The five passes of `apply` together: a successful application is the overlay of the layer over the tree.
`Overlays` says so path by path, from the additions, the whiteouts and the nodes before.
-/

namespace Soma.Normalize

open Std Soma.Lib Soma.Overlay Soma.Normalize.Tree

variable {limits : RootfsLimits} {tree tree' : Tree} {plan : LayerPlan} {p q : GuestPath}

/-- The trees built from `Tree.new` by successful applications of accepted plans. -/
inductive Tree.Reachable (limits : RootfsLimits) (accepted : LayerPlan → Prop) : Tree → Prop where
  | new {tree : Tree} : new limits = .ok tree → Reachable limits accepted tree
  | apply {tree tree' : Tree} {plan : LayerPlan} : Reachable limits accepted tree → accepted plan →
      tree.apply plan = .ok tree' → Reachable limits accepted tree'

/-! ## The overlay -/

/-- What a plan takes from the tree: what its whiteouts remove, and what lies under an addition that is not
a directory. -/
def LayerPlan.Takes (plan : LayerPlan) (p : GuestPath) : Prop :=
  Removed plan.whiteouts p ∨
    ∃ a n, plan.additions[a]? = some n ∧ n.isDirectory = false ∧ Under a p

/-- The path is above an addition. -/
def LayerPlan.LeadsTo (plan : LayerPlan) (p : GuestPath) : Prop :=
  ∃ a n, plan.additions[a]? = some n ∧ Under p a

/-- The overlay of a layer: the nodes `new` after the plan was applied to the nodes `old`. -/
structure Overlays (plan : LayerPlan) (old new : View UInt8 Node) : Prop where
  /-- The paths: the additions, what is above them, the whiteouts' directories with what is above them, and
  the old paths, the last two unless they are taken. -/
  mem : ∀ p, (new p).isSome ↔ p ∈ plan.additions ∨ plan.LeadsTo p ∨
    (Needed plan.whiteouts p ∧ ¬ plan.Takes p) ∨ ((old p).isSome ∧ ¬ plan.Takes p)
  added : ∀ {p : GuestPath} {planned : PlannedNode}, plan.additions[p]? = some planned →
    (∀ t, planned ≠ .hardlink t) → ∃ node, new p = some node ∧ Realizes planned node
  kept : ∀ {p node}, p ∉ plan.additions → ¬ plan.Takes p → old p = some node → new p = some node
  created : ∀ {p node}, p ∉ plan.additions → (plan.Takes p ∨ old p = none) → new p = some node →
    node = implicitNode
  linked : ∀ {p t : GuestPath}, plan.additions[p]? = some (.hardlink t) →
    ∃ r file, ResolvesTo plan.additions p r ∧ new p = some (.regular file) ∧ new r = some (.regular file)

/-! ## The passes together -/

/-- What the passes leave: the layers of the plan over the old tree. -/
structure Layered (plan : LayerPlan) (old new : View UInt8 Node) (placed : View UInt8 Node) : Prop where
  hier : Hierarchical plan.additions
  replaceable : ∀ p, Needed plan.whiteouts p → Replaceable plan.additions old p
  view : new = overlaid slash implicitNode placed
    (withDirectories slash implicitNode (directories plan.additions)
      (without (Removed plan.whiteouts)
        (upgraded Node.isDirectory (made plan.additions) (Needed plan.whiteouts) old)))
  plain : ∀ {p : GuestPath} {planned : PlannedNode}, plan.additions[p]? = some planned →
    planned.isPlain = true → ∃ node, placed p = some node ∧ Realizes planned node
  link : ∀ {p t : GuestPath}, plan.additions[p]? = some (.hardlink t) → ∃ r file,
    ResolvesTo plan.additions p r ∧ placed p = some (.regular file) ∧ new r = some (.regular file)
  only : ∀ {p node}, placed p = some node → ∃ planned, plan.additions[p]? = some planned ∧
    planned.isDirectory = false

theorem apply_layered (hplan : plan.Normalized) (hclosed : ClosedView tree.view) (h : tree.apply plan = .ok tree') :
    ClosedView tree'.view ∧ ∃ placed, Layered plan tree.view tree'.view placed := by
  simp only [apply, bind_eq_ok] at h
  obtain ⟨⟨⟩, hval, t₁, h₁, t₂, h₂, t₃, h₃, t₄, h₄, h₅⟩ := h
  have hier : Hierarchical plan.additions := validateAdditionHierarchy_eq_ok hval
  obtain ⟨hrep, hv₁⟩ := ensureWhiteoutParents_view hplan.whiteout h₁
  have hc₁ : ClosedView t₁.view := by
    rw [hv₁]
    apply hclosed.upgraded made_isDirectory
    rintro p q ⟨w, hw, hneeds⟩ hq
    exact .inl ⟨w, hw, hneeds.up hq⟩
  obtain ⟨hroot, hv₂⟩ := applyWhiteouts_view h₂
  have hc₂ : ClosedView t₂.view := by
    rw [hv₂]
    exact hc₁.without hroot fun hq hp => hq.down hp
  obtain ⟨hc₃, hv₃⟩ := putPlannedDirectories_view hplan.path hc₂ h₃
  obtain ⟨hc₄, placed, hplaced, hv₄⟩ := putPlannedNodes_view hplan.path hier hc₃ h₄
  have hplain : ∀ p n, placed p = some n → ∃ m, plan.additions[p]? = some m ∧ m.isPlain = true := by
    intro p n hp
    obtain ⟨m, hmem, hm⟩ := hplaced.only hp
    exact ⟨m, TreeMap.mem_toList_iff_getElem?_eq_some.mp hmem, hm⟩
  obtain ⟨hc₅, placed', hv₅, hlink, hsame⟩ := putHardlinks_view hier hplan.path hplain hc₄ hv₄ h₅
  refine ⟨hc₅, placed', hier, hrep, ?_, ?_, hlink, ?_⟩
  · rw [hv₅, hv₃, hv₂, hv₁]
  · intro p planned hp hm
    have hnot : ∀ t, plan.additions[p]? ≠ some (.hardlink t) := by
      intro t ht
      rw [hp] at ht
      cases ht
      cases hm
    rw [hsame hnot]
    exact hplaced.put (TreeMap.mem_toList_iff_getElem?_eq_some.mpr hp) hm
  · intro p node hp
    by_cases hnot : ∀ t, plan.additions[p]? ≠ some (.hardlink t)
    · rw [hsame hnot] at hp
      obtain ⟨m, hm, hpl⟩ := hplain p node hp
      exact ⟨m, hm, PlannedNode.isDirectory_of_isPlain hpl⟩
    · obtain ⟨t, ht⟩ := not_forall_not.mp hnot
      exact ⟨_, ht, rfl⟩

/-! ## From the layers to the overlay -/

namespace Layered

variable {old new placed : View UInt8 Node} (h : Layered plan old new placed)
include h

theorem placed_of_addition {planned : PlannedNode} (hp : plan.additions[p]? = some planned)
    (hdir : planned.isDirectory = false) : ∃ node, placed p = some node := by
  cases planned with
  | directory metadata => cases hdir
  | hardlink target =>
    obtain ⟨r, file, -, hput, -⟩ := h.link hp
    exact ⟨_, hput⟩
  | _ =>
    obtain ⟨node, hput, -⟩ := h.plain hp rfl
    exact ⟨node, hput⟩

theorem placed_eq_none (hp : ∀ planned, plan.additions[p]? = some planned → planned.isDirectory = true) :
    placed p = none := by
  cases hplaced : placed p with
  | none => rfl
  | some node =>
    obtain ⟨planned, hget, hdir⟩ := h.only hplaced
    rw [hp planned hget] at hdir
    cases hdir

theorem covered_iff : Covered slash placed p ↔
    ∃ a n, plan.additions[a]? = some n ∧ n.isDirectory = false ∧ Under a p := by
  constructor
  · rintro ⟨a, node, ha, hunder⟩
    obtain ⟨n, hn, hdir⟩ := h.only ha
    exact ⟨a, n, hn, hdir, hunder⟩
  · rintro ⟨a, n, hn, hdir, hunder⟩
    obtain ⟨node, ha⟩ := h.placed_of_addition hn hdir
    exact ⟨a, node, ha, hunder⟩

theorem not_covered {n : PlannedNode} {a : GuestPath} (ha : plan.additions[a]? = some n) (hp : p = a ∨ Under p a) :
    ¬ Covered slash placed p := by
  intro hcov
  obtain ⟨b, m, hb, hdir, hunder⟩ := h.covered_iff.mp hcov
  have hba : Under b a := by
    rcases hp with rfl | hp
    · exact hunder
    · exact hunder.trans hp
  have htrue := h.hier ha hb hba
  rw [hdir] at htrue
  cases htrue

theorem leads_iff : Leads slash placed p ∨ Leads slash (directories plan.additions) p ↔ plan.LeadsTo p := by
  constructor
  · rintro (⟨a, node, ha, hunder⟩ | ⟨a, node, ha, hunder⟩)
    · obtain ⟨n, hn, -⟩ := h.only ha
      exact ⟨a, n, hn, hunder⟩
    · obtain ⟨n, hn, -⟩ := Option.bind_eq_some_iff.mp ha
      exact ⟨a, n, hn, hunder⟩
  · rintro ⟨a, n, hn, hunder⟩
    cases hdir : n.isDirectory with
    | false =>
      obtain ⟨node, ha⟩ := h.placed_of_addition hn hdir
      exact .inl ⟨a, node, ha, hunder⟩
    | true =>
      cases n with
      | directory metadata => exact .inr ⟨a, .directory metadata, by simp [directories, hn, directoryNode], hunder⟩
      | _ => cases hdir

/-- The node below the layers at a path that is no addition: the old one, made a directory if a whiteout
needs it, unless removed. -/
theorem below_layers (hp : plan.additions[p]? = none) :
    without (Removed plan.whiteouts)
      (upgraded Node.isDirectory (made plan.additions) (Needed plan.whiteouts) old) p =
    open scoped Classical in
    if Removed plan.whiteouts p then none
    else if Needed plan.whiteouts p then some ((old p).getD implicitNode) else old p := by
  classical
  unfold without upgraded
  by_cases hremoved : Removed plan.whiteouts p
  · simp [hremoved]
  · by_cases hneeded : Needed plan.whiteouts p
    · have hplanned : plannedDirectory plan.additions p = none := by simp [plannedDirectory, hp]
      have hfree : Free Node.isDirectory old p := by
        rcases h.replaceable p hneeded with hfree | hsome
        · exact hfree
        · rw [hplanned] at hsome
          cases hsome
      have hupgrade : upgrade Node.isDirectory (made plan.additions) old p = (old p).getD implicitNode := by
        unfold upgrade
        cases hold : old p with
        | none => simp [made, hplanned, implicitNode]
        | some node => simp [hfree node hold]
      simp [hremoved, hneeded, hupgrade]
    · simp [hremoved, hneeded]

theorem view_of_not_addition (hp : plan.additions[p]? = none) :
    new p = open scoped Classical in
      if Covered slash placed p then none
      else
        let below := if Removed plan.whiteouts p then none
          else if Needed plan.whiteouts p then some ((old p).getD implicitNode) else old p
        if plan.LeadsTo p then some (below.getD implicitNode) else below := by
  classical
  have hplaced : placed p = none := h.placed_eq_none fun planned hget => by simp [hp] at hget
  have hdirs : directories plan.additions p = none := by simp [directories, hp]
  rw [h.view]
  simp only [overlaid, withDirectories, hplaced, hdirs, h.below_layers hp, ← h.leads_iff]
  by_cases hcov : Covered slash placed p
  · simp [hcov]
  · by_cases hleads : Leads slash placed p
    · by_cases hleads' : Leads slash (directories plan.additions) p <;> simp [hcov, hleads, hleads']
    · simp [hcov, hleads]

theorem view_of_directory {metadata : Metadata} (hp : plan.additions[p]? = some (.directory metadata)) :
    new p = some (.directory metadata) := by
  classical
  have hplaced : placed p = none := by
    apply h.placed_eq_none
    intro planned hget
    rw [hp] at hget
    cases hget
    rfl
  have hdirs : directories plan.additions p = some (.directory metadata) := by
    simp [directories, hp, directoryNode]
  rw [h.view]
  simp [overlaid, withDirectories, hplaced, hdirs, h.not_covered hp (.inl rfl)]

theorem view_of_placed {node : Node} (hp : placed p = some node) : new p = some node := by
  rw [h.view]
  simp [overlaid, hp]

theorem isSome_of_addition {planned : PlannedNode} (hp : plan.additions[p]? = some planned) :
    (new p).isSome = true := by
  cases hdir : planned.isDirectory with
  | false =>
    obtain ⟨node, hnode⟩ := h.placed_of_addition hp hdir
    simp [h.view_of_placed hnode]
  | true =>
    cases planned with
    | directory metadata => simp [h.view_of_directory hp]
    | _ => cases hdir

theorem takes_iff : plan.Takes p ↔ Removed plan.whiteouts p ∨ Covered slash placed p := by
  rw [LayerPlan.Takes, h.covered_iff]

theorem overlays : Overlays plan old new where
  mem := by
    classical
    intro p
    cases hp : plan.additions[p]? with
    | some planned =>
      have hmem : p ∈ plan.additions := TreeMap.mem_iff_isSome_getElem?.mpr (by simp [hp])
      simp [hmem, h.isSome_of_addition hp]
    | none =>
      have hmem : p ∉ plan.additions := by
        intro hmem
        have hsome := TreeMap.mem_iff_isSome_getElem?.mp hmem
        simp [hp] at hsome
      rw [h.view_of_not_addition hp, h.takes_iff]
      by_cases hcov : Covered slash placed p
      · have hleads : ¬ plan.LeadsTo p := by
          rintro ⟨a, n, ha, hunder⟩
          exact h.not_covered ha (.inr hunder) hcov
        simp [hcov, hmem, hleads]
      · by_cases hleads : plan.LeadsTo p
        · simp [hcov, hleads]
        · by_cases hremoved : Removed plan.whiteouts p
          · simp [hcov, hleads, hremoved, hmem]
          · by_cases hneeded : Needed plan.whiteouts p
            · simp [hcov, hremoved, hneeded]
            · simp [hcov, hleads, hremoved, hneeded, hmem]
  added := by
    intro p planned hp hnot
    cases planned with
    | directory metadata => exact ⟨_, h.view_of_directory hp, rfl⟩
    | hardlink target => exact absurd rfl (hnot target)
    | _ =>
      obtain ⟨node, hnode, hreal⟩ := h.plain hp rfl
      exact ⟨node, h.view_of_placed hnode, hreal⟩
  kept := by
    classical
    intro p node hmem htakes hold
    have hp : plan.additions[p]? = none := TreeMap.getElem?_eq_none hmem
    rw [h.takes_iff, not_or] at htakes
    rw [h.view_of_not_addition hp]
    simp [htakes.1, htakes.2, hold]
  created := by
    classical
    intro p node hmem htakes hnew
    have hp : plan.additions[p]? = none := TreeMap.getElem?_eq_none hmem
    rw [h.takes_iff] at htakes
    rw [h.view_of_not_addition hp] at hnew
    by_cases hcov : Covered slash placed p
    · simp [hcov] at hnew
    · by_cases hremoved : Removed plan.whiteouts p
      · by_cases hleads : plan.LeadsTo p
        · simpa [hcov, hremoved, hleads, eq_comm] using hnew
        · simp [hcov, hremoved, hleads] at hnew
      · have hold : old p = none := by tauto
        by_cases hneeded : Needed plan.whiteouts p
        · simpa [hcov, hremoved, hneeded, hold, eq_comm] using hnew
        · by_cases hleads : plan.LeadsTo p
          · simpa [hcov, hremoved, hneeded, hold, hleads, eq_comm] using hnew
          · simp [hcov, hremoved, hneeded, hold, hleads] at hnew
  linked := by
    intro p t hp
    obtain ⟨r, file, hres, hput, hr⟩ := h.link hp
    exact ⟨r, file, hres, h.view_of_placed hput, hr⟩

end Layered

/-! ## Reachable trees -/

theorem Tree.new_view (h : new limits = .ok tree) :
    tree.view = Function.update (fun _ => none) [] (some implicitNode) := by
  simp only [new, withLimits, seq_eq_ok, ensure_eq_ok] at h
  obtain ⟨-, h⟩ := h
  rw [insert_view h]
  rfl

theorem Tree.new_closed (h : new limits = .ok tree) : ClosedView tree.view := by
  rw [new_view h]
  constructor
  · exact ⟨implicitNode, by simp, rfl⟩
  · intro p q n hp hq
    by_cases hnil : p = []
    · subst hnil
      exact absurd hq Path.not_under_nil
    · simp [hnil] at hp

theorem Tree.Reachable.closed {accepted : LayerPlan → Prop} (haccepted : ∀ plan, accepted plan → plan.Normalized)
    (h : Reachable limits accepted tree) : ClosedView tree.view := by
  induction h with
  | new h => exact new_closed h
  | apply _ hplan h ih => exact (apply_layered (haccepted _ hplan) ih h).1

/-- **Applying a layer is overlaying it**, on every tree built by applying normalized plans. -/
theorem apply_overlays (hreach : Reachable limits LayerPlan.Normalized tree) (hplan : plan.Normalized)
    (h : tree.apply plan = .ok tree') : Overlays plan tree.view tree'.view := by
  obtain ⟨-, placed, hlayers⟩ := apply_layered hplan (hreach.closed fun _ hp => hp) h
  exact hlayers.overlays

/-! ## Two layers -/

def sampleLimits : RootfsLimits := ⟨100, 64, 10000, 10000, 10000⟩

def fileMetadata : Metadata := ⟨0o644, 0, 0, 0⟩

/-- The file `a/f`. -/
def filePlan : LayerPlan :=
  ⟨(∅ : TreeMap GuestPath PlannedNode compare).insert [0x61, 0x2f, 0x66]
    (.regular fileMetadata (Template.digestFromBytes (.fill 32 0)) 7), []⟩

/-- The hard link `h` to `a/f`, with the directory `b` made opaque. -/
def linkPlan : LayerPlan :=
  ⟨(∅ : TreeMap GuestPath PlannedNode compare).insert [0x68] (.hardlink [0x61, 0x2f, 0x66]),
    [.makeOpaque [0x62]]⟩

theorem LayerPlan.Normalized.of_toList (hpath : ∀ item ∈ plan.additions.toList, Normal item.1)
    (htarget : ∀ item ∈ plan.additions.toList, (match item.2 with | .hardlink t => decide (Normal t) | _ => true) = true)
    (hwhiteout : ∀ w ∈ plan.whiteouts, Normal w.path) : plan.Normalized where
  path hp := hpath _ (TreeMap.mem_toList_iff_getElem?_eq_some.mpr hp)
  target hp := of_decide_eq_true (htarget _ (TreeMap.mem_toList_iff_getElem?_eq_some.mpr hp))
  whiteout := hwhiteout

theorem filePlan_normalized : filePlan.Normalized := by
  apply LayerPlan.Normalized.of_toList <;> decide +kernel

theorem linkPlan_normalized : linkPlan.Normalized := by
  apply LayerPlan.Normalized.of_toList <;> decide +kernel

theorem linkPlan_overlays : ∃ tree tree', Reachable sampleLimits LayerPlan.Normalized tree ∧
    tree.apply linkPlan = .ok tree' ∧ Overlays linkPlan tree.view tree'.view := by
  have hrun : (new sampleLimits >>= (·.apply filePlan) >>= (·.apply linkPlan)).isOk = true := by
    decide +kernel
  obtain ⟨tree', htree'⟩ := isOk_iff_exists.mp hrun
  obtain ⟨tree, htree, hlink⟩ := bind_eq_ok.mp htree'
  obtain ⟨start, hnew, hfile⟩ := bind_eq_ok.mp htree
  have hreach : Reachable sampleLimits LayerPlan.Normalized tree :=
    .apply (.new hnew) filePlan_normalized hfile
  exact ⟨tree, tree', hreach, hlink, apply_overlays hreach linkPlan_normalized hlink⟩

/-- Only the directory `b` made opaque. -/
def opaquePlan : LayerPlan := ⟨∅, [.makeOpaque [0x62]]⟩

/-- The symbolic link `a`, and the directory `a/b/c` made opaque. -/
def coveredPlan : LayerPlan :=
  ⟨(∅ : TreeMap GuestPath PlannedNode compare).insert [0x61] (.symlink fileMetadata [0x62]),
    [.makeOpaque [0x61, 0x2f, 0x62, 0x2f, 0x63]]⟩

/-- A whiteout's directory is made itself, not only what is above it: `b`, which is no addition, is above
neither an addition nor the directory of the whiteout and was not there, is in the result. And a directory
above a whiteout's directory that no whiteout removes gives way to a node above it: `a/b` is not there. -/
theorem whiteout_directories_differ :
    (((new sampleLimits >>= (·.apply opaquePlan)).map fun t =>
        (t.view [0x62]).isSome) = .ok true ∧
      ((new sampleLimits).map fun t => (t.view [0x62]).isSome) = .ok false ∧
      [0x62] ∉ opaquePlan.additions ∧ ¬ opaquePlan.LeadsTo [0x62] ∧
      ∀ w ∈ opaquePlan.whiteouts, ¬ Under [0x62] w.directory) ∧
    ((new sampleLimits >>= (·.apply coveredPlan)).map fun t =>
        (t.view [0x61, 0x2f, 0x62]).isSome) = .ok false ∧
      (∃ w ∈ coveredPlan.whiteouts, Under [0x61, 0x2f, 0x62] w.directory) ∧
      ¬ Removed coveredPlan.whiteouts [0x61, 0x2f, 0x62] := by
  refine ⟨⟨by decide +kernel, by decide +kernel, by decide +kernel, ?_, by decide +kernel⟩,
    by decide +kernel, by decide +kernel, ?_⟩
  · rintro ⟨a, n, ha, -⟩
    simp [opaquePlan] at ha
  · simp only [Removed, coveredPlan, List.mem_singleton, exists_eq_left, Whiteout.Removes]
    decide +kernel

/-! ## Parsed layers -/

theorem parseEntry_normalized {state state' : ParseState} {entry : TarEntry}
    (h : parseEntry limits state entry = .ok state') (hs : state.plan.Normalized) : state'.plan.Normalized := by
  obtain ⟨path, hpath, h⟩ := bind_eq_ok.mp h
  have hnormal := normalizePath_normal hpath
  obtain ⟨-, h⟩ := seq_eq_ok.mp h
  obtain ⟨-, h⟩ := seq_eq_ok.mp h
  split_ifs at h
  · obtain ⟨-, h⟩ := seq_eq_ok.mp h
    obtain ⟨budget, -, h⟩ := bind_eq_ok.mp h
    obtain ⟨w, hw, h⟩ := bind_eq_ok.mp h
    cases h
    exact ⟨hs.path, hs.target, List.forall_mem_append.mpr ⟨hs.whiteout, by simpa using parseWhiteout_normal hw hnormal⟩⟩
  · obtain ⟨budget, -, h⟩ := bind_eq_ok.mp h
    obtain ⟨node, hnode, h⟩ := bind_eq_ok.mp h
    obtain ⟨-, h⟩ := seq_eq_ok.mp h
    cases h
    refine ⟨fun hp => ?_, fun hp => ?_, hs.whiteout⟩ <;> rw [Table.get_insert] at hp <;> split_ifs at hp with heq
    · exact heq ▸ hnormal
    · exact hs.path hp
    · cases hp
      exact nodePlan_normal hnode
    · exact hs.target hp

/-- The plans of the layers that parse. -/
def Parsed (limits : RootfsLimits) (plan : LayerPlan) : Prop :=
  ∃ budget entries state, parseEntries limits budget entries = .ok state ∧ state.plan = plan

theorem Parsed.normalized (h : Parsed limits plan) : plan.Normalized := by
  obtain ⟨budget, entries, state, hparse, rfl⟩ := h
  refine foldlM_run (fun _ s => s.plan.Normalized) (fun _ _ _ _ _ _ h hs => parseEntry_normalized h hs) hparse ?_
  constructor <;> simp [ParseState.start]

/-- **Layers read from archives overlay.**  Whatever entries the layers have, in every tree built from the
layers that parse what is above a node is a directory, and the next such layer is overlaid on it. -/
theorem parsed_layers_overlay (hreach : Reachable limits (Parsed limits) tree) (hplan : Parsed limits plan)
    (h : tree.apply plan = .ok tree') : ClosedView tree'.view ∧ Overlays plan tree.view tree'.view := by
  obtain ⟨hclosed, placed, hlayers⟩ := apply_layered hplan.normalized (hreach.closed fun _ h => h.normalized) h
  exact ⟨hclosed, hlayers.overlays⟩

def plainTar (path : List UInt8) (kind : EntryType) (size : U64) (link : Option (List UInt8)) : TarEntry :=
  ⟨path, link, kind, size, some 0o644, some 0, some 0, some 0, .ok (Template.digestFromBytes (.fill 32 0))⟩

/-- The directory `./a` with the files `a/f` and `a/g`. -/
def baseEntries : List TarEntry :=
  [plainTar [0x2e, 0x2f, 0x61] .directory 0 none, plainTar [0x61, 0x2f, 0x66] .file 7 none,
    plainTar [0x61, 0x2f, 0x67] .file 1 none]

/-- The whiteout of `a/g` and the hard link `h` to `a/f`. -/
def nextEntries : List TarEntry :=
  [plainTar ([0x61, 0x2f] ++ whiteoutMark ++ [0x67]) .file 0 none,
    plainTar [0x68] .hardLink 0 (some [0x61, 0x2f, 0x66])]

/-- The file `a/g` is gone and `h` is the file `a/f`. -/
theorem parsed_layers_overlay_linked : ∃ tree plan tree', Reachable sampleLimits (Parsed sampleLimits) tree ∧
    Parsed sampleLimits plan ∧ tree.apply plan = .ok tree' ∧ (tree.view [0x61, 0x2f, 0x67]).isSome ∧
    (tree'.view [0x61, 0x2f, 0x67]).isNone ∧ (tree'.view [0x68]).isSome ∧
    tree'.view [0x68] = tree'.view [0x61, 0x2f, 0x66] ∧ Overlays plan tree.view tree'.view := by
  have hrun : (do
      let base ← parseEntries sampleLimits ⟨0, 0, 0⟩ baseEntries
      let next ← parseEntries sampleLimits base.budget nextEntries
      let tree ← (← new sampleLimits).apply base.plan
      let tree' ← tree.apply next.plan
      ensure ((tree.view [0x61, 0x2f, 0x67]).isSome ∧ (tree'.view [0x61, 0x2f, 0x67]).isNone ∧
        (tree'.view [0x68]).isSome ∧ tree'.view [0x68] = tree'.view [0x61, 0x2f, 0x66]) invalid) = .ok () := by
    decide +kernel
  obtain ⟨base, hbase, h⟩ := bind_eq_ok.mp hrun
  obtain ⟨next, hnext, h⟩ := bind_eq_ok.mp h
  obtain ⟨start, hnew, h⟩ := bind_eq_ok.mp h
  obtain ⟨tree, htree, h⟩ := bind_eq_ok.mp h
  obtain ⟨tree', happly, h⟩ := bind_eq_ok.mp h
  obtain ⟨hold, hgone, hlink, hsame⟩ := ensure_eq_ok.mp h
  have hreach : Reachable sampleLimits (Parsed sampleLimits) tree :=
    .apply (.new hnew) ⟨_, _, base, hbase, rfl⟩ htree
  have hplan : Parsed sampleLimits next.plan := ⟨_, _, next, hnext, rfl⟩
  exact ⟨tree, next.plan, tree', hreach, hplan, happly, hold, hgone, hlink, hsame,
    (parsed_layers_overlay hreach hplan happly).2⟩

end Soma.Normalize
