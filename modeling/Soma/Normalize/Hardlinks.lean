import Soma.Normalize.Passes

/-! # Hard links

The last pass puts hard links, each after its target. Following targets from a link ends at a path that
is no link of the plan (`ResolvesTo`); when the pass succeeds, every link of the plan was put, as the file
at that path.
-/

namespace Soma.Normalize.Tree

open Std Soma.Lib Soma.Overlay List TreeMap

variable {tree tree' : Tree} {path p q r target : GuestPath}
  {additions : TreeMap GuestPath PlannedNode compare} {pending : TreeMap GuestPath GuestPath compare}

/-! ## The pending links -/

/-- Following the targets of a plan's hard links from a path ends at another. -/
inductive ResolvesTo (additions : TreeMap GuestPath PlannedNode compare) : GuestPath → GuestPath → Prop where
  | last {p t : GuestPath} : additions[p]? = some (.hardlink t) → (∀ u, additions[t]? ≠ some (.hardlink u)) →
      ResolvesTo additions p t
  | step {p t r : GuestPath} : additions[p]? = some (.hardlink t) → ResolvesTo additions t r →
      ResolvesTo additions p r

theorem ResolvesTo.not_hardlink (h : ResolvesTo additions p r) (u : GuestPath) :
    additions[r]? ≠ some (.hardlink u) := by
  induction h with
  | last _ hlast => exact hlast u
  | step _ _ ih => exact ih

theorem ResolvesTo.exists_link (h : ResolvesTo additions p r) :
    ∃ q : GuestPath, additions[q]? = some (.hardlink r) := by
  induction h with
  | last hlink _ => exact ⟨_, hlink⟩
  | step _ _ ih => exact ih

theorem pendingLinks_eq_ok (h : pendingLinks additions = .ok pending) :
    pending[p]? = some target ↔ additions[p]? = some (.hardlink target) := by
  have hrun : pending[p]? = some target ↔ (p, PlannedNode.hardlink target) ∈ additions.toList := by
    refine foldlM_run (fun done (links : TreeMap GuestPath GuestPath compare) =>
        links[p]? = some target ↔ (p, PlannedNode.hardlink target) ∈ done) ?_ h ?_
    · rintro done ⟨path, planned⟩ rest hlist links links' hstep hP
      have hfresh := (not_mem_of_toList_eq hlist).1
      cases planned with
      | hardlink t =>
        simp only [pendingLink, seq_eq_ok, ensure_eq_ok] at hstep
        obtain ⟨-, hstep⟩ := hstep
        cases hstep
        rw [Table.get_insert, mem_append, mem_singleton]
        by_cases hp : path = p
        · subst hp
          have hnot : (path, PlannedNode.hardlink target) ∉ done :=
            fun hmem => hfresh (mem_map_of_mem hmem)
          simp [hnot, eq_comm]
        · simp [hp, hP, Ne.symm hp]
      | _ =>
        cases hstep
        simp [hP]
    · simp
  rw [hrun, mem_toList_iff_getElem?_eq_some]

theorem mem_pending_iff (h : pendingLinks additions = .ok pending) :
    p ∈ pending ↔ ∃ t, additions[p]? = some (.hardlink t) := by
  rw [mem_iff_isSome_getElem?, Option.isSome_iff_exists]
  simp only [pendingLinks_eq_ok h]

/-! ## The queue -/

/-- What the queue knows: the file of a ready link, and that a dependent waits for its target. -/
structure Queued (additions : TreeMap GuestPath PlannedNode compare) (g : View UInt8 Node) (queue : LinkQueue) :
    Prop where
  ready : ∀ {p file}, (p, file) ∈ queue.ready →
    ∃ r, ResolvesTo additions p r ∧ g r = some (.regular file)
  dependents : ∀ {t : GuestPath} {ps : List GuestPath}, queue.dependents[t]? = some ps → ∀ p ∈ ps,
    additions[p]? = some (.hardlink t)

theorem Queued.of_getD {g : View UInt8 Node} {queue : LinkQueue} (h : Queued additions g queue)
    (hp : p ∈ queue.dependents.getD target []) : additions[p]? = some (.hardlink target) := by
  rw [getD_eq_getD_getElem?] at hp
  cases hget : queue.dependents[target]? with
  | none => simp [hget] at hp
  | some paths =>
    rw [hget] at hp
    exact h.dependents hget p hp

def links (queue : LinkQueue) : List GuestPath :=
  queue.ready.map Prod.fst ++ queue.dependents.values.flatten

theorem enqueue_queued {queue queue' : LinkQueue} (hpending : pendingLinks additions = .ok pending)
    (hlink : pending[p]? = some target) (h : enqueue tree pending queue (p, target) = .ok queue')
    (hqueue : Queued additions tree.view queue) :
    Queued additions tree.view queue' ∧ (links queue').Perm (p :: links queue) ∧
      hasPendingAncestor target pending = false := by
  have hadd : additions[p]? = some (.hardlink target) := (pendingLinks_eq_ok hpending).mp hlink
  simp only [enqueue, seq_eq_ok, ensure_eq_ok] at h
  obtain ⟨hfree, h⟩ := h
  split at h
  · next hmem =>
    cases h
    refine ⟨⟨hqueue.ready, ?_⟩, ?_, hfree⟩
    · intro t ps ht q hq
      rw [Table.get_insert] at ht
      split at ht
      · next heq =>
        cases ht
        subst heq
        rcases mem_append.mp hq with hold | hnew
        · exact hqueue.of_getD hold
        · rw [mem_singleton.mp hnew]
          exact hadd
      · exact hqueue.dependents ht q hq
    · exact (Table.flatten_values_push.append_left _).trans perm_middle
  · next hmem =>
    have hlast : ∀ u, additions[target]? ≠ some (.hardlink u) := fun u hu =>
      hmem ((mem_pending_iff hpending).mpr ⟨u, hu⟩)
    split at h
    · next file hfile =>
      cases h
      refine ⟨⟨?_, hqueue.dependents⟩, ?_, hfree⟩
      · intro q f hq
        rcases mem_append.mp hq with hold | hnew
        · exact hqueue.ready hold
        · cases mem_singleton.mp hnew
          exact ⟨target, .last hadd hlast, hfile⟩
      · simp only [links, map_append, map_cons, map_nil, append_assoc]
        exact perm_middle
    · cases h

theorem enqueue_all {queue : LinkQueue} (hpending : pendingLinks additions = .ok pending)
    (h : pending.toList.foldlM (enqueue tree pending) ⟨∅, []⟩ = .ok queue) :
    Queued additions tree.view queue ∧ (links queue).Perm pending.keys ∧
      ∀ {p t : GuestPath}, additions[p]? = some (.hardlink t) → hasPendingAncestor t pending = false := by
  have hrun : Queued additions tree.view queue ∧ (links queue).Perm (pending.toList.map Prod.fst) ∧
      ∀ link ∈ pending.toList, hasPendingAncestor link.2 pending = false := by
    refine foldlM_run (fun done queue => Queued additions tree.view queue ∧
      (links queue).Perm (done.map Prod.fst) ∧
        ∀ link ∈ done, hasPendingAncestor link.2 pending = false) ?_ h ?_
    · rintro done ⟨path, target⟩ rest hlist q q' hstep ⟨hq, hperm, hdone⟩
      have hlink : pending[path]? = some target := by
        apply mem_toList_iff_getElem?_eq_some.mp
        rw [hlist]
        simp
      obtain ⟨hq', hperm', hfree⟩ := enqueue_queued hpending hlink hstep hq
      refine ⟨hq', ?_, ?_⟩
      · rw [map_append, map_cons, map_nil]
        exact hperm'.trans ((hperm.cons path).trans (perm_append_singleton _ _).symm)
      · exact forall_mem_append.mpr ⟨hdone, forall_mem_singleton.mpr hfree⟩
    · refine ⟨⟨by simp, by simp⟩, ?_, by simp⟩
      have hempty : links ⟨∅, []⟩ = [] := rfl
      rw [hempty]
      exact Perm.refl []
  obtain ⟨hqueue, hperm, hfree⟩ := hrun
  rw [map_fst_toList_eq_keys] at hperm
  refine ⟨hqueue, hperm, ?_⟩
  intro p t hp
  have hlink : (p, t) ∈ pending.toList :=
    mem_toList_iff_getElem?_eq_some.mpr ((pendingLinks_eq_ok hpending).mpr hp)
  exact hfree (p, t) hlink

/-! ## Resolving -/

/-- Where the pass stands: the links `done` are put, each as the file it resolves to, over the layer
`placed` of the earlier passes; the queue holds the others. -/
structure Resolving (additions : TreeMap GuestPath PlannedNode compare)
    (pending : TreeMap GuestPath GuestPath compare) (placed f : View UInt8 Node) (done : List GuestPath)
    (tree : Tree) (queue : LinkQueue) : Prop where
  queued : Queued additions (overlaid slash implicitNode placed f) queue
  perm : (done ++ links queue).Perm pending.keys
  closed : ClosedView tree.view
  view : ∃ placed', tree.view = overlaid slash implicitNode placed' f ∧
    (∀ p ∈ done, ∃ r file, ResolvesTo additions p r ∧
      overlaid slash implicitNode placed f r = some (.regular file) ∧ placed' p = some (.regular file)) ∧
    ∀ p, p ∉ done → placed' p = placed p

section Resolve

variable {placed f : View UInt8 Node} {done : List GuestPath} {queue : LinkQueue} {file : FileNode}
  {ready : List (GuestPath × FileNode)} {rounds resolved count : ℕ}
  (hier : Hierarchical additions) (hnormal : ∀ {p n}, additions[p]? = some n → Normal p)
  (hplaced : ∀ p n, placed p = some n → ∃ m, additions[p]? = some m ∧ m.isPlain = true)
include hier hnormal hplaced

/-- One round: the first ready link is put, and its dependents become ready with the same file. -/
theorem Resolving.step (hpending : pendingLinks additions = .ok pending)
    (h : Resolving additions pending placed f done tree queue) (hready : queue.ready = (path, file) :: ready)
    (hput : tree.putNode path (.regular file) = .ok tree') :
    Resolving additions pending placed f (done ++ [path]) tree'
      ⟨queue.dependents.erase path,
        ready ++ (queue.dependents.getD path []).map fun dependent => (dependent, file)⟩ := by
  have hhead : (path, file) ∈ queue.ready := by simp [hready]
  obtain ⟨r, hres, hr⟩ := h.queued.ready hhead
  obtain ⟨placed', hview, hdone, hrest⟩ := h.view
  -- the link is pending and not done
  have hkeys : (done ++ path :: (ready.map Prod.fst ++ queue.dependents.values.flatten)).Perm pending.keys := by
    have hperm := h.perm
    rwa [links, hready] at hperm
  have hnodup := hkeys.nodup_iff.mpr nodup_keys
  have hmem : ∀ {p}, p ∈ done ∨ p = path → p ∈ pending := by
    intro p hp
    apply TreeMap.mem_keys.mp
    apply hkeys.mem_iff.mp
    simp only [mem_append, mem_cons]
    tauto
  have hfresh : path ∉ done := by
    intro hin
    exact (nodup_append.mp hnodup).2.2 path hin path (by simp) rfl
  obtain ⟨t, hlink⟩ := (mem_pending_iff hpending).mp (hmem (.inr rfl))
  obtain ⟨hne, hfree, ht'⟩ := putNode_view (hnormal hlink) h.closed hput
  have hnew : placed' path = none := by
    rw [hrest path hfresh]
    cases hp : placed path with
    | none => rfl
    | some n =>
      obtain ⟨m, hm, hplain⟩ := hplaced path n hp
      rw [hlink] at hm
      cases hm
      cases hplain
  have hapart : ∀ a m, placed' a = some m → ¬ Under a path ∧ ¬ Under path a := by
    intro a m ha
    obtain ⟨k, hk, hdir⟩ : ∃ k, additions[a]? = some k ∧ k.isDirectory = false := by
      by_cases hin : a ∈ done
      · obtain ⟨u, hu⟩ := (mem_pending_iff hpending).mp (hmem (.inl hin))
        exact ⟨_, hu, rfl⟩
      · rw [hrest a hin] at ha
        obtain ⟨k, hk, hplain⟩ := hplaced a m ha
        exact ⟨k, hk, PlannedNode.isDirectory_of_isPlain hplain⟩
    exact hier.apart hk hdir hlink rfl
  refine ⟨⟨?_, ?_⟩, ?_, ?_, Function.update placed' path (some (.regular file)), ?_, ?_, ?_⟩
  · intro p g hp
    rcases mem_append.mp hp with hold | hwait
    · exact h.queued.ready (by simp [hready, hold])
    · obtain ⟨dependent, hdep, heq⟩ := mem_map.mp hwait
      cases heq
      exact ⟨r, .step (h.queued.of_getD hdep) hres, hr⟩
  · intro t ps ht
    rw [Table.get_erase] at ht
    split at ht
    · cases ht
    · exact h.queued.dependents ht
  · -- the dependents of the link move from the table to the ready ones
    have hmove : (links ⟨queue.dependents.erase path,
        ready ++ (queue.dependents.getD path []).map fun dependent => (dependent, file)⟩).Perm
        (ready.map Prod.fst ++ queue.dependents.values.flatten) := by
      simp only [links, map_append, map_map, Function.comp_def, map_id', append_assoc]
      exact Table.flatten_values_erase.symm.append_left _
    refine (hmove.append_left _).trans ?_
    rw [append_assoc]
    exact hkeys
  · rw [ht']
    exact h.closed.put rfl hne hfree
  · rw [ht', hview, overlaid_update hnew hapart]
  · refine forall_mem_append.mpr ⟨?_, forall_mem_singleton.mpr ⟨r, file, hres, hr, by simp⟩⟩
    intro p hold
    rw [Function.update_of_ne (ne_of_mem_of_not_mem hold hfresh)]
    exact hdone p hold
  · intro p hp
    rw [mem_append, mem_singleton, not_or] at hp
    rw [Function.update_of_ne hp.2]
    exact hrest p hp.1

theorem resolveLinks_resolving (hpending : pendingLinks additions = .ok pending)
    (h : resolveLinks rounds tree queue resolved = .ok (tree', count))
    (hstate : Resolving additions pending placed f done tree queue) (hcount : resolved = done.length) :
    ∃ done' queue', Resolving additions pending placed f done' tree' queue' ∧ count = done'.length := by
  induction rounds generalizing tree queue resolved done with
  | zero =>
    cases h
    exact ⟨done, queue, hstate, hcount⟩
  | succ rounds ih =>
    unfold resolveLinks at h
    split at h
    · cases h
      exact ⟨done, queue, hstate, hcount⟩
    · next path file ready hready =>
      obtain ⟨t, hput, h⟩ := bind_eq_ok.mp h
      have hnext := hstate.step hier hnormal hplaced hpending hready hput
      exact ih h hnext (by simp [hcount])

theorem putHardlinks_view (hclosed : ClosedView tree.view)
    (hview : tree.view = overlaid slash implicitNode placed f) (h : tree.putHardlinks additions = .ok tree') :
    ClosedView tree'.view ∧ ∃ placed', tree'.view = overlaid slash implicitNode placed' f ∧
      (∀ {p t : GuestPath}, additions[p]? = some (.hardlink t) → ∃ r file, ResolvesTo additions p r ∧
        placed' p = some (.regular file) ∧ tree'.view r = some (.regular file)) ∧
      ∀ {p : GuestPath}, (∀ t, additions[p]? ≠ some (.hardlink t)) → placed' p = placed p := by
  simp only [putHardlinks, bind_eq_ok, ensure_eq_ok, exists_const] at h
  obtain ⟨pending, hpending, queue, hqueue, ⟨t, count⟩, hresolve, hcount, h⟩ := h
  cases h
  obtain ⟨hqueued, hperm, hancestor⟩ := enqueue_all hpending hqueue
  have hstart : Resolving additions pending placed f [] tree queue :=
    ⟨hview ▸ hqueued, hperm, hclosed, placed, hview, by simp, by simp⟩
  obtain ⟨done, queue', hstate, hlen⟩ :=
    resolveLinks_resolving hier hnormal hplaced hpending hresolve hstart rfl
  -- as many links are done as there are, so none is left in the queue
  have hall : ∀ {p}, p ∈ done ↔ p ∈ pending := by
    intro p
    have hlength := hstate.perm.length_eq
    rw [length_append, length_keys, ← hcount, hlen] at hlength
    have hempty : links queue' = [] := length_eq_zero_iff.mp (by omega)
    have hkeys := hstate.perm
    rw [hempty, append_nil] at hkeys
    rw [hkeys.mem_iff, TreeMap.mem_keys]
  obtain ⟨placed', hview', hdone, hrest⟩ := hstate.view
  have hsame : ∀ {p : GuestPath}, (∀ t, additions[p]? ≠ some (.hardlink t)) → placed' p = placed p := by
    intro p hp
    apply hrest p
    intro hin
    obtain ⟨u, hu⟩ := (mem_pending_iff hpending).mp (hall.mp hin)
    exact hp u hu
  refine ⟨hstate.closed, placed', hview', ?_, hsame⟩
  intro p u hp
  have hin : p ∈ done := hall.mpr ((mem_pending_iff hpending).mpr ⟨u, hp⟩)
  obtain ⟨r, file, hres, hr, hput⟩ := hdone p hin
  refine ⟨r, file, hres, hput, ?_⟩
  -- the file a chain of links ends at is neither put nor covered by this pass
  rw [hview']
  have hplaced' : placed' r = placed r := hsame hres.not_hardlink
  obtain ⟨q, hq⟩ := hres.exists_link
  have hfree := hancestor hq
  have hnotCovered : Covered slash placed' r → Covered slash placed r := by
    rintro ⟨a, n, ha, hunder⟩
    have hnotLink : ∀ t, additions[a]? ≠ some (.hardlink t) := by
      intro t ht
      have hcontains : pending.contains a = true :=
        contains_iff_mem.mpr ((mem_pending_iff hpending).mpr ⟨t, ht⟩)
      have hany : hasPendingAncestor r pending = true :=
        any_eq_true.mpr ⟨a, mem_ancestors.mpr hunder, hcontains⟩
      rw [hfree] at hany
      cases hany
    exact ⟨a, n, by rw [← hsame hnotLink, ha], hunder⟩
  exact overlaid_of_agrees hr (by rintro ⟨⟩) hplaced' hnotCovered

end Resolve

end Soma.Normalize.Tree
