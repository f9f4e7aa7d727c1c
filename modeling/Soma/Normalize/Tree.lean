import Soma.Normalize.Layer

/-! # The logical tree

The tree one rootfs normalization builds: nodes by guest path, with the counters its limits are checked
against. A layer plan is applied in five passes: the whiteouts' directories are made, the whiteouts
remove, then directories, other nodes and hard links are put.

A failed operation leaves the tree unspecified, so every operation answers the tree or an error.
-/

namespace Soma.Normalize

open Std Soma.Lib Soma.Codec
open Soma.Template (OciDigest)

/-! ## Nodes -/

/-- A regular file with its inode. -/
structure FileNode where
  inode : ℕ
  metadata : Metadata
  digest : OciDigest
  size : U64
deriving DecidableEq

inductive Node where
  | directory (metadata : Metadata)
  | regular (file : FileNode)
  | symlink (metadata : Metadata) (target : List UInt8)
  | fifo (metadata : Metadata)
deriving DecidableEq

/-- The tree that is being built. -/
structure Tree where
  entries : TreeMap GuestPath Node compare
  nextInode : ℕ
  maximumEntries : ℕ
  maximumMetadataBytes : ℕ
  metadataBytes : ℕ

/-- The bytes a node is charged. -/
def metadataCost (path : GuestPath) (node : Node) : ℕ :=
  match node with
  | .symlink _ target => path.length + target.length
  | .directory _ | .regular _ | .fifo _ => path.length

namespace Tree

/-! ## Entries -/

variable (tree : Tree)

/-- Puts a node at a path, in place of the one there. A cost that overflows its word is over the
limit. -/
def insert (path : GuestPath) (node : Node) : Except NormalizeError Tree := do
  let oldCost := (tree.entries[path]?).elim 0 (metadataCost path)
  let entryCount := if path ∈ tree.entries then tree.entries.size else tree.entries.size + 1
  ensure (oldCost ≤ tree.metadataBytes) limit
  let metadataBytes := tree.metadataBytes - oldCost + metadataCost path node
  ensure (entryCount ≤ tree.maximumEntries ∧ metadataBytes ≤ tree.maximumMetadataBytes) limit
  pure { tree with entries := tree.entries.insert path node, metadataBytes }

def removeExact (path : GuestPath) : Except NormalizeError Tree :=
  match tree.entries[path]? with
  | none => pure tree
  | some node => do
    ensure (metadataCost path node ≤ tree.metadataBytes) limit
    pure { tree with
      entries := tree.entries.erase path
      metadataBytes := tree.metadataBytes - metadataCost path node }

/-- The interval of the paths under a path: from `path/` up to `path0`, the byte after the slash; for
the root, all but the root. -/
def inDescendantBounds (path candidate : GuestPath) : Bool :=
  if path = [] then compare path candidate = .lt
  else (compare (path ++ [slash]) candidate).isLE && compare candidate (path ++ [0x30]) = .lt

/-- Takes the entries of the interval out, first to last. -/
def removeDescendants (path : GuestPath) : Except NormalizeError Tree :=
  (tree.entries.keys.filter (inDescendantBounds path)).foldlM removeExact tree

def removeSubtree (path : GuestPath) : Except NormalizeError Tree := do
  let tree ← tree.removeExact path
  tree.removeDescendants path

def withLimits (limits : RootfsLimits) : Except NormalizeError Tree := do
  ensure (limits.maxEntries ≠ 0) limit
  insert ⟨∅, 1, limits.maxEntries.toNat, limits.maxMetadataBytes.toNat, 0⟩ []
    (.directory .implicitDirectory)

def new (limits : RootfsLimits) : Except NormalizeError Tree :=
  withLimits limits

/-! ## Directories and other nodes -/

/-- One step of the loop over the parents of a path. -/
def ensureParent (directory : GuestPath) : Except NormalizeError Tree :=
  match tree.entries[directory]? with
  | some (.directory _) => pure tree
  | some _ => .error invalid
  | none => tree.insert directory (.directory .implicitDirectory)

/-- Makes the directories above a path. -/
def ensureParents (path : GuestPath) : Except NormalizeError Tree :=
  (Path.walk slash [] (components path).dropLast).foldlM ensureParent tree

/-- Adds a directory, or changes its metadata. -/
def putDirectory (path : GuestPath) (metadata : Metadata) : Except NormalizeError Tree := do
  let tree ← (if path = [] then pure tree else tree.ensureParents path : Except NormalizeError Tree)
  tree.insert path (.directory metadata)

/-- Replaces what is at a path and under it. -/
def putNode (path : GuestPath) (node : Node) : Except NormalizeError Tree := do
  ensure (path ≠ []) invalid
  let tree ← tree.ensureParents path
  let tree ← (match tree.entries[path]? with
    | some (.directory _) => tree.removeDescendants path
    | _ => pure tree : Except NormalizeError Tree)
  tree.insert path node

/-- Adds a file with an inode of its own. -/
def putRegular (path : GuestPath) (metadata : Metadata) (digest : OciDigest) (size : U64) :
    Except NormalizeError Tree := do
  ensure (tree.nextInode + 1 < 2 ^ 64) limit
  putNode { tree with nextInode := tree.nextInode + 1 } path
    (.regular ⟨tree.nextInode, metadata, digest, size⟩)

/-! ## Whiteouts -/

variable (additions : TreeMap GuestPath PlannedNode compare)

def plannedDirectory (path : GuestPath) : Option Metadata :=
  match additions[path]? with
  | some (.directory metadata) => some metadata
  | _ => none

/-- One step of the loop over a whiteout's directory and its parents. -/
def ensureWhiteoutDirectory (tree : Tree) (directory : GuestPath) : Except NormalizeError Tree :=
  match tree.entries[directory]? with
  | some (.directory _) => pure tree
  | some _ => do
    let metadata ← okOr (plannedDirectory additions directory) invalid
    tree.insert directory (.directory metadata)
  | none =>
    tree.insert directory (.directory ((plannedDirectory additions directory).getD .implicitDirectory))

/-- Makes the directory of a whiteout. -/
def ensureWhiteoutParent (path : GuestPath) (additions : TreeMap GuestPath PlannedNode compare) :
    Except NormalizeError Tree :=
  if path = [] then pure tree
  else (Path.walk slash [] (components path)).foldlM (ensureWhiteoutDirectory additions) tree

/-- Empties a directory. -/
def makeOpaque (path : GuestPath) : Except NormalizeError Tree :=
  match tree.entries[path]? with
  | some (.directory _) | none => tree.removeDescendants path
  | some _ => .error invalid

def applyWhiteout : Whiteout → Except NormalizeError Tree
  | .remove path => do
    ensure (path ≠ []) invalid
    tree.removeSubtree path
  | .makeOpaque path => tree.makeOpaque path

/-! ## Hard links -/

def isDescendant (candidate parent : GuestPath) : Bool :=
  if parent = [] then candidate ≠ [] else (parent ++ [slash]).isPrefixOf candidate

variable (pending : TreeMap GuestPath GuestPath compare)

def pendingLink :
    GuestPath × PlannedNode → Except NormalizeError (TreeMap GuestPath GuestPath compare)
  | (path, .hardlink target) => do
    ensure (path ≠ [] ∧ path ≠ target ∧ isDescendant target path = false) invalid
    pure (pending.insert path target)
  | _ => pure pending

def pendingLinks : Except NormalizeError (TreeMap GuestPath GuestPath compare) :=
  additions.toList.foldlM pendingLink ∅

def hasPendingAncestor (target : GuestPath) (pending : TreeMap GuestPath GuestPath compare) : Bool :=
  (ancestors target).any (pending.contains ·)

/-- The pending links that wait for another, by their target, and those whose file is known. -/
structure LinkQueue where
  dependents : TreeMap GuestPath (List GuestPath) compare
  ready : List (GuestPath × FileNode)

/-- Files one pending link. -/
def enqueue (queue : LinkQueue) (link : GuestPath × GuestPath) : Except NormalizeError LinkQueue := do
  let (path, target) := link
  ensure (hasPendingAncestor target pending = false) invalid
  if target ∈ pending then
    pure { queue with
      dependents := queue.dependents.insert target (queue.dependents.getD target [] ++ [path]) }
  else match tree.entries[target]? with
    | some (.regular file) => pure { queue with ready := queue.ready ++ [(path, file)] }
    | _ => .error invalid

/-- Puts the ready links, first come first served, and readies their dependents. Every round puts one
pending link, so their number bounds the rounds. -/
def resolveLinks : ℕ → Tree → LinkQueue → ℕ → Except NormalizeError (Tree × ℕ)
  | 0, tree, _, resolved => pure (tree, resolved)
  | rounds + 1, tree, queue, resolved =>
    match queue.ready with
    | [] => pure (tree, resolved)
    | (path, file) :: ready => do
      let tree ← tree.putNode path (.regular file)
      let paths := queue.dependents.getD path []
      resolveLinks rounds tree
        ⟨queue.dependents.erase path, ready ++ paths.map fun dependent => (dependent, file)⟩ (resolved + 1)

/-- Adds every hard link of a layer. -/
def putHardlinks : Except NormalizeError Tree := do
  let pending ← pendingLinks additions
  let queue ← pending.toList.foldlM (enqueue tree pending) ⟨∅, []⟩
  let (tree, resolved) ← resolveLinks pending.size tree queue 0
  ensure (resolved = pending.size) invalid
  pure tree

/-! ## Applying a layer -/

/-- No addition may lie under an addition that is not a directory. -/
def validateAdditionHierarchy : Except NormalizeError Unit :=
  additions.keys.forM fun path =>
    (ancestors path).forM fun parent =>
      ensure (∀ node, additions[parent]? = some node → node.isDirectory = true) invalid

def putPlannedDirectory : GuestPath × PlannedNode → Except NormalizeError Tree
  | (path, .directory metadata) => tree.putDirectory path metadata
  | _ => pure tree

def putPlannedNode : GuestPath × PlannedNode → Except NormalizeError Tree
  | (path, .regular metadata digest size) => tree.putRegular path metadata digest size
  | (path, .symlink metadata target) => tree.putNode path (.symlink metadata target)
  | (path, .fifo metadata) => tree.putNode path (.fifo metadata)
  | (_, .directory _) | (_, .hardlink _) => pure tree

/-- Applies one layer. -/
def apply (plan : LayerPlan) : Except NormalizeError Tree := do
  validateAdditionHierarchy plan.additions
  let tree ← plan.whiteouts.foldlM
    (fun tree whiteout => tree.ensureWhiteoutParent whiteout.directory plan.additions) tree
  let tree ← plan.whiteouts.foldlM applyWhiteout tree
  let tree ← plan.additions.toList.foldlM putPlannedDirectory tree
  let tree ← plan.additions.toList.foldlM putPlannedNode tree
  tree.putHardlinks plan.additions

end Tree

end Soma.Normalize
