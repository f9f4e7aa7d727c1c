import Soma.Generation.TreeDecoder

/-! # The tree format

What a manifest that decodes says: one file system, its paths in order.
-/

namespace Soma.Generation

open Std Soma.Lib Soma.Codec
open Soma.Normalize (GuestPath Normal)

def TreeNode.kind : TreeNode → UInt8
  | directory => 1
  | regular .. => 2
  | symlink _ => 3
  | fifo => 4
  | hardlink _ => 5

def TreeNode.contentBytes : TreeNode → ℕ
  | regular size _ => size.toNat
  | _ => 0

/-- The tree has a node of the kind at the path. -/
def Present (tree : List TreeEntry) (path : GuestPath) (kind : UInt8) : Prop :=
  ∃ e ∈ tree, e.path = path ∧ e.node.kind = kind

/-- An entry with a proper path, between directories `Dir` and files `File`. -/
structure Placed (Dir File : GuestPath → Prop) (entry : TreeEntry) : Prop where
  normal : Normal entry.path
  parent : entry.path = [] ∨ Dir (Normalize.parent entry.path)
  anchor : ∀ a, entry.node = .hardlink a → File a

namespace TreeDecoder

variable {bounds : TreeBounds} {state state' : State} {bs rest : List UInt8} {tree : List TreeEntry}
  {path : GuestPath}

/-- What reading a node needs and changes. -/
structure Reads (state : State) (path : GuestPath) (node : TreeNode) (state' : State) : Prop where
  totals : state'.produced = state.produced ∧ state'.contentBytes = state.contentBytes + node.contentBytes
  directories : ∀ p ∈ state'.directories, p ∈ state.directories ∨ path = p ∧ node.kind = 1
  anchors : ∀ p ∈ state'.anchors, p ∈ state.anchors ∨ path = p ∧ node.kind = 2
  anchor : ∀ a, node = .hardlink a → a ∈ state.anchors

theorem chargeMetadata_eq_ok {count : ℕ} (h : chargeMetadata bounds state count = .ok state') :
    state' = { state with metadataBytes := state.metadataBytes + count } := by
  obtain ⟨-, h⟩ := seq_eq_ok.mp h
  cases h
  rfl

theorem readNode_reads {kind : UInt8} {node : TreeNode}
    (h : readNode bounds state path kind bs = .ok ((node, state'), rest)) : Reads state path node state' := by
  unfold readNode at h
  split_ifs at h
  · cases h
    constructor <;> simp [TreeNode.contentBytes, TreeNode.kind, or_comm]
  · obtain ⟨size, mid, -, h⟩ := decode_bind.mp h
    obtain ⟨digest, mid, -, h⟩ := decode_bind.mp h
    dsimp only at h
    split_ifs at h <;> cases h
    constructor <;> simp [TreeNode.contentBytes, TreeNode.kind, or_comm]
  · obtain ⟨target, -, h⟩ := refine_eq_ok.mp h
    obtain ⟨charged, hs, h⟩ := bind_eq_ok.mp h
    obtain ⟨-, h⟩ := seq_eq_ok.mp h
    cases chargeMetadata_eq_ok hs
    cases h
    constructor <;> simp +contextual [TreeNode.contentBytes]
  · cases h
    constructor <;> simp +contextual [TreeNode.contentBytes]
  · obtain ⟨anchor, -, h⟩ := refine_eq_ok.mp h
    obtain ⟨charged, hs, h⟩ := bind_eq_ok.mp h
    obtain ⟨hanchor, h⟩ := seq_eq_ok.mp h
    cases chargeMetadata_eq_ok hs
    cases h
    rw [ensure_eq_ok] at hanchor
    constructor <;> simp +contextual [TreeNode.contentBytes]
    exact hanchor.2
  · cases h

theorem validatePath_ok {u : Unit} (h : validatePath state path = .ok u) :
    follows state.previous path = true ∧ Normal path ∧ (path = [] ∨ Normalize.parent path ∈ state.directories) := by
  obtain ⟨hfollows, h⟩ := seq_eq_ok.mp h
  refine ⟨ensure_eq_ok.mp hfollows, ?_⟩
  split_ifs at h with hnil
  · exact ⟨hnil ▸ Normal.nil, .inl hnil⟩
  · obtain ⟨hends, h⟩ := seq_eq_ok.mp h
    obtain ⟨hnamed, h⟩ := seq_eq_ok.mp h
    exact ⟨⟨(ensure_eq_ok.mp hends).1, .inr (ensure_eq_ok.mp hnamed)⟩, .inr (ensure_eq_ok.mp h)⟩

theorem nextEntry_reads {entry : TreeEntry} (h : nextEntry bounds state bs = .ok ((entry, state'), rest)) :
    follows state.previous entry.path = true ∧ (entry.path = [] → entry.node = .directory) ∧
      Placed (· ∈ state.directories) (· ∈ state.anchors) entry ∧ ∃ mid, Reads state entry.path entry.node mid ∧
      state' = { mid with previous := some entry.path, produced := mid.produced + 1 } := by
  obtain ⟨⟨path, charged⟩, _, hpath, h⟩ := decode_bind.mp h
  obtain ⟨path, -, hpath⟩ := refine_eq_ok.mp hpath
  obtain ⟨_, hs, hpath⟩ := bind_eq_ok.mp hpath
  obtain ⟨hvalid, hpath⟩ := seq_eq_ok.mp hpath
  cases chargeMetadata_eq_ok hs
  cases hpath
  obtain ⟨hfollows, hnormal, hparent⟩ := validatePath_ok hvalid
  obtain ⟨kind, _, -, h⟩ := decode_bind.mp h
  obtain ⟨metadata, _, -, h⟩ := decode_bind.mp h
  obtain ⟨⟨node, mid⟩, _, hnode, h⟩ := decode_bind.mp h
  dsimp only at h
  split_ifs at h with hroot <;> cases h
  have hreads := readNode_reads hnode
  exact ⟨hfollows, by simpa using hroot, ⟨hnormal, hparent, hreads.anchor⟩, mid,
    ⟨hreads.totals, hreads.directories, hreads.anchors, hreads.anchor⟩, rfl⟩

/-- **Run rule.**  What the entries read from a state are. -/
theorem entries_placed {n : ℕ} (h : entries bounds n state bs = .ok ((tree, state'), rest)) :
    (∀ p ∈ state.previous, ∀ e ∈ tree, compare p e.path = .lt) ∧
      (state.previous = none → n ≠ 0 → Present tree [] 1) ∧
      tree.Pairwise (fun a b => compare a.path b.path = .lt) ∧
      (∀ e ∈ tree, Placed (fun p => p ∈ state.directories ∨ Present tree p 1)
        (fun p => p ∈ state.anchors ∨ Present tree p 2) e) ∧
      state'.produced = state.produced + tree.length ∧
      state'.contentBytes = state.contentBytes + (tree.map (·.node.contentBytes)).sum := by
  induction n generalizing state bs tree with
  | zero =>
    cases h
    simp
  | succ n ih =>
    obtain ⟨⟨entry, next⟩, _, hentry, h⟩ := decode_bind.mp h
    obtain ⟨⟨tail, last⟩, _, htail, h⟩ := decode_bind.mp h
    cases h
    obtain ⟨hfollows, hroot, ⟨hnormal, hparent, hanchor⟩, mid, hreads, rfl⟩ := nextEntry_reads hentry
    obtain ⟨hafter, -, hsorted, hall, hproduced, hcontent⟩ := ih htail
    have hbehind := hafter entry.path rfl
    refine ⟨fun p hp => ?_, fun hnone _ => ?_, List.pairwise_cons.mpr ⟨hbehind, hsorted⟩, ?_, ?_, ?_⟩
    · rw [Option.mem_def.mp hp] at hfollows
      have hlt : compare p entry.path = .lt := by simpa [follows] using hfollows
      exact List.forall_mem_cons.mpr ⟨hlt, fun e he => TransCmp.lt_trans hlt (hbehind e he)⟩
    · rw [hnone] at hfollows
      have hnil : entry.path = [] := by simpa [follows] using hfollows
      exact ⟨entry, List.mem_cons_self, hnil, by rw [hroot hnil]; rfl⟩
    · refine List.forall_mem_cons.mpr ⟨⟨hnormal, hparent.imp_right .inl, fun a ha => .inl (hanchor a ha)⟩, fun e he => ?_⟩
      obtain ⟨hnormal, hparent, hanchor⟩ := hall e he
      have hdirectories := hreads.directories
      have hanchors := hreads.anchors
      refine ⟨hnormal, hparent.imp_right ?_, fun a ha => ?_⟩
      · grind [Present]
      · grind [Present]
    · simp [hproduced, hreads.totals.1]
      omega
    · simp [hcontent, hreads.totals.2, Nat.add_assoc]

/-- **What decodes is a file system.**  It has a root; every entry is below a directory, every hard link is
to a regular file, and no two entries have one path, for the paths ascend. The totals are those of the tree. -/
theorem decoded_tree_well_formed {summary : TreeSummary} (h : decodeTree bounds bs = .ok (tree, summary)) :
    Present tree [] 1 ∧ tree.Pairwise (fun a b => compare a.path b.path = .lt) ∧
      (∀ e ∈ tree, Placed (Present tree · 1) (Present tree · 2) e) ∧
      summary = ⟨tree.length, (tree.map (·.node.contentBytes)).sum⟩ := by
  obtain ⟨⟨declared, _⟩, hheader, h⟩ := bind_eq_ok.mp h
  obtain ⟨⟨⟨tree, state⟩, _⟩, hentries, h⟩ := bind_eq_ok.mp h
  obtain ⟨summary, hfinish, h⟩ := bind_eq_ok.mp h
  cases h
  obtain ⟨-, hfinish⟩ := seq_eq_ok.mp hfinish
  cases hfinish
  obtain ⟨-, hroot, hsorted, hall, hproduced, hcontent⟩ := entries_placed hentries
  refine ⟨hroot rfl ?_, hsorted, by simpa [State.start] using hall, by simp [hproduced, hcontent, State.start]⟩
  -- a header that declares no entry is refused
  obtain ⟨_, _, -, h⟩ := decode_bind.mp hheader
  obtain ⟨_, _, -, h⟩ := decode_bind.mp h
  obtain ⟨_, _, -, h⟩ := decode_bind.mp h
  split_ifs at h
  · cases h
  · obtain ⟨_, _, -, h⟩ := decode_bind.mp h
    split_ifs at h with hzero <;> cases h
    simpa [BitVec.toNat_eq] using hzero

/-- The bytes of an entry with plain metadata. -/
def plainEntry (path : GuestPath) (kind : UInt8) (body : List UInt8) : List UInt8 :=
  [0, 0, 0, UInt8.ofNat path.length] ++ path ++ kind :: List.replicate 24 0 ++ body

/-- The root, a directory `a`, a file `a/f` of seven bytes and a hard link `h` to it. -/
def linkedManifest : List UInt8 :=
  MAGIC.1 ++ [0, 1, 0, 1, 0, 0, 0, 4] ++ plainEntry [] 1 [] ++ plainEntry [0x61] 1 []
    ++ plainEntry [0x61, 0x2f, 0x66] 2 ([0, 0, 0, 0, 0, 0, 0, 7] ++ List.replicate 32 0)
    ++ plainEntry [0x68] 5 [0, 0, 0, 3, 0x61, 0x2f, 0x66]

def linkedBounds : TreeBounds := ⟨16, 64, 64, 4096, 1024, 4096⟩

theorem linkedManifest_decodes : (decodeTree linkedBounds linkedManifest).map (fun (tree, summary) =>
    (tree.map fun e => (e.path, e.node.kind), summary))
      = .ok ([([], 1), ([0x61], 1), ([0x61, 0x2f, 0x66], 2), ([0x68], 5)], ⟨4, 7⟩) := by
  decide +kernel

theorem decoded_tree_well_formed_linked : ∃ tree,
    decodeTree linkedBounds linkedManifest = .ok (tree, ⟨4, 7⟩) ∧
      tree.map (fun e => (e.path, e.node.kind)) = [([], 1), ([0x61], 1), ([0x61, 0x2f, 0x66], 2), ([0x68], 5)] ∧
      tree.Pairwise (fun a b => compare a.path b.path = .lt) ∧
      (∀ e ∈ tree, Placed (Present tree · 1) (Present tree · 2) e) ∧
      tree.length = 4 ∧ (tree.map (·.node.contentBytes)).sum = 7 := by
  have hdecodes := linkedManifest_decodes
  cases h : decodeTree linkedBounds linkedManifest with
  | error e =>
    rw [h] at hdecodes
    cases hdecodes
  | ok result =>
    obtain ⟨tree, summary⟩ := result
    rw [h] at hdecodes
    simp only [Except.map, Except.ok.injEq, Prod.mk.injEq] at hdecodes
    obtain ⟨hpaths, rfl⟩ := hdecodes
    obtain ⟨-, hsorted, hplaced, hsummary⟩ := decoded_tree_well_formed h
    rw [TreeSummary.mk.injEq] at hsummary
    exact ⟨tree, rfl, hpaths, hsorted, hplaced, hsummary.1.symm, hsummary.2.symm⟩

end TreeDecoder

end Soma.Generation
