import Soma.Lib.Path
import Soma.Lib.Table
import Soma.Template.Image

/-! # Layer plans

One OCI layer, read into a plan: the nodes it adds, by guest path, and its whiteouts. Paths are raw
bytes; `normalizePath` drops empty and `.` components and refuses `..`, so a path of a plan has none of
them (`normalizePath_normal`).
-/

namespace Soma.Normalize

open Std Soma.Lib Soma.Codec
open Soma.Template (OciDigest)

/-! ## Errors -/

inductive NormalizePhase where
  | openImport
  | verifyLayer
  | applyLayer
  | encodeManifest
  | publish
deriving DecidableEq

inductive NormalizeErrorKind where
  | invalidInput
  | unsupported
  | limitExceeded
  | integrity
  | storeConflict
  | io
deriving DecidableEq

structure NormalizeError where
  phase : NormalizePhase
  kind : NormalizeErrorKind
deriving DecidableEq

def invalid : NormalizeError := ⟨.applyLayer, .invalidInput⟩
def unsupported : NormalizeError := ⟨.applyLayer, .unsupported⟩
def limit : NormalizeError := ⟨.applyLayer, .limitExceeded⟩

/-- The bounds of one normalization that the tree and its parser read. -/
structure RootfsLimits where
  maxEntries : U32
  maxPathBytes : U32
  maxMetadataBytes : U64
  maxFileBytes : U64
  maxContentBytes : U64

/-! ## Guest paths -/

abbrev GuestPath := List UInt8

def slash : UInt8 := 0x2f

def dot : List UInt8 := [0x2e]

def dotDot : List UInt8 := [0x2e, 0x2e]

def components (path : GuestPath) : List (List UInt8) :=
  path.splitOn slash

def parent (path : GuestPath) : GuestPath :=
  Path.parent slash path

def ancestors (path : GuestPath) : List GuestPath :=
  Path.ancestors slash path

def basename (path : GuestPath) : List UInt8 :=
  Path.basename slash path

def child (parent name : List UInt8) : GuestPath :=
  Path.child slash parent name

/-- A component that names something: not empty, not `.`, not `..`. -/
def Named (component : List UInt8) : Prop :=
  component ≠ [] ∧ component ≠ dot ∧ component ≠ dotDot

instance (component : List UInt8) : Decidable (Named component) :=
  inferInstanceAs (Decidable (_ ∧ _ ∧ _))

/-- A path of named components without NUL bytes; the root is the empty path. -/
def Normal (path : GuestPath) : Prop :=
  0 ∉ path ∧ (path = [] ∨ ∀ c ∈ components path, Named c)

instance (path : GuestPath) : Decidable (Normal path) :=
  inferInstanceAs (Decidable (_ ∧ _))

abbrev Under (q p : GuestPath) : Prop :=
  Path.Under slash q p

def validateBytes (value : List UInt8) (maximum : U32) : Except NormalizeError Unit := do
  ensure (value.length ≤ maximum.toNat) limit
  ensure (0 ∉ value) invalid

/-- A relative path without `.` and empty components. -/
def normalizePath (path : List UInt8) (maximum : U32) : Except NormalizeError GuestPath := do
  validateBytes path maximum
  ensure (path ≠ [] ∧ path.head? ≠ some slash) invalid
  ensure (dotDot ∉ components path) invalid
  pure (Path.join slash ((components path).filter Named))

def validateLink (value : List UInt8) (maximum : U32) : Except NormalizeError (List UInt8) := do
  validateBytes value maximum
  ensure (value ≠ []) invalid
  pure value

theorem Normal.nil : Normal [] := ⟨by simp, .inl rfl⟩

theorem Normal.named {path : GuestPath} (h : Normal path) (hne : path ≠ []) : ∀ c ∈ components path, Named c :=
  h.2.resolve_left hne

theorem Normal.of_under {p q : GuestPath} (h : Normal p) (hq : Under q p) : Normal q ∧ q ≠ [] := by
  obtain ⟨rest, hp⟩ := hq
  have hp' : q ++ slash :: rest = p := by simpa using hp
  have hpne : p ≠ [] := by
    rw [← hp']
    simp
  have hsplit : components p = components q ++ components rest := by
    rw [← hp']
    exact List.splitOn_append_cons_self q rest
  have hnamed : ∀ c ∈ components q, Named c := by
    intro c hc
    exact h.named hpne c (hsplit ▸ List.mem_append_left _ hc)
  refine ⟨⟨fun hzero => h.1 ?_, .inr hnamed⟩, ?_⟩
  · rw [← hp']
    exact List.mem_append_left _ hzero
  · rintro rfl
    exact (hnamed [] (by simp [components])).1 rfl

theorem Normal.parent {path : GuestPath} (h : Normal path) : Normal (parent path) := by
  by_cases hs : slash ∈ path
  · exact (h.of_under (Path.under_parent hs)).1
  · have hnil : Normalize.parent path = [] := Path.parent_of_not_mem hs
    rw [hnil]
    exact Normal.nil

theorem Normal.walk {path : GuestPath} (h : Normal path) :
    Path.walk slash [] (components path).dropLast = ancestors path := by
  by_cases hne : path = []
  · subst hne
    rfl
  · exact Path.walk_splitOn_dropLast fun c hc => (h.named hne c hc).1

theorem Normal.walk_self {path : GuestPath} (h : Normal path) (hne : path ≠ []) :
    Path.walk slash [] (components path) = ancestors path ++ [path] :=
  Path.walk_splitOn fun c hc => (h.named hne c hc).1

theorem mem_ancestors {p q : GuestPath} : q ∈ ancestors p ↔ Under q p :=
  Path.mem_ancestors

/-! ## Planned nodes -/

structure Metadata where
  mode : U32
  uid : U32
  gid : U32
  mtime : U64
deriving DecidableEq

def Metadata.implicitDirectory : Metadata := ⟨0o755, 0, 0, 0⟩

/-- A node that a layer adds. -/
inductive PlannedNode where
  | directory (metadata : Metadata)
  | regular (metadata : Metadata) (digest : OciDigest) (size : U64)
  | symlink (metadata : Metadata) (target : List UInt8)
  | hardlink (target : GuestPath)
  | fifo (metadata : Metadata)
deriving DecidableEq

def PlannedNode.isDirectory : PlannedNode → Bool
  | .directory _ => true
  | _ => false

/-- A path that a layer removes. -/
inductive Whiteout where
  | remove (path : GuestPath)
  | makeOpaque (path : GuestPath)
deriving DecidableEq

def Whiteout.directory : Whiteout → GuestPath
  | .remove path => parent path
  | .makeOpaque path => path

/-- What a layer adds and removes. -/
structure LayerPlan where
  additions : TreeMap GuestPath PlannedNode compare
  whiteouts : List Whiteout

/-! ## The layer parser -/

inductive EntryType where
  | file
  | directory
  | symlink
  | hardLink
  | fifo
  | other
deriving DecidableEq

/-- One archive entry with its effective names. A number its header does not hold is `none`; `content`
is what storing the body answered. -/
structure TarEntry where
  path : List UInt8
  link : Option (List UInt8)
  kind : EntryType
  size : U64
  mode : Option U32
  uid : Option U64
  gid : Option U64
  mtime : Option U64
  content : Except NormalizeError OciDigest

/-- The mode bits outside the permission, set-id and sticky bits. -/
def unsupportedMode (mode : U32) : U32 :=
  mode &&& ~~~0o7777#32

/-- A 64-bit header number that has to fit 32 bits. -/
def narrow (value : U64) : Except NormalizeError U32 := do
  ensure (value.toNat < 2 ^ 32) unsupported
  pure (value.setWidth 32)

def TarEntry.metadata (entry : TarEntry) : Except NormalizeError Metadata := do
  let mode ← okOr entry.mode invalid
  ensure (unsupportedMode mode = 0) unsupported
  let uid ← okOr entry.uid invalid
  let uid ← narrow uid
  let gid ← okOr entry.gid invalid
  let gid ← narrow gid
  let mtime ← okOr entry.mtime invalid
  pure ⟨mode, uid, gid, mtime⟩

def requireEmpty (size : U64) (link : Option (List UInt8)) : Except NormalizeError Unit :=
  ensure (size = 0 ∧ link = none) invalid

variable (limits : RootfsLimits)

/-- The node an entry adds. -/
def nodePlan (entry : TarEntry) : Except NormalizeError PlannedNode :=
  match entry.kind with
  | .file => do
    ensure (entry.link = none) invalid
    ensure (entry.size.toNat ≤ limits.maxFileBytes.toNat) limit
    let metadata ← entry.metadata
    let digest ← entry.content
    pure (.regular metadata digest entry.size)
  | .directory => do
    requireEmpty entry.size entry.link
    let metadata ← entry.metadata
    pure (.directory metadata)
  | .symlink => do
    requireEmpty entry.size none
    let target ← okOr entry.link invalid
    let metadata ← entry.metadata
    let target ← validateLink target limits.maxPathBytes
    pure (.symlink metadata target)
  | .hardLink => do
    requireEmpty entry.size none
    let target ← okOr entry.link invalid
    let target ← normalizePath target limits.maxPathBytes
    pure (.hardlink target)
  | .fifo => do
    requireEmpty entry.size entry.link
    let metadata ← entry.metadata
    pure (.fifo metadata)
  | .other => .error unsupported

/-- What the layers have used so far. -/
structure Budget where
  entries : ℕ
  metadataBytes : ℕ
  contentBytes : ℕ

variable (budget : Budget)

/-- Counts one entry; a sum that overflows its word is over its limit. -/
def Budget.observe (path : List UInt8) (link : Option (List UInt8)) (size : U64)
    (limits : RootfsLimits) : Except NormalizeError Budget := do
  let entries := budget.entries + 1
  let metadataBytes := budget.metadataBytes + path.length + (link.getD []).length
  let contentBytes := budget.contentBytes + size.toNat
  ensure (entries ≤ limits.maxEntries.toNat ∧ metadataBytes ≤ limits.maxMetadataBytes.toNat
    ∧ contentBytes ≤ limits.maxContentBytes.toNat) limit
  pure ⟨entries, metadataBytes, contentBytes⟩

/-- The bytes `.wh.`. -/
def whiteoutMark : List UInt8 := [0x2e, 0x77, 0x68, 0x2e]

/-- The bytes `.wh..wh..opq`. -/
def opaqueMark : List UInt8 := whiteoutMark ++ whiteoutMark ++ [0x2e, 0x6f, 0x70, 0x71]

/-- What a marked name removes. -/
def parseWhiteout (path : GuestPath) (size : U64) : Except NormalizeError Whiteout := do
  ensure (size = 0 ∧ path ≠ []) invalid
  if basename path = opaqueMark then pure (.makeOpaque (parent path))
  else do
    let target := (basename path).drop whiteoutMark.length
    ensure (Named target) invalid
    pure (.remove (child (parent path) target))

/-- What the parser of one layer carries from entry to entry. -/
structure ParseState where
  budget : Budget
  seen : TreeSet GuestPath compare
  plan : LayerPlan

def ParseState.start : ParseState :=
  ⟨budget, ∅, ⟨∅, []⟩⟩

/-- One entry of an archive. -/
def parseEntry (state : ParseState) (entry : TarEntry) : Except NormalizeError ParseState := do
  let path ← normalizePath entry.path limits.maxPathBytes
  ensure (path ∉ state.seen) invalid
  let seen := state.seen.insert path
  ensure (∀ c ∈ components (parent path), ¬ whiteoutMark <+: c) invalid
  if whiteoutMark <+: basename path then do
    ensure (entry.kind = .file ∧ entry.link = none) invalid
    let budget ← state.budget.observe path none entry.size limits
    let whiteout ← parseWhiteout path entry.size
    pure ⟨budget, seen, ⟨state.plan.additions, state.plan.whiteouts ++ [whiteout]⟩⟩
  else do
    let budget ← state.budget.observe path entry.link entry.size limits
    let node ← nodePlan limits entry
    ensure (path ≠ [] ∨ node.isDirectory) invalid
    pure ⟨budget, seen, ⟨state.plan.additions.insert path node, state.plan.whiteouts⟩⟩

/-- A whole archive. -/
def parseEntries (entries : List TarEntry) : Except NormalizeError ParseState :=
  entries.foldlM (parseEntry limits) (ParseState.start budget)

def Whiteout.path : Whiteout → GuestPath
  | .remove path => path
  | .makeOpaque path => path

/-! ## Parsed paths are normal -/

variable {limits} {p : GuestPath}

theorem Normal.child {name : List UInt8} (h : Normal p) (hnamed : Named name) (hslash : slash ∉ name)
    (hzero : 0 ∉ name) : Normal (child p name) := by
  have hone : components name = [name] := List.splitOn_eq_singleton hslash
  unfold Normalize.child Path.child
  split_ifs with hnil
  · exact ⟨hzero, .inr (by simp [hone, hnamed])⟩
  · have hsplit : components (p ++ slash :: name) = components p ++ components name :=
      List.splitOn_append_cons_self p name
    refine ⟨by simp [h.1, hzero, slash], .inr ?_⟩
    rw [hsplit, hone]
    exact List.forall_mem_append.mpr ⟨h.named hnil, List.forall_mem_singleton.mpr hnamed⟩

theorem mem_components {c : List UInt8} (h : c ∈ components p) : slash ∉ c ∧ c ⊆ p := by
  unfold components at h
  induction p using Path.components_induction slash with
  | last p hsep =>
    rw [List.splitOn_eq_singleton hsep, List.mem_singleton] at h
    subst h
    exact ⟨hsep, fun _ hx => hx⟩
  | more d rest hsep ih =>
    rw [List.splitOn_append_cons_self_of_not_mem hsep rest] at h
    rcases List.mem_cons.mp h with rfl | h
    · exact ⟨hsep, List.subset_append_left _ _⟩
    · exact ⟨(ih h).1, fun x hx => by simp [(ih h).2 hx]⟩

theorem normalizePath_normal {path : List UInt8} {maximum : U32} (h : normalizePath path maximum = .ok p) :
    Normal p := by
  simp only [normalizePath, validateBytes, seq_eq_ok, ensure_eq_ok] at h
  obtain ⟨⟨-, hzero⟩, -, -, h⟩ := h
  cases h
  refine List.foldlRecOn _ _ Normal.nil fun built hbuilt c hc => ?_
  obtain ⟨hc, hnamed⟩ := List.mem_filter.mp hc
  obtain ⟨hslash, hsub⟩ := mem_components hc
  exact hbuilt.child (of_decide_eq_true hnamed) hslash fun h0 => hzero (hsub h0)

theorem parseWhiteout_normal {w : Whiteout} {size : U64} (h : parseWhiteout p size = .ok w) (hp : Normal p) :
    Normal w.path := by
  obtain ⟨-, h⟩ := seq_eq_ok.mp h
  split_ifs at h
  · cases h
    exact hp.parent
  · obtain ⟨hnamed, h⟩ := seq_eq_ok.mp h
    cases h
    refine hp.parent.child (ensure_eq_ok.mp hnamed) (fun hs => ?_) fun h0 => hp.1 ?_
    · simpa using List.mem_rtakeWhile_imp (List.mem_of_mem_drop hs)
    · exact (List.rtakeWhile_suffix _ _).subset (List.mem_of_mem_drop h0)

theorem nodePlan_normal {entry : TarEntry} (h : nodePlan limits entry = .ok (.hardlink p)) : Normal p := by
  cases hk : entry.kind <;> simp [nodePlan, hk, bind_eq_ok, pure, Except.pure] at h
  obtain ⟨-, target, -, ht⟩ := h
  exact normalizePath_normal ht

end Soma.Normalize
