import Soma.Generation.Artifacts
import Soma.Normalize.Layer

/-! # The tree decoder

The bounded decoder of canonical tree manifests: a header with the number of entries, then the entries in
raw byte order of their paths. While it reads, the decoder keeps the last path, the directories and the
regular files seen, and two totals, and checks each entry against them.
-/

namespace Soma.Generation

open Std Soma.Lib Soma.Codec
open Soma.Normalize (GuestPath Metadata slash components Named unsupportedMode)

/-- What is at a path of the tree. -/
inductive TreeNode where
  | directory
  | regular (size : U64) (digest : Sha256Digest)
  | symlink (target : List UInt8)
  | hardlink (anchor : GuestPath)
  | fifo
deriving DecidableEq

/-- One path with its node. -/
structure TreeEntry where
  path : GuestPath
  metadata : Metadata
  node : TreeNode
deriving DecidableEq

/-- The verified totals of one fully consumed tree stream. -/
structure TreeSummary where
  entryCount : ℕ
  contentBytes : ℕ
deriving DecidableEq

namespace TreeDecoder

/-- The bytes `SOMARFS` and a zero. -/
def MAGIC : Bytes 8 := ⟨[0x53, 0x4f, 0x4d, 0x41, 0x52, 0x46, 0x53, 0], rfl⟩

def FORMAT_VERSION : U16 := 1
def POLICY_VERSION : U16 := 1

def invalid : CompileError := .new .decodeTree .invalidInput
def limit : CompileError := .new .decodeTree .limitExceeded
def unsupported : CompileError := .new .decodeTree .unsupported

abbrev Decoder (α : Type) := Codec.Decoder CompileError α

def short (_needed _available : ℕ) : CompileError := invalid

/-- What the decoder keeps of the entries it has produced. -/
structure State where
  produced : ℕ
  previous : Option GuestPath
  directories : TreeSet GuestPath compare
  anchors : TreeMap GuestPath (U64 × Sha256Digest) compare
  metadataBytes : ℕ
  contentBytes : ℕ

def State.start : State := ⟨0, none, ∅, ∅, 0, 0⟩

variable (bounds : TreeBounds)

/-! ## Reading an entry -/

def sized (maximum : U32) : Decoder (List UInt8) := do
  let length ← refine (word short 32) fun length =>
    if maximum.toNat < length.toNat then .error limit else .ok length.toNat
  take short length

variable (state : State)

/-- Adds to the metadata bytes; a sum that overflows its word is over the limit. -/
def chargeMetadata (count : ℕ) : Except CompileError State := do
  let metadataBytes := state.metadataBytes + count
  ensure (metadataBytes ≤ bounds.maxMetadataBytes.toNat) limit
  pure { state with metadataBytes }

/-- Whether a path may come after the last one; the first is the root. -/
def follows (previous : Option GuestPath) (path : GuestPath) : Bool :=
  match previous with
  | none => path = []
  | some previous => compare previous path = .lt

variable (path : GuestPath)

/-- The rules of a tree path. -/
def validatePath : Except CompileError Unit := do
  ensure (follows state.previous path = true) invalid
  if path = [] then pure ()
  else do
    ensure (0 ∉ path ∧ path.head? ≠ some slash ∧ path.getLast? ≠ some slash) invalid
    ensure (∀ c ∈ components path, Named c) invalid
    ensure (Normalize.parent path ∈ state.directories) invalid

def readPath : Decoder (GuestPath × State) :=
  refine (sized bounds.maxPathBytes) fun path => do
    let state ← chargeMetadata bounds state path.length
    validatePath state path
    pure (path, state)

def readMetadata : Decoder Metadata := do
  let mode ← word short 32
  let uid ← word short 32
  let gid ← word short 32
  let mtime ← word short 64
  let reserved ← (word short 32 : Decoder U32)
  if reserved ≠ 0 ∨ unsupportedMode mode ≠ 0 then fail invalid
  else pure ⟨mode, uid, gid, mtime⟩

/-- The size and digest of a regular file; its path becomes an anchor. -/
def regular : Decoder (TreeNode × State) := do
  let size ← word short 64
  let digest ← array short 32
  if bounds.maxFileBytes.toNat < size.toNat then fail limit
  else
    let contentBytes := state.contentBytes + size.toNat
    if bounds.maxContentBytes.toNat < contentBytes then fail limit
    else pure (.regular size digest,
      { state with contentBytes, anchors := state.anchors.insert path (size, digest) })

def symlink : Decoder (TreeNode × State) :=
  refine (sized bounds.maxLinkBytes) fun target => do
    let state ← chargeMetadata bounds state target.length
    ensure (target ≠ [] ∧ 0 ∉ target) invalid
    pure (.symlink target, state)

/-- A link to a file that was read before. -/
def hardlink : Decoder (TreeNode × State) :=
  refine (sized bounds.maxPathBytes) fun anchor => do
    let state ← chargeMetadata bounds state anchor.length
    ensure (compare anchor path = .lt ∧ anchor ∈ state.anchors) invalid
    pure (.hardlink anchor, state)

def readNode (kind : UInt8) : Decoder (TreeNode × State) :=
  if kind = 1 then pure (.directory, { state with directories := state.directories.insert path })
  else if kind = 2 then regular bounds state path
  else if kind = 3 then symlink bounds state
  else if kind = 4 then pure (.fifo, state)
  else if kind = 5 then hardlink bounds state path
  else fail unsupported

/-- Reads one entry against those before it. -/
def nextEntry : Decoder (TreeEntry × State) := do
  let (path, state) ← readPath bounds state
  let kind ← byte short
  let metadata ← readMetadata
  let (node, state) ← readNode bounds state path kind
  if path = [] ∧ node ≠ .directory then fail invalid
  else pure (⟨path, metadata, node⟩, { state with previous := some path, produced := state.produced + 1 })

/-! ## Reading a tree -/

/-- The header, with the declared number of entries. -/
def header : Decoder U32 := do
  let magic ← array short 8
  let format ← word short 16
  let policy ← word short 16
  if magic ≠ MAGIC ∨ format ≠ FORMAT_VERSION ∨ policy ≠ POLICY_VERSION then fail invalid
  else do
    let declared ← word short 32
    if declared = 0 then fail invalid
    else if bounds.maxEntries.toNat < declared.toNat then fail limit
    else pure declared

/-- Takes entries until all declared ones are produced or one fails. -/
def entries : ℕ → State → Decoder (List TreeEntry × State)
  | 0, state => pure ([], state)
  | n + 1, state => do
    let (entry, state) ← nextEntry bounds state
    let (rest, state) ← entries n state
    pure (entry :: rest, state)

/-- The totals, once every declared entry was produced and no bytes remain. -/
def finish (declared : U32) (state : State) (rest : List UInt8) : Except CompileError TreeSummary := do
  ensure (state.produced = declared.toNat ∧ rest = []) invalid
  pure ⟨state.produced, state.contentBytes⟩

end TreeDecoder

open TreeDecoder in
/-- Decodes a whole manifest: all entries, then the totals. -/
def decodeTree (bounds : TreeBounds) (bytes : List UInt8) :
    Except CompileError (List TreeEntry × TreeSummary) := do
  let (declared, rest) ← header bounds bytes
  let ((tree, state), rest) ← entries bounds declared.toNat .start rest
  let summary ← finish declared state rest
  pure (tree, summary)

end Soma.Generation
