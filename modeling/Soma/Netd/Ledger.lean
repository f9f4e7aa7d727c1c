import Mathlib.Data.Char
import Mathlib.Data.List.Lex
import Mathlib.Data.List.Sort
import Soma.Netd.World

/-! # The broker's ledger

Every record is one file named by bundle and cleanup generation. Its content is written to a temporary
file, synced, and hard-linked into its final name; release adds a second record kind beside the
assignment. The programs follow the source action by action, so a crash can stop them anywhere.
-/

namespace Soma.Netd

open Soma.Codec Soma.Lib

abbrev Op := Prog Answer

/-- A program that stops at its first failure. -/
abbrev Fallible := ExceptT Error Op

/-- One action. -/
def perform (a : Act) : Op (Answer a) :=
  Prog.call a

@[simp] theorem perform_bind {α : Type} (a : Act) (k : Answer a → Op α) : (perform a >>= k) = .act a k :=
  rfl

/-- One action whose failure stops the program. -/
def attempt {ε α : Type} (p : Op (Except ε α)) : ExceptT ε Op α :=
  ExceptT.mk p

/-! ## Publishing a record -/

def writeTemp (temp : FileName) (bytes : List UInt8) : ExceptT IoError Op Unit := do
  attempt (perform (.create temp))
  attempt (perform (.write temp bytes))
  attempt (perform (.sync temp))

/-- Writes the temporary file and links it into its final name; the temporary file is removed either
way, and a failure to remove it is not looked at. -/
def publish (pid : ℕ) (kind : Kind) (slot : Slot) (bytes : List UInt8) : Op (Except IoError Unit) := do
  let temp := .temp pid kind slot
  let result ← ExceptT.run do
    writeTemp temp bytes
    attempt (perform (.link temp (.record kind slot)))
  let _ ← perform (.remove temp)
  match result with
  | .error error => return .error error
  | .ok () => perform .syncDir

/-! ## Reading records -/

variable (prims : Primitives)

def readRecord (file : FileName) : Fallible AssignmentRecord := do
  let bytes ← attempt (perform (.read file))
  attempt (pure (AssignmentRecord.decode prims bytes))

structure LedgerEntry where
  record : AssignmentRecord
  released : Bool

def lookup (slot : Slot) : Fallible LedgerEntry := attempt do
  if ← perform (.exists_ (.record .assigned slot)) then
    ExceptT.run do
      let record ← readRecord prims (.record .assigned slot)
      let released ← perform (.exists_ (.record .released slot))
      return ⟨record, released⟩
  else return .error .notAssigned

/-- The file of another kind with the same stem. -/
def FileName.withKind : FileName → Kind → FileName
  | .record _ slot, kind => .record kind slot
  | .temp pid _ slot, kind => .temp pid kind slot

def readEntries (prims : Primitives) : List FileName → Fallible (List LedgerEntry)
  | [] => pure []
  | file :: files => do
    let record ← readRecord prims file
    let released ← perform (.exists_ (file.withKind .released))
    let entries ← readEntries prims files
    return ⟨record, released⟩ :: entries

/-- Lists every file whose name ends in `.assigned`, sorted by name; one that cannot be read fails the
listing. -/
def entries : Fallible (List LedgerEntry) := do
  let names ← attempt (perform .readDir)
  readEntries prims ((names.filter (·.kind = .assigned)).insertionSort fun a b => a.stem ≤ b.stem)

/-! ## Recording -/

inductive RecordOutcome where
  | recorded
  | replayed
deriving DecidableEq

def AssignmentRecord.slot (record : AssignmentRecord) : Slot :=
  ⟨record.bundle, record.generation⟩

def recordAssignment (pid : ℕ) (record : AssignmentRecord) :
    Fallible RecordOutcome := attempt do
  match ← publish pid .assigned record.slot record.encode with
  | .ok () => return .ok .recorded
  | .error .alreadyExists => ExceptT.run do
    let existing ← readRecord prims (.record .assigned record.slot)
    if existing.replays record then return .replayed
    else if existing.operation = record.operation then throw .replayMismatch
    else throw .ledgerConflict
  | .error (.other errno) => return .error (.kernel .ledgerWrite errno)

/-- The ASCII bytes of `released` and a newline. -/
def RELEASED : List UInt8 := [0x72, 0x65, 0x6c, 0x65, 0x61, 0x73, 0x65, 0x64, 0x0a]

def recordRelease (pid : ℕ) (slot : Slot) : Fallible Unit := attempt do
  if ← perform (.exists_ (.record .assigned slot)) then
    match ← publish pid .released slot RELEASED with
    | .ok () => return .ok ()
    | .error .alreadyExists => return .ok ()
    | .error (.other errno) => return .error (.kernel .ledgerWrite errno)
  else return .error .notAssigned

end Soma.Netd
