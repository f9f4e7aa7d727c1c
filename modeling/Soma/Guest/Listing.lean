import Soma.Guest.Frame

/-! # Directory listings over one control session

The guest agent answers a listing with at most `MAX_ENTRIES` entries after an offset; the control owner
sends the answer as one record and poisons the session when it cannot. The page is bounded by a count
and the record by bytes, so the session survives exactly the pages whose names are short enough.
-/

namespace Soma.Guest

open Soma.Codec List Guest.Frame

/-! ## Listing one page -/

/-- What the kernel yields for one name; a kind that cannot be read is `none`. -/
structure Item where
  name : List UInt8
  kind : Option EntryKind
deriving DecidableEq

/-- An operating-system error with its number, when it has one. -/
abbrev Errno := Option ℕ

def classify : Errno → FileFailure
  | some 2 => .notFound
  | some 13 | some 1 | some 30 => .denied
  | some 21 | some 20 => .wrongKind
  | some 17 => .exists_
  | some 39 => .notEmpty
  | _ => .failed

/-- The loop over what is left of the directory, with the entries collected so far. -/
def listFrom : List (Except Errno Item) → List DirectoryEntry → FileOutcome
  | [], entries => .listed entries false
  | .error error :: _, _ => .failed (classify error)
  | .ok item :: rest, entries =>
    if entries.length = MAX_ENTRIES then .listed entries true
    else if h : item.name = [] ∨ MAX_PATH_BYTES < item.name.length then .failed .failed
    else
      have hfield : item.name.length < 2 ^ 16 := by
        simp only [MAX_PATH_BYTES, not_or, not_lt] at h
        omega
      listFrom rest (entries ++ [⟨⟨item.name, hfield⟩, item.kind.getD .other⟩])

/-- One page of a directory. -/
def list (reader : Except Errno (List (Except Errno Item))) (offset : U32) : FileOutcome :=
  match reader with
  | .error error => .failed (classify error)
  | .ok items => listFrom (items.drop offset.toNat) []

/-- The names a kernel directory can hold: one component of at most 255 bytes, no two alike. -/
structure Directory where
  items : List Item
  named : ∀ item ∈ items, item.name ≠ [] ∧ item.name.length ≤ 255 ∧ 0x2f ∉ item.name ∧ 0 ∉ item.name
  distinct : (items.map Item.name).Nodup

namespace Directory

theorem name_length {directory : Directory} {item : Item} (h : item ∈ directory.items) :
    item.name.length < 2 ^ 16 := by
  have hname := (directory.named item h).2.1
  omega

variable (directory : Directory)

/-- Every entry of the directory, in the kernel's order. -/
def entries : List DirectoryEntry :=
  directory.items.attach.map fun item => ⟨⟨item.1.name, name_length item.2⟩, item.1.kind.getD .other⟩

variable (offset : U32)

/-- Listing a directory whose every entry can be read. -/
def list : FileOutcome :=
  Guest.list (.ok (directory.items.map .ok)) offset

def page : List DirectoryEntry :=
  (directory.entries.drop offset.toNat).take MAX_ENTRIES

/-- The page at `offset` fits one record: its header, its tag, flag and count, and its entries. -/
def PageFits : Prop :=
  HEADER_SIZE + (6 + ((directory.page offset).map DirectoryEntry.size).sum) ≤ MAX_RECORD_PAYLOAD

@[simp] theorem entries_length : directory.entries.length = directory.items.length := by
  simp [entries]

theorem page_sizes :
    (directory.page offset).map DirectoryEntry.size
      = ((directory.items.drop offset.toNat).take MAX_ENTRIES).map fun item => 3 + item.name.length := by
  have hsizes : directory.entries.map DirectoryEntry.size
      = directory.items.map fun item => 3 + item.name.length := by
    simp [entries, DirectoryEntry.size, Function.comp_def]
  rw [page, map_take, map_drop, hsizes, ← map_drop, ← map_take]

theorem entries_nodup : directory.entries.Nodup := by
  have hname : directory.entries.map (fun entry => entry.name.1) = directory.items.map Item.name := by
    simp [entries, Function.comp_def]
  exact Nodup.of_map _ (hname ▸ directory.distinct)

end Directory

theorem listFrom_eq (items : List { item : Item // item.name ≠ [] ∧ item.name.length ≤ 255 })
    (listed : List DirectoryEntry) (hlisted : listed.length ≤ MAX_ENTRIES) :
    listFrom (items.map fun item => .ok item.1) listed
      = .listed
        (listed ++ (items.map fun item =>
          ⟨⟨item.1.name, by have := item.2.2; omega⟩, item.1.kind.getD .other⟩).take
            (MAX_ENTRIES - listed.length))
        (MAX_ENTRIES < listed.length + items.length) := by
  induction items generalizing listed with
  | nil => simp [listFrom, hlisted]
  | cons item items ih =>
    have hname : ¬ (item.1.name = [] ∨ MAX_PATH_BYTES < item.1.name.length) := by
      have hlength := item.2.2
      simp only [item.2.1, MAX_PATH_BYTES, false_or, not_lt]
      omega
    simp only [map_cons, listFrom]
    split_ifs with hfull
    · simp [hfull]
    · rw [ih _ (by simp; omega)]
      obtain ⟨room, hroom⟩ : ∃ room, MAX_ENTRIES - listed.length = room + 1 :=
        ⟨MAX_ENTRIES - listed.length - 1, by omega⟩
      have hnext : MAX_ENTRIES - (listed.length + 1) = room := by omega
      simp [hroom, hnext, add_assoc, add_comm 1]

namespace Directory

/-- What a listing of a readable directory answers, at every offset. -/
theorem list_eq (directory : Directory) (offset : U32) :
    directory.list offset
      = .listed (directory.page offset) (offset.toNat + MAX_ENTRIES < directory.items.length) := by
  have hitems : (directory.items.map .ok).drop offset.toNat
      = ((directory.items.attach.map fun item =>
          (⟨item.1, (directory.named item.1 item.2).1, (directory.named item.1 item.2).2.1⟩ :
            { item : Item // item.name ≠ [] ∧ item.name.length ≤ 255 })).drop offset.toNat).map
          fun item => (.ok item.1 : Except Errno Item) := by
    simp [map_drop, Function.comp_def]
  rw [list, Guest.list, hitems, listFrom_eq _ _ (by simp)]
  simp only [length_nil, nil_append, Nat.sub_zero, map_drop, map_map, zero_add,
    length_drop, length_map, length_attach, page, entries, Function.comp_def]
  congr 2
  simp only [eq_iff_iff]
  omega

theorem message_isOk (directory : Directory) (operation : OperationId) (offset : U32) :
    (fileOutcomeMessage operation (directory.list offset)).isOk ↔ directory.PageFits offset := by
  rw [fileOutcomeMessage, encode_isOk, list_eq, listed_length, PageFits]

end Directory

/-! ## Answering over the control session -/

inductive ControlStage where
  | handshake | repair | execute | file | pty | shutdown
deriving DecidableEq

inductive ControlFailureClass where
  | io | authentication | protocol | lifecycle | accounting
deriving DecidableEq

/-- Where and how a session failed. -/
structure ControlError where
  stage : ControlStage
  class_ : ControlFailureClass
deriving DecidableEq

inductive ChannelFailure where
  | io | protocol
deriving DecidableEq

def ChannelFailure.classOf : ChannelFailure → ControlFailureClass
  | .io => .io
  | .protocol => .protocol

/-- Where the guest's control loop is. -/
inductive GuestState where
  | awaitPrepare (operation : OperationId)
  | prepareReporting (operation : OperationId)
  | repairedIdle
  | executeStreaming (operation : OperationId)
  | filePending (operation : OperationId)
  | ptyPending (operation : OperationId)
  | shutdownPending (operation : OperationId)
deriving DecidableEq

def activeStage : GuestState → ControlStage
  | .awaitPrepare _ | .prepareReporting _ => .repair
  | .repairedIdle | .executeStreaming _ => .execute
  | .filePending _ => .file
  | .ptyPending _ => .pty
  | .shutdownPending _ => .shutdown

/-- The guest's end of one session. A poisoned transport carries nothing more. -/
structure GuestControl where
  state : GuestState
  poisoned : Bool
deriving DecidableEq

namespace GuestControl

/-- `channel.fail`: the owner is gone and its transport is poisoned. -/
def fail (control : GuestControl) (stage : ControlStage) (class_ : ControlFailureClass) :
    GuestControl × Except ControlError Unit :=
  ({ control with poisoned := true }, .error ⟨stage, class_⟩)

variable (send : List UInt8 → Except ChannelFailure Unit)

/-- `send` seals a payload into a record and writes it. -/
def sendGuest (message : Except Error (List UInt8)) : Except ChannelFailure Unit :=
  match message with
  | .error _ => .error .protocol
  | .ok payload => send payload

/-- Answers a pending file request. -/
def fileOutcome (control : GuestControl) (outcome : FileOutcome) :
    GuestControl × Except ControlError Unit :=
  match control.state with
  | .filePending operation =>
    match sendGuest send (fileOutcomeMessage operation outcome) with
    | .error failure => control.fail .file failure.classOf
    | .ok () => ({ control with state := .repairedIdle }, .ok ())
  | other => control.fail (activeStage other) .lifecycle

/-- A healthy session: sealing and writing succeed for every payload a record can carry. -/
def Delivers : Prop :=
  ∀ payload, payload.length ≤ MAX_RECORD_PAYLOAD → send payload = .ok ()

theorem fileOutcome_eq {send : List UInt8 → Except ChannelFailure Unit} (hsend : Delivers send)
    (operation : OperationId) (outcome : FileOutcome) :
    fileOutcome send ⟨.filePending operation, false⟩ outcome
      = if (fileOutcomeMessage operation outcome).isOk then (⟨.repairedIdle, false⟩, .ok ())
        else (⟨.filePending operation, true⟩, .error ⟨.file, .protocol⟩) := by
  simp only [fileOutcome]
  cases hmessage : fileOutcomeMessage operation outcome with
  | error error => simp [sendGuest, fail, ChannelFailure.classOf, Except.isOk, Except.toBool]
  | ok payload =>
    have hfits : payload.length ≤ MAX_RECORD_PAYLOAD := by
      have hlength := encode_length hmessage
      have hok := (encode_isOk .fileOutcome operation outcome.encodeBody).mp
        (by rw [← fileOutcomeMessage, hmessage]; rfl)
      omega
    simp [sendGuest, hsend payload hfits, Except.isOk, Except.toBool]

end GuestControl

/-! ## Reading a directory page by page -/

/-- One terminating run of the caller's loop from an offset: list, advance the 32-bit offset by what was
returned, and stop when nothing remains. -/
inductive Enumerates (list : U32 → FileOutcome) : U32 → List DirectoryEntry → Prop
  | last {offset : U32} {entries : List DirectoryEntry} (hlist : list offset = .listed entries false) :
    Enumerates list offset entries
  | next {offset : U32} {page rest : List DirectoryEntry} (hlist : list offset = .listed page true)
    (hoffset : offset.toNat + page.length < 2 ^ 32)
    (hrest : Enumerates list (offset + BitVec.ofNat 32 page.length) rest) :
    Enumerates list offset (page ++ rest)

namespace Directory

variable {directory : Directory} {offset : U32}

theorem page_length (h : offset.toNat + MAX_ENTRIES < directory.items.length) :
    (directory.page offset).length = MAX_ENTRIES := by
  simp only [page, length_take, length_drop, entries_length]
  omega

theorem page_last (h : directory.items.length ≤ offset.toNat + MAX_ENTRIES) :
    directory.page offset = directory.entries.drop offset.toNat := by
  apply take_of_length_le
  simp only [length_drop, entries_length]
  omega

theorem offset_add {n : ℕ} (h : offset.toNat + n < 2 ^ 32) :
    (offset + BitVec.ofNat 32 n).toNat = offset.toNat + n := by
  simp only [BitVec.toNat_add, BitVec.toNat_ofNat]
  omega

theorem page_append_drop (directory : Directory) (offset : U32) :
    directory.page offset ++ directory.entries.drop (offset.toNat + MAX_ENTRIES)
      = directory.entries.drop offset.toNat := by
  rw [page, ← drop_drop, take_append_drop]

theorem enumerates_sound {entries : List DirectoryEntry} (h : Enumerates directory.list offset entries)
    (haligned : MAX_ENTRIES ∣ offset.toNat) :
    entries = directory.entries.drop offset.toNat ∧ directory.items.length ≤ 2 ^ 32 := by
  induction h with
  | @last offset entries hlist =>
    rw [list_eq, FileOutcome.listed.injEq, decide_eq_false_iff_not, not_lt] at hlist
    obtain ⟨hpage, hlength⟩ := hlist
    refine ⟨by rw [← hpage, page_last hlength], ?_⟩
    -- the last aligned offset leaves room for a whole page
    have hbound := offset.isLt
    simp only [MAX_ENTRIES] at haligned hlength
    omega
  | @next offset page rest hlist hoffset hrest ih =>
    rw [list_eq, FileOutcome.listed.injEq, decide_eq_true_eq] at hlist
    obtain ⟨hpage, hlength⟩ := hlist
    have hcount : page.length = MAX_ENTRIES := hpage ▸ page_length hlength
    rw [hcount] at hoffset
    rw [hcount, offset_add hoffset] at ih
    obtain ⟨hdrop, hsize⟩ := ih (Nat.dvd_add haligned (dvd_refl _))
    exact ⟨by rw [hdrop, ← hpage, page_append_drop], hsize⟩

theorem enumerates_complete (hsize : directory.items.length ≤ 2 ^ 32) :
    ∀ (left : ℕ) (offset : U32), directory.items.length ≤ offset.toNat + left →
      Enumerates directory.list offset (directory.entries.drop offset.toNat) := by
  intro left
  induction left using Nat.strong_induction_on with
  | _ left ih =>
    intro offset hleft
    by_cases hlast : directory.items.length ≤ offset.toNat + MAX_ENTRIES
    · rw [← page_last hlast]
      exact .last (by rw [list_eq, decide_eq_false (by omega)])
    · have hmore : offset.toNat + MAX_ENTRIES < directory.items.length := by omega
      have hcount := page_length hmore
      have hoffset : offset.toNat + MAX_ENTRIES < 2 ^ 32 := by omega
      have hrest := ih (left - MAX_ENTRIES) (by simp only [MAX_ENTRIES] at *; omega)
        (offset + BitVec.ofNat 32 MAX_ENTRIES) (by rw [offset_add hoffset]; omega)
      rw [offset_add hoffset] at hrest
      rw [← page_append_drop]
      refine .next (by rw [list_eq, decide_eq_true hmore]) (by rw [hcount]; exact hoffset) ?_
      rw [hcount]
      exact hrest

end Directory

/-- Answering a listing leaves a healthy session usable exactly when the page fits one record; and reading
a directory page by page ends, with every entry read exactly once, exactly when its size fits the offset. -/
theorem listing_iff_page_fits (directory : Directory) (operation : OperationId) :
    (∀ offset, (fileOutcomeMessage operation (directory.list offset)).isOk ↔ directory.PageFits offset)
    ∧ (∀ send, GuestControl.Delivers send → ∀ offset,
      (GuestControl.fileOutcome send ⟨.filePending operation, false⟩ (directory.list offset)).1.poisoned
        = false ↔ directory.PageFits offset)
    ∧ (∀ entries, Enumerates directory.list 0 entries
      ↔ entries = directory.entries ∧ directory.items.length ≤ 2 ^ 32)
    ∧ directory.entries.Nodup := by
  refine ⟨directory.message_isOk operation, fun send hsend offset => ?_, fun entries => ⟨fun h => ?_, ?_⟩,
    directory.entries_nodup⟩
  · rw [GuestControl.fileOutcome_eq hsend, ← directory.message_isOk operation offset]
    split_ifs with hok
    · simp [hok]
    · simp [hok]
  · have hsound := Directory.enumerates_sound h (by simp)
    simpa using hsound
  · intro h
    obtain ⟨hentries, hsize⟩ := h
    have hcomplete := Directory.enumerates_complete hsize directory.items.length 0 (by simp)
    rw [hentries]
    simpa using hcomplete

/-! ### A directory of long names -/

/-- The `i`-th of a thousand names that differ in their first two letters and are 202 bytes long. -/
def longName (i : ℕ) : List UInt8 :=
  UInt8.ofNat (97 + i / 32) :: UInt8.ofNat (97 + i % 32) :: replicate 200 97

theorem longName_length (i : ℕ) : (longName i).length = 202 := by
  simp only [longName, length_cons, length_replicate]

theorem longName_injOn {i j : ℕ} (hi : i < 1000) (hj : j < 1000) (h : longName i = longName j) : i = j := by
  simp only [longName, cons.injEq, and_true, ← UInt8.toNat_inj, UInt8.toNat_ofNat'] at h
  omega

def longNames : Directory where
  items := (range 1000).map fun i => ⟨longName i, some .file⟩
  named := by
    have hletter : ∀ n, n < 100 → UInt8.ofNat (97 + n) ≠ 0x2f ∧ UInt8.ofNat (97 + n) ≠ 0 := by decide
    intro item hitem
    obtain ⟨i, hi, rfl⟩ := mem_map.mp hitem
    rw [mem_range] at hi
    obtain ⟨hfirst, hfirst0⟩ := hletter (i / 32) (by omega)
    obtain ⟨hsecond, hsecond0⟩ := hletter (i % 32) (by omega)
    refine ⟨cons_ne_nil _ _, by rw [longName_length]; decide, ?_, ?_⟩
    · simp only [longName, mem_cons, mem_replicate, hfirst.symm, hsecond.symm, false_or]
      decide
    · simp only [longName, mem_cons, mem_replicate, hfirst0.symm, hsecond0.symm, false_or]
      decide
  distinct := by
    rw [map_map]
    refine Nodup.map_on ?_ nodup_range
    intro i hi j hj h
    exact longName_injOn (mem_range.mp hi) (mem_range.mp hj) h

theorem longNames_page : ¬ longNames.PageFits 0 := by
  rw [Directory.PageFits, Directory.page_sizes]
  decide +kernel

def firstOperation : OperationId := ⟨⟨replicate 16 1, by decide⟩, by decide⟩

/-- A thousand files with names of 202 bytes are one page that no record carries: the listing does not
encode, and answering it poisons a session over which every record is delivered. -/
theorem longNames_poison :
    (fileOutcomeMessage firstOperation (longNames.list 0)).isOk = false
    ∧ GuestControl.fileOutcome (fun _ => .ok ()) ⟨.filePending firstOperation, false⟩ (longNames.list 0)
      = (⟨.filePending firstOperation, true⟩, .error ⟨.file, .protocol⟩) := by
  have hrefused : (fileOutcomeMessage firstOperation (longNames.list 0)).isOk = false := by
    rw [Bool.eq_false_iff, ne_eq, Directory.message_isOk]
    exact longNames_page
  refine ⟨hrefused, ?_⟩
  rw [GuestControl.fileOutcome_eq (fun _ _ => rfl), hrefused]
  rfl

end Soma.Guest
