import Soma.Guest.Frame
import Soma.Lib.Checked
import Soma.Lib.Program

/-! # Placing one secret

The host places a secret by bounded filesystem requests over the session it authenticated. The guest is not
trusted: the host is a program that goes on with whatever it is answered, and what it may send depends only on
the exchanges so far.
-/

namespace Soma.Guest

open Soma.Codec Soma.Lib

def MAX_BODY_SIZE : ℕ := MAX_RECORD_PAYLOAD - Frame.HEADER_SIZE

/-- What a body has left beside the largest path, as far as the length of a field can say. -/
def MAX_CHUNK_BYTES : ℕ := min (MAX_BODY_SIZE - MAX_PATH_BYTES - 32) (2 ^ 16 - 1)

def MAX_SECRET_BYTES : ℕ := 4096

def PRIVATE_CREATE_MODE : ℕ := 0o600

/-- The requests a placement makes. -/
inductive FileRequest where
  | makeDirectory (path : List UInt8) (parents : Bool)
  | create (path : List UInt8) (mode : ℕ)
  | write (path : List UInt8) (offset : ℕ) (create shorten : Bool) (bytes : List UInt8)
  | setMode (path : List UInt8) (mode : ℕ)
deriving DecidableEq

/-- A request is answered with an outcome, or the session ends. -/
abbrev Answer (_ : FileRequest) := Option FileOutcome

/-- A conversation of the host; `none` is a control error. -/
abbrev Session (α : Type) := Prog Answer (Option α)

/-- The outcome of writing a file. -/
inductive WholeFileWrite where
  | written
  | tooLarge
  | failed (failure : FileFailure)

/-- Writes the rest in bounded pieces. -/
def writeFrom (path : List UInt8) (offset : ℕ) (remaining : List UInt8) : Session WholeFileWrite :=
  let chunk := remaining.take MAX_CHUNK_BYTES
  let rest := remaining.drop MAX_CHUNK_BYTES
  .act (.write path offset (offset == 0) rest.isEmpty chunk) fun
    | some (.written written) =>
      if written.toNat ≠ chunk.length then .ret none
      else if _h : rest = [] then .ret (some .written)
      else writeFrom path (satAdd offset chunk.length) rest
    | some (.failed failure) => .ret (some (.failed failure))
    | _ => .ret none
termination_by remaining.length
decreasing_by
  have hlength := List.length_pos_of_ne_nil _h
  rw [List.length_drop] at hlength ⊢
  have : 0 < MAX_CHUNK_BYTES := by decide
  omega

def writeWholeFile (path bytes : List UInt8) (maximum : ℕ) : Session WholeFileWrite :=
  if maximum < bytes.length then .ret (some .tooLarge) else writeFrom path 0 bytes

/-- A secret and where it is placed. -/
structure SecretFile where
  path : List UInt8
  mode : ℕ
  value : List UInt8
  bounded : value ≠ [] ∧ value.length ≤ MAX_SECRET_BYTES
  owned : mode &&& 0o077 = 0 ∧ mode &&& 0o400 ≠ 0

/-- The step that was refused. -/
inductive SecretStage where
  | directory | create | write | mode

inductive SecretPlacement where
  | placed
  | refused (stage : SecretStage) (failure : FileFailure)

def refusal (stage : SecretStage) : FileOutcome → Option SecretPlacement
  | .done => none
  | .failed failure => some (.refused stage failure)
  | _ => some (.refused stage .failed)

/-- One step of a placement: goes on when the guest says that it is done. -/
def perform (request : FileRequest) (stage : SecretStage) (next : Session SecretPlacement) :
    Session SecretPlacement :=
  .act request fun answer => answer.elim (.ret none) fun outcome =>
    (refusal stage outcome).elim next fun refused => .ret (some refused)

variable (secret : SecretFile)

/-- The path up to its last separator, unless that is the root. -/
def SecretFile.parent : Option (List UInt8) :=
  match secret.path.reverse.dropWhile (· ≠ 0x2f) with
  | _ :: byte :: before => some (byte :: before).reverse
  | _ => none

/-- The value and the mode, once the file is there. -/
def fillSecret : Session SecretPlacement :=
  (writeWholeFile secret.path secret.value MAX_SECRET_BYTES).bind fun
    | none => .ret none
    | some .written => perform (.setMode secret.path secret.mode) .mode (.ret (some .placed))
    | some (.failed failure) => .ret (some (.refused .write failure))
    | some .tooLarge => .ret (some (.refused .write .failed))

/-- Creates, fills and protects the file. -/
def placeSecret : Session SecretPlacement :=
  let create := perform (.create secret.path PRIVATE_CREATE_MODE) .create (fillSecret secret)
  match secret.parent with
  | some parent => perform (.makeDirectory parent true) .directory create
  | none => create

/-! ## What the guest learns -/

/-- The bytes of files that were sent, in the order they were sent in. -/
def sent (past : History Answer) : List UInt8 :=
  past.flatMap fun | ⟨.write _ _ _ _ bytes, _⟩ => bytes | _ => []

/-- The guest says that the request was carried out. -/
def Succeeded : Sigma Answer → Prop
  | ⟨.write _ _ _ _ bytes, answer⟩ => ∃ written, answer = some (.written written) ∧ written.toNat = bytes.length
  | ⟨_, answer⟩ => answer = some .done

def created : Sigma Answer := ⟨.create secret.path PRIVATE_CREATE_MODE, some .done⟩

/-- Bytes go to the secret's file alone, once it was created for its owner: the next ones of the value, at the place
where the last ones ended. -/
def Private (past : History Answer) (request : FileRequest) : Prop :=
  ∀ path offset create shorten bytes, request = .write path offset create shorten bytes →
    created secret ∈ past ∧ path = secret.path ∧ offset = (sent past).length ∧ sent past ++ bytes <+: secret.value

/-- A host that remembers every exchange and sends only what is `Private`. -/
def discreet : Discipline Answer (History Answer) where
  idle := []
  next past request answer := some (past ++ [⟨request, answer⟩])
  obeys := Private secret

/-- Every exchange succeeded, and `remaining` is what they left of the value. -/
structure Partway (past : History Answer) (remaining : List UInt8) : Prop where
  succeeded : ∀ exchange ∈ past, Succeeded exchange
  value : sent past ++ remaining = secret.value

def Delivered (placement : Option SecretPlacement) (past : History Answer) : Prop :=
  placement = some .placed → Partway secret past [] ∧ created secret ∈ past
    ∧ ⟨.setMode secret.path secret.mode, some .done⟩ ∈ past

variable {secret} {past : History Answer} {remaining : List UInt8}

theorem Partway.exchange {exchange : Sigma Answer} {rest : List UInt8} (h : Partway secret past remaining)
    (hsucceeded : Succeeded exchange) (hrest : sent [exchange] ++ rest = remaining) :
    Partway secret (past ++ [exchange]) rest := by
  refine ⟨List.forall_mem_append.mpr ⟨h.succeeded, List.forall_mem_singleton.mpr hsucceeded⟩, ?_⟩
  rw [← h.value, ← hrest, ← List.append_assoc]
  simp [sent]

theorem perform_obeys {request : FileRequest} {stage : SecretStage} {next : Session SecretPlacement}
    (hrequest : Private secret past request)
    (hnext : next.Obeys (discreet secret) (Delivered secret) (past ++ [⟨request, some .done⟩])) :
    (perform request stage next).Obeys (discreet secret) (Delivered secret) past := by
  refine ⟨hrequest, ?_⟩
  rintro (_ | outcome) _ ⟨⟩
  · exact nofun
  · cases outcome with
    | done => exact hnext
    | _ => exact nofun

theorem writeFrom_obeys {offset : ℕ} (h : Partway secret past remaining) (hcreated : created secret ∈ past)
    (hoffset : offset + remaining.length = secret.value.length) :
    (writeFrom secret.path offset remaining).Obeys (discreet secret)
      (fun result past => result = some .written → Partway secret past [] ∧ created secret ∈ past) past := by
  induction hlength : remaining.length using Nat.strong_induction_on generalizing remaining past offset with
  | _ n ih =>
  have hsplit := List.take_append_drop MAX_CHUNK_BYTES remaining
  unfold writeFrom
  refine ⟨?_, ?_⟩
  · rintro _ _ _ _ _ ⟨⟩
    refine ⟨hcreated, rfl, ?_, remaining.drop MAX_CHUNK_BYTES, by rw [List.append_assoc, hsplit, h.value]⟩
    rw [← h.value, List.length_append] at hoffset
    exact Nat.add_right_cancel hoffset
  · rintro (_ | outcome) past' hpast'
    · exact nofun
    cases outcome with
    | written written =>
      dsimp only
      split_ifs with hcount hrest
      · exact nofun
      all_goals
        have hnext : Partway secret past' (remaining.drop MAX_CHUNK_BYTES) ∧ created secret ∈ past' := by
          cases hpast'
          exact ⟨h.exchange ⟨written, rfl, not_not.mp hcount⟩ (by simp [sent]), List.mem_append_left _ hcreated⟩
      · exact fun _ => hrest ▸ hnext
      · have hpos := List.length_pos_of_ne_nil hrest
        have hchunk := congrArg List.length hsplit
        have htake := List.length_take (i := MAX_CHUNK_BYTES) (l := remaining)
        have hmax : 0 < MAX_CHUNK_BYTES := by decide
        have hbound := secret.bounded.2
        rw [List.length_append] at hchunk
        -- the value is short, so that the offset is not clamped
        rw [satAdd_eq (by simp only [MAX_SECRET_BYTES, wordMax] at *; omega)]
        exact ih _ (by omega) hnext.1 hnext.2 (by omega) rfl
    | _ => exact nofun

/-- Whatever the guest answers, no byte of the value is sent before the guest said that it created the file for its
owner alone, the bytes are sent to that file once and in order, and a secret is placed only if every step was
answered with success. -/
theorem placeSecret_private (secret : SecretFile) :
    (placeSecret secret).Obeys (discreet secret) (Delivered secret) [] := by
  -- the directory was made, or needs not be
  have hcreate {past : History Answer} (h : Partway secret past secret.value) :
      (perform (.create secret.path PRIVATE_CREATE_MODE) .create (fillSecret secret)).Obeys (discreet secret)
        (Delivered secret) past := by
    have hcreated : Partway secret (past ++ [created secret]) secret.value := h.exchange rfl rfl
    refine perform_obeys nofun ?_
    unfold fillSecret writeWholeFile
    rw [if_neg (Nat.not_lt.mpr secret.bounded.2)]
    refine (writeFrom_obeys hcreated (by simp) (Nat.zero_add _)).bind ?_
    rintro (_ | _ | _ | failure) past' hstored
    · exact nofun
    · obtain ⟨hpartway, hmem⟩ := hstored rfl
      exact perform_obeys nofun fun _ => ⟨hpartway.exchange rfl rfl, by simp [hmem]⟩
    all_goals exact nofun
  have hidle : Partway secret [] secret.value := ⟨nofun, rfl⟩
  unfold placeSecret
  dsimp only
  split
  · exact perform_obeys nofun (hcreate (hidle.exchange rfl rfl))
  · exact hcreate hidle

end Soma.Guest
