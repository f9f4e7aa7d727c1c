import Soma.Template.Schema

/-! # Parsing

Bytes to a shape-checked document. The TOML parser is outside the repository and enters as a function to
tables; over them runs the reader that claims the keys it was asked for and refuses the rest.

* `parseTemplate_bounded`: what a parsed document carries is within the bounds of its fields.
-/

namespace Soma.Template

open Soma.Lib Soma.Codec Soma.Text

/-! ## Tables -/

/-- A TOML value; what the document never uses is one case. -/
inductive Value where
  | string (value : String)
  | integer (value : Int64)
  | boolean (value : Bool)
  | array (items : List Value)
  | table (entries : List (String × Value))
  | other

abbrev Table := List (String × Value)

/-- The TOML parser: a table, or the message of a failure. -/
class TomlParser where
  parse : String → Except String Table

/-- Why a document does not parse. -/
inductive ParseError where
  | oversized (length maximum : ℕ)
  | notUtf8
  | syntaxError (message : String)
  | unsupportedSchema (found : String)
  | missingField (field : String)
  | unknownField (field : String)
  | wrongType (field expected : String)
  | invalidValue (field reason : String)
  | bound (error : BoundError)
deriving DecidableEq

/-- A table with its path and the keys consumed so far. -/
structure TableReader where
  entries : Table
  path : String
  claimed : List String

abbrev TableM := StateT TableReader (Except ParseError)

/-- A check that reads nothing from the table. -/
def attempt {α : Type} (x : Except ParseError α) : TableM α :=
  StateT.lift x

namespace TableReader

def new (table : Table) (path : String) : TableReader := ⟨table, path, []⟩

def fieldOf (reader : TableReader) (key : String) : String :=
  if reader.path.toList.isEmpty then key else reader.path ++ "." ++ key

variable (key : String)

def field : TableM String := do
  return (← get).fieldOf key

def claim : TableM (Option Value) := do
  let reader ← get
  match reader.entries.find? fun entry => entry.1 == key with
  | none => return none
  | some (stored, value) =>
    set { reader with claimed := stored :: reader.claimed }
    return some value

def boundedRule (field value : String) : Except ParseError Unit := do
  ensure (value.utf8ByteSize ≤ MAX_STRING_BYTES) (.bound (.tooLong field MAX_STRING_BYTES))
  ensure (hasNul value = false) (.bound (.forbiddenCharacter field))

/-- A text within its bound and without NUL. -/
def boundedText (field value : String) : TableM String := do
  attempt (boundedRule field value)
  return value

def optionalString : TableM (Option String) := do
  let field ← field key
  match ← claim key with
  | none => return none
  | some (.string value) => return some (← boundedText field value)
  | some _ => throw (.wrongType field "a string")

/-- A value that must be there. -/
def required {α : Type} (key : String) (m : TableM (Option α)) : TableM α := do
  match ← m with
  | some value => return value
  | none => throw (.missingField (← field key))

def string : TableM String :=
  required key (optionalString key)

def optionalU64 : TableM (Option U64) := do
  let field ← field key
  match ← claim key with
  | none => return none
  | some (.integer value) =>
    if 0 ≤ value then return some value.toBitVec
    else throw (.wrongType field "a non-negative integer")
  | some _ => throw (.wrongType field "a non-negative integer")

def optionalU32 : TableM (Option U32) := do
  let field ← field key
  match ← optionalU64 key with
  | none => return none
  | some value =>
    if value.toNat < 2 ^ 32 then return some (value.setWidth 32)
    else throw (.wrongType field "an integer between 0 and 4294967295")

def optionalBool : TableM (Option Bool) := do
  let field ← field key
  match ← claim key with
  | none => return none
  | some (.boolean value) => return some value
  | some _ => throw (.wrongType field "a boolean")

/-- An optional array within a bound; each item is read with the field that names it. -/
def items {α : Type} (key expected : String) (maximum : ℕ) (item : String → Value → TableM α) :
    TableM (List α) := do
  let field ← field key
  match ← claim key with
  | none => return []
  | some (.array values) =>
    if maximum < values.length then throw (.bound (.tooMany field maximum))
    else values.zipIdx.mapM fun (value, index) => item s!"{field}[{index}]" value
  | some _ => throw (.wrongType field expected)

def stringItem (field : String) : Value → TableM String
  | .string text => boundedText field text
  | _ => throw (.wrongType field "a string")

def strings (key : String) (maximum : ℕ) : TableM (List String) :=
  items key "an array of strings" maximum stringItem

def optionalTable : TableM (Option TableReader) := do
  let field ← field key
  match ← claim key with
  | none => return none
  | some (.table table) => return some (new table field)
  | some _ => throw (.wrongType field "a table")

def table : TableM TableReader :=
  required key (optionalTable key)

def tableItem (field : String) : Value → TableM TableReader
  | .table table => return new table field
  | _ => throw (.wrongType field "a table")

def tables (key : String) (maximum : ℕ) : TableM (List TableReader) :=
  items key "an array of tables" maximum tableItem

/-- Refuses the first key that was not consumed. -/
def finish : TableM Unit := do
  let reader ← get
  attempt (reader.entries.forM fun (key, _) =>
    ensure (key ∈ reader.claimed) (.unknownField (reader.fieldOf key)))

/-- Runs on a table of its own. -/
def within {α : Type} (m : TableM α) (reader : TableReader) : TableM α := do
  let (value, _) ← attempt (m reader)
  return value

end TableReader

/-! ## The document -/

open TableReader

variable {α : Type}

def choice (key expected : String) : TableM α := do
  throw (.invalidValue (← field key) ("expected " ++ expected))

def platform (text : String) : Option OciPlatform :=
  match text.toList.splitOn '/' with
  | [operatingSystem, architecture] =>
    (OciPlatform.new (String.ofList operatingSystem) (String.ofList architecture) none).toOption
  | [operatingSystem, architecture, variant] =>
    (OciPlatform.new (String.ofList operatingSystem) (String.ofList architecture)
      (some (String.ofList variant))).toOption
  | _ => none

def parseWorkload : TableM Workload := do
  let imageField ← field "image"
  let text ← string "image"
  let image ← attempt ((OciImage.parse text).mapError fun _ =>
    .invalidValue imageField "not a bounded OCI image reference")
  let platformField ← field "platform"
  let text ← string "platform"
  let platform ← attempt (okOr (platform text)
    (.invalidValue platformField "expected <os>/<architecture> or <os>/<architecture>/<variant>"))
  finish
  return { image, platform }

def parseModules : TableM (List ModuleRef) := do
  let field ← field "modules"
  let texts ← strings "modules" MAX_MODULES
  texts.zipIdx.mapM fun (text, index) =>
    attempt ((ModuleRef.parse text).mapError fun error =>
      .invalidValue s!"{field}[{index}]" error.display)

def liftBound (x : Except BoundError α) : TableM α :=
  attempt (x.mapError .bound)

def parseCommand : TableM Command := do
  let program ← string "program"
  let args ← strings "args" MAX_ARGUMENTS
  let workingDirectory ← optionalString "working_directory"
  let user ← optionalString "user"
  finish
  let command ← liftBound (Command.new program args)
  let command ← liftBound (workingDirectory.elim (.ok command) command.withWorkingDirectory)
  liftBound (user.elim (.ok command) command.withUser)

def parseResources : TableM Resources := do
  let vcpus := (← optionalU32 "vcpus").getD Resources.default.vcpus
  let memoryMib := (← optionalU64 "memory_mib").getD Resources.default.memoryMib
  let writableStorageMib :=
    (← optionalU64 "writable_storage_mib").getD Resources.default.writableStorageMib
  finish
  return { vcpus, memoryMib, writableStorageMib }

def parseEgress : TableM EgressIntent := do
  match ← optionalString "egress" with
  | none => return .deny
  | some "deny" => return .deny
  | some "allowlist" => return .allowlist
  | some "unrestricted" => return .unrestricted
  | some _ => choice "egress" "deny, allowlist, or unrestricted"

def parseIngress : TableM IngressIntent := do
  match ← optionalString "ingress" with
  | none => return .deny
  | some "deny" => return .deny
  | some "unrestricted" => return .unrestricted
  | some _ => choice "ingress" "deny or unrestricted"

def parseNetwork : TableM Network := do
  let egress ← parseEgress
  let allowDomains ← strings "allow_domains" MAX_DOMAINS
  let allowCidrs ← strings "allow_cidrs" MAX_CIDRS
  let ingress ← parseIngress
  finish
  return { egress, allowDomains, allowCidrs, ingress }

def parseOnIdle : TableM IdleAction := do
  match ← optionalString "on_idle" with
  | none => return Lifecycle.default.onIdle
  | some "destroy" => return .destroy
  | some "stop" => return .stop
  | some "checkpoint" => return .checkpoint
  | some _ => choice "on_idle" "destroy, stop, or checkpoint"

def parseLifecycle : TableM Lifecycle := do
  let idleTimeoutSeconds :=
    (← optionalU64 "idle_timeout_seconds").getD Lifecycle.default.idleTimeoutSeconds
  let maximumLifetimeSeconds :=
    (← optionalU64 "maximum_lifetime_seconds").getD Lifecycle.default.maximumLifetimeSeconds
  let onIdle ← parseOnIdle
  finish
  return { idleTimeoutSeconds, maximumLifetimeSeconds, onIdle }

def parseEntry : TableM EnvironmentEntry := do
  let name ← string "name"
  let value ← optionalString "value"
  let isRequired := (← optionalBool "required").getD false
  let valueField ← field "value"
  finish
  if value.isSome == isRequired then
    throw (.invalidValue valueField "declare exactly one of `value` or `required = true`")
  else return { name, value }

def parseDelivery : TableM SecretDelivery := do
  match ← string "delivery" with
  | "environment" => return .environment
  | "file" => return .file
  | "egress-proxy" => return .egressProxy
  | _ => choice "delivery" "environment, file, or egress-proxy"

def parseSecret : TableM SecretReference := do
  let name ← string "name"
  let source ← string "source"
  let delivery ← parseDelivery
  let scope ← optionalString "scope"
  let mode ← optionalU32 "mode"
  finish
  return { name, source, delivery, scope, mode }

/-- Entries that are tables of their own. -/
def parseAll (key : String) (maximum : ℕ) (m : TableM α) : TableM (List α) := do
  let readers ← tables key maximum
  readers.mapM (within m)

/-- A table that may be absent, with what stands for it then. -/
def parseOptional (key : String) (m : TableM α) (absent : α) : TableM α := do
  match ← optionalTable key with
  | some reader => within m reader
  | none => return absent

def nameBounds (name : String) : Except ParseError Unit := do
  ensure (name.toList.isEmpty = false) (.bound (.empty "name"))
  ensure (name.utf8ByteSize ≤ MAX_NAME_BYTES) (.bound (.tooLong "name" MAX_NAME_BYTES))
  ensure (name.toList.any isAsciiControl = false) (.bound (.forbiddenCharacter "name"))

def parseDocument : TableM Template := do
  let schema ← string "schema"
  attempt (ensure (schema = SCHEMA) (.unsupportedSchema schema))
  let name ← string "name"
  attempt (nameBounds name)
  let description ← optionalString "description"
  let workload ← within parseWorkload (← table "workload")
  let modules ← parseModules
  let command ← parseOptional "command" (some <$> parseCommand) none
  let resources ← parseOptional "resources" parseResources Resources.default
  let network ← parseOptional "network" parseNetwork Network.default
  let lifecycle ← parseOptional "lifecycle" parseLifecycle Lifecycle.default
  let environment ← parseAll "environment" MAX_ENVIRONMENT parseEntry
  let secrets ← parseAll "secrets" MAX_SECRETS parseSecret
  finish
  return { name, description, workload, modules, command, resources, network, lifecycle, environment,
           secrets }

def parseTemplate [TomlParser] (document : List UInt8) : Except ParseError Template := do
  ensure (document.length ≤ MAX_DOCUMENT_BYTES) (.oversized document.length MAX_DOCUMENT_BYTES)
  let text ← okOr (Text.ofBytes document) .notUtf8
  let table ← (TomlParser.parse text).mapError .syntaxError
  let (template, _) ← parseDocument (new table "")
  return template

/-! ## Bounds of what was parsed -/

/-- Every value a reader returns has a property. -/
def Returns (m : TableM α) (P : α → Prop) : Prop :=
  ∀ reader value rest, m reader = .ok (value, rest) → P value

namespace Returns

variable {α β : Type} {P : α → Prop} {Q : β → Prop}

protected theorem pure {a : α} (h : P a) : Returns (pure a) P := by
  intro reader value rest hrun
  cases hrun
  exact h

variable {m : TableM α} {f : α → TableM β}

protected theorem bind (hm : Returns m P) (hf : ∀ a, P a → Returns (f a) Q) : Returns (m >>= f) Q := by
  intro reader value rest hrun
  obtain ⟨⟨a, mid⟩, ha, hrun⟩ := bind_eq_ok.mp hrun
  exact hf a (hm reader a mid ha) mid value rest hrun

theorem skip (hf : ∀ a, Returns (f a) Q) : Returns (m >>= f) Q :=
  Returns.bind (P := fun _ => True) (fun _ _ _ _ => trivial) fun a _ => hf a

theorem throw {e : ParseError} : Returns (MonadExcept.throw e : TableM α) P := by
  intro reader value rest hrun
  cases hrun

theorem attempt {x : Except ParseError α} (h : ∀ a, x = .ok a → P a) : Returns (Soma.Template.attempt x) P := by
  intro reader value rest hrun
  obtain ⟨a, ha, hrun⟩ := bind_eq_ok.mp hrun
  cases hrun
  exact h _ ha

theorem imp {P' : α → Prop} (hm : Returns m P) (h : ∀ a, P a → P' a) : Returns m P' :=
  fun reader value rest hrun => h value (hm reader value rest hrun)

theorem mapM {γ : Type} {f : γ → TableM α} {xs : List γ} (hf : ∀ x, Returns (f x) P) :
    Returns (xs.mapM f) (fun ys => ys.length = xs.length ∧ ∀ y ∈ ys, P y) := by
  induction xs with
  | nil => exact Returns.pure ⟨rfl, by simp⟩
  | cons x xs ih =>
    rw [List.mapM_cons]
    refine (hf x).bind fun y hy => ih.bind fun ys hys => Returns.pure ?_
    exact ⟨congrArg (· + 1) hys.1, List.forall_mem_cons.mpr ⟨hy, hys.2⟩⟩

theorem within {reader : TableReader} (hm : Returns m P) : Returns (TableReader.within m reader) P := by
  refine Returns.bind (P := fun p => P p.1) (.attempt ?_) fun p hp => Returns.pure hp
  rintro ⟨value, rest⟩ hrun
  exact hm reader value rest hrun

end Returns

open Returns

namespace TableReader

/-- Texts of the document: bounded and free of NUL. -/
def Fits (text : String) : Prop :=
  text.utf8ByteSize ≤ MAX_STRING_BYTES ∧ hasNul text = false

theorem boundedText_returns (field value : String) : Returns (boundedText field value) Fits := by
  refine Returns.bind (P := fun _ => Fits value) (.attempt ?_) fun _ h => Returns.pure h
  rintro ⟨⟩ h
  obtain ⟨hlength, hnul⟩ := seq_eq_ok.mp h
  exact ⟨ensure_eq_ok.mp hlength, ensure_eq_ok.mp hnul⟩

theorem optionalString_returns (key : String) :
    Returns (optionalString key) (fun value => ∀ text ∈ value, Fits text) := by
  refine Returns.skip fun field => Returns.skip fun value => ?_
  split
  · exact Returns.pure (by simp)
  · refine (boundedText_returns _ _).bind fun text h => Returns.pure ?_
    intro t ht
    cases ht
    exact h
  · exact throw

variable {α : Type} {key : String}

theorem required_returns {m : TableM (Option α)} {P : α → Prop} (h : Returns m fun value => ∀ a ∈ value, P a) :
    Returns (required key m) P := by
  refine h.bind fun value hvalue => ?_
  split
  · exact Returns.pure (hvalue _ rfl)
  · exact skip fun _ => throw

theorem string_returns (key : String) : Returns (string key) Fits :=
  required_returns (optionalString_returns key)

theorem items_returns {expected : String} {maximum : ℕ} {item : String → Value → TableM α} {P : α → Prop}
    (h : ∀ field value, Returns (item field value) P) :
    Returns (items key expected maximum item)
      (fun values => values.length ≤ maximum ∧ ∀ value ∈ values, P value) := by
  refine skip fun field => skip fun value => ?_
  split
  · exact Returns.pure ⟨Nat.zero_le _, by simp⟩
  · split_ifs with hcount
    · exact throw
    · refine (mapM fun x => h _ _).imp fun values hvalues => ⟨?_, hvalues.2⟩
      rw [hvalues.1, List.length_zipIdx]
      exact Nat.not_lt.mp hcount
  · exact throw

theorem strings_returns (key : String) (maximum : ℕ) :
    Returns (strings key maximum)
      (fun values => values.length ≤ maximum ∧ ∀ value ∈ values, Fits value) := by
  refine items_returns fun field value => ?_
  unfold stringItem
  split
  · exact boundedText_returns _ _
  · exact throw

end TableReader

theorem parseAll_returns {α : Type} {key : String} {maximum : ℕ} {m : TableM α} {P : α → Prop} (h : Returns m P) :
    Returns (parseAll key maximum m)
      (fun values => values.length ≤ maximum ∧ ∀ value ∈ values, P value) := by
  have htables : Returns (tables key maximum) (fun readers => readers.length ≤ maximum) :=
    (items_returns (P := fun _ => True) fun _ _ _ _ _ _ => trivial).imp fun _ h => h.1
  refine htables.bind fun readers hreaders => ?_
  refine (mapM fun reader => h.within).imp fun values hvalues => ⟨?_, hvalues.2⟩
  rw [hvalues.1]
  exact hreaders

theorem parseOptional_returns {α : Type} {key : String} {m : TableM α} {absent : α} {P : α → Prop} (h : Returns m P)
    (habsent : P absent) : Returns (parseOptional key m absent) P := by
  refine skip fun reader => ?_
  split
  · exact h.within
  · exact Returns.pure habsent

/-- The bounds a parsed network intent keeps. -/
def Network.Bounded (network : Network) : Prop :=
  network.allowDomains.length ≤ MAX_DOMAINS ∧ network.allowCidrs.length ≤ MAX_CIDRS

theorem parseNetwork_returns : Returns parseNetwork Network.Bounded := by
  refine skip fun egress => ?_
  refine (strings_returns _ _).bind fun domains hdomains => ?_
  refine (strings_returns _ _).bind fun cidrs hcidrs => ?_
  refine skip fun ingress => skip fun _ => ?_
  exact Returns.pure ⟨hdomains.1, hcidrs.1⟩

theorem parseEntry_returns : Returns parseEntry (fun entry => ∀ value ∈ entry.value, Fits value) := by
  refine skip fun name => ?_
  refine (optionalString_returns _).bind fun value hvalue => ?_
  refine skip fun _ => skip fun _ => skip fun _ => ?_
  split_ifs
  · exact throw
  · exact Returns.pure hvalue

theorem parseSecret_returns : Returns parseSecret (fun secret => Fits secret.source) := by
  refine skip fun name => ?_
  refine (string_returns _).bind fun source hsource => ?_
  refine skip fun _ => skip fun _ => skip fun _ => skip fun _ => ?_
  exact Returns.pure hsource

/-- The bounds of a parsed document that no later check repeats. -/
structure DocumentBounds (template : Template) : Prop where
  network : template.network.Bounded
  environment : ∀ entry ∈ template.environment, ∀ value ∈ entry.value, Fits value
  secrets : template.secrets.length ≤ MAX_SECRETS ∧ ∀ secret ∈ template.secrets, Fits secret.source

theorem parseDocument_returns : Returns parseDocument DocumentBounds := by
  refine skip fun _ => skip fun _ => skip fun _ => skip fun _ => ?_
  refine skip fun _ => skip fun _ => skip fun _ => skip fun _ => ?_
  refine skip fun _ => skip fun _ => ?_
  refine (parseOptional_returns parseNetwork_returns ⟨Nat.zero_le _, Nat.zero_le _⟩).bind fun network hnetwork => ?_
  refine skip fun _ => ?_
  refine (parseAll_returns parseEntry_returns).bind fun environment henvironment => ?_
  refine (parseAll_returns parseSecret_returns).bind fun secrets hsecrets => ?_
  exact Returns.skip fun _ => Returns.pure ⟨hnetwork, henvironment.2, hsecrets⟩

theorem parseTemplate_bounded [TomlParser] {document : List UInt8} {template : Template}
    (h : parseTemplate document = .ok template) : DocumentBounds template := by
  obtain ⟨-, h⟩ := seq_eq_ok.mp h
  obtain ⟨text, -, h⟩ := bind_eq_ok.mp h
  obtain ⟨table, -, h⟩ := bind_eq_ok.mp h
  obtain ⟨⟨parsed, rest⟩, hparsed, h⟩ := bind_eq_ok.mp h
  cases h
  exact parseDocument_returns _ _ _ hparsed

end Soma.Template
