import Soma.Template.Compose
import Soma.Template.Lock

/-! # Validation

The checks of a composed Template against the external inputs, in their fixed order, and what each of
them accepts. The loops over environment entries and secrets compare an element with those before it; by
`environment_eq_ok` and `secrets_eq_ok` they accept by conditions in which the order plays no part.
-/

namespace Soma.Template

open Soma.Lib Soma.Codec Soma.Text GuestPath

/-- An infrastructure failure while a filesystem question was answered. -/
structure OracleError where
  detail : String

/-- Whether the resolved base filesystem provides an executable. -/
abbrev FilesystemOracle := ResolvedImage → String → Except OracleError Bool

namespace Validate

variable (field : String)

def invalid (reason : InvalidReason) : Rejection :=
  .invalidValue none field reason

def literal (field name : String) : Rejection :=
  .secretLiteral none field name

/-! ## Checks -/

variable (template : Template) (composition : Composition) (backend : BackendCapabilities)

def platforms :
    Except Rejection Unit := do
  ensure (backend.supportsPlatform template.workload.platform)
    (.unsupportedPlatform none "workload.platform" (platformKey template.workload.platform))
  composition.modules.forM fun spec =>
    ensure (template.workload.platform ∈ spec.1.platforms)
      (.unsupportedPlatform (some spec.identity) "platforms" (platformKey template.workload.platform))

def bounded (value maximum : U64) : Except Rejection Unit :=
  ensure (value ≤ maximum) (invalid field (.exceedsMaximum maximum))

def dimension (value maximum : U64) : Except Rejection Unit := do
  ensure (value ≠ 0) (invalid field .zero)
  bounded field value maximum

/-- The largest number of processors: a limit of the Backend, never above sixteen bits. -/
def maxVcpus (limits : ResourceLimits) : U64 :=
  BitVec.ofNat 64 (min limits.maxVcpus.toNat (2 ^ 16 - 1))

/-- A Machine without a writable disk is accepted, one without processors or memory is not. -/
def resources : Except Rejection Unit := do
  dimension "resources.vcpus" (template.resources.vcpus.setWidth 64) (maxVcpus backend.limits)
  dimension "resources.memory_mib" template.resources.memoryMib backend.limits.maxMemoryMib
  bounded "resources.writable_storage_mib" template.resources.writableStorageMib
    backend.limits.maxWritableStorageMib

def lifecycle : Except Rejection Unit := do
  (timeout template.lifecycle.idleTimeoutSeconds).mapError (invalid "lifecycle.idle_timeout_seconds")
  (timeout template.lifecycle.maximumLifetimeSeconds).mapError
    (invalid "lifecycle.maximum_lifetime_seconds")
  ensure (template.lifecycle.idleTimeoutSeconds ≤ template.lifecycle.maximumLifetimeSeconds)
    (invalid "lifecycle.idle_timeout_seconds" .timeoutOrdering)
  ensure (backend.supportsIdleAction template.lifecycle.onIdle)
    (.unsupportedLifecycleAction "lifecycle.on_idle" template.lifecycle.onIdle.asStr)

/-- A credential in a committed field is refused, also where the field is no content. -/
def noSecret (value : String) (field name : String) : Except Rejection Unit :=
  ensure (embeddedSecret value.toList = false) (literal field name)

def description : Except Rejection Unit :=
  forSome template.description fun text => noSecret text "description" "description"

/-- The command with its defaults, shape-checked and free of credentials. -/
def command (command : Command) : Except Rejection LockedCommand := do
  ensure (command.program.1.toList.any isAsciiControl = false)
    (invalid "command.program" .forbiddenCharacter)
  let workingDirectory ← (absolutePath
    (command.workingDirectory.elim DEFAULT_WORKING_DIRECTORY Subtype.val)).mapError
      (invalid "command.working_directory")
  (user (command.user.elim DEFAULT_USER Subtype.val)).mapError (invalid "command.user")
  noSecret command.program.1 "command.program" "program"
  forIdx command.args.1 fun index argument => noSecret argument s!"command.args[{index}]" "args"
  noSecret workingDirectory.1 "command.working_directory" "working_directory"
  noSecret (command.user.elim DEFAULT_USER Subtype.val) "command.user" "user"
  return {
    program := command.program.1
    args := command.args.1
    workingDirectory := workingDirectory.1
    user := command.user.elim DEFAULT_USER Subtype.val }

/-- A literal under a name a module declares secret, with the shape of a credential, or under a name
that conventionally carries one. -/
def environmentLiteral (modules : List ModuleSpec) (name value : String) : Bool :=
  (modules.any fun spec => spec.1.secretEnvironment.any fun secret => secret.1 == name)
    || embeddedSecret value.toList || (secretName name && !trivialValue value)

def probeRule : Option HealthProbe → Except (String × InvalidReason) Unit
  | some (.tcp value) => (port value).mapError fun reason => ("health_probe.port", reason)
  | some (.command _ _ timeoutSeconds) => (timeout (timeoutSeconds.setWidth 64)).mapError fun reason =>
      ("health_probe.timeout_seconds", reason)
  | none => .ok ()

def moduleValues (modules : List ModuleSpec) (spec : ModuleSpec) : Except Rejection Unit := do
  forIdx spec.1.destinations fun index destination =>
    (do domain destination.host; port destination.port).mapError fun reason =>
      .invalidValue (some spec.identity) s!"destinations[{index}]" reason
  (probeRule spec.1.healthProbe).mapError fun (field, reason) =>
    .invalidValue (some spec.identity) field reason
  forIdx spec.1.sealedEnvironment fun index (name, value) =>
    ensure (environmentLiteral modules name.1 value = false)
      (.secretLiteral (some spec.identity) s!"sealed_environment[{index}]" name.1)

variable (composition : Composition)

def modules : Except Rejection Unit :=
  composition.modules.forM (moduleValues composition.modules)

def provides (spec : ModuleSpec) (program : String) : Bool :=
  spec.1.executables.any fun path =>
    path.1 == program || (!program.toList.contains '/' && path.fileName == program.toList)

def executable (command : LockedCommand) (modules : List ModuleSpec) (image : ResolvedImage)
    (oracle : FilesystemOracle) : Except TemplateError Unit :=
  if modules.any fun spec => provides spec command.program then .ok ()
  else
    match oracle image command.program with
    | .error e => .error (.unavailable .filesystemOracle e.detail)
    | .ok true => .ok ()
    | .ok false => .error (.rejected (.executableAbsent "command.program" command.program))

/-! ## Environment -/

def isSealed (name : String) : Bool :=
  composition.sealed.any fun s => s.name.1 == name

/-- One Template entry: what it adds, which is nothing under a sealed name. -/
def environmentEntry (earlier : List (EnvironmentEntry × Option LockedEnvironment)) (entry : EnvironmentEntry) :
    Except Rejection (Option LockedEnvironment) := do
  (nameRule entry.name).mapError fun _ =>
    invalid s!"environment[{earlier.length}].name" .forbiddenCharacter
  ensure (entry.name ∉ earlier.map fun e => e.1.name)
    (invalid s!"environment[{earlier.length}].name" .duplicate)
  forSome entry.value fun value =>
    ensure (environmentLiteral composition.modules entry.name value = false)
      (literal s!"environment[{earlier.length}].value" entry.name)
  return if isSealed composition entry.name then none else some ⟨entry.name, entry.value, none⟩

/-- The effective environment: Template entries and every module seal, sorted by name. -/
def environment :
    Except Rejection (List LockedEnvironment) := do
  let entries ← collect (environmentEntry composition) [] template.environment
  let locked := entries.filterMap id ++ composition.sealed.map fun s =>
    ⟨s.name.1, some s.value, some s.module⟩
  ensure (locked.length ≤ MAX_LOCK_ENVIRONMENT)
    (invalid "environment" (.exceedsMaximum (BitVec.ofNat 64 MAX_LOCK_ENVIRONMENT)))
  return sortBy LockedEnvironment.name locked

/-! ## Secrets -/

variable (index : ℕ)

def scopeField : String := s!"secrets[{index}].scope"

variable (secret : SecretReference) (envelope : NetworkEnvelope)

def secretScope : Except Rejection String :=
  match secret.delivery, secret.scope with
  | .environment, none => .ok secret.name
  | .environment, some scope => do
    (nameRule scope).mapError fun _ => invalid (scopeField index) .forbiddenCharacter
    return scope
  | .file, none => .error (.secretWithoutScope (scopeField index) secret.name)
  | .egressProxy, none => .error (.secretWithoutScope (scopeField index) secret.name)
  | .file, some scope => do
    let path ← (absolutePath scope).mapError (invalid (scopeField index))
    return path.1
  | .egressProxy, some scope => do
    (domain scope).mapError (invalid (scopeField index))
    ensure (envelope.allowsDomain scope) (invalid (scopeField index) .destinationNotAllowed)
    return scope

def conflict (scope : String) (module : Option ModuleIdentity) : Rejection :=
  .conflictingDeliveryTarget module (scopeField index) scope

def overlaps (a b : GuestPath) : Bool :=
  b.contains a || a.contains b

/-- What owns the file of a path already: a composed module, or an earlier secret. -/
def fileTarget (scope : String) (modules : List ModuleSpec) (earlier : List LockedSecret) :
    Except Rejection Unit := do
  let path ← (absolutePath scope).mapError (invalid (scopeField index))
  modules.forM fun spec =>
    ensure (spec.1.ownedPaths.any (overlaps path) = false)
      (conflict index scope (some spec.identity))
  ensure (((earlier.filter fun secret => secret.delivery == .file).any fun secret =>
      (parse secret.scope).toOption.any (overlaps path)) = false)
    (conflict index scope none)

variable (delivery : SecretDelivery)

/-- The slot of a delivery, where the Template, a module or an earlier secret may own it. -/
def deliverySlot (scope : String) (modules : List ModuleSpec)
    (environment : List LockedEnvironment) (earlier : List LockedSecret) : Except Rejection Unit :=
  match delivery with
  | .environment =>
    match environment.find? fun entry => entry.name == scope with
    | some entry => .error (conflict index scope entry.sealedBy)
    | none => .ok ()
  | .file => fileTarget index scope modules earlier
  | .egressProxy => .ok ()

/-- Every delivery target is exclusive. -/
def deliveryTarget (scope : String) (modules : List ModuleSpec)
    (environment : List LockedEnvironment) (earlier : List LockedSecret) : Except Rejection Unit := do
  deliverySlot index delivery scope modules environment earlier
  ensure ((earlier.any fun secret => secret.delivery == delivery && secret.scope == scope) = false)
    (conflict index scope none)

def modeField : String := s!"secrets[{index}].mode"

def lockedMode : Except Rejection (Option U32) :=
  match secret.delivery, secret.mode with
  | .file, some mode => do
    (secretMode mode).mapError (invalid (modeField index))
    return some mode
  | .file, none => .ok (some DEFAULT_SECRET_FILE_MODE)
  | _, some _ => .error (invalid (modeField index) .invalidMode)
  | _, none => .ok none

def lockSecret (modules : List ModuleSpec) (envelope : NetworkEnvelope) (environment : List LockedEnvironment)
    (earlier : List (SecretReference × LockedSecret)) (secret : SecretReference) :
    Except Rejection LockedSecret := do
  (nameRule secret.name).mapError fun _ =>
    invalid s!"secrets[{earlier.length}].name" .forbiddenCharacter
  ensure (secret.name ∉ earlier.map fun e => e.1.name)
    (invalid s!"secrets[{earlier.length}].name" .duplicate)
  ensure (secretSource secret.source) (literal s!"secrets[{earlier.length}].source" secret.name)
  let scope ← secretScope earlier.length secret envelope
  noSecret scope (scopeField earlier.length) secret.name
  deliveryTarget earlier.length secret.delivery scope modules environment (earlier.map Prod.snd)
  let mode ← lockedMode earlier.length secret
  return { name := secret.name, source := secret.source, delivery := secret.delivery, scope, mode }

/-- The secret references, sorted by name, each with an exclusive delivery target. -/
def secrets
    (environment : List LockedEnvironment) : Except Rejection (List LockedSecret) := do
  let locked ← collect (lockSecret composition.modules envelope environment) [] template.secrets
  return sortBy LockedSecret.name locked

variable (environment : List LockedEnvironment) (secrets : List LockedSecret)

def provided (name : String) : Bool :=
  (environment.any fun entry => entry.name == name)
    || secrets.any fun secret => secret.delivery == .environment && secret.scope == name

def requiredEnvironment : Except Rejection Unit :=
  composition.modules.forM fun spec =>
    forIdx spec.1.requiredEnvironment fun index name =>
      ensure (provided environment secrets name.1)
        (.missingRequiredEnvironment spec.identity s!"required_environment[{index}]" name.1)

end Validate

/-- What validation adds to the composed selection. -/
structure Validated where
  command : LockedCommand
  network : NetworkEnvelope
  environment : List LockedEnvironment
  secrets : List LockedSecret

def rejecting {α : Type} (x : Except Rejection α) : Except TemplateError α :=
  x.mapError .rejected

open Validate in
def validateTemplate [AddressText] (template : Template) (composition : Composition) (image : ResolvedImage)
    (ceiling : PolicyCeiling) (backend : BackendCapabilities) (oracle : FilesystemOracle) :
    Except TemplateError Validated := do
  rejecting (platforms template composition backend)
  rejecting (resources template backend)
  rejecting (lifecycle template backend)
  rejecting (description template)
  let command ← rejecting (command composition.command)
  rejecting (modules composition)
  let environment ← rejecting (environment template composition)
  let network ← rejecting (envelope template.network ceiling)
  let secrets ← rejecting (secrets template composition network environment)
  rejecting (requiredEnvironment composition environment secrets)
  executable command composition.modules image oracle
  return { command, network, environment, secrets }

/-! ## What the checks accept -/

namespace Validate

variable {value : String}

theorem absolutePath_eq_ok {path : GuestPath} : absolutePath value = .ok path ↔ path.1 = value := by
  rw [← validate_eq_ok, absolutePath]
  change _ ↔ parse value = .ok path
  cases parse value with
  | ok p => simp
  | error e => cases e <;> simp

variable (composition : Composition) (entry : EnvironmentEntry)

/-- The rule on one Template entry. -/
def EntryRule : Prop :=
  nameRule entry.name = .ok ()
    ∧ ∀ value ∈ entry.value, environmentLiteral composition.modules entry.name value = false

/-- What one Template entry adds to the effective environment. -/
def lockEntry : Option LockedEnvironment :=
  if isSealed composition entry.name then none else some ⟨entry.name, entry.value, none⟩

variable {composition : Composition}

theorem environmentEntry_eq_ok {earlier : List (EnvironmentEntry × Option LockedEnvironment)}
    {entry : EnvironmentEntry} {locked : Option LockedEnvironment} :
    environmentEntry composition earlier entry = .ok locked ↔ EntryRule composition entry
      ∧ (∀ e ∈ earlier, e.1.name ≠ entry.name) ∧ locked = lockEntry composition entry := by
  rw [environmentEntry, seq_eq_ok, seq_eq_ok, seq_eq_ok, mapError_eq_ok, ensure_eq_ok, forSome_eq_ok]
  simp only [ensure_eq_ok, List.mem_map, not_exists, not_and, EntryRule, lockEntry, pure, Except.pure,
    Except.ok.injEq]
  constructor
  · rintro ⟨hname, hnew, hvalue, rfl⟩
    exact ⟨⟨hname, hvalue⟩, hnew, rfl⟩
  · rintro ⟨⟨hname, hvalue⟩, hnew, rfl⟩
    exact ⟨hname, hnew, hvalue, rfl⟩

/-- The entries and seals that make up the effective environment, in the order they are found. -/
def effective (entries : List EnvironmentEntry) (composition : Composition) : List LockedEnvironment :=
  entries.filterMap (lockEntry composition)
    ++ composition.sealed.map fun s => ⟨s.name.1, some s.value, some s.module⟩

theorem environment_eq_ok {template : Template} {locked : List LockedEnvironment} :
    environment template composition = .ok locked ↔
      (∀ entry ∈ template.environment, EntryRule composition entry)
        ∧ (template.environment.map EnvironmentEntry.name).Nodup
        ∧ (effective template.environment composition).length ≤ MAX_LOCK_ENVIRONMENT
        ∧ locked = sortBy LockedEnvironment.name (effective template.environment composition) := by
  have hcollect : ∀ entries, collect (environmentEntry composition) [] template.environment = .ok entries ↔
      (∀ entry ∈ template.environment, EntryRule composition entry)
        ∧ (template.environment.map EnvironmentEntry.name).Nodup
        ∧ entries = template.environment.map (lockEntry composition) := by
    intro entries
    rw [collect_eq_ok (P := EntryRule composition) (Q := fun a b => a.name ≠ b.name)
      (g := lockEntry composition) (fun _ _ _ _ _ => environmentEntry_eq_ok) (by simp), List.nodup_iff_pairwise_ne,
      List.pairwise_map]
    simp
  rw [environment, bind_eq_ok]
  simp only [hcollect]
  constructor
  · rintro ⟨_, ⟨hrules, hnames, rfl⟩, h⟩
    obtain ⟨hlength, h⟩ := seq_eq_ok.mp h
    rw [ensure_eq_ok, List.filterMap_map] at hlength
    rw [List.filterMap_map] at h
    cases h
    exact ⟨hrules, hnames, hlength, rfl⟩
  · rintro ⟨hrules, hnames, hlength, rfl⟩
    refine ⟨_, ⟨hrules, hnames, rfl⟩, ?_⟩
    rw [List.filterMap_map]
    exact seq_eq_ok.mpr ⟨ensure_eq_ok.mpr hlength, rfl⟩

variable (secret : SecretReference)

/-- The target of a secret: its scope, or its name where it states none. -/
def scopeOf : String :=
  secret.scope.getD secret.name

/-- The mode of a secret, with the default of a file. -/
def modeOf : Option U32 :=
  match secret.delivery with
  | .file => some (secret.mode.getD DEFAULT_SECRET_FILE_MODE)
  | _ => secret.mode

def locked : LockedSecret where
  name := secret.name
  source := secret.source
  delivery := secret.delivery
  scope := scopeOf secret
  mode := modeOf secret

/-- A target has the shape of its delivery; only an environment name may be left out. -/
def ScopeRule (envelope : NetworkEnvelope) (secret : SecretReference) : Prop :=
  match secret.delivery with
  | .environment => nameRule (scopeOf secret) = .ok ()
  | .file => secret.scope.isSome = true ∧ pathRule (scopeOf secret) = .ok ()
  | .egressProxy => secret.scope.isSome = true ∧ domain (scopeOf secret) = .ok ()
      ∧ envelope.allowsDomain (scopeOf secret) = true

def ModeRule : Prop :=
  match secret.delivery with
  | .file => secretMode (secret.mode.getD DEFAULT_SECRET_FILE_MODE) = .ok ()
  | _ => secret.mode = none

variable {ε : Type}

theorem checked_eq_ok {α : Type} {x : Except ε Unit} {a b : α} :
    (do x; return a : Except ε α) = .ok b ↔ x = .ok () ∧ b = a := by
  rw [seq_eq_ok]
  exact and_congr_right fun _ => Except.ok.injEq a b ▸ eq_comm

variable {scope : String}

theorem absolutePath_val_eq_ok {f : InvalidReason → ε} :
    (do let path ← (absolutePath value).mapError f; return path.1 : Except ε String) = .ok scope ↔
      pathRule value = .ok () ∧ scope = value := by
  simp only [bind_eq_ok, mapError_eq_ok, absolutePath_eq_ok]
  constructor
  · rintro ⟨path, rfl, h⟩
    cases h
    exact ⟨path.2, rfl⟩
  · rintro ⟨hrule, rfl⟩
    exact ⟨⟨scope, hrule⟩, rfl, rfl⟩

variable {envelope : NetworkEnvelope} {index : ℕ} {secret}

theorem secretScope_eq_ok (hname : nameRule secret.name = .ok ()) :
    secretScope index secret envelope = .ok scope ↔
      ScopeRule envelope secret ∧ scope = scopeOf secret := by
  unfold secretScope ScopeRule scopeOf
  cases secret.delivery with
  | environment =>
    cases secret.scope with
    | none => simp [hname, eq_comm]
    | some value => simp only [checked_eq_ok, mapError_eq_ok, Option.getD_some]
  | file =>
    cases secret.scope with
    | none => simp
    | some value => simp only [absolutePath_val_eq_ok, Option.isSome_some, true_and, Option.getD_some]
  | egressProxy =>
    cases secret.scope with
    | none => simp
    | some value =>
      rw [seq_eq_ok, checked_eq_ok, mapError_eq_ok, ensure_eq_ok]
      simp [and_assoc]

theorem lockedMode_eq_ok {mode : Option U32} :
    lockedMode index secret = .ok mode ↔ ModeRule secret ∧ mode = modeOf secret := by
  unfold lockedMode ModeRule modeOf
  have hdefault : secretMode DEFAULT_SECRET_FILE_MODE = .ok () := by decide
  cases secret.delivery with
  | environment | egressProxy => cases secret.mode <;> simp [eq_comm]
  | file =>
    cases secret.mode with
    | none => simp [hdefault, eq_comm]
    | some value => simp only [checked_eq_ok, mapError_eq_ok, Option.getD_some]

/-- Two secrets under one target. -/
def scopesOverlap (a b : String) : Bool :=
  match parse a, parse b with
  | .ok a, .ok b => overlaps a b
  | _, _ => false

theorem overlaps_comm (a b : GuestPath) : overlaps a b = overlaps b a :=
  Bool.or_comm _ _

theorem scopesOverlap_comm (a b : String) : scopesOverlap a b = scopesOverlap b a := by
  unfold scopesOverlap
  cases parse a <;> cases parse b <;> simp [overlaps_comm]

/-- Different targets: no shared scope under one delivery, and no file above or below another. -/
structure Exclusive (a b : LockedSecret) : Prop where
  scope : a.delivery = b.delivery → a.scope ≠ b.scope
  file : a.delivery = .file → b.delivery = .file → scopesOverlap a.scope b.scope = false

theorem Exclusive.symm {a b : LockedSecret} (h : Exclusive a b) : Exclusive b a where
  scope hd hs := h.scope hd.symm hs.symm
  file hb ha := scopesOverlap_comm b.scope a.scope ▸ h.file ha hb

/-- The target of a secret is not one of the Template's names or a module's files. -/
def Unowned (modules : List ModuleSpec) (environment : List LockedEnvironment) (secret : LockedSecret) :
    Prop :=
  match secret.delivery with
  | .environment => ∀ entry ∈ environment, entry.name ≠ secret.scope
  | .file => ∀ spec ∈ modules, ∀ path ∈ spec.1.ownedPaths, scopesOverlap secret.scope path.1 = false
  | .egressProxy => True

variable {modules : List ModuleSpec} {earlier : List LockedSecret}

theorem fileTarget_eq_ok (hscope : pathRule scope = .ok ()) :
    fileTarget index scope modules earlier = .ok () ↔
      (∀ spec ∈ modules, ∀ path ∈ spec.1.ownedPaths, scopesOverlap scope path.1 = false)
        ∧ ∀ e ∈ earlier, e.delivery = .file → scopesOverlap e.scope scope = false := by
  have hparse : parse scope = .ok ⟨scope, hscope⟩ := validate_val ⟨scope, hscope⟩
  have hpath : absolutePath scope = .ok ⟨scope, hscope⟩ := absolutePath_eq_ok.mpr rfl
  have howned : ∀ path : GuestPath, scopesOverlap scope path.1 = overlaps ⟨scope, hscope⟩ path := by
    intro path
    have hother : parse path.1 = .ok path := validate_val path
    rw [scopesOverlap, hparse, hother]
  have hearlier : ∀ other : String,
      (parse other).toOption.any (overlaps ⟨scope, hscope⟩) = scopesOverlap other scope := by
    intro other
    rw [scopesOverlap_comm, scopesOverlap, hparse]
    cases parse other <;> rfl
  rw [fileTarget, hpath]
  change (modules.forM _ >>= fun _ => ensure _ _) = _ ↔ _
  rw [seq_eq_ok, forM_eq_ok, ensure_eq_ok]
  simp [ensure_eq_ok, howned, hearlier]

variable {environment : List LockedEnvironment}

theorem deliveryTarget_eq_ok (index : ℕ) {secret : LockedSecret}
    (hscope : secret.delivery = .file → pathRule secret.scope = .ok ()) :
    deliveryTarget index secret.delivery secret.scope modules environment earlier = .ok () ↔
      Unowned modules environment secret ∧ ∀ e ∈ earlier, Exclusive e secret := by
  have hsame : (earlier.any fun e => e.delivery == secret.delivery && e.scope == secret.scope) = false ↔
      ∀ e ∈ earlier, e.delivery = secret.delivery → e.scope ≠ secret.scope := by
    simp [List.any_eq_false]
  have hscopes : secret.delivery ≠ .file →
      ∀ e : LockedSecret, (e.delivery = secret.delivery → e.scope ≠ secret.scope) ↔ Exclusive e secret :=
    fun hne e => ⟨fun h => ⟨h, fun _ hfile => absurd hfile hne⟩, Exclusive.scope⟩
  rw [deliveryTarget, seq_eq_ok, ensure_eq_ok, hsame]
  unfold deliverySlot Unowned
  cases hdelivery : secret.delivery with
  | environment =>
    have hfind : (match environment.find? fun entry => entry.name == secret.scope with
        | some entry => .error (conflict index secret.scope entry.sealedBy)
        | none => .ok () : Except Rejection Unit) = .ok ()
        ↔ ∀ entry ∈ environment, entry.name ≠ secret.scope := by
      cases h : environment.find? fun entry => entry.name == secret.scope with
      | none => simpa [List.find?_eq_none] using h
      | some entry =>
        have hname := List.find?_some h
        simp only [beq_iff_eq] at hname
        simp only [reduceCtorEq, false_iff, not_forall]
        exact ⟨entry, List.mem_of_find?_eq_some h, fun hne => hne hname⟩
    exact and_congr hfind (forall₂_congr fun e _ => hdelivery ▸ hscopes (by simp [hdelivery]) e)
  | file =>
    rw [fileTarget_eq_ok (hscope hdelivery), and_assoc]
    refine and_congr_right fun _ => ?_
    rw [← forall₂_and]
    refine forall₂_congr fun e _ => ?_
    exact ⟨fun h => ⟨hdelivery ▸ h.2, fun he _ => h.1 he⟩, fun h => ⟨fun he => h.file he hdelivery,
      hdelivery ▸ h.scope⟩⟩
  | egressProxy =>
    exact and_congr (by simp) (forall₂_congr fun e _ => hdelivery ▸ hscopes (by simp [hdelivery]) e)

/-- The rule on one secret reference, apart from the other secrets. -/
@[mk_iff]
structure SecretRule (modules : List ModuleSpec) (envelope : NetworkEnvelope) (environment : List LockedEnvironment)
    (secret : SecretReference) : Prop where
  name : nameRule secret.name = .ok ()
  source : secretSource secret.source = true
  scope : ScopeRule envelope secret
  literal : embeddedSecret (scopeOf secret).toList = false
  unowned : Unowned modules environment (locked secret)
  mode : ModeRule secret

/-- What two secrets of one Template must not share. -/
def Distinct (a b : SecretReference) : Prop :=
  a.name ≠ b.name ∧ Exclusive (locked a) (locked b)

theorem lockSecret_eq_ok {earlier : List (SecretReference × LockedSecret)} {result : LockedSecret}
    (hearlier : ∀ e ∈ earlier, e.2 = locked e.1) :
    lockSecret modules envelope environment earlier secret = .ok result ↔
      SecretRule modules envelope environment secret
        ∧ (∀ e ∈ earlier, Distinct e.1 secret) ∧ result = locked secret := by
  have hfile : ScopeRule envelope secret → (locked secret).delivery = .file →
      pathRule (locked secret).scope = .ok () := by
    intro hscope hdelivery
    change secret.delivery = .file at hdelivery
    simp only [ScopeRule, hdelivery] at hscope
    exact hscope.2
  have hexclusive : (∀ e ∈ earlier.map Prod.snd, Exclusive e (locked secret)) ↔
      ∀ e ∈ earlier, Exclusive (locked e.1) (locked secret) := by
    rw [List.forall_mem_map]
    exact forall₂_congr fun e he => by rw [hearlier e he]
  simp only [lockSecret, noSecret, bind_eq_ok, mapError_eq_ok, ensure_eq_ok, lockedMode_eq_ok,
    Unique.exists_iff, List.mem_map, not_exists, not_and]
  constructor
  · rintro ⟨hname, hnew, hsource, scope, hscope, hliteral, htarget, mode, ⟨hmode, rfl⟩, h⟩
    obtain ⟨hrule, rfl⟩ := (secretScope_eq_ok hname).mp hscope
    obtain ⟨hunowned, hothers⟩ := (deliveryTarget_eq_ok earlier.length (hfile hrule)).mp htarget
    cases h
    exact ⟨⟨hname, hsource, hrule, hliteral, hunowned, hmode⟩,
      fun e he => ⟨hnew e he, hexclusive.mp hothers e he⟩, rfl⟩
  · rintro ⟨⟨hname, hsource, hscope, hliteral, hunowned, hmode⟩, hothers, rfl⟩
    have htarget := (deliveryTarget_eq_ok earlier.length (hfile hscope)).mpr
      ⟨hunowned, hexclusive.mpr fun e he => (hothers e he).2⟩
    exact ⟨hname, fun e he => (hothers e he).1, hsource, scopeOf secret, (secretScope_eq_ok hname).mpr ⟨hscope, rfl⟩,
      hliteral, htarget, modeOf secret, ⟨hmode, rfl⟩, rfl⟩

theorem secrets_eq_ok {template : Template} {result : List LockedSecret} :
    secrets template composition envelope environment = .ok result ↔
      (∀ secret ∈ template.secrets, SecretRule composition.modules envelope environment secret)
        ∧ template.secrets.Pairwise Distinct
        ∧ result = sortBy LockedSecret.name (template.secrets.map locked) := by
  have hcollect : ∀ all,
      collect (lockSecret composition.modules envelope environment) [] template.secrets = .ok all ↔
        (∀ secret ∈ template.secrets, SecretRule composition.modules envelope environment secret)
          ∧ template.secrets.Pairwise Distinct ∧ all = template.secrets.map locked := by
    intro all
    rw [collect_eq_ok (P := SecretRule composition.modules envelope environment) (Q := Distinct)
      (g := locked) (fun _ h _ _ _ => lockSecret_eq_ok h) (by simp)]
    simp
  rw [secrets, bind_eq_ok]
  simp only [hcollect]
  constructor
  · rintro ⟨_, ⟨hrules, hpairs, rfl⟩, h⟩
    cases h
    exact ⟨hrules, hpairs, rfl⟩
  · rintro ⟨hrules, hpairs, rfl⟩
    exact ⟨_, ⟨hrules, hpairs, rfl⟩, rfl⟩

end Validate

end Soma.Template
