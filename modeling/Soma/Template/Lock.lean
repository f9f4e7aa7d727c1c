import Soma.Template.Backend
import Soma.Template.Module
import Soma.Template.Network

/-! # The Template Lock

The record resolution issues, its fixed-order bytes, and the decoder with the shape rules it applies to
what it read.

* `decode_eq_ok`: bytes are accepted exactly if they are the encoding of a lock that passes the rules.
-/

namespace Soma.Template

open Soma.Lib Soma.Codec Soma.Text Reader Writer

def LOCK_MAGIC : List UInt8 := bytes "SOMALOCK"
def LOCK_SCHEMA_VERSION : U16 := 1
def POLICY_VERSION : U16 := 1
def MAX_LOCK_MODULES : ℕ := MAX_REGISTRY_MODULES
def MAX_LOCK_ENVIRONMENT : ℕ := 4096

/-! ## Records -/

/-- A module by its digest. -/
structure LockedModule where
  identity : ModuleIdentity
  schemaVersion : U16
  digest : Bytes 32
deriving DecidableEq

/-- The effective default command with defaults applied. -/
structure LockedCommand where
  program : String
  args : List String
  workingDirectory : String
  user : String
deriving DecidableEq

/-- One effective environment slot: a literal, a name Launch supplies, or a value a module seals. -/
structure LockedEnvironment where
  name : String
  value : Option String
  sealedBy : Option ModuleIdentity
deriving DecidableEq

structure LockedSecret where
  name : String
  source : String
  delivery : SecretDelivery
  scope : String
  mode : Option U32
deriving DecidableEq

/-- The resolved, validated, canonical result of one Template. -/
structure TemplateLock [AddressText] where
  templateSchema : String
  policyVersion : U16
  contentDigest : Bytes 32
  image : ResolvedImage
  modules : List LockedModule
  command : LockedCommand
  resources : Resources
  network : NetworkEnvelope
  lifecycle : Lifecycle
  environment : List LockedEnvironment
  secrets : List LockedSecret
  ceiling : PolicyCeiling
  backend : BackendCapabilities
deriving DecidableEq

/-! ## Encoder -/

def putIdentity (identity : ModuleIdentity) : List UInt8 :=
  [identity.kind.code] ++ (putString identity.name ++ putWord identity.version)

def LockedModule.put (locked : LockedModule) : List UInt8 :=
  putIdentity locked.identity ++ (putWord locked.schemaVersion ++ locked.digest.1)

def LockedCommand.put (command : LockedCommand) : List UInt8 :=
  putString command.program ++ (putStrings command.args
    ++ (putString command.workingDirectory ++ putString command.user))

def Resources.put (resources : Resources) : List UInt8 :=
  putWord resources.vcpus ++ (putWord resources.memoryMib ++ putWord resources.writableStorageMib)

def Lifecycle.put (lifecycle : Lifecycle) : List UInt8 :=
  putWord lifecycle.idleTimeoutSeconds ++ (putWord lifecycle.maximumLifetimeSeconds
    ++ [lifecycle.onIdle.code])

def LockedEnvironment.put (entry : LockedEnvironment) : List UInt8 :=
  putString entry.name ++ (putOptionalString entry.value
    ++ putOptional putIdentity entry.sealedBy)

def LockedSecret.put (secret : LockedSecret) : List UInt8 :=
  putString secret.name ++ (putString secret.source ++ ([secret.delivery.code]
    ++ (putString secret.scope ++ putOptional putWord secret.mode)))

section

variable [AddressText]

def TemplateLock.encode (lock : TemplateLock) : List UInt8 :=
  LOCK_MAGIC ++ (putWord LOCK_SCHEMA_VERSION ++ (putString lock.templateSchema
    ++ (putWord lock.policyVersion ++ (lock.contentDigest.1 ++ (lock.image.encode
    ++ (putList LockedModule.put lock.modules ++ (lock.command.put ++ (lock.resources.put
    ++ (lock.network.encode ++ (lock.lifecycle.put
    ++ (putList LockedEnvironment.put lock.environment
    ++ (putList LockedSecret.put lock.secrets
    ++ (lock.ceiling.encode ++ lock.backend.encode)))))))))))))

end

/-! ## Decoder -/

namespace Decode

def identity (field : String) : Reader ModuleIdentity :=
  refine (do
    let kind ← choiceOf field ModuleKind.fromCode
    let name ← string MAX_MODULE_NAME_BYTES
    let version ← u32
    return (kind, name, version) : Reader (ModuleKind × String × U32))
  fun (kind, name, version) =>
    (ModuleIdentity.new kind name version).mapError fun _ => .invalidField field

def lockedModule : Reader LockedModule := do
  let identity ← identity "modules"
  let schemaVersion ← u16
  let digest ← array short 32
  return { identity, schemaVersion, digest }

/-- A module with schema zero, or one that was read before. -/
def badModule (modules : List LockedModule) (locked : LockedModule) : Bool :=
  locked.schemaVersion == 0 || modules.any fun existing => existing.identity == locked.identity

def modules : Reader (List LockedModule) := do
  let count ← count MAX_LOCK_MODULES
  manyChecked lockedModule badModule (.invalidField "modules") count []

def command : Reader LockedCommand := do
  let program ← string MAX_STRING_BYTES
  let args ← strings MAX_ARGUMENTS MAX_STRING_BYTES
  let workingDirectory ← string MAX_STRING_BYTES
  let user ← string MAX_STRING_BYTES
  return { program, args, workingDirectory, user }

def resources : Reader Resources := do
  let vcpus ← u32
  let memoryMib ← u64
  let writableStorageMib ← u64
  return { vcpus, memoryMib, writableStorageMib }

def lifecycle : Reader Lifecycle := do
  let idleTimeoutSeconds ← u64
  let maximumLifetimeSeconds ← u64
  let onIdle ← choiceOf "lifecycle.on_idle" IdleAction.fromCode
  return { idleTimeoutSeconds, maximumLifetimeSeconds, onIdle }

def entry : Reader LockedEnvironment := do
  let name ← string MAX_STRING_BYTES
  let value ← optionalString MAX_STRING_BYTES
  let sealedBy ← optional presence (identity "environment.sealed_by")
  return { name, value, sealedBy }

def environment : Reader (List LockedEnvironment) :=
  count MAX_LOCK_ENVIRONMENT >>= many entry

def secret : Reader LockedSecret := do
  let name ← string MAX_STRING_BYTES
  let source ← string MAX_STRING_BYTES
  let delivery ← choiceOf "secrets.delivery" SecretDelivery.fromCode
  let scope ← string MAX_STRING_BYTES
  let mode ← optional presence u32
  return { name, source, delivery, scope, mode }

def secrets : Reader (List LockedSecret) :=
  count MAX_SECRETS >>= many secret

end Decode

/-! ## Shape rules -/

namespace Verify

def invalid (field : String) : LockError :=
  .invalidField field

def rule (wellFormed : Bool) (field : String) : Except LockError Unit :=
  if wellFormed then .ok () else .error (invalid field)

def image (image : ResolvedImage) (backend : BackendCapabilities) : Except LockError Unit :=
  rule (backend.supportsPlatform image.platform) "workload.platform"

def commandOk (command : LockedCommand) : Bool :=
  !command.program.toList.isEmpty && !command.program.toList.any isAsciiControl
    && !command.args.any hasNul && (GuestPath.parse command.workingDirectory).isOk
    && (user command.user).isOk

def command (command : LockedCommand) : Except LockError Unit :=
  rule (commandOk command) "command"

def within (value maximum : ℕ) : Bool :=
  value != 0 && value ≤ maximum

def resourcesOk (resources : Resources) (limits : ResourceLimits) : Bool :=
  within resources.vcpus.toNat (min limits.maxVcpus.toNat (2 ^ 16 - 1))
    && within resources.memoryMib.toNat limits.maxMemoryMib.toNat
    && within resources.writableStorageMib.toNat limits.maxWritableStorageMib.toNat

def resources (resources : Resources) (backend : BackendCapabilities) : Except LockError Unit :=
  rule (resourcesOk resources backend.limits) "resources"

def lifecycleOk (lifecycle : Lifecycle) (backend : BackendCapabilities) : Bool :=
  (timeout lifecycle.idleTimeoutSeconds).isOk
    && (timeout lifecycle.maximumLifetimeSeconds).isOk
    && lifecycle.idleTimeoutSeconds.toNat ≤ lifecycle.maximumLifetimeSeconds.toNat
    && backend.supportsIdleAction lifecycle.onIdle

def lifecycle (lifecycle : Lifecycle) (backend : BackendCapabilities) : Except LockError Unit :=
  rule (lifecycleOk lifecycle backend) "lifecycle"

/-- Strictly increasing, the one order the encoder emits. -/
def sortedUnique (names : List String) : Bool :=
  names.IsChain (· < ·)

def entryOk (entry : LockedEnvironment) : Bool :=
  (EnvironmentName.parse entry.name).isOk && !entry.value.any hasNul
    && !(entry.sealedBy.isSome && entry.value.isNone)

def environment (entries : List LockedEnvironment) : Except LockError Unit := do
  entries.forM fun entry => rule (entryOk entry) "environment"
  rule (sortedUnique (entries.map LockedEnvironment.name)) "environment"

/-- The scope has the shape the delivery needs and lies inside the envelope. -/
def scopeValid (secret : LockedSecret) (envelope : NetworkEnvelope) : Bool :=
  match secret.delivery with
  | .environment => (EnvironmentName.parse secret.scope).isOk
  | .file => (GuestPath.parse secret.scope).isOk
  | .egressProxy => (domain secret.scope).isOk && envelope.allowsDomain secret.scope

def modeValid (delivery : SecretDelivery) (mode : Option U32) : Bool :=
  match delivery, mode with
  | .file, some mode => (secretMode mode).isOk
  | .file, none => false
  | _, some _ => false
  | _, none => true

def secretOk (envelope : NetworkEnvelope) (secret : LockedSecret) : Bool :=
  (EnvironmentName.parse secret.name).isOk && secretSourceShape secret.source
    && scopeValid secret envelope && modeValid secret.delivery secret.mode

def secrets (secrets : List LockedSecret) (envelope : NetworkEnvelope) : Except LockError Unit := do
  secrets.forM fun secret => rule (secretOk envelope secret) "secrets"
  rule (sortedUnique (secrets.map LockedSecret.name)) "secrets"

end Verify

section

variable [AddressText]

namespace TemplateLock

/-- The record as it stands on the wire, before the shape rules. -/
def read : Reader TemplateLock := do
  let magic ← take short LOCK_MAGIC.length
  if magic ≠ LOCK_MAGIC then fail .badMagic else
  let lockSchema ← u16
  if lockSchema ≠ LOCK_SCHEMA_VERSION then fail (.unsupportedLockSchema lockSchema) else
  let templateSchema ← string MAX_STRING_BYTES
  if templateSchema ≠ SCHEMA then fail (.unsupportedTemplateSchema templateSchema) else
  let policyVersion ← u16
  let contentDigest ← array short 32
  let image ← ResolvedImage.decode
  let modules ← Decode.modules
  let command ← Decode.command
  let resources ← Decode.resources
  let network ← NetworkEnvelope.decode
  let lifecycle ← Decode.lifecycle
  let environment ← Decode.environment
  let secrets ← Decode.secrets
  let ceiling ← PolicyCeiling.decode
  let backend ← BackendCapabilities.decode
  return { templateSchema, policyVersion, contentDigest, image, modules, command, resources, network,
           lifecycle, environment, secrets, ceiling, backend }

/-- The shape rules in the order the decoder applies them. -/
def verify (lock : TemplateLock) : Except LockError Unit := do
  Verify.image lock.image lock.backend
  Verify.command lock.command
  Verify.resources lock.resources lock.backend
  Verify.lifecycle lock.lifecycle lock.backend
  Verify.environment lock.environment
  Verify.secrets lock.secrets lock.network

def decode (bytes : List UInt8) : Except LockError TemplateLock := do
  let (lock, rest) ← read bytes
  finish rest
  verify lock
  return lock

end TemplateLock

end

/-! ## Formats -/

/-- Texts the reader's bound admits. -/
def Bounded (text : String) : Prop :=
  text.utf8ByteSize ≤ MAX_STRING_BYTES

theorem text_format : Format (string MAX_STRING_BYTES) putString Bounded :=
  string_format maxString_lt

/-- The records the reader's bounds admit. -/
def LockedCommand.Fits (command : LockedCommand) : Prop :=
  Bounded command.program ∧ (command.args.length ≤ MAX_ARGUMENTS ∧ ∀ arg ∈ command.args, Bounded arg)
    ∧ Bounded command.workingDirectory ∧ Bounded command.user

def LockedEnvironment.Fits (entry : LockedEnvironment) : Prop :=
  Bounded entry.name ∧ ∀ value ∈ entry.value, Bounded value

open LockedEnvironment

def LockedSecret.Fits (secret : LockedSecret) : Prop :=
  Bounded secret.name ∧ Bounded secret.source ∧ Bounded secret.scope

def modulesFit (modules : List LockedModule) : Prop :=
  modules.length ≤ MAX_LOCK_MODULES ∧ Admits Decode.badModule [] modules

namespace Decode

theorem identity_format (field : String) : Exact (identity field) putIdentity := by
  refine Format.congr (Format.refine (fun m => (m.kind, m.name, m.version))
    (Format.record ((ModuleKind.coded.format field).field Prod.fst fun _ =>
      (string_format (by decide)).field (Prod.fst ∘ Prod.snd) fun _ =>
      u32_format.field (Prod.snd ∘ Prod.snd) fun _ => Format.done (by grind)) (fun _ => Iff.rfl) (fun _ => rfl))
    ?_ ?_) ?_ (by simp [putIdentity])
  · rintro ⟨kind, name, version, hvalid⟩
    simp only [ModuleIdentity.new, dif_pos hvalid]
    rfl
  · rintro ⟨kind, name, version⟩ m h
    rw [mapError_eq_ok] at h
    simp only [ModuleIdentity.new] at h
    split_ifs at h
    cases h
    rfl
  · intro m
    have hname := m.valid
    simp only [validName, Bool.and_eq_true, decide_eq_true_eq] at hname
    have hlen := hname.1.1.1.2
    simpa [len] using hlen

theorem lockedModule_format : Exact lockedModule LockedModule.put :=
  Format.record ((identity_format "modules").field LockedModule.identity fun _ =>
    u16_format.field LockedModule.schemaVersion fun _ =>
    (Format.array short 32).field LockedModule.digest fun _ =>
    Format.done (by rintro ⟨⟩; grind)) (by simp) (by simp [LockedModule.put])

theorem modules_format : Format modules (putList LockedModule.put) modulesFit := by
  refine ((count_format (by decide)).bind List.length (fun count _ =>
    lockedModule_format.manyChecked badModule _ count []) ?_).congr ?_ (fun _ _ => rfl)
  · intro count locked h
    exact h.1
  · intro locked
    simp [modulesFit]

theorem command_format : Format command LockedCommand.put LockedCommand.Fits :=
  Format.record (text_format.field LockedCommand.program fun _ =>
    (strings_format (by decide) maxString_lt).field LockedCommand.args fun _ =>
    text_format.field LockedCommand.workingDirectory fun _ =>
    text_format.field LockedCommand.user fun _ =>
    Format.done (by rintro ⟨⟩; grind)) (by simp [LockedCommand.Fits, Bounded]) (by simp [LockedCommand.put])

theorem resources_format : Exact resources Resources.put :=
  Format.record (u32_format.field Resources.vcpus fun _ =>
    u64_format.field Resources.memoryMib fun _ =>
    u64_format.field Resources.writableStorageMib fun _ =>
    Format.done (by rintro ⟨⟩; grind)) (by simp) (by simp [Resources.put])

theorem lifecycle_format : Exact lifecycle Lifecycle.put :=
  Format.record (u64_format.field Lifecycle.idleTimeoutSeconds fun _ =>
    u64_format.field Lifecycle.maximumLifetimeSeconds fun _ =>
    (IdleAction.coded.format _).field Lifecycle.onIdle fun _ =>
    Format.done (by rintro ⟨⟩; grind)) (by simp) (by simp [Lifecycle.put])

theorem entry_format : Format entry put Fits :=
  Format.record (text_format.field name fun _ =>
    (optionalString_format maxString_lt).field value fun _ =>
    (presence_format.optional (identity_format _)).field sealedBy fun _ =>
    Format.done (by rintro ⟨⟩; grind)) (by simp [Fits, Bounded]) (by simp [put, putOptional])

theorem secret_format : Format secret LockedSecret.put LockedSecret.Fits :=
  Format.record (text_format.field LockedSecret.name fun _ =>
    text_format.field LockedSecret.source fun _ =>
    (SecretDelivery.coded.format _).field LockedSecret.delivery fun _ =>
    text_format.field LockedSecret.scope fun _ =>
    (presence_format.optional u32_format).field LockedSecret.mode fun _ =>
    Format.done (by rintro ⟨⟩; grind)) (by simp [LockedSecret.Fits]) (by simp [LockedSecret.put, putOptional])

end Decode

section

variable [AddressText]

namespace TemplateLock

/-- The locks whose bytes the reader takes, before the shape rules. -/
structure Fits (lock : TemplateLock) : Prop where
  templateSchema : lock.templateSchema = SCHEMA
  modules : modulesFit lock.modules
  command : lock.command.Fits
  network : NetworkEnvelope.Readable lock.network.egress
  environment : lock.environment.length ≤ MAX_LOCK_ENVIRONMENT ∧ ∀ e ∈ lock.environment, e.Fits
  secrets : lock.secrets.length ≤ MAX_SECRETS ∧ ∀ s ∈ lock.secrets, s.Fits

theorem read_format : Format read encode Fits := by
  have hschema : Bounded SCHEMA := by unfold Bounded; decide +kernel
  refine Format.record ((Format.take short LOCK_MAGIC.length).checked (fun _ => LOCK_MAGIC) fun _ _ =>
    u16_format.checked (fun _ => LOCK_SCHEMA_VERSION) fun _ _ =>
    text_format.checked TemplateLock.templateSchema fun _ _ =>
    u16_format.field TemplateLock.policyVersion fun _ =>
    (Format.array short 32).field TemplateLock.contentDigest fun _ =>
    ResolvedImage.format.field TemplateLock.image fun _ =>
    Decode.modules_format.field TemplateLock.modules fun _ =>
    Decode.command_format.field TemplateLock.command fun _ =>
    Decode.resources_format.field TemplateLock.resources fun _ =>
    NetworkEnvelope.format.field TemplateLock.network fun _ =>
    Decode.lifecycle_format.field TemplateLock.lifecycle fun _ =>
    (list_format (by decide) Decode.entry_format).field TemplateLock.environment fun _ =>
    (list_format (by decide) Decode.secret_format).field TemplateLock.secrets fun _ =>
    PolicyCeiling.format.field TemplateLock.ceiling fun _ =>
    BackendCapabilities.format.field TemplateLock.backend fun _ =>
    Format.done (by rintro ⟨⟩; grind)) ?_ (by simp [encode])
  intro lock
  simp only [ne_eq, not_not, true_and, and_true]
  constructor
  · rintro ⟨-, hs, hm, hc, hn, he, hse⟩
    exact ⟨hs, hm, hc, hn, he, hse⟩
  · rintro ⟨hs, hm, hc, hn, he, hse⟩
    exact ⟨hs ▸ hschema, hs, hm, hc, hn, he, hse⟩

/-- Bytes are accepted exactly if they encode a lock that passes the rules, and as that lock. -/
theorem decode_eq_ok {bs : List UInt8} {lock : TemplateLock} :
    decode bs = .ok lock ↔ lock.Fits ∧ verify lock = .ok () ∧ bs = lock.encode := by
  rw [decode, bind_eq_ok]
  constructor
  · rintro ⟨⟨read, rest⟩, hread, h⟩
    obtain ⟨hrest, h⟩ := seq_eq_ok.mp h
    obtain ⟨hverify, h⟩ := seq_eq_ok.mp h
    cases h
    obtain ⟨hfits, hbs⟩ := read_format.sound bs _ _ hread
    rw [finish_eq_ok.mp hrest, List.append_nil] at hbs
    exact ⟨hfits, hverify, hbs⟩
  · rintro ⟨hfits, hverify, rfl⟩
    have hread := read_format.complete lock [] hfits
    rw [List.append_nil] at hread
    exact ⟨(lock, []), hread, seq_eq_ok.mpr ⟨rfl, seq_eq_ok.mpr ⟨hverify, rfl⟩⟩⟩

/-! ## Identity -/

/-- The content identity of the canonical bytes. -/
def id [Sha256] (lock : TemplateLock) : Bytes 32 :=
  Sha256.digest lock.encode

/-- A lock has one encoding: accepted bytes are the encoding of what they are accepted as, other accepted
bytes are another lock, and where the hash does not collide on the two byte strings, locks with one
identity agree in every field. -/
theorem encode_of_decode [Sha256] {bs : List UInt8} {lock : TemplateLock} (h : decode bs = .ok lock) :
    lock.encode = bs ∧ ∀ bs' lock', decode bs' = .ok lock' →
      (bs' ≠ bs → lock' ≠ lock)
        ∧ ((Sha256.digest bs = Sha256.digest bs' → bs = bs') → lock.id = lock'.id → lock = lock') := by
  obtain ⟨-, -, hbs⟩ := decode_eq_ok.mp h
  refine ⟨hbs.symm, fun bs' lock' h' => ?_⟩
  obtain ⟨-, -, hbs'⟩ := decode_eq_ok.mp h'
  constructor
  · intro hne heq
    rw [hbs, hbs', heq] at hne
    exact hne rfl
  · intro hcollision hid
    rw [id, id, ← hbs, ← hbs'] at hid
    have hsame := hcollision hid
    subst hsame
    rw [h] at h'
    cases h'
    rfl

end TemplateLock

end

/-! ## A small lock -/

theorem knownActions_one : unknownActions 1 = 0 := by
  decide

variable (network : NetworkEnvelope)

/-- A Machine without modules, with an environment and secrets, under a ceiling that denies everything. -/
def plainLock : @TemplateLock hexText :=
  let platform : OciPlatform := ⟨"linux", "amd64", none, platformRule_linux⟩
  @TemplateLock.mk hexText SCHEMA POLICY_VERSION (.fill 32 0)
    ⟨digestFromBytes (.fill 32 0), platform, 1⟩ []
    ⟨"sh", [], DEFAULT_WORKING_DIRECTORY, DEFAULT_USER⟩ ⟨1, 1, 1⟩ network ⟨1, 1, .destroy⟩
    [⟨"HOME", some "/root", none⟩, ⟨"LANG", none, none⟩]
    [⟨"KEY", "secret://store/key", .file, "/run/key", some 0o400⟩,
      ⟨"TOKEN", "secret://store/token", .environment, "TOKEN", none⟩]
    (@PolicyCeiling.denyAll hexText)
    ⟨[platform], 1, ⟨1, 1, 1⟩, ⟨by decide, by decide, by simp⟩, knownActions_one⟩

theorem plainLock_decode
    (h : letI := hexText; NetworkEnvelope.Readable network.egress) :
    letI := hexText
    TemplateLock.decode (plainLock network).encode = .ok (plainLock network) := by
  let _ := hexText
  refine TemplateLock.decode_eq_ok.mpr ⟨⟨rfl, ?_, ?_, h, ?_, ?_⟩, ?_, rfl⟩
  · exact ⟨Nat.zero_le _, trivial⟩
  · have hcommand : (plainLock ⟨.deny, .deny⟩).command.Fits := by
      refine ⟨?_, ⟨Nat.zero_le _, by simp [plainLock]⟩, ?_, ?_⟩ <;> unfold Bounded <;> decide +kernel
    exact hcommand
  · exact ⟨by simp [plainLock, MAX_LOCK_ENVIRONMENT], by
      simp only [plainLock, LockedEnvironment.Fits, Bounded]; decide +kernel⟩
  · exact ⟨by simp [plainLock, MAX_SECRETS], by simp only [plainLock, LockedSecret.Fits, Bounded]; decide +kernel⟩
  · have hverify : (plainLock ⟨.deny, .deny⟩).verify = .ok () := by decide +kernel
    exact hverify

/-- Destinations by name and by address. -/
def listedEgress : EgressEnvelope :=
  .allowlist ["*.example.org", "example.net"] ["0a010000/16"]

theorem listedEgress_readable : letI := hexText; NetworkEnvelope.Readable listedEgress :=
  letI := hexText
  show _ ∧ _ ∧ NetworkEnvelope.allowlistRule _ _ from by decide +kernel

/-- A hash that only tells lengths apart. -/
abbrev lengthHash : Sha256 := ⟨fun bs => .fill 32 (.ofNat bs.length)⟩

theorem listedEgress_digest :
    letI := hexText
    lengthHash.digest (plainLock ⟨.deny, .deny⟩).encode ≠
      lengthHash.digest (plainLock ⟨listedEgress, .deny⟩).encode := by
  decide +kernel

/-- The bytes of a denied and of a listed Machine differ, and so do the Machines and their identities. -/
theorem encode_of_decode_listed :
    letI := hexText
    letI := lengthHash
    TemplateLock.decode (plainLock ⟨listedEgress, .deny⟩).encode = .ok (plainLock ⟨listedEgress, .deny⟩)
      ∧ (plainLock ⟨listedEgress, .deny⟩).encode ≠ (plainLock ⟨.deny, .deny⟩).encode
      ∧ plainLock ⟨listedEgress, .deny⟩ ≠ plainLock ⟨.deny, .deny⟩
      ∧ (plainLock ⟨listedEgress, .deny⟩).id ≠ (plainLock ⟨.deny, .deny⟩).id := by
  let _ := hexText
  let _ := lengthHash
  have hlisted := plainLock_decode ⟨listedEgress, .deny⟩ listedEgress_readable
  have hdeny := plainLock_decode ⟨.deny, .deny⟩ trivial
  obtain ⟨hother, hsame⟩ := (TemplateLock.encode_of_decode hdeny).2 _ _ hlisted
  have hne : (plainLock ⟨listedEgress, .deny⟩).encode ≠ (plainLock ⟨.deny, .deny⟩).encode :=
    fun heq => listedEgress_digest (congrArg _ heq.symm)
  refine ⟨hlisted, hne, hother hne, fun hid => ?_⟩
  exact hother hne (hsame (absurd · listedEgress_digest) hid.symm).symm

end Soma.Template
