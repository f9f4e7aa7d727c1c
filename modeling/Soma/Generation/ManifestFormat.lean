import Soma.Generation.Manifest

/-! # The manifest format

What the encoder writes for each group, and that the decoder reads exactly that. Both sides make the same
checks on a manifest (`Encodable`); the decoder alone also asks for distinct descriptor digests.
-/

namespace Soma.Generation

open Soma.Codec Soma.Lib Soma.Text

/-! ## The bytes of each group -/

namespace Fields

def lengthBytes (value : List UInt8) : List UInt8 := putWord (BitVec.ofNat 16 value.length) ++ value

def text (value : String) : List UInt8 := lengthBytes (Text.bytes value)

def flag (present : Bool) : List UInt8 := [if present then 1 else 0]

def descriptor (value : ArtifactDescriptor) : List UInt8 :=
  value.role.code :: (text value.mediaType ++ (value.digest.1 ++ putWord value.size))

def contract (tag : UInt8) (binding : ContractBinding) : List UInt8 :=
  tag :: (putWord binding.version ++ binding.digest.1)

def source (source : SourceBinding) : List UInt8 :=
  2 :: (source.ociManifestDigest.1 ++ (text source.platform.operatingSystem
    ++ (text source.platform.architecture
    ++ (flag source.platform.variant.isSome ++ source.platform.variant.elim [] text))))

def tree (tree : TreeBinding) : List UInt8 := 3 :: (tree.digest.1 ++ putWord tree.size)

def root (root : RootBinding) : List UInt8 :=
  4 :: (descriptor root.descriptor ++ (root.uuid.1 ++ (text root.formatProfile
    ++ (root.formatterDigest.1 ++ (text root.formatterRevision ++ root.builderEnvironmentDigest.1)))))

def overlayTemplate (template : OverlayTemplate) : List UInt8 :=
  putWord template.capacity ++ descriptor template.descriptor

def overlay (overlay : OverlayBinding) : List UInt8 :=
  5 :: (putWord overlay.uuidDerivationVersion ++ (text overlay.featureProfile
    ++ (putWord overlay.minimumCapacity ++ (putWord overlay.maximumCapacity
    ++ (putWord (BitVec.ofNat 16 overlay.templates.length) ++ overlay.templates.flatMap overlayTemplate)))))

def kernel (kernel : KernelBinding) : List UInt8 :=
  6 :: (descriptor kernel.descriptor ++ (putWord kernel.elfPvhContractVersion
    ++ (kernel.configDigest.1 ++ text kernel.cpuArchitecture)))

def initramfs (initramfs : InitramfsBinding) : List UInt8 :=
  7 :: (descriptor initramfs.descriptor ++ (putWord initramfs.layoutVersion
    ++ initramfs.earlyInitDigest.1))

def guestAgent (agent : GuestAgentBinding) : List UInt8 :=
  8 :: (descriptor agent.descriptor ++ (text agent.buildProvenance
    ++ (putWord agent.applicationProtocolVersion ++ putWord agent.handshakeProtocolVersion)))

def commandLine (line : List UInt8) : List UInt8 := 9 :: lengthBytes line

def shape (shape : MachineShapeBinding) : List UInt8 :=
  13 :: (putWord shape.memoryBytes ++ (putWord shape.vcpuCount
    ++ (putWord shape.memorySlotLayoutVersion ++ putWord shape.launchPageLayoutVersion)))

def captured (snapshot : Snapshot) : List UInt8 :=
  putWord snapshot.formatVersion ++ (descriptor snapshot.memory ++ (descriptor snapshot.overlay
    ++ (descriptor snapshot.state ++ putWord snapshot.capturePointVersion)))

def snapshot (binding : SnapshotBinding) : List UInt8 :=
  14 :: (flag binding.isSome ++ binding.elim [] captured)

def repair (repair : RepairBinding) : List UInt8 :=
  15 :: (putWord repair.policyVersion ++ repair.readinessCommandDigest.1)

def probe (probe : Option (List UInt8)) : List UInt8 := flag probe.isSome ++ probe.elim [] lengthBytes

def template (template : TemplateBinding) : List UInt8 :=
  16 :: (putWord template.writableStorageBytes ++ (template.networkPolicyClass.code
    :: (template.networkPolicyDigest.1 ++ (probe template.workloadProbe ++ putWord template.ttlSeconds))))

def manifest (magic : Bytes 8) (manifest : GenerationManifest) : List UInt8 :=
  magic.1 ++ (putWord MANIFEST_SCHEMA_VERSION ++ (putWord manifest.compilerPolicyVersion
    ++ (source manifest.source ++ (tree manifest.tree ++ (root manifest.root ++ (overlay manifest.overlay
    ++ (kernel manifest.kernel ++ (initramfs manifest.initramfs ++ (guestAgent manifest.guestAgent
    ++ (commandLine manifest.commandLine ++ (contract 10 manifest.machineContract
    ++ (contract 11 manifest.deviceContract ++ (contract 12 manifest.cpuTemplate
    ++ (shape manifest.shape ++ (snapshot manifest.snapshot ++ (repair manifest.repair
    ++ template manifest.template))))))))))))))))

end Fields

/-! ## What both sides check -/

variable (value : List UInt8)

def ShortOk : Prop := value.length ≤ MAX_SHORT_STRING ∧ 0 ∉ value

def TextOk (value : String) : Prop := ShortOk (Text.bytes value)

instance (value : List UInt8) : Decidable (ShortOk value) := inferInstanceAs (Decidable (_ ∧ _))

instance (value : String) : Decidable (TextOk value) := inferInstanceAs (Decidable (ShortOk _))

theorem mediaType_ok (role : ArtifactRole) : TextOk role.mediaType := by
  cases role <;> decide +kernel

def ProbeOk (probe : List UInt8) : Prop :=
  probe ≠ [] ∧ probe.length ≤ MAX_WORKLOAD_PROBE_BYTES ∧ 0 ∉ probe

def SourceOk (source : SourceBinding) : Prop :=
  source.platform.operatingSystem = "linux" ∧ source.platform.architecture = "amd64"
    ∧ ∀ variant ∈ source.platform.variant, TextOk variant

def RootOk (root : RootBinding) : Prop :=
  root.descriptor.role = .erofsRoot ∧ TextOk root.formatProfile ∧ TextOk root.formatterRevision

/-- Capacities ascend. -/
def Ascending (templates : List OverlayTemplate) : Prop :=
  templates.IsChain fun previous next => previous.capacity < next.capacity

def OverlayOk (overlay : OverlayBinding) : Prop :=
  TextOk overlay.featureProfile ∧ overlay.templates.length ≤ MAX_TEMPLATES ∧ Ascending overlay.templates
    ∧ ∀ template ∈ overlay.templates, template.descriptor.role = .overlayTemplate

def SnapshotOk (snapshot : Snapshot) : Prop :=
  snapshot.memory.role = .memorySnapshot ∧ snapshot.overlay.role = .overlaySnapshot
    ∧ snapshot.state.role = .stateManifest

/-- The checks the encoder and the decoder share. -/
@[mk_iff]
structure Encodable (manifest : GenerationManifest) : Prop where
  source : SourceOk manifest.source
  root : RootOk manifest.root
  overlay : OverlayOk manifest.overlay
  kernel : manifest.kernel.descriptor.role = .kernel ∧ TextOk manifest.kernel.cpuArchitecture
  initramfs : manifest.initramfs.descriptor.role = .initramfs
  guestAgent : manifest.guestAgent.descriptor.role = .guestAgent ∧ TextOk manifest.guestAgent.buildProvenance
  commandLine : manifest.commandLine.length ≤ MAX_COMMAND_LINE ∧ 0 ∉ manifest.commandLine
  snapshot : ∀ snapshot ∈ manifest.snapshot, SnapshotOk snapshot
  template : ∀ probe ∈ manifest.template.workloadProbe, ProbeOk probe

/-! ## Writing -/

namespace Encoder

/-- A writer within the manifest bound. -/
abbrev Puts (w : Encoder) (bytes : List UInt8) (ok : Prop) : Prop := Writes MAX_MANIFEST_BYTES w bytes ok

theorem bytes_writes : Puts (bytes value) value True := Writes.putBytes limit

theorem u8_writes (value : UInt8) : Puts (u8 value) [value] True := bytes_writes _

theorem u16_writes (value : U16) : Puts (u16 value) (putWord value) True := bytes_writes _

theorem u64_writes (value : U64) : Puts (u64 value) (putWord value) True := bytes_writes _

theorem digest_writes (value : Sha256Digest) : Puts (digest value) value.1 True := bytes_writes _

theorem tagged (tag : UInt8) {w : Encoder} {value : List UInt8} {ok : Prop} (h : Puts w value ok) :
    Puts (u8 tag >>= fun _ => w) (tag :: value) ok :=
  ((u8_writes tag).andThen h).congr (by simp)

theorem length_writes (n : ℕ) : Puts (length n) (putWord (BitVec.ofNat 16 n)) (n < 2 ^ 16) :=
  ((Writes.check limit _).andThen (u16_writes _)).congr (by simp)

theorem lengthBytes_writes :
    Puts (length value.length >>= fun _ => bytes value) (Fields.lengthBytes value) (value.length < 2 ^ 16) :=
  ((length_writes _).andThen (bytes_writes value)).congr (by simp)

theorem shortString_writes : Puts (shortString value) (Fields.lengthBytes value) (ShortOk value) := by
  refine Writes.checked limit (lengthBytes_writes value) ?_
  rintro ⟨hlength, -⟩
  simp only [MAX_SHORT_STRING] at hlength
  omega

theorem text_writes (value : String) :
    Puts (shortString (Text.bytes value)) (Fields.text value) (TextOk value) := shortString_writes _

theorem optionalString_writes (value : Option String) :
    Puts (optionalString (value.map Text.bytes)) (Fields.flag value.isSome ++ value.elim [] Fields.text)
      (∀ text ∈ value, TextOk text) := by
  cases value with
  | none => exact (u8_writes 0).congr (by simp)
  | some text => exact (tagged _ (text_writes text)).congr (by simp)

theorem descriptor_writes (value : ArtifactDescriptor) (expected : ArtifactRole) :
    Puts (descriptor value expected) (Fields.descriptor value) (value.role = expected) := by
  refine ((Writes.check invalid (value.role = expected)).andThen (tagged _
    ((text_writes value.mediaType).andThen ((digest_writes value.digest).andThen
    (u64_writes value.size))))).congr ?_
  have hmedia : TextOk value.mediaType := mediaType_ok value.role
  simp [hmedia]

theorem contract_writes (tag : UInt8) (binding : ContractBinding) :
    Puts (contract tag binding) (Fields.contract tag binding) True :=
  (tagged _ ((u16_writes _).andThen (digest_writes _))).congr (by simp)

theorem source_writes (binding : SourceBinding) :
    Puts (source binding) (Fields.source binding) (SourceOk binding) := by
  refine (tagged _ ((digest_writes _).andThen ((Writes.check invalid _).andThen ((text_writes _).andThen
    ((text_writes _).andThen (optionalString_writes _)))))).congr ?_
  have hlinux : TextOk "linux" := by decide +kernel
  have hamd64 : TextOk "amd64" := by decide +kernel
  simp only [SourceOk, true_and]
  constructor
  · intro h
    exact ⟨h.1.1, h.1.2, h.2.2.2⟩
  · intro h
    exact ⟨⟨h.1, h.2.1⟩, h.1 ▸ hlinux, h.2.1 ▸ hamd64, h.2.2⟩

theorem tree_writes (binding : TreeBinding) : Puts (tree binding) (Fields.tree binding) True :=
  (tagged _ ((digest_writes _).andThen (u64_writes _))).congr (by simp)

theorem root_writes (binding : RootBinding) : Puts (root binding) (Fields.root binding) (RootOk binding) :=
  (tagged _ ((descriptor_writes _ _).andThen ((bytes_writes _).andThen ((text_writes _).andThen
    ((digest_writes _).andThen ((text_writes _).andThen (digest_writes _))))))).congr (by simp [RootOk])

theorem overlayTemplate_writes (template : OverlayTemplate) :
    Puts (do u64 template.capacity; descriptor template.descriptor .overlayTemplate)
      (Fields.overlayTemplate template) (template.descriptor.role = .overlayTemplate) :=
  ((u64_writes _).andThen (descriptor_writes _ _)).congr (by simp)

theorem overlay_writes (binding : OverlayBinding) :
    Puts (overlay binding) (Fields.overlay binding) (OverlayOk binding) := by
  refine (tagged _ ((u16_writes _).andThen ((text_writes _).andThen ((u64_writes _).andThen
    ((u64_writes _).andThen ((Writes.check invalid _).andThen ((length_writes _).andThen
    (Writes.forM fun template _ => overlayTemplate_writes template)))))))).congr ?_
  simp only [OverlayOk, true_and, Ascending]
  constructor
  · intro h
    exact ⟨h.1, h.2.1.1, h.2.1.2, h.2.2.2⟩
  · intro h
    have hcount := h.2.1
    simp only [MAX_TEMPLATES] at hcount
    exact ⟨h.1, ⟨h.2.1, h.2.2.1⟩, by omega, h.2.2.2⟩

theorem kernel_writes (binding : KernelBinding) :
    Puts (kernel binding) (Fields.kernel binding)
      (binding.descriptor.role = .kernel ∧ TextOk binding.cpuArchitecture) :=
  (tagged _ ((descriptor_writes _ _).andThen ((u16_writes _).andThen ((digest_writes _).andThen
    (text_writes _))))).congr (by simp)

theorem initramfs_writes (binding : InitramfsBinding) :
    Puts (initramfs binding) (Fields.initramfs binding) (binding.descriptor.role = .initramfs) :=
  (tagged _ ((descriptor_writes _ _).andThen ((u16_writes _).andThen (digest_writes _)))).congr (by simp)

theorem guestAgent_writes (binding : GuestAgentBinding) :
    Puts (guestAgent binding) (Fields.guestAgent binding)
      (binding.descriptor.role = .guestAgent ∧ TextOk binding.buildProvenance) :=
  (tagged _ ((descriptor_writes _ _).andThen ((text_writes _).andThen ((u16_writes _).andThen
    (u16_writes _))))).congr (by simp)

theorem commandLine_writes (line : List UInt8) :
    Puts (commandLine line) (Fields.commandLine line) (line.length ≤ MAX_COMMAND_LINE ∧ 0 ∉ line) := by
  refine tagged _ (Writes.checked limit (lengthBytes_writes line) ?_)
  rintro ⟨hlength, -⟩
  simp only [MAX_COMMAND_LINE] at hlength
  omega

theorem shape_writes (binding : MachineShapeBinding) : Puts (shape binding) (Fields.shape binding) True :=
  (tagged _ ((u64_writes _).andThen ((u16_writes _).andThen ((u16_writes _).andThen
    (u16_writes _))))).congr (by simp)

theorem snapshot_writes (binding : SnapshotBinding) :
    Puts (snapshot binding) (Fields.snapshot binding) (∀ snapshot ∈ binding, SnapshotOk snapshot) := by
  cases binding with
  | none => exact (tagged _ (u8_writes 0)).congr (by simp)
  | some snapshot =>
    refine (tagged _ (tagged _ ((u16_writes _).andThen ((descriptor_writes _ _).andThen
      ((descriptor_writes _ _).andThen ((descriptor_writes _ _).andThen (u16_writes _))))))).congr ?_
    simp [SnapshotOk]

theorem repair_writes (binding : RepairBinding) : Puts (repair binding) (Fields.repair binding) True :=
  (tagged _ ((u16_writes _).andThen (digest_writes _))).congr (by simp)

theorem probe_writes (value : Option (List UInt8)) :
    Puts (probe value) (Fields.probe value) (∀ probe ∈ value, ProbeOk probe) := by
  cases value with
  | none => exact (u8_writes 0).congr (by simp)
  | some probe =>
    refine (Writes.checked invalid (tagged _ (lengthBytes_writes probe)) ?_).congr (by simp [ProbeOk])
    rintro ⟨-, hlength, -⟩
    simp only [MAX_WORKLOAD_PROBE_BYTES] at hlength
    omega

theorem template_writes (binding : TemplateBinding) :
    Puts (template binding) (Fields.template binding) (∀ probe ∈ binding.workloadProbe, ProbeOk probe) :=
  (tagged _ ((u64_writes _).andThen (tagged _ ((digest_writes _).andThen ((probe_writes _).andThen
    (u64_writes _)))))).congr (by simp)

theorem manifest_writes (magic : Bytes 8) (value : GenerationManifest) :
    Puts (manifest magic value) (Fields.manifest magic value) (Encodable value) := by
  refine ((bytes_writes _).andThen ((u16_writes _).andThen ((u16_writes _).andThen
    ((source_writes _).andThen ((tree_writes _).andThen ((root_writes _).andThen
    ((overlay_writes _).andThen ((kernel_writes _).andThen ((initramfs_writes _).andThen
    ((guestAgent_writes _).andThen ((commandLine_writes _).andThen ((contract_writes 10 _).andThen
    ((contract_writes 11 _).andThen ((contract_writes 12 _).andThen ((shape_writes _).andThen
    ((snapshot_writes _).andThen ((repair_writes _).andThen
    (template_writes _)))))))))))))))))).congr ?_
  simp [encodable_iff]

end Encoder

theorem encodeWith_eq_ok {magic : Bytes 8} {manifest : GenerationManifest} {bytes : List UInt8} :
    encodeWith magic manifest = .ok bytes
      ↔ Encodable manifest ∧ bytes = Fields.manifest magic manifest ∧ bytes.length ≤ MAX_MANIFEST_BYTES :=
  runWriter_eq_ok (Encoder.manifest_writes magic manifest)

/-! ## Reading -/

namespace Decoder

theorem u8_format : Exact u8 (fun b => [b]) := Format.byte short

theorem u16_format : Exact u16 putWord := Format.word short (by decide)

theorem u64_format : Exact u64 putWord := Format.word short (by decide)

theorem digest_format : Exact digest Subtype.val := Format.array short 32

variable (expected : UInt8)

theorem tag_format : Exact (tag expected) (fun _ => [expected]) :=
  u8_format.expect

theorem tagged {α : Type} {d : Plain α} {enc : α → List UInt8} {ok : α → Prop}
    (h : Format d enc ok) : Format (tag expected >>= fun _ => d) (fun x => expected :: enc x) ok :=
  ((tag_format expected).bind (fun _ => ()) (fun _ _ => h) (fun _ _ _ => rfl)).congr
    (fun _ => by simp) (fun _ _ => rfl)

theorem keyed_tagged {α : Type} {d : Decoder α} {enc : α → List UInt8}
    {keys : α → List Sha256Digest} {ok : α → Prop} (h : Keyed d enc keys ok) :
    Keyed (StateT.lift (tag expected) >>= fun _ => d) (fun x => expected :: enc x) keys ok :=
  ((tag_format expected).keyed.bind (fun _ => ()) (fun _ _ => h) (fun _ _ _ => rfl)).congr
    (fun _ => by simp) (fun _ _ => rfl) (fun _ _ => rfl)

theorem lengthBytes_format {inRange : ℕ → Bool} (hrange : ∀ n, inRange n → n < 2 ^ 16) :
    Format (lengthBytes inRange) Fields.lengthBytes (fun value => inRange value.length ∧ 0 ∉ value) := by
  have hlength : Format (refine u16 fun length =>
        if inRange length.toNat then .ok length.toNat else .error limit)
      (fun n => putWord (BitVec.ofNat 16 n)) (fun n => inRange n) := by
    refine (u16_format.refineOn (fun n => inRange n) (fun n => BitVec.ofNat 16 n) ?_ ?_).congr
      (fun _ => by simp) (fun _ _ => rfl)
    · intro n hn
      have hvalue : (BitVec.ofNat 16 n).toNat = n := by
        rw [BitVec.toNat_ofNat]
        exact Nat.mod_eq_of_lt (hrange n hn)
      rw [hvalue, if_pos hn]
    · intro value n h
      split_ifs at h with hin
      cases h
      exact ⟨hin, by simp⟩
  have hvalue : ∀ n, Format (refine (take short n) fun value =>
        if 0 ∈ value then .error invalid else .ok value) (fun value => value)
      (fun value => value.length = n ∧ 0 ∉ value) := by
    intro n
    refine (Format.take short n).refineOn (fun value => 0 ∉ value) id ?_ ?_
    · intro value h
      exact if_neg h
    · intro value value' h
      split_ifs at h with hzero
      cases h
      exact ⟨hzero, rfl⟩
  refine (hlength.bind List.length (fun n _ => hvalue n) (fun _ _ h => h.1)).congr ?_ (fun _ _ => rfl)
  intro value
  simp

theorem shortString_format : Format shortString Fields.text TextOk := by
  have hrange (n : ℕ) (hn : decide (n ≤ MAX_SHORT_STRING) = true) : n < 2 ^ 16 :=
    (of_decide_eq_true hn).trans_lt (by decide)
  refine ((lengthBytes_format hrange).refine Text.bytes ?_ ?_).congr ?_ (fun _ _ => rfl)
  · intro value
    rw [ofBytes_bytes]
    rfl
  · intro value text h
    exact bytes_of_ofBytes (okOr_eq_ok.mp h)
  · intro value
    rw [decide_eq_true_eq]
    rfl

theorem presence_format : Exact presence Fields.flag :=
  Format.flag short fun _ => invalid

theorem optionalString_format :
    Format optionalString (fun value => Fields.flag value.isSome ++ value.elim [] Fields.text)
      (fun value => ∀ text ∈ value, TextOk text) :=
  presence_format.optional shortString_format

theorem descriptorParts_format (expected : ArtifactRole) :
    Format (descriptorParts expected) Fields.descriptor (fun value => value.role = expected) := by
  have hrole := u8_format.coded (e := fun _ => invalid) ArtifactRole.fromCode_code
    fun _ _ => ArtifactRole.code_of_fromCode
  refine (hrole.bind ArtifactDescriptor.role (fun role _ =>
    shortString_format.bind ArtifactDescriptor.mediaType (fun mediaType _ =>
    (digest_format.bind ArtifactDescriptor.digest (fun digest _ =>
    u64_format.bind ArtifactDescriptor.size (fun size _ =>
    Format.pure (⟨role, digest, size⟩ : ArtifactDescriptor)) ?_) ?_).require) ?_) ?_).congr ?_ ?_
  · grind
  · grind
  · intro mediaType value h
    simp only [not_or, not_not] at h
    rw [ArtifactDescriptor.mediaType, h.2.2.2, h.1.2]
  · grind
  · intro value
    have hmedia : TextOk value.mediaType := mediaType_ok value.role
    simp only [not_or, not_not, true_and, hmedia]
    constructor
    · intro h
      exact h.1.1
    · intro h
      exact ⟨⟨h, rfl⟩, trivial⟩
  · intro value _
    simp [Fields.descriptor]

theorem descriptor_keyed (expected : ArtifactRole) :
    Keyed (descriptor expected) Fields.descriptor (fun value => [value.digest])
      (fun value => value.role = expected) := by
  refine ((descriptorParts_format expected).keyed.bind id (fun value _ =>
    (Keyed.once invalid value.digest).bind (fun _ => ()) (fun _ _ => Keyed.pure value)
      (fun _ _ _ => rfl)) ?_).congr ?_ ?_ ?_
  · intro value value' h
    exact h.2
  all_goals simp

theorem contract_format : Exact (contract expected) (Fields.contract expected) :=
  Format.record (tagged expected (u16_format.field ContractBinding.version fun _ =>
    digest_format.field ContractBinding.digest fun _ =>
    Format.done (by rintro ⟨⟩; grind))) (by simp) (by simp [Fields.contract])

theorem sourceParts_format :
    Format sourceParts
      (fun parts => parts.1.1 ++ (Fields.text parts.2.1 ++ (Fields.text parts.2.2.1
        ++ (Fields.flag parts.2.2.2.isSome ++ parts.2.2.2.elim [] Fields.text))))
      (fun parts => TextOk parts.2.1 ∧ TextOk parts.2.2.1 ∧ ∀ text ∈ parts.2.2.2, TextOk text) := by
  exact Format.record (digest_format.field Prod.fst fun _ =>
    shortString_format.field (Prod.fst ∘ Prod.snd) fun _ =>
    shortString_format.field (Prod.fst ∘ Prod.snd ∘ Prod.snd) fun _ =>
    optionalString_format.field (Prod.snd ∘ Prod.snd ∘ Prod.snd) fun _ =>
    Format.done (by grind)) (by simp) (by simp)

theorem source_format : Format source Fields.source SourceOk := by
  refine (tagged 2 (sourceParts_format.refineOn
    (fun b => b.platform.operatingSystem = "linux" ∧ b.platform.architecture = "amd64")
    (fun b => (b.ociManifestDigest, b.platform.operatingSystem, b.platform.architecture,
      b.platform.variant)) ?_ ?_)).congr ?_ (fun _ _ => rfl)
  · intro binding hvalid
    have hplatform : Template.OciPlatform.new binding.platform.operatingSystem
        binding.platform.architecture binding.platform.variant = .ok binding.platform :=
      dif_pos binding.platform.valid
    dsimp only
    rw [if_neg (by simp [hvalid]), hplatform]
  · intro parts binding h
    obtain ⟨digest, operatingSystem, architecture, variant⟩ := parts
    dsimp only [Template.OciPlatform.new] at h
    split_ifs at h with hname hrule
    · cases h
      simp only [not_or, not_not] at hname
      exact ⟨hname, rfl⟩
  · intro binding
    have hlinux : TextOk "linux" := by decide +kernel
    have hamd64 : TextOk "amd64" := by decide +kernel
    constructor
    · intro h
      exact ⟨h.2.1, h.2.2, h.1.2.2⟩
    · intro h
      exact ⟨⟨h.1 ▸ hlinux, h.2.1 ▸ hamd64, h.2.2⟩, h.1, h.2.1⟩

theorem tree_format : Exact tree Fields.tree :=
  Format.record (tagged 3 (digest_format.field TreeBinding.digest fun _ =>
    u64_format.field TreeBinding.size fun _ =>
    Format.done (by rintro ⟨⟩; grind))) (by simp) (by simp [Fields.tree])

theorem root_keyed : Keyed root Fields.root (fun binding => [binding.descriptor.digest]) RootOk :=
  Keyed.record (keyed_tagged 4 ((descriptor_keyed _).field RootBinding.descriptor fun _ =>
    (Format.array short 16).keyed.field RootBinding.uuid fun _ =>
    shortString_format.keyed.field RootBinding.formatProfile fun _ =>
    digest_format.keyed.field RootBinding.formatterDigest fun _ =>
    shortString_format.keyed.field RootBinding.formatterRevision fun _ =>
    digest_format.keyed.field RootBinding.builderEnvironmentDigest fun _ =>
    Keyed.done (by rintro ⟨⟩; grind))) (by simp [RootOk]) (by simp [Fields.root]) (by simp)

theorem overlayTemplate_keyed :
    Keyed overlayTemplate Fields.overlayTemplate (fun template => [template.descriptor.digest])
      (fun template => template.descriptor.role = .overlayTemplate) :=
  Keyed.record (u64_format.keyed.field OverlayTemplate.capacity fun _ =>
    (descriptor_keyed _).field OverlayTemplate.descriptor fun _ =>
    Keyed.done (by rintro ⟨⟩; grind)) (by simp) (by simp [Fields.overlayTemplate]) (by simp)

theorem templates_keyed (n : ℕ) (previous : Option OverlayTemplate) :
    Keyed (templates n previous) (fun ts => ts.flatMap Fields.overlayTemplate)
      (fun ts => ts.flatMap fun template => [template.descriptor.digest])
      (fun ts => ts.length = n ∧ Ascending (previous.toList ++ ts)
        ∧ ∀ template ∈ ts, template.descriptor.role = .overlayTemplate) := by
  induction n generalizing previous with
  | zero =>
    refine (Keyed.pure []).congr ?_ ?_ ?_
    · intro ts
      cases previous <;> cases ts <;> simp [Ascending]
    all_goals
      rintro _ rfl
      rfl
  | succ n ih =>
    refine (overlayTemplate_keyed.cons fun template _ => (ih (some template)).require
      (c := (previous.any fun previous => template.capacity ≤ previous.capacity) = true)
      (e := invalid)).congr ?_ (fun _ _ => rfl) (fun _ _ => rfl)
    intro ts
    cases ts with
    | nil => simp
    | cons template ts =>
      have hchain : Ascending (previous.toList ++ template :: ts)
          ↔ ¬ (previous.any fun previous => template.capacity ≤ previous.capacity) = true
            ∧ Ascending (template :: ts) := by
        cases previous with
        | none => simp
        | some previous => simp [Ascending, List.isChain_cons_cons]
      simp only [List.cons.injEq, List.length_cons, Nat.add_right_cancel_iff, hchain, List.mem_cons,
        forall_eq_or_imp, Option.toList_some, List.singleton_append]
      constructor
      · intro h
        obtain ⟨_, _, ⟨rfl, rfl⟩, hrole, hprevious, hlength, hascending, hroles⟩ := h
        exact ⟨hlength, ⟨hprevious, hascending⟩, hrole, hroles⟩
      · intro h
        exact ⟨template, ts, ⟨rfl, rfl⟩, h.2.2.1, h.2.1.1, h.1, h.2.1.2, h.2.2.2⟩

theorem overlay_keyed :
    Keyed overlay Fields.overlay
      (fun binding => binding.templates.map fun template => template.descriptor.digest) OverlayOk := by
  have hcount : Format (refine u16 fun count =>
        if MAX_TEMPLATES < count.toNat then .error limit else .ok count.toNat)
      (fun n => putWord (BitVec.ofNat 16 n)) (· ≤ MAX_TEMPLATES) :=
    u16_format.upTo (fun _ => limit) (by decide)
  refine (keyed_tagged 5 (u16_format.keyed.bind OverlayBinding.uuidDerivationVersion (fun version _ =>
    shortString_format.keyed.bind OverlayBinding.featureProfile (fun featureProfile _ =>
    u64_format.keyed.bind OverlayBinding.minimumCapacity (fun minimum _ =>
    u64_format.keyed.bind OverlayBinding.maximumCapacity (fun maximum _ =>
    hcount.keyed.bind (fun binding => binding.templates.length) (fun count _ =>
    (templates_keyed count none).bind OverlayBinding.templates (fun templates _ =>
    Keyed.pure (⟨version, featureProfile, minimum, maximum, templates⟩ : OverlayBinding))
    ?_) ?_) ?_) ?_) ?_) ?_)).congr ?_ ?_ ?_
  · grind
  · grind
  · grind
  · grind
  · grind
  · grind
  · intro binding
    simp [OverlayOk]
  · intro binding _
    simp [Fields.overlay]
  · intro binding _
    simp [List.map_eq_flatMap]

theorem kernel_keyed :
    Keyed kernel Fields.kernel (fun binding => [binding.descriptor.digest])
      (fun binding => binding.descriptor.role = .kernel ∧ TextOk binding.cpuArchitecture) :=
  Keyed.record (keyed_tagged 6 ((descriptor_keyed _).field KernelBinding.descriptor fun _ =>
    u16_format.keyed.field KernelBinding.elfPvhContractVersion fun _ =>
    digest_format.keyed.field KernelBinding.configDigest fun _ =>
    shortString_format.keyed.field KernelBinding.cpuArchitecture fun _ =>
    Keyed.done (by rintro ⟨⟩; grind))) (by simp) (by simp [Fields.kernel]) (by simp)

theorem initramfs_keyed :
    Keyed initramfs Fields.initramfs (fun binding => [binding.descriptor.digest])
      (fun binding => binding.descriptor.role = .initramfs) :=
  Keyed.record (keyed_tagged 7 ((descriptor_keyed _).field InitramfsBinding.descriptor fun _ =>
    u16_format.keyed.field InitramfsBinding.layoutVersion fun _ =>
    digest_format.keyed.field InitramfsBinding.earlyInitDigest fun _ =>
    Keyed.done (by rintro ⟨⟩; grind))) (by simp) (by simp [Fields.initramfs]) (by simp)

theorem guestAgent_keyed :
    Keyed guestAgent Fields.guestAgent (fun binding => [binding.descriptor.digest])
      (fun binding => binding.descriptor.role = .guestAgent ∧ TextOk binding.buildProvenance) :=
  Keyed.record (keyed_tagged 8 ((descriptor_keyed _).field GuestAgentBinding.descriptor fun _ =>
    shortString_format.keyed.field GuestAgentBinding.buildProvenance fun _ =>
    u16_format.keyed.field GuestAgentBinding.applicationProtocolVersion fun _ =>
    u16_format.keyed.field GuestAgentBinding.handshakeProtocolVersion fun _ =>
    Keyed.done (by rintro ⟨⟩; grind))) (by simp) (by simp [Fields.guestAgent]) (by simp)

theorem commandLine_format :
    Format commandLine Fields.commandLine (fun line => line.length ≤ MAX_COMMAND_LINE ∧ 0 ∉ line) := by
  have hrange (n : ℕ) (hn : decide (n ≤ MAX_COMMAND_LINE) = true) : n < 2 ^ 16 :=
    (of_decide_eq_true hn).trans_lt (by decide)
  exact (tagged 9 (lengthBytes_format hrange)).congr (fun line => by simp) (fun _ _ => rfl)

theorem shape_format : Exact shape Fields.shape :=
  Format.record (tagged 13 (u64_format.field MachineShapeBinding.memoryBytes fun _ =>
    u16_format.field MachineShapeBinding.vcpuCount fun _ =>
    u16_format.field MachineShapeBinding.memorySlotLayoutVersion fun _ =>
    u16_format.field MachineShapeBinding.launchPageLayoutVersion fun _ =>
    Format.done (by rintro ⟨⟩; grind))) (by simp) (by simp [Fields.shape])

theorem captured_keyed :
    Keyed captured Fields.captured
      (fun snapshot => [snapshot.memory.digest, snapshot.overlay.digest, snapshot.state.digest])
      SnapshotOk :=
  Keyed.record (u16_format.keyed.field Snapshot.formatVersion fun _ =>
    (descriptor_keyed _).field Snapshot.memory fun _ =>
    (descriptor_keyed _).field Snapshot.overlay fun _ =>
    (descriptor_keyed _).field Snapshot.state fun _ =>
    u16_format.keyed.field Snapshot.capturePointVersion fun _ =>
    Keyed.done (by rintro ⟨⟩; grind)) (by simp [SnapshotOk]) (by simp [Fields.captured]) (by simp)

theorem snapshot_keyed :
    Keyed snapshot Fields.snapshot
      (fun binding => binding.elim [] fun snapshot =>
        [snapshot.memory.digest, snapshot.overlay.digest, snapshot.state.digest])
      (fun binding => ∀ snapshot ∈ binding, SnapshotOk snapshot) :=
  keyed_tagged 14 (Keyed.optional presence_format captured_keyed)

theorem repair_format : Exact repair Fields.repair :=
  Format.record (tagged 15 (u16_format.field RepairBinding.policyVersion fun _ =>
    digest_format.field RepairBinding.readinessCommandDigest fun _ =>
    Format.done (by rintro ⟨⟩; grind))) (by simp) (by simp [Fields.repair])

theorem probe_format :
    Format (optional presence
        (lengthBytes fun length => length ≠ 0 ∧ length ≤ MAX_WORKLOAD_PROBE_BYTES))
      Fields.probe (fun value => ∀ probe ∈ value, ProbeOk probe) := by
  have hrange (n : ℕ) (hn : decide (n ≠ 0 ∧ n ≤ MAX_WORKLOAD_PROBE_BYTES) = true) : n < 2 ^ 16 :=
    (of_decide_eq_true hn).2.trans_lt (by decide)
  refine (presence_format.optional (lengthBytes_format hrange)).congr ?_ (fun _ _ => rfl)
  intro value
  simp [ProbeOk, and_assoc]

theorem template_format :
    Format template Fields.template (fun binding => ∀ probe ∈ binding.workloadProbe, ProbeOk probe) := by
  have hclass := u8_format.coded (e := fun _ => invalid) NetworkPolicyClass.fromCode_code
    fun _ _ => NetworkPolicyClass.code_of_fromCode
  exact Format.record (tagged 16 (u64_format.field TemplateBinding.writableStorageBytes fun _ =>
    hclass.field TemplateBinding.networkPolicyClass fun _ =>
    digest_format.field TemplateBinding.networkPolicyDigest fun _ =>
    probe_format.field TemplateBinding.workloadProbe fun _ =>
    u64_format.field TemplateBinding.ttlSeconds fun _ =>
    Format.done (by rintro ⟨⟩; grind))) (by simp) (by simp [Fields.template])

theorem header_format (magic : Bytes 8) :
    Exact (header magic) (fun _ => magic.1 ++ putWord MANIFEST_SCHEMA_VERSION) := by
  refine Format.congr (Format.bind (fun _ => ()) (Format.array short 8).expect (fun _ _ => u16_format.expect) ?_)
    (by simp) (fun _ _ => rfl)
  simp

theorem manifest_keyed (magic : Bytes 8) :
    Keyed (manifest magic) (Fields.manifest magic) GenerationManifest.digests Encodable := by
  refine Keyed.record ((header_format magic).keyed.field (fun _ => ()) fun _ =>
    u16_format.keyed.field GenerationManifest.compilerPolicyVersion fun _ =>
    source_format.keyed.field GenerationManifest.source fun _ =>
    tree_format.keyed.field GenerationManifest.tree fun _ =>
    root_keyed.field GenerationManifest.root fun _ =>
    overlay_keyed.field GenerationManifest.overlay fun _ =>
    kernel_keyed.field GenerationManifest.kernel fun _ =>
    initramfs_keyed.field GenerationManifest.initramfs fun _ =>
    guestAgent_keyed.field GenerationManifest.guestAgent fun _ =>
    commandLine_format.keyed.field GenerationManifest.commandLine fun _ =>
    (contract_format 10).keyed.field GenerationManifest.machineContract fun _ =>
    (contract_format 11).keyed.field GenerationManifest.deviceContract fun _ =>
    (contract_format 12).keyed.field GenerationManifest.cpuTemplate fun _ =>
    shape_format.keyed.field GenerationManifest.shape fun _ =>
    snapshot_keyed.field GenerationManifest.snapshot fun _ =>
    repair_format.keyed.field GenerationManifest.repair fun _ =>
    template_format.keyed.field GenerationManifest.template fun _ =>
    Keyed.done (by rintro ⟨⟩; grind)) ?_ (by simp [Fields.manifest]) ?_
  · intro value
    simp [encodable_iff]
  · intro value
    cases hsnapshot : value.snapshot <;>
      simp [GenerationManifest.digests, GenerationManifest.descriptors, hsnapshot]

end Decoder

theorem decodeWith_eq_ok {magic : Bytes 8} {manifest : GenerationManifest} {bytes : List UInt8} :
    decodeWith magic bytes = .ok manifest
      ↔ Encodable manifest ∧ manifest.digests.Nodup ∧ bytes = Fields.manifest magic manifest
        ∧ bytes.length ≤ MAX_MANIFEST_BYTES := by
  have hformat := Decoder.manifest_keyed magic []
  simp only [decodeWith, bind_eq_ok]
  constructor
  · intro h
    obtain ⟨_, hlength, ⟨⟨read, seen⟩, rest⟩, hread, _, hrest, hresult⟩ := h
    cases hresult
    obtain rfl : rest = [] := ensure_eq_ok.mp hrest
    obtain ⟨⟨hok, hfresh, -⟩, hbytes⟩ := hformat.sound bytes _ _ hread
    exact ⟨hok, fresh_nil.mp hfresh, by simpa using hbytes, ensure_eq_ok.mp hlength⟩
  · intro h
    obtain ⟨hok, hdistinct, hbytes, hlength⟩ := h
    have hread := hformat.complete (manifest, manifest.digests) [] ⟨hok, fresh_nil.mpr hdistinct, rfl⟩
    rw [List.append_nil, ← hbytes] at hread
    exact ⟨(), ensure_eq_ok.mpr hlength, _, hread, (), rfl, rfl⟩

/-! ## Round trips -/

theorem manifest_ne_candidate (ready candidate : GenerationManifest) :
    Fields.manifest MAGIC ready ≠ Fields.manifest CANDIDATE_MAGIC candidate := by
  intro h
  have hmagic := List.append_inj_left h (MAGIC.2.trans CANDIDATE_MAGIC.2.symm)
  exact absurd hmagic (by decide)

/-- An encoded manifest is read back exactly when its descriptors carry distinct digests; what either
decoder accepts is encoded to the same bytes; and no bytes are accepted by both decoders. -/
theorem manifest_round_trip_iff (manifest : GenerationManifest) (bytes : List UInt8) :
    (encodeManifest manifest = .ok bytes → (decodeManifest bytes = .ok manifest ↔ manifest.digests.Nodup))
    ∧ (encodeCandidate manifest = .ok bytes → (decodeCandidate bytes = .ok manifest ↔ manifest.digests.Nodup))
    ∧ (decodeManifest bytes = .ok manifest → encodeManifest manifest = .ok bytes)
    ∧ (decodeCandidate bytes = .ok manifest → encodeCandidate manifest = .ok bytes)
    ∧ ¬ ((decodeManifest bytes).isOk ∧ (decodeCandidate bytes).isOk) := by
  have hread : ∀ magic, encodeWith magic manifest = .ok bytes →
      (decodeWith magic bytes = .ok manifest ↔ manifest.digests.Nodup) := by
    intro magic h
    obtain ⟨hok, hbytes, hlength⟩ := encodeWith_eq_ok.mp h
    rw [decodeWith_eq_ok]
    exact ⟨fun h => h.2.1, fun h => ⟨hok, h, hbytes, hlength⟩⟩
  have hwrite : ∀ magic, decodeWith magic bytes = .ok manifest → encodeWith magic manifest = .ok bytes := by
    intro magic h
    obtain ⟨hok, -, hbytes, hlength⟩ := decodeWith_eq_ok.mp h
    exact encodeWith_eq_ok.mpr ⟨hok, hbytes, hlength⟩
  refine ⟨hread MAGIC, hread CANDIDATE_MAGIC, hwrite MAGIC, hwrite CANDIDATE_MAGIC, ?_⟩
  rintro ⟨hready, hcandidate⟩
  obtain ⟨ready, hready⟩ := isOk_iff_exists.mp hready
  obtain ⟨candidate, hcandidate⟩ := isOk_iff_exists.mp hcandidate
  obtain ⟨-, -, hbytes, -⟩ := decodeWith_eq_ok.mp hready
  obtain ⟨-, -, hbytes', -⟩ := decodeWith_eq_ok.mp hcandidate
  exact manifest_ne_candidate ready candidate (hbytes.symm.trans hbytes')

/-! ### A manifest that cannot be read back -/

/-- A digest of one repeated byte. -/
def digestOf (byte : UInt8) : Sha256Digest := .fill 32 byte

def linuxAmd64 : Template.OciPlatform := ⟨"linux", "amd64", none, Template.platformRule_linux⟩

/-- A manifest whose kernel and guest agent have the given digests. -/
def sampleManifest (kernel agent : Sha256Digest) : GenerationManifest where
  compilerPolicyVersion := 1
  source := ⟨digestOf 1, linuxAmd64⟩
  tree := ⟨digestOf 2, 100⟩
  root := ⟨⟨.erofsRoot, digestOf 3, 4096⟩, .fill 16 7, "erofs", digestOf 4, "1.9.4", digestOf 5⟩
  overlay := ⟨1, "ext4", 0, 0, []⟩
  kernel := ⟨⟨.kernel, kernel, 1000⟩, 1, digestOf 6, "x86_64"⟩
  initramfs := ⟨⟨.initramfs, digestOf 8, 2000⟩, 3, digestOf 9⟩
  guestAgent := ⟨⟨.guestAgent, agent, 1000⟩, "agent", 1, 1⟩
  commandLine := [97]
  machineContract := ⟨1, digestOf 10⟩
  deviceContract := ⟨1, digestOf 11⟩
  cpuTemplate := ⟨1, digestOf 12⟩
  shape := ⟨0x8000000, 1, 1, 3⟩
  snapshot := none
  repair := ⟨1, digestOf 13⟩
  template := ⟨0, .isolated, digestOf 14, none, 60⟩

/-- A kernel and a guest agent with the same bytes are encoded, and the result is refused. -/
theorem shared_digest_not_read_back :
    (encodeManifest (sampleManifest (digestOf 20) (digestOf 20))).isOk = true
    ∧ (encodeManifest (sampleManifest (digestOf 20) (digestOf 20)) >>= decodeManifest)
      = .error invalid := by
  decide +kernel

end Soma.Generation
