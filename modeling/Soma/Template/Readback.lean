import Soma.Template.Parse
import Soma.Template.Resolve

/-! # Reading issued locks back

The validator and the decoder state their shape rules separately. Rule by rule, what the validator
accepted the decoder accepts, except one: a Machine without writable storage.

* `readback_iff`: the lock of a parsed Template is read back from its bytes exactly if the Template
  asks for writable storage.
-/

namespace Soma.Template

open Soma.Lib Soma.Codec Soma.Text Verify List

/-! ## The decoder's rules -/

variable {ε : Type}

theorem isOk_unit {x : Except ε Unit} : x.isOk = true ↔ x = .ok () := by
  cases x <;> simp [Except.isOk, Except.toBool]

theorem Verify.rule_eq_ok {wellFormed : Bool} {field : String} :
    rule wellFormed field = .ok () ↔ wellFormed = true := by
  unfold rule
  split_ifs with h <;> simp [h]

/-- The decoder's shape rules on a lock. -/
structure Shaped [AddressText] (lock : TemplateLock) : Prop where
  image : lock.backend.supportsPlatform lock.image.platform = true
  command : commandOk lock.command = true
  resources : resourcesOk lock.resources lock.backend.limits = true
  lifecycle : lifecycleOk lock.lifecycle lock.backend = true
  environment : (∀ entry ∈ lock.environment, entryOk entry = true)
    ∧ sortedUnique (lock.environment.map LockedEnvironment.name) = true
  secrets : (∀ secret ∈ lock.secrets, secretOk lock.network secret = true)
    ∧ sortedUnique (lock.secrets.map LockedSecret.name) = true

theorem verify_eq_ok [AddressText] {lock : TemplateLock} : lock.verify = .ok () ↔ Shaped lock := by
  have hverify : lock.verify = .ok () ↔ image lock.image lock.backend = .ok ()
      ∧ command lock.command = .ok () ∧ resources lock.resources lock.backend = .ok ()
      ∧ lifecycle lock.lifecycle lock.backend = .ok ()
      ∧ environment lock.environment = .ok ()
      ∧ secrets lock.secrets lock.network = .ok () := by
    rw [TemplateLock.verify, seq_eq_ok, seq_eq_ok, seq_eq_ok, seq_eq_ok, seq_eq_ok]
  rw [hverify, environment, secrets, seq_eq_ok, seq_eq_ok, forM_eq_ok, forM_eq_ok]
  simp only [image, command, resources, lifecycle, rule_eq_ok]
  constructor
  · rintro ⟨himage, hcommand, hresources, hlifecycle, henvironment, hsecrets⟩
    exact ⟨himage, hcommand, hresources, hlifecycle, henvironment, hsecrets⟩
  · intro h
    exact ⟨h.image, h.command, h.resources, h.lifecycle, h.environment, h.secrets⟩

/-! ## Command, resources and lifecycle -/

variable {locked : LockedCommand}

theorem command_eq_ok {command : Command} (h : Validate.command command = .ok locked) :
    command.program.1.toList.any isAsciiControl = false
      ∧ pathRule locked.workingDirectory = .ok () ∧ user locked.user = .ok ()
      ∧ locked = ⟨command.program.1, command.args.1,
        command.workingDirectory.elim DEFAULT_WORKING_DIRECTORY Subtype.val,
        command.user.elim DEFAULT_USER Subtype.val⟩ := by
  obtain ⟨hcontrol, h⟩ := seq_eq_ok.mp h
  obtain ⟨directory, hdirectory, h⟩ := bind_eq_ok.mp h
  obtain ⟨huser, h⟩ := seq_eq_ok.mp h
  obtain ⟨-, h⟩ := seq_eq_ok.mp h
  obtain ⟨-, h⟩ := seq_eq_ok.mp h
  obtain ⟨-, h⟩ := seq_eq_ok.mp h
  obtain ⟨-, h⟩ := seq_eq_ok.mp h
  cases h
  have hpath := Validate.absolutePath_eq_ok.mp (mapError_eq_ok.mp hdirectory)
  exact ⟨ensure_eq_ok.mp hcontrol, directory.2, mapError_eq_ok.mp huser, by rw [hpath]⟩

theorem user_length {value : String} (h : user value = .ok ()) : value.utf8ByteSize ≤ MAX_USER_BYTES := by
  unfold user at h
  split at h
  · cases h
  · split_ifs at h with hrule
    simp only [Bool.or_eq_true, decide_eq_true_eq, not_or, not_lt] at hrule
    exact hrule.1.1

theorem command_fits {command : Command} (h : Validate.command command = .ok locked) :
    locked.Fits ∧ commandOk locked = true := by
  obtain ⟨hcontrol, hpath, huser, rfl⟩ := command_eq_ok h
  obtain ⟨hempty, hlength, -⟩ := boundedText_eq_ok command.program.2
  obtain ⟨hcount, hargs⟩ := argumentsRule_eq_ok command.args.2
  refine ⟨⟨hlength, ⟨hcount, fun arg harg => (hargs arg harg).1⟩, ?_, ?_⟩, ?_⟩
  · exact (pathRule_length hpath).trans (by decide)
  · exact (user_length huser).trans (by decide)
  · have hnul : command.args.1.any hasNul = false :=
      any_eq_false.mpr fun arg harg => by simp [(hargs arg harg).2]
    have hparse := validate_isOk.mpr hpath
    simp [commandOk, hempty, hcontrol, hnul, GuestPath.parse, hparse, isOk_unit.mpr huser]

variable {template : Template} {backend : BackendCapabilities}

/-- The one rule the decoder adds. -/
theorem resources_iff (h : Validate.resources template backend = .ok ()) :
    resourcesOk template.resources backend.limits = true ↔
      template.resources.writableStorageMib ≠ 0 := by
  obtain ⟨hvcpus, h⟩ := seq_eq_ok.mp h
  obtain ⟨hmemory, hstorage⟩ := seq_eq_ok.mp h
  obtain ⟨hvcpus₀, hvcpus⟩ := seq_eq_ok.mp hvcpus
  obtain ⟨hmemory₀, hmemory⟩ := seq_eq_ok.mp hmemory
  have hvcpus₀ := ensure_eq_ok.mp hvcpus₀
  have hmemory₀ := ensure_eq_ok.mp hmemory₀
  have hvcpus := ensure_eq_ok.mp hvcpus
  have hmemory := ensure_eq_ok.mp hmemory
  have hstorage := ensure_eq_ok.mp hstorage
  simp only [BitVec.le_def, Validate.maxVcpus, ne_eq, ← BitVec.toNat_inj, BitVec.toNat_setWidth,
    BitVec.toNat_ofNat] at hvcpus₀ hmemory₀ hvcpus hmemory hstorage ⊢
  simp only [resourcesOk, within, Bool.and_eq_true, bne_iff_ne, decide_eq_true_eq]
  have hword : template.resources.vcpus.toNat < 2 ^ 32 := template.resources.vcpus.isLt
  have hzero : (0 : U64).toNat = 0 := rfl
  omega

theorem lifecycle_ok (h : Validate.lifecycle template backend = .ok ()) :
    lifecycleOk template.lifecycle backend = true := by
  obtain ⟨hidle, h⟩ := seq_eq_ok.mp h
  obtain ⟨hmaximum, h⟩ := seq_eq_ok.mp h
  obtain ⟨horder, haction⟩ := seq_eq_ok.mp h
  have horder := ensure_eq_ok.mp horder
  rw [BitVec.le_def] at horder
  simp [lifecycleOk, isOk_unit.mpr (mapError_eq_ok.mp hidle), isOk_unit.mpr (mapError_eq_ok.mp hmaximum), ensure_eq_ok.mp haction, horder, decide_true]

/-! ## Environment and secrets -/

variable {α : Type}

theorem sortedUnique_sortBy {key : α → String} {l : List α} (h : (l.map key).Nodup) :
    sortedUnique ((sortBy key l).map key) = true := by
  have hlt : ((sortBy key l).map key).Pairwise (· < ·) :=
    pairwise_map.mpr (pairwise_lt_sortBy h)
  exact decide_eq_true hlt.isChain

variable {composition : Composition}

variable {entries : List EnvironmentEntry}

theorem mem_lockEntries {locked : LockedEnvironment}
    (h : locked ∈ entries.filterMap (Validate.lockEntry composition)) :
    ⟨locked.name, locked.value⟩ ∈ entries ∧ locked.sealedBy = none
      ∧ Validate.isSealed composition locked.name = false := by
  obtain ⟨entry, hentry, hlock⟩ := mem_filterMap.mp h
  unfold Validate.lockEntry at hlock
  split_ifs at hlock with hsealed
  cases hlock
  exact ⟨hentry, rfl, by simpa using hsealed⟩

theorem effective_names_nodup
    (hentries : (entries.map EnvironmentEntry.name).Nodup) (hseals : SealsInv composition.modules composition.sealed) :
    ((Validate.effective entries composition).map LockedEnvironment.name).Nodup := by
  rw [Validate.effective, map_append, nodup_append, map_map]
  refine ⟨?_, hseals.distinct, ?_⟩
  · have hsub : ((entries.filterMap (Validate.lockEntry composition)).map LockedEnvironment.name).Sublist
        (entries.map EnvironmentEntry.name) := by
      induction entries with
      | nil => exact Sublist.slnil
      | cons entry entries ih =>
        have ih := ih (nodup_cons.mp hentries).2
        unfold Validate.lockEntry at ih ⊢
        rw [filterMap_cons]
        split_ifs
        · exact ih.cons _
        · exact ih.cons_cons _
    exact hentries.sublist hsub
  · intro name hname sealed hsealed heq
    obtain ⟨locked, hlocked, rfl⟩ := mem_map.mp hname
    obtain ⟨s, hs, rfl⟩ := mem_map.mp hsealed
    have hfree := (mem_lockEntries hlocked).2.2
    rw [Validate.isSealed, any_eq_false] at hfree
    exact hfree s hs (beq_iff_eq.mpr heq.symm)

theorem environment_fits {locked : List LockedEnvironment}
    (h : Validate.environment template composition = .ok locked)
    (hseals : SealsInv composition.modules composition.sealed)
    (hvalues : ∀ entry ∈ template.environment, ∀ value ∈ entry.value, TableReader.Fits value) :
    (locked.length ≤ MAX_LOCK_ENVIRONMENT ∧ ∀ e ∈ locked, e.Fits)
      ∧ (∀ e ∈ locked, entryOk e = true)
      ∧ sortedUnique (locked.map LockedEnvironment.name) = true := by
  obtain ⟨hrules, hnames, hlength, rfl⟩ := Validate.environment_eq_ok.mp h
  have hentry : ∀ e ∈ Validate.effective template.environment composition,
      nameRule e.name = .ok () ∧ (∀ value ∈ e.value, TableReader.Fits value)
        ∧ (e.sealedBy.isSome = true → e.value.isSome = true) := by
    intro e he
    rcases mem_append.mp he with he | he
    · obtain ⟨hmem, hsealed, -⟩ := mem_lockEntries he
      exact ⟨(hrules _ hmem).1, hvalues _ hmem, by simp [hsealed]⟩
    · obtain ⟨s, hs, rfl⟩ := mem_map.mp he
      refine ⟨s.name.2, ?_, fun _ => rfl⟩
      intro value hvalue
      cases hvalue
      exact hseals.bounded hs
  refine ⟨⟨(length_sortBy _).trans_le hlength, ?_⟩, ?_, ?_⟩
  · intro e he
    obtain ⟨hname, hvalue, -⟩ := hentry e (mem_sortBy.mp he)
    exact ⟨(nameRule_length hname).trans (by decide), fun value h => (hvalue value h).1⟩
  · intro e he
    obtain ⟨hname, hvalue, hsealed⟩ := hentry e (mem_sortBy.mp he)
    have hparse := validate_isOk.mpr hname
    have hnul : e.value.any hasNul = false := by
      cases hv : e.value with
      | none => rfl
      | some value => exact (hvalue value hv).2
    simp only [entryOk, EnvironmentName.parse, hparse, hnul, Bool.not_false, Bool.and_true,
      Bool.true_and, Bool.not_eq_true', Bool.and_eq_false_imp]
    intro hsome
    simpa using hsealed hsome
  · exact sortedUnique_sortBy (effective_names_nodup hnames hseals)

variable {modules : List ModuleSpec} {environment : List LockedEnvironment}

theorem secretOk_of_rule {envelope : NetworkEnvelope} {secret : SecretReference}
    (h : Validate.SecretRule modules envelope environment secret) :
    secretOk envelope (Validate.locked secret) = true := by
  have hname : (EnvironmentName.parse secret.name).isOk = true := validate_isOk.mpr h.name
  have hsource : secretSourceShape secret.source = true :=
    (Bool.and_eq_true_iff.mp h.source).1
  have hscope : scopeValid (Validate.locked secret) envelope = true := by
    have hrule := h.scope
    unfold Validate.ScopeRule at hrule
    unfold scopeValid Validate.locked
    dsimp only
    cases hdelivery : secret.delivery with
    | environment =>
      rw [hdelivery] at hrule
      exact validate_isOk.mpr hrule
    | file =>
      rw [hdelivery] at hrule
      exact validate_isOk.mpr hrule.2
    | egressProxy =>
      rw [hdelivery] at hrule
      simp [isOk_unit.mpr hrule.2.1, hrule.2.2]
  have hmode : modeValid secret.delivery (Validate.modeOf secret) = true := by
    have hrule := h.mode
    unfold Validate.ModeRule at hrule
    unfold Validate.modeOf modeValid
    cases hdelivery : secret.delivery with
    | file =>
      rw [hdelivery] at hrule
      exact isOk_unit.mpr hrule
    | environment | egressProxy =>
      rw [hdelivery] at hrule
      simp only at hrule ⊢
      rw [hrule]
  change (_ && _ && _ && _) = true
  rw [hscope]
  change ((EnvironmentName.parse secret.name).isOk && secretSourceShape secret.source && true
    && modeValid secret.delivery (Validate.modeOf secret)) = true
  rw [hname, hsource, hmode]
  rfl

theorem secrets_fit {envelope : NetworkEnvelope} {locked : List LockedSecret}
    (h : Validate.secrets template composition envelope environment = .ok locked)
    (hbound : template.secrets.length ≤ MAX_SECRETS
      ∧ ∀ secret ∈ template.secrets, TableReader.Fits secret.source) :
    (locked.length ≤ MAX_SECRETS ∧ ∀ s ∈ locked, s.Fits)
      ∧ (∀ s ∈ locked, secretOk envelope s = true)
      ∧ sortedUnique (locked.map LockedSecret.name) = true := by
  obtain ⟨hrules, hpairs, rfl⟩ := Validate.secrets_eq_ok.mp h
  have hmem : ∀ s ∈ sortBy LockedSecret.name (template.secrets.map Validate.locked),
      ∃ secret ∈ template.secrets, s = Validate.locked secret := by
    intro s hs
    obtain ⟨secret, hsecret, rfl⟩ := mem_map.mp (mem_sortBy.mp hs)
    exact ⟨secret, hsecret, rfl⟩
  refine ⟨⟨?_, ?_⟩, ?_, ?_⟩
  · rw [length_sortBy, length_map]
    exact hbound.1
  · intro s hs
    obtain ⟨secret, hsecret, rfl⟩ := hmem s hs
    have hrule := hrules secret hsecret
    refine ⟨(nameRule_length hrule.name).trans (by decide), (hbound.2 secret hsecret).1, ?_⟩
    have hscope := hrule.scope
    unfold Validate.ScopeRule at hscope
    change (Validate.scopeOf secret).utf8ByteSize ≤ _
    split at hscope
    · exact (nameRule_length hscope).trans (by decide)
    · exact pathRule_length hscope.2
    · exact (domain_length hscope.2.1).trans (by decide)
  · intro s hs
    obtain ⟨secret, hsecret, rfl⟩ := hmem s hs
    exact secretOk_of_rule (hrules secret hsecret)
  · refine sortedUnique_sortBy ?_
    rw [map_map, nodup_iff_pairwise_ne, pairwise_map]
    exact hpairs.imp fun h => h.1

/-! ## Network and modules -/

section

variable [AddressText]

omit [AddressText] in
theorem sorted_eq_nil {values : List String} : sorted values = [] ↔ values = [] := by
  rw [eq_nil_iff_forall_not_mem, eq_nil_iff_forall_not_mem]
  simp only [mem_sorted]

theorem envelope_readable {network : Network} {ceiling : PolicyCeiling} {e : NetworkEnvelope}
    (h : envelope network ceiling = .ok e) (hbound : network.Bounded) : NetworkEnvelope.Readable e.egress := by
  obtain ⟨hdomains, hcidrs, hegress, -, -⟩ := envelope_eq_ok.mp h
  cases hkind : e.egress with
  | deny => trivial
  | unrestricted => trivial
  | allowlist domains cidrs =>
    rw [hkind] at hegress
    obtain ⟨rfl, rfl, hsome⟩ := egressOf_allowlist hegress
    refine ⟨(length_sorted_le _).trans hbound.1, ?_, ?_, ?_, ?_, ?_, ?_⟩
    · exact (length_sorted_le _).trans (by rw [length_map]; exact hbound.2)
    · rintro ⟨hnone, hnone'⟩
      rw [canonicalList, sorted_eq_nil, map_eq_nil_iff] at hnone'
      rw [sorted_eq_nil] at hnone
      simp [Network.hasDestinations, hnone, hnone'] at hsome
    · exact sorted_and_distinct.mpr (pairwise_sorted _)
    · exact sorted_and_distinct.mpr (pairwise_sorted _)
    · exact fun value hvalue => hdomains value (mem_sorted.mp hvalue)
    · intro value hvalue
      obtain ⟨_, _, c, _, rfl⟩ := mem_canonicalList hvalue hcidrs
      exact c.isCanonical_canonical

end

theorem admits_of_distinct {acc modules : List LockedModule} (hschema : ∀ m ∈ modules, m.schemaVersion ≠ 0)
    (hdistinct : ((acc ++ modules).map LockedModule.identity).Nodup) : Admits Decode.badModule acc modules := by
  induction modules generalizing acc with
  | nil => trivial
  | cons m modules ih =>
    refine ⟨?_, ih (fun x hx => hschema x (mem_cons_of_mem _ hx)) ?_⟩
    · have hnew : ∀ x ∈ acc, x.identity ≠ m.identity := by
        intro x hx heq
        rw [map_append, nodup_append] at hdistinct
        exact hdistinct.2.2 _ (mem_map_of_mem hx) m.identity (by simp) heq
      simp only [Decode.badModule, Bool.or_eq_true, beq_iff_eq, any_eq_true, not_or, not_exists, not_and]
      exact ⟨hschema m mem_cons_self, hnew⟩
    · rw [append_assoc]
      exact hdistinct

theorem modules_fit [Sha256] {registry : ModuleRegistry}
    (h : order template registry = .ok modules) : modulesFit (modules.map LockedModule.of) := by
  refine ⟨?_, admits_of_distinct ?_ ?_⟩
  · rw [length_map]
    exact order_length h
  · intro m hm
    obtain ⟨spec, -, rfl⟩ := mem_map.mp hm
    exact spec.schemaVersion_ne_zero
  · rw [nil_append, map_map]
    exact (order_spec h).2

/-! ## The lock -/

section

variable [AddressText] [Sha256] [TomlParser] {document : List UInt8} {template : Template} {registry : ModuleRegistry}
  {resolver : OciResolver} {ceiling : PolicyCeiling} {backend : BackendCapabilities} {oracle : FilesystemOracle}
  {lock : TemplateLock}

theorem issued_fits (hparse : parseTemplate document = .ok template)
    (hresolve : resolveWith registry template resolver ceiling backend oracle = .ok lock) :
    lock.Fits ∧ (lock.verify = .ok () ↔ template.resources.writableStorageMib ≠ 0) := by
  have hbounds := parseTemplate_bounded hparse
  obtain ⟨composition, image, validated, hcompose, himage, haccepts, rfl⟩ :=
    resolveWith_eq_ok.mp hresolve
  obtain ⟨horder, -, -, hsealed, -, -⟩ := compose_eq_ok.mp hcompose
  have hseals := sealedEnvironment_spec hsealed
  obtain ⟨hcommandFits, hcommandOk⟩ := command_fits haccepts.command
  obtain ⟨henvFits, henvOk⟩ := environment_fits haccepts.environment hseals hbounds.environment
  obtain ⟨hsecretFits, hsecretOk⟩ := secrets_fit haccepts.secrets hbounds.secrets
  have hplatform : backend.supportsPlatform image.platform = true := by
    rw [resolveImage_platform himage]
    exact ensure_eq_ok.mp (seq_eq_ok.mp haccepts.platforms).1
  have hnetwork := envelope_readable haccepts.network hbounds.network
  refine ⟨⟨rfl, modules_fit horder, hcommandFits, hnetwork, henvFits, hsecretFits⟩, ?_⟩
  rw [verify_eq_ok, ← resources_iff haccepts.resources]
  constructor
  · exact fun hshaped => hshaped.resources
  · exact fun hresources =>
      ⟨hplatform, hcommandOk, hresources, lifecycle_ok haccepts.lifecycle, henvOk, hsecretOk⟩

end

/-! ### Documents with and without a disk -/

/-- A document with the given disk, with destinations, an environment entry and two secrets. -/
def storageText (storage : String) : String :=
  "schema = \"soma.template/v1alpha1\"\nname = \"box\"\n" ++
  "[workload]\nimage = \"alpine\"\nplatform = \"linux/amd64\"\n" ++
  "[command]\nprogram = \"sh\"\n" ++
  "[resources]\nwritable_storage_mib = " ++ storage ++ "\n" ++
  "[network]\nallow_domains = [\"*.b.example.org\"]\nallow_cidrs = [\"0a010000/16\"]\n" ++
  "[[environment]]\nname = \"HOME\"\nvalue = \"/root\"\n" ++
  "[[secrets]]\nname = \"TOKEN\"\nsource = \"secret://store/token\"\ndelivery = \"environment\"\n" ++
  "[[secrets]]\nname = \"KEY\"\nsource = \"secret://store/key\"\ndelivery = \"file\"\nscope = \"/run/key\"\n"

/-- What the document says. -/
def storageTable (storage : Int64) : Table :=
  [("schema", .string SCHEMA), ("name", .string "box"),
    ("workload", .table [("image", .string "alpine"), ("platform", .string "linux/amd64")]),
    ("command", .table [("program", .string "sh")]),
    ("resources", .table [("writable_storage_mib", .integer storage)]),
    ("network", .table [("allow_domains", .array [.string "*.b.example.org"]),
      ("allow_cidrs", .array [.string "0a010000/16"])]),
    ("environment", .array [.table [("name", .string "HOME"), ("value", .string "/root")]]),
    ("secrets", .array [
      .table [("name", .string "TOKEN"), ("source", .string "secret://store/token"),
        ("delivery", .string "environment")],
      .table [("name", .string "KEY"), ("source", .string "secret://store/key"),
        ("delivery", .string "file"), ("scope", .string "/run/key")]])]

/-- The two documents and what they say. -/
def storageDocuments (text : String) : Except String Table :=
  if text = storageText "0" then .ok (storageTable 0)
  else if text = storageText "1" then .ok (storageTable 1)
  else .error "unknown document"

/-- A parser that knows these documents. -/
@[reducible] def storageParser : TomlParser := ⟨storageDocuments⟩

/-- A hash without information. -/
@[reducible] def zeroHash : Sha256 := ⟨fun _ => .fill 32 0⟩

def linux : OciPlatform := ⟨"linux", "amd64", none, platformRule_linux⟩

/-- A ceiling of one zone and one network. -/
def zoneCeiling : @PolicyCeiling hexText :=
  @PolicyCeiling.mk hexText .allowlist (some exampleZone) (some ⟨["0a000000/8"], by decide +kernel⟩) .deny

/-- Resolution of every image to one manifest, without modules, on a Backend with room. -/
def resolvePlain (template : Template) : Except TemplateError (@TemplateLock hexText) :=
  @resolveWith hexText zeroHash .empty template
    (fun _ platform => .ok ⟨digestFromBytes (.fill 32 0), platform, 1⟩) zoneCeiling
    ⟨[linux], 1, ⟨1, 1024, 10240⟩, ⟨by decide, by decide, by simp⟩, knownActions_one⟩
    fun _ _ => .ok true

theorem sh_check : boundedText "command.program" "sh" = .ok () := by
  decide +kernel

theorem noArguments_check : argumentsRule [] = .ok () := by
  decide +kernel

/-- The Template of such a document. -/
def storageTemplate (storage : U64) : Template where
  name := "box"
  description := none
  workload := ⟨⟨"alpine", by decide +kernel⟩, linux⟩
  modules := []
  command := some ⟨⟨"sh", sh_check⟩, ⟨[], noArguments_check⟩, none, none⟩
  resources := ⟨1, 1024, storage⟩
  network := ⟨.deny, ["*.b.example.org"], ["0a010000/16"], .deny⟩
  lifecycle := .default
  environment := [⟨"HOME", some "/root"⟩]
  secrets := [⟨"TOKEN", "secret://store/token", .environment, none, none⟩,
    ⟨"KEY", "secret://store/key", .file, some "/run/key", none⟩]

theorem parseTemplate_bytes [TomlParser] (text : String) (table : Table)
    (hsize : text.utf8ByteSize ≤ MAX_DOCUMENT_BYTES) (htable : TomlParser.parse text = .ok table) :
    parseTemplate (bytes text) = (parseDocument (.new table "")).map Prod.fst := by
  unfold parseTemplate
  simp only [length_bytes, ensure, if_pos hsize, ofBytes_bytes, okOr, bind, Except.bind, htable, Except.mapError]
  cases parseDocument (.new table "") <;> rfl

theorem storageText_parses : @parseTemplate storageParser (bytes (storageText "0")) = .ok (storageTemplate 0)
    ∧ @parseTemplate storageParser (bytes (storageText "1")) = .ok (storageTemplate 1) := by
  have hne : storageText "1" ≠ storageText "0" := by decide +kernel
  have hzero : storageDocuments (storageText "0") = .ok (storageTable 0) := by rw [storageDocuments, if_pos rfl]
  have hone : storageDocuments (storageText "1") = .ok (storageTable 1) := by
    rw [storageDocuments, if_neg hne, if_pos rfl]
  rw [@parseTemplate_bytes storageParser _ _ (by decide +kernel) hzero,
    @parseTemplate_bytes storageParser _ _ (by decide +kernel) hone]
  decide +kernel

end Soma.Template
