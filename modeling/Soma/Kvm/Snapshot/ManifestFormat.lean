import Soma.Kvm.Snapshot.Manifest

/-! # The manifest format

What the manifest reader accepts. A header is read back exactly, once its memory descriptor is one of its
own page size and it has a virtual CPU. A list of sections of known roles is read back exactly; of a list
with unknown roles only the known sections remain.
-/

namespace Soma.Kvm.Snapshot

open Soma.Lib Soma.Codec Reader List SectionRole

/-! ## Header -/

theorem MemoryDescriptor.new_eq_ok {digest : Digest} {size : U64} {pageSize : U32} {memory : MemoryDescriptor} :
    new digest size pageSize = .ok memory ↔ memory.check pageSize = .ok () ∧ (digest, size) = (memory.digest, memory.size) := by
  rw [new, seq_eq_ok]
  constructor
  all_goals
    rintro ⟨hcheck, h⟩
    cases h
    exact ⟨hcheck, rfl⟩

theorem MemoryDescriptor.decode_format (pageSize : U32) :
    Format (decode pageSize) encode (fun memory => memory.check pageSize = .ok ()) :=
  (((bytes_format 32).pair u64_format).refineOn (fun memory => memory.check pageSize = .ok ())
    (fun memory => (memory.digest, memory.size)) (fun _ h => new_eq_ok.mpr ⟨h, rfl⟩)
    (fun _ _ h => ⟨(new_eq_ok.mp h).1, (new_eq_ok.mp h).2.symm⟩)).congr (by simp) (fun _ _ => rfl)

theorem HostCapability.fromCode_code (capability : HostCapability) :
    fromCode capability.code = some capability := by
  cases capability <;> rfl

theorem HostCapability.code_of_fromCode {code : U16} {capability : HostCapability}
    (h : fromCode code = some capability) : capability.code = code := by
  simpa using find?_some h

namespace HostRequirements

theorem check_eq_ok {parts : HostRequirementsParts} : check parts = .ok () ↔
    parts.capabilities.length ≤ MAX_REQUIRED_CAPABILITIES
      ∧ parts.capabilities.IsChain (fun previous next => previous.code < next.code)
      ∧ parts.minMemorySlots ≠ 0 := by
  simp only [check, seq_eq_ok, ensure_eq_ok, forNeighbours_eq_ok fun _ _ => ensure_eq_ok]

theorem readCapability_format : Exact readCapability (fun capability => putWord capability.code) :=
  u16_format.coded HostCapability.fromCode_code fun _ _ => HostCapability.code_of_fromCode

theorem decode_format : Exact decode encode := by
  have hlist := listU16_format 65535 (by decide : MAX_REQUIRED_CAPABILITIES < 2 ^ 16) readCapability_format
  refine ((u32_format.pair <| hlist.pair u16_format).refine
    (fun host : HostRequirements => (host.1.kvmApiVersion, host.1.capabilities, host.1.minMemorySlots))
    ?_ ?_).congr ?_ (fun _ _ => rfl)
  · intro host
    exact mapError_eq_ok.mpr (validate_val host)
  · rintro ⟨version, capabilities, slots⟩ host h
    rw [val_of_validate (mapError_eq_ok.mp h)]
  · intro host
    have hlength := (check_eq_ok.mp host.2).1
    simp [hlength]

end HostRequirements

namespace ManifestHeader

/-- The conditions on a header that only its reader checks. -/
structure Admissible (header : ManifestHeader) : Prop where
  memory : header.memory.check header.pageSize.1 = .ok ()
  vcpuCount : header.vcpuCount ≠ 0

theorem readArchitecture_format :
    Exact readArchitecture (fun architecture => putWord architecture.code) := by
  refine u16_format.refine Architecture.code ?_ ?_
  · intro architecture
    cases architecture
    rfl
  · intro code architecture h
    have h := okOr_eq_ok.mp h
    unfold Architecture.fromCode at h
    split_ifs at h with hcode
    rw [hcode]
    rfl

theorem readVcpuCount_format : Format readVcpuCount putWord (fun count => count ≠ 0) := by
  refine (u16_format.refineOn (fun count => count ≠ 0) id ?_ ?_).congr (by simp) (fun _ _ => rfl)
  · intro count hcount
    exact seq_eq_ok.mpr ⟨ensure_eq_ok.mpr hcount, rfl⟩
  · intro count count' h
    obtain ⟨hcount, hend⟩ := seq_eq_ok.mp h
    cases hend
    exact ⟨ensure_eq_ok.mp hcount, rfl⟩

theorem decode_format : Format decode encode Admissible := by
  have hpage : Exact (refine u32 (validate PageSize.check)) (fun size => putWord size.1) :=
    u32_format.refine Subtype.val validate_val (fun _ _ h => val_of_validate h)
  have hcandidate : Exact (refine (bytes 32) (validate CandidateId.check)) (fun id => id.1.1) :=
    (bytes_format 32).refine Subtype.val validate_val (fun _ _ h => val_of_validate h)
  have hidentity := readArchitecture_format.pair <| hpage.pair <| hcandidate.pair <| (bytes_format 32).pair <|
    (bytes_format 32).pair <| (bytes_format 32).pair HostRequirements.decode_format
  refine Format.record (hidentity.field (fun header => (header.architecture, header.pageSize, header.candidateId,
    header.machineContract, header.deviceContract, header.cpuTemplate, header.host)) fun identity => ?_)
    (by simp; exact fun _ => Iff.rfl) (by simp [encode]; exact fun _ => rfl)
  refine (((MemoryDescriptor.decode_format identity.2.1.1).relabel ManifestError.memory).pair <|
    readVcpuCount_format.pair u16_format).map (ofFields identity) (fun _ => rfl) ?_
  intro header
  constructor
  · rintro ⟨⟨-, rfl⟩, hmemory, hvcpu⟩
    exact ⟨(header.memory, header.vcpuCount, header.guestProtocolVersion), rfl, hmemory, hvcpu, trivial⟩
  · rintro ⟨fields, rfl, hmemory, hvcpu, -⟩
    exact ⟨⟨trivial, rfl⟩, hmemory, hvcpu⟩

end ManifestHeader

/-! ## Sections -/

section sections

variable [Template.Sha256] {parts : List Section}

namespace Section

theorem readPayload_format (code : U16) : Exact (readPayload code)
    (fun payload => putLength (BitVec.ofNat 32 MAX_SECTION_BYTES) payload.1.length
      ++ ((Digest.of payload.1).1 ++ payload.1)) := by
  have hlength : Exact (lengthU32 MAX_SECTION_BYTES : Decoder SectionError _)
      (fun n => putLength (BitVec.ofNat 32 MAX_SECTION_BYTES) n.1) :=
    u32_format.atMost _ (by decide)
  -- the payload of a given length and digest
  have hpayload : ∀ (length : { n : ℕ // n ≤ MAX_SECTION_BYTES }) (expected : Digest),
      Format (bytes length.1 >>= fun payload =>
          if Digest.of payload.1 ≠ expected then fail (SectionError.digestMismatch code)
          else pure ⟨payload.1, payload.2.trans_le length.2⟩)
        (fun payload : { payload : List UInt8 // payload.length ≤ MAX_SECTION_BYTES } => payload.1)
        (fun payload => payload.1.length = length.1 ∧ Digest.of payload.1 = expected) := by
    intro length expected
    constructor
    · rintro payload rest ⟨hlength, hdigest⟩
      have hread := (@bytes_format SectionError _ length.1).complete ⟨payload.1, hlength⟩ rest trivial
      refine decode_bind.mpr ⟨_, _, hread, ?_⟩
      simp [hdigest]
      rfl
    · intro bs payload rest h
      obtain ⟨read, mid, hread, hrest⟩ := decode_bind.mp h
      obtain ⟨-, hbs⟩ := (bytes_format length.1).sound bs read mid hread
      split_ifs at hrest with hdigest
      · cases hrest
      · obtain ⟨rfl, rfl⟩ := Prod.mk.inj (Except.ok.inj hrest)
        exact ⟨⟨read.2, not_not.mp hdigest⟩, hbs⟩
  have hdigest := fun length => (@bytes_format SectionError _ 32).bind
    (fun payload : { payload : List UInt8 // payload.length ≤ MAX_SECTION_BYTES } => Digest.of payload.1)
    (fun expected _ => hpayload length expected) (fun _ _ h => h.2)
  refine (hlength.bind (fun payload => ⟨payload.1.length, payload.2⟩) (fun length _ => hdigest length)
    ?_).congr ?_ ?_
  · intro length payload h
    exact Subtype.ext h.2.1
  · simp
  · intro payload _
    rfl

omit [Template.Sha256] in
theorem checkHeader_eq_some {code version : U16} {flags : UInt8} {role : SectionRole} :
    checkHeader code version flags = .ok (some role) ↔
      role.code = code ∧ version = SECTION_VERSION ∧ flags = FLAG_CRITICAL := by
  have hflags : ∀ flags : UInt8, flags &&& ~~~FLAG_CRITICAL = 0 ∧ flags &&& FLAG_CRITICAL ≠ 0 ↔
      flags = FLAG_CRITICAL := by
    rintro ⟨⟨value⟩⟩
    revert value
    decide +kernel
  rw [checkHeader, seq_eq_ok, ensure_eq_ok]
  cases hrole : fromCode code with
  | none =>
    simp only [seq_eq_ok, ensure_eq_ok]
    constructor
    · rintro ⟨-, -, h⟩; cases h
    · rintro ⟨rfl, -⟩
      rw [fromCode_code] at hrole
      cases hrole
  | some known =>
    simp only [seq_eq_ok, ensure_eq_ok]
    constructor
    · rintro ⟨hreserved, hversion, hcritical, h⟩
      cases h
      exact ⟨code_of_fromCode hrole, hversion, (hflags flags).mp ⟨hreserved, hcritical⟩⟩
    · rintro ⟨rfl, hversion, hcritical⟩
      rw [fromCode_code] at hrole
      cases hrole
      obtain ⟨hreserved, hcritical⟩ := (hflags flags).mpr hcritical
      exact ⟨hreserved, hversion, hcritical, rfl⟩

variable {bs rest : List UInt8} {code : U16}

theorem decodeBody_eq_some {part : Section} :
    decodeBody code bs = .ok (some part, rest) ↔ part.role.code = code ∧ bs = part.body ++ rest := by
  have hversion := (@u16_format SectionError _).pair u8_format
  constructor
  · intro h
    obtain ⟨role, mid, hrole, h⟩ := decode_bind.mp h
    obtain ⟨payload, mid', hpayload, h⟩ := decode_bind.mp h
    obtain ⟨⟨version, flags⟩, hread, hcheck⟩ := refine_eq_ok.mp hrole
    obtain ⟨hpart, rfl⟩ := Prod.mk.inj (Except.ok.inj h)
    obtain ⟨known, rfl, hknown⟩ := Option.map_eq_some_iff.mp hpart
    obtain ⟨hcode, rfl, rfl⟩ := checkHeader_eq_some.mp hcheck
    have hpair := (hversion.sound bs _ mid hread).2
    have hbody := ((readPayload_format code).sound mid payload mid' hpayload).2
    rw [← hknown]
    refine ⟨hcode, ?_⟩
    rw [hpair, hbody]
    simp [body, append_assoc]
  · rintro ⟨rfl, rfl⟩
    have hpair := hversion.complete (SECTION_VERSION, FLAG_CRITICAL)
      (putLength (BitVec.ofNat 32 MAX_SECTION_BYTES) part.payload.length
        ++ ((Digest.of part.payload).1 ++ part.payload) ++ rest) ⟨trivial, trivial⟩
    have hcheck := checkHeader_eq_some.mpr ⟨(rfl : part.role.code = _), rfl, rfl⟩
    have hpayload := (readPayload_format part.role.code).complete ⟨part.payload, part.fits⟩ rest trivial
    rw [body, append_assoc]
    exact decode_bind.mpr ⟨some part.role, _, refine_eq_ok.mpr ⟨_, hpair, hcheck⟩,
      decode_bind.mpr ⟨_, rest, hpayload, rfl⟩⟩

variable {previous : Option U16}

omit [Template.Sha256] in
theorem readCode_eq_ok :
    readCode previous bs = .ok (code, rest) ↔ (∀ p ∈ previous, p < code) ∧ bs = putWord code ++ rest := by
  rw [readCode, refine_eq_ok]
  constructor
  · rintro ⟨read, hread, h⟩
    obtain ⟨horder, hend⟩ := seq_eq_ok.mp h
    cases hend
    refine ⟨fun p hp => ensure_eq_ok.mp (forSome_eq_ok.mp horder p hp), ?_⟩
    exact (u16_format.sound bs code rest hread).2
  · rintro ⟨horder, rfl⟩
    refine ⟨code, u16_format.complete code rest trivial, seq_eq_ok.mpr ⟨?_, rfl⟩⟩
    exact forSome_eq_ok.mpr fun p hp => ensure_eq_ok.mpr (horder p hp)

theorem decodeSequence_encode (parts : List Section) (previous : Option U16) (rest : List UInt8)
    (hchain : (previous.toList ++ parts.map fun part => part.role.code).IsChain (· < ·)) :
    decodeSequence parts.length previous (parts.flatMap encode ++ rest) = .ok (parts, rest) := by
  induction parts generalizing previous with
  | nil => rfl
  | cons part parts ih =>
    have hprevious : ∀ p ∈ previous, p < part.role.code := by
      intro p hp
      rw [Option.mem_def.mp hp] at hchain
      exact (isChain_cons_cons.mp hchain).1
    have hrest := ih (some part.role.code) ((isChain_append.mp hchain).2.1)
    rw [flatMap_cons, encode, append_assoc, append_assoc, length_cons]
    exact decode_bind.mpr ⟨part.role.code, _, readCode_eq_ok.mpr ⟨hprevious, rfl⟩,
      decode_bind.mpr ⟨some part, _, decodeBody_eq_some.mpr ⟨rfl, rfl⟩,
      decode_bind.mpr ⟨parts, rest, hrest, rfl⟩⟩⟩

variable {part : Option Section}

theorem codes_of_decodeBody {bs mid : List UInt8} {count : ℕ} {rest : List UInt8} {later : List U16}
    (h : decodeBody code bs = .ok (part, mid)) (hlater : codes count mid = .ok (later, rest)) :
    codes (count + 1) (putWord code ++ bs) = .ok (code :: later, rest) := by
  obtain ⟨role, bs₁, hrole, h⟩ := decode_bind.mp h
  obtain ⟨payload, bs₂, hpayload, h⟩ := decode_bind.mp h
  obtain ⟨-, rfl⟩ := Prod.mk.inj (Except.ok.inj h)
  obtain ⟨version, hversion, -⟩ := refine_eq_ok.mp hrole
  obtain ⟨length, bs₃, hlength, hpayload⟩ := decode_bind.mp hpayload
  obtain ⟨digest, bs₄, hdigest, hpayload⟩ := decode_bind.mp hpayload
  obtain ⟨read, bs₅, hread, hpayload⟩ := decode_bind.mp hpayload
  have hend : bs₅ = bs₂ := by
    split_ifs at hpayload
    · cases hpayload
    · exact (Prod.mk.inj (Except.ok.inj hpayload)).2
  rw [hend] at hread
  exact decode_bind.mpr ⟨code, bs, u16_format.complete code bs trivial,
    decode_bind.mpr ⟨version, _, hversion, decode_bind.mpr ⟨length, _, hlength,
    decode_bind.mpr ⟨digest, _, hdigest, decode_bind.mpr ⟨read, _, hread,
    decode_bind.mpr ⟨later, rest, hlater, rfl⟩⟩⟩⟩⟩⟩

theorem decodeBody_isSome (h : decodeBody code bs = .ok (part, rest))
    (hknown : (fromCode code).isSome) : part.isSome := by
  obtain ⟨role, mid, hrole, h⟩ := decode_bind.mp h
  obtain ⟨payload, mid', -, h⟩ := decode_bind.mp h
  obtain ⟨rfl, -⟩ := Prod.mk.inj (Except.ok.inj h)
  obtain ⟨version, -, hcheck⟩ := refine_eq_ok.mp hrole
  obtain ⟨-, hcheck⟩ := seq_eq_ok.mp hcheck
  obtain ⟨known, hknown⟩ := Option.isSome_iff_exists.mp hknown
  rw [hknown] at hcheck
  obtain ⟨-, hcheck⟩ := seq_eq_ok.mp hcheck
  obtain ⟨-, hcheck⟩ := seq_eq_ok.mp hcheck
  cases hcheck
  rfl

theorem encode_of_decodeSequence {count : ℕ} (h : decodeSequence count previous bs = .ok (parts, rest)) :
    ∃ read, codes count bs = .ok (read, rest) ∧ ((∀ code ∈ read, (fromCode code).isSome) →
      parts.length = count ∧ bs = parts.flatMap encode ++ rest) := by
  induction count generalizing previous bs parts with
  | zero =>
    cases h
    exact ⟨[], rfl, fun _ => ⟨rfl, rfl⟩⟩
  | succ count ih =>
    obtain ⟨code, mid, hcode, h⟩ := decode_bind.mp h
    obtain ⟨part, mid', hpart, h⟩ := decode_bind.mp h
    obtain ⟨later, mid'', hlater, h⟩ := decode_bind.mp h
    obtain ⟨rfl, rfl⟩ := Prod.mk.inj (Except.ok.inj h)
    obtain ⟨-, rfl⟩ := readCode_eq_ok.mp hcode
    obtain ⟨read, hread, hsound⟩ := ih hlater
    refine ⟨code :: read, codes_of_decodeBody hpart hread, fun hknown => ?_⟩
    obtain ⟨hlength, rfl⟩ := hsound fun c hc => hknown c (mem_cons_of_mem _ hc)
    have hsome := decodeBody_isSome hpart (hknown code (mem_cons_self ..))
    obtain ⟨part, rfl⟩ := Option.isSome_iff_exists.mp hsome
    obtain ⟨rfl, rfl⟩ := decodeBody_eq_some.mp hpart
    refine ⟨?_, ?_⟩
    · rw [Option.toList_some, singleton_append, length_cons, hlength]
    · simp [encode, append_assoc]

end Section

/-! ## Manifest -/

namespace Manifest

omit [Template.Sha256] in
theorem checkSections_eq_ok : checkSections parts = .ok () ↔
    parts.length ≤ MAX_SECTIONS
      ∧ parts.IsChain (fun previous next => previous.role.code < next.role.code)
      ∧ ∀ role : SectionRole, role.isRequired → ∃ part ∈ parts, part.role = role := by
  have hall : ∀ role : SectionRole, role ∈ SectionRole.all := by
    intro role
    cases role <;> decide
  simp only [checkSections, seq_eq_ok, ensure_eq_ok, forNeighbours_eq_ok fun _ _ => ensure_eq_ok,
    forM_eq_ok, any_eq_true, decide_eq_true_eq, hall, true_implies]

omit [Template.Sha256] in
theorem readHeader_format : Format readHeader
    (fun p => MAGIC.1 ++ (putWord SCHEMA_VERSION ++ (p.1.encode
      ++ putLength (BitVec.ofNat 16 MAX_SECTIONS) p.2.1)))
    (fun p => p.1.Admissible) := by
  have hmagic : Exact readMagic (fun _ => MAGIC.1) :=
    (bytes_format 8).refine (fun _ => MAGIC) (fun _ => ensure_eq_ok.mpr rfl) (fun _ _ h => (ensure_eq_ok.mp h).symm)
  have hschema : Exact readSchema (fun _ => putWord SCHEMA_VERSION) :=
    u16_format.refine (fun _ => SCHEMA_VERSION) (fun _ => ensure_eq_ok.mpr rfl)
      (fun _ _ h => (ensure_eq_ok.mp h).symm)
  have hcount : Exact (atMost ManifestError.tooManySections MAX_SECTIONS u16) _ :=
    u16_format.atMost (BitVec.ofNat 16 MAX_SECTIONS) (by decide)
  refine (hmagic.bind (fun _ => ()) (fun _ _ => hschema.bind (fun _ => ()) (fun _ _ =>
    ManifestHeader.decode_format.pair hcount) (fun _ _ _ => rfl)) (fun _ _ _ => rfl)).congr
    (by simp) (fun _ _ => rfl)

variable {manifest : Manifest}

omit [Template.Sha256] in
theorem new_eq_ok {header : ManifestHeader} :
    new header parts = .ok manifest ↔ manifest.header = header ∧ manifest.sections.1 = parts := by
  rw [new, bind_eq_ok]
  constructor
  · rintro ⟨valid, hvalid, h⟩
    cases h
    exact ⟨rfl, val_of_validate hvalid⟩
  · rintro ⟨rfl, rfl⟩
    exact ⟨manifest.sections, validate_val _, rfl⟩

variable {bytes : List UInt8}

theorem decode_eq_ok : decode bytes = .ok manifest ↔
    ∃ (count : { n : ℕ // n ≤ MAX_SECTIONS }) (mid : List UInt8), manifest.header.Admissible
      ∧ bytes = MAGIC.1 ++ (putWord SCHEMA_VERSION ++ (manifest.header.encode
        ++ putLength (BitVec.ofNat 16 MAX_SECTIONS) count.1)) ++ mid
      ∧ Section.decodeSequence count.1 none mid = .ok (manifest.sections.1, []) := by
  rw [decode, bind_eq_ok]
  constructor
  · rintro ⟨⟨header, parts⟩, hfields, hnew⟩
    obtain ⟨rfl, rfl⟩ := new_eq_ok.mp hnew
    obtain ⟨⟨header, count⟩, mid, hheader, h⟩ := decode_bind.mp (whole_eq_ok_iff.mp hfields)
    obtain ⟨parts, mid', hparts, h⟩ := decode_bind.mp h
    obtain ⟨hfields, rfl⟩ := Prod.mk.inj (Except.ok.inj h)
    obtain ⟨rfl, rfl⟩ := Prod.mk.inj hfields
    obtain ⟨hadmissible, hbytes⟩ := readHeader_format.sound bytes _ mid hheader
    exact ⟨count, mid, hadmissible, hbytes, relabel_eq_ok.mp hparts⟩
  · rintro ⟨count, mid, hadmissible, rfl, hparts⟩
    have hheader := readHeader_format.complete (manifest.header, count) mid hadmissible
    refine ⟨(manifest.header, manifest.sections.1), whole_eq_ok_iff.mpr ?_, new_eq_ok.mpr ⟨rfl, rfl⟩⟩
    exact decode_bind.mpr ⟨_, mid, hheader, decode_bind.mpr ⟨_, [], relabel_eq_ok.mpr hparts, rfl⟩⟩

theorem decode_encode (h : manifest.header.Admissible) : decode manifest.encode = .ok manifest := by
  obtain ⟨hlength, hchain, -⟩ := checkSections_eq_ok.mp manifest.sections.2
  refine decode_eq_ok.mpr ⟨⟨manifest.sections.1.length, hlength⟩,
    manifest.sections.1.flatMap Section.encode, h, ?_, ?_⟩
  · simp [encode, append_assoc]
  · have hparts := Section.decodeSequence_encode manifest.sections.1 none [] (by
      rw [Option.toList_none, nil_append, isChain_map]
      exact hchain)
    rwa [append_nil] at hparts

/-- Every section of an encoded manifest has a known role. -/
def KnownRoles (bytes : List UInt8) : Prop :=
  ∀ codes, sectionCodes bytes = .ok codes → ∀ code ∈ codes, (fromCode code).isSome

theorem decode_canonical {manifest : Manifest} (h : decode bytes = .ok manifest)
    (hknown : KnownRoles bytes) : manifest.encode = bytes := by
  obtain ⟨count, mid, hadmissible, rfl, hparts⟩ := decode_eq_ok.mp h
  obtain ⟨codes, hcodes, hsound⟩ := Section.encode_of_decodeSequence hparts
  have hheader := readHeader_format.complete (manifest.header, count) mid hadmissible
  have hread := hknown codes (whole_eq_ok_iff.mpr (decode_bind.mpr ⟨_, mid, hheader,
    relabel_eq_ok.mpr hcodes⟩))
  obtain ⟨hlength, rfl⟩ := hsound hread
  simp [encode, append_assoc, hlength]

end Manifest

end sections

end Soma.Kvm.Snapshot
