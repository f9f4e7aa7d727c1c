import Soma.Template.Schema

/-! # The network envelope and the policy ceiling

Authored intent is normalized into an envelope and compared with the ceiling of the organization. The
comparison is between patterns and between networks; what it guarantees is about hosts and addresses:

* `domainCovers_of_patternCovers`: a covered pattern covers no host the covering one does not.
* `ceiling_bounds_envelope`: whatever an accepted envelope lets a Template reach, the ceiling covers.
-/

namespace Soma.Template

open Soma.Lib Soma.Codec Soma.Text Writer Cidr List

/-! ## The ceiling -/

/-- Sorted lists without repetitions of valid entries, within a bound. -/
abbrev Listed (bound : ℕ) (valid : String → Bool) :=
  { values : List String //
    values.length ≤ bound ∧ values.Pairwise (· < ·) ∧ ∀ value ∈ values, valid value = true }

def isDomain (value : String) : Bool :=
  domain value == .ok ()

section envelope

variable [AddressText]

/-- The widest network permissions a Template may request. -/
structure PolicyCeiling where
  egress : EgressIntent
  domains : Option (Listed MAX_DOMAINS isDomain)
  cidrs : Option (Listed MAX_CIDRS isCanonical)
  ingress : IngressIntent
deriving DecidableEq

namespace PolicyCeiling

/-- A ceiling without destination restriction. -/
def new (egress : EgressIntent) (ingress : IngressIntent) : PolicyCeiling :=
  ⟨egress, none, none, ingress⟩

def denyAll : PolicyCeiling := new .deny .deny

variable (ceiling : PolicyCeiling)

def encode : List UInt8 :=
  [ceiling.egress.code] ++ putOptional (fun l => putStrings l.1) ceiling.domains
    ++ putOptional (fun l => putStrings l.1) ceiling.cidrs ++ [ceiling.ingress.code]

omit [AddressText] in
/-- Reads a list that must be sorted, unique and made of valid entries. -/
def readListed (bound : ℕ) (valid : String → Bool) : Reader (Listed bound valid) :=
  refine (Reader.strings bound MAX_STRING_BYTES) fun values =>
    -- The count was compared with the bound on reading; it is repeated for the type.
    if h : values.length ≤ bound ∧ (values.IsChain (· ≤ ·) ∧ values.IsChain (· ≠ ·))
        ∧ ∀ value ∈ values, valid value = true then
      .ok ⟨values, h.1, sorted_and_distinct.mp h.2.1, h.2.2⟩
    else .error (.invalidField "ceiling.list")

def decode : Reader PolicyCeiling := do
  let egress ← choiceOf "ceiling.egress" EgressIntent.fromCode
  let domains ← optional Reader.presence (readListed MAX_DOMAINS isDomain)
  let cidrs ← optional Reader.presence (readListed MAX_CIDRS isCanonical)
  let ingress ← choiceOf "ceiling.ingress" IngressIntent.fromCode
  return { egress, domains, cidrs, ingress }

omit [AddressText] in
theorem readListed_format (bound : ℕ) (hbound : bound < 2 ^ 16)
    (hvalid : ∀ value, valid value = true → value.utf8ByteSize ≤ MAX_STRING_BYTES) :
    Exact (readListed bound valid) (fun l => putStrings l.1) := by
  refine ((strings_format hbound maxString_lt).refine Subtype.val ?_ ?_).congr ?_ (fun _ _ => rfl)
  · rintro ⟨values, hcount, hsorted, hall⟩
    rw [dif_pos ⟨hcount, sorted_and_distinct.mpr hsorted, hall⟩]
  · intro values listed h
    split_ifs at h
    cases h
    rfl
  · rintro ⟨values, hcount, hsorted, hall⟩
    exact iff_of_true ⟨hcount, fun value hvalue => hvalid value (hall value hvalue)⟩ trivial

omit [AddressText] in
theorem isDomain_length {value : String} (h : isDomain value = true) : value.utf8ByteSize ≤ MAX_STRING_BYTES :=
  (domain_length (eq_of_beq h)).trans (by decide)

theorem format : Exact decode encode := by
  have hdomains := presence_format.optional (readListed_format MAX_DOMAINS (by decide) fun _ => isDomain_length)
  have hcidrs := presence_format.optional (readListed_format MAX_CIDRS (by decide)
    fun _ h => (isCanonical_length h).trans (by decide))
  exact Format.record ((EgressIntent.coded.format _).field PolicyCeiling.egress fun _ =>
    hdomains.field PolicyCeiling.domains fun _ =>
    hcidrs.field PolicyCeiling.cidrs fun _ =>
    (IngressIntent.coded.format _).field PolicyCeiling.ingress fun _ =>
    Format.done (by rintro ⟨⟩; grind)) (by simp) (by simp [encode, putOptional])

end PolicyCeiling

/-! ## The envelope -/

/-- The effective egress permission. -/
inductive EgressEnvelope where
  | deny
  | allowlist (domains cidrs : List String)
  | unrestricted
deriving DecidableEq

namespace EgressEnvelope

def intent : EgressEnvelope → EgressIntent
  | deny => .deny
  | allowlist _ _ => .allowlist
  | unrestricted => .unrestricted

/-- The destinations, where they are restricted. -/
def domains : EgressEnvelope → List String
  | allowlist domains _ => domains
  | _ => []

def cidrs : EgressEnvelope → List String
  | allowlist _ cidrs => cidrs
  | _ => []

end EgressEnvelope

open EgressEnvelope

/-- The widest network permissions of an Instance. -/
structure NetworkEnvelope where
  egress : EgressEnvelope
  ingress : IngressIntent
deriving DecidableEq

namespace NetworkEnvelope

omit [AddressText] in
/-- Whether outbound traffic to a host is inside the envelope. -/
def allowsDomain (envelope : NetworkEnvelope) (host : String) : Bool :=
  match envelope.egress with
  | .deny => false
  | .unrestricted => true
  | .allowlist domains _ => domains.any fun pattern => domainCovers pattern.toList host.toList

omit [AddressText] in
def encode (envelope : NetworkEnvelope) : List UInt8 :=
  [envelope.egress.intent.code]
    ++ (match envelope.egress with
      | .allowlist domains cidrs => putStrings domains ++ putStrings cidrs
      | _ => [])
    ++ [envelope.ingress.code]

/-- The rule on the destinations of a decoded allowlist. -/
def allowlistRule (domains cidrs : List String) : Prop :=
  ¬ (domains = [] ∧ cidrs = [])
    ∧ (domains.IsChain (· ≤ ·) ∧ domains.IsChain (· ≠ ·))
    ∧ (cidrs.IsChain (· ≤ ·) ∧ cidrs.IsChain (· ≠ ·))
    ∧ (∀ value ∈ domains, domain value = .ok ()) ∧ ∀ value ∈ cidrs, isCanonical value = true

instance (domains cidrs : List String) : Decidable (allowlistRule domains cidrs) :=
  inferInstanceAs (Decidable (_ ∧ _))

/-- The egress part behind its class. -/
def decodeEgress : Reader EgressEnvelope := do
  match ← choiceOf "network.egress" EgressIntent.fromCode with
  | .deny => return .deny
  | .unrestricted => return .unrestricted
  | .allowlist =>
    let domains ← Reader.strings MAX_DOMAINS MAX_STRING_BYTES
    let cidrs ← Reader.strings MAX_CIDRS MAX_STRING_BYTES
    if ¬ allowlistRule domains cidrs then fail (.invalidField "network.egress")
    else return .allowlist domains cidrs

def decode : Reader NetworkEnvelope := do
  let egress ← decodeEgress
  let ingress ← choiceOf "network.ingress" IngressIntent.fromCode
  return { egress, ingress }

/-- The envelopes that read back. -/
def Readable : EgressEnvelope → Prop
  | .allowlist domains cidrs => domains.length ≤ MAX_DOMAINS ∧ cidrs.length ≤ MAX_CIDRS
    ∧ allowlistRule domains cidrs
  | _ => True

theorem decodeEgress_format : Format decodeEgress
    (fun e => [e.intent.code] ++ (match e with
      | .allowlist domains cidrs => putStrings domains ++ putStrings cidrs
      | _ => [])) Readable := by
  refine (EgressIntent.coded.format _).tagged intent fun expected => ?_
  cases expected with
  | deny | unrestricted =>
    refine (Format.pure _).congr ?_ ?_
    · rintro (_ | _ | _) <;> simp [intent, Readable]
    · rintro _ rfl
      rfl
  | allowlist =>
    refine ((strings_format (by decide) maxString_lt).bind domains (fun _ _ =>
      (strings_format (by decide) maxString_lt).bind cidrs (fun _ _ =>
      (Format.pure _).require) ?_) ?_).congr ?_ ?_
    · grind [cidrs]
    · grind [domains]
    · rintro (_ | ⟨domains, cidrs⟩ | _)
      · simp [intent]
      · -- A rule that holds bounds the texts, so reading them asks for nothing more.
        have htexts : allowlistRule domains cidrs →
            (∀ value ∈ domains, value.utf8ByteSize ≤ MAX_STRING_BYTES)
              ∧ ∀ value ∈ cidrs, value.utf8ByteSize ≤ MAX_STRING_BYTES := by
          rintro ⟨-, -, -, hdomains, hcidrs⟩
          refine ⟨fun value hvalue => (domain_length (hdomains value hvalue)).trans (by decide), ?_⟩
          exact fun value hvalue => (isCanonical_length (hcidrs value hvalue)).trans (by decide)
        simp only [EgressEnvelope.domains, EgressEnvelope.cidrs, intent, Readable]
        grind
      · simp [intent]
    · rintro _ ⟨-, -, -, hallowlist⟩
      rw [hallowlist]
      simp [EgressEnvelope.domains, EgressEnvelope.cidrs]

theorem format : Format decode encode (fun envelope => Readable envelope.egress) :=
  Format.record (decodeEgress_format.field NetworkEnvelope.egress fun _ =>
    (IngressIntent.coded.format _).field NetworkEnvelope.ingress fun _ =>
    Format.done (by rintro ⟨⟩; grind)) (by simp) (by simp [encode])

end NetworkEnvelope

/-! ## Validation against the ceiling -/

def patternCovers (ceiling requested : List Char) : Bool :=
  match stripPrefix ['*', '.'] requested with
  | some suffix => (stripPrefix ['*', '.'] ceiling).any fun allowed =>
      allowed == suffix || domainCovers ceiling suffix
  | none => domainCovers ceiling requested

def exceeds (field requested ceiling : String) : Rejection :=
  .networkExceedsCeiling field requested ceiling

/-- Whether some ceiling network contains the requested one; what does not parse is not covered. -/
def cidrCovered (allowed : List String) (requested : String) : Bool :=
  match parse requested with
  | .ok inner => (allowed.filterMap fun value => (parse value).toOption).any fun outer =>
      outer.contains inner
  | .error _ => false

variable (allowed requested : List String)

def checkDomains : Except Rejection Unit :=
  forIdx requested fun index domain =>
    ensure (allowed.any fun pattern => patternCovers pattern.toList domain.toList)
      (exceeds s!"network.allow_domains[{index}]" domain
        s!"{allowed.length} permitted domain patterns")

/-- Every requested network is contained in a permitted one. -/
def checkCidrs : Except Rejection Unit :=
  forIdx requested fun index value =>
    ensure (cidrCovered allowed value)
      (exceeds s!"network.allow_cidrs[{index}]" value s!"{allowed.length} permitted CIDRs")

variable (network : Network)

def checkCeiling (egress : EgressEnvelope) (ceiling : PolicyCeiling) : Except Rejection Unit := do
  ensure (network.ingress ≤ ceiling.ingress)
    (exceeds "network.ingress" network.ingress.asStr ceiling.ingress.asStr)
  ensure (egress.intent ≤ ceiling.egress)
    (exceeds "network.egress" egress.intent.asStr ceiling.egress.asStr)
  match egress with
  | .deny => .ok ()
  | .unrestricted => .ok ()
  | .allowlist _ _ => do
    forSome ceiling.domains fun allowed => checkDomains allowed.1 network.allowDomains
    forSome ceiling.cidrs fun allowed => checkCidrs allowed.1 network.allowCidrs

def invalidDestination (list : String) (index : ℕ) (reason : InvalidReason) : Rejection :=
  .invalidValue none s!"network.{list}[{index}]" reason

omit [AddressText] in
def Network.hasDestinations : Bool :=
  !network.allowDomains.isEmpty || !network.allowCidrs.isEmpty

/-- The egress permission of authored intent. -/
def egressOf : Except Rejection EgressEnvelope :=
  match network.egress with
  | .unrestricted =>
    if network.hasDestinations then
      .error (invalidDestination
        (if network.allowDomains.isEmpty then "allow_cidrs" else "allow_domains") 0
        .contradictoryEgress)
    else .ok .unrestricted
  | .allowlist =>
    if network.hasDestinations then
      .ok (.allowlist (sorted network.allowDomains) (canonicalList network.allowCidrs))
    else .error (.invalidValue none "network.egress" .emptyAllowlist)
  | .deny =>
    if network.hasDestinations then
      .ok (.allowlist (sorted network.allowDomains) (canonicalList network.allowCidrs))
    else .ok .deny

variable (ceiling : PolicyCeiling)

/-- Validates authored intent, compares it with the ceiling and normalizes it. -/
def envelope : Except Rejection NetworkEnvelope := do
  forIdx network.allowDomains fun index value =>
    (domain value).mapError (invalidDestination "allow_domains" index)
  forIdx network.allowCidrs fun index value =>
    (cidr value).mapError (invalidDestination "allow_cidrs" index)
  let egress ← egressOf network
  checkCeiling network egress ceiling
  return { egress, ingress := network.ingress }

/-! ## What the checks accept -/

variable {allowed requested : List String}

omit [AddressText] in
theorem checkDomains_eq_ok :
    checkDomains allowed requested = .ok () ↔
      ∀ domain ∈ requested, ∃ pattern ∈ allowed, patternCovers pattern.toList domain.toList = true := by
  refine forIdx_eq_ok_of fun index domain => ?_
  rw [ensure_eq_ok, any_eq_true]

theorem checkCidrs_eq_ok :
    checkCidrs allowed requested = .ok () ↔ ∀ value ∈ requested, cidrCovered allowed value = true :=
  forIdx_eq_ok_of fun _ _ => ensure_eq_ok

theorem cidrCovered_iff {allowed : List String} {requested : String} :
    cidrCovered allowed requested = true ↔ ∃ inner, parse requested = .ok inner
      ∧ ∃ value ∈ allowed, ∃ outer, parse value = .ok outer ∧ outer.contains inner = true := by
  unfold cidrCovered
  have hsome : ∀ (value : String) (outer : Cidr),
      (parse value).toOption = some outer ↔ parse value = .ok outer := by
    intro value outer
    cases parse value <;> simp [Except.toOption]
  cases parse requested with
  | error e => simp
  | ok inner =>
    simp only [any_eq_true, mem_filterMap, hsome, Except.ok.injEq, exists_eq_left']
    constructor
    · rintro ⟨outer, ⟨value, hvalue, hparse⟩, hcontains⟩
      exact ⟨value, hvalue, outer, hparse, hcontains⟩
    · rintro ⟨value, hvalue, outer, hparse, hcontains⟩
      exact ⟨outer, ⟨value, hvalue, hparse⟩, hcontains⟩

variable (requested : List String)

/-- The permitted destinations, where the ceiling restricts them. -/
def PolicyCeiling.CoversDomains : Prop :=
  ∀ allowed ∈ ceiling.domains, ∀ domain ∈ requested, ∃ pattern ∈ allowed.1,
    patternCovers pattern.toList domain.toList = true

def PolicyCeiling.CoversCidrs : Prop :=
  ∀ allowed ∈ ceiling.cidrs, ∀ value ∈ requested, cidrCovered allowed.1 value = true

variable {network} {ceiling}

theorem checkCeiling_eq_ok {egress : EgressEnvelope} :
    checkCeiling network egress ceiling = .ok () ↔
      network.ingress ≤ ceiling.ingress ∧ egress.intent ≤ ceiling.egress
        ∧ (egress.intent = .allowlist →
          ceiling.CoversDomains network.allowDomains ∧ ceiling.CoversCidrs network.allowCidrs) := by
  simp only [checkCeiling, seq_eq_ok, ensure_eq_ok]
  cases egress with
  | deny | unrestricted => simp [intent]
  | allowlist domains cidrs =>
    simp only [seq_eq_ok, forSome_eq_ok, checkDomains_eq_ok, checkCidrs_eq_ok, intent,
      PolicyCeiling.CoversDomains, PolicyCeiling.CoversCidrs, true_implies]

theorem cidr_eq_ok {value : String} : cidr value = .ok () ↔ ∃ c, parse value = .ok c := by
  unfold cidr
  cases parse value <;> simp [Except.map]

theorem envelope_eq_ok {e : NetworkEnvelope} :
    envelope network ceiling = .ok e ↔ (∀ value ∈ network.allowDomains, domain value = .ok ())
      ∧ (∀ value ∈ network.allowCidrs, ∃ c, parse value = .ok c)
      ∧ egressOf network = .ok e.egress ∧ checkCeiling network e.egress ceiling = .ok ()
      ∧ e.ingress = network.ingress := by
  have hdomains : forIdx network.allowDomains (fun index value =>
      (domain value).mapError (invalidDestination "allow_domains" index)) = .ok () ↔
      ∀ value ∈ network.allowDomains, domain value = .ok () :=
    forIdx_eq_ok_of fun _ _ => mapError_eq_ok
  have hcidrs : forIdx network.allowCidrs (fun index value =>
      (cidr value).mapError (invalidDestination "allow_cidrs" index)) = .ok () ↔
      ∀ value ∈ network.allowCidrs, ∃ c, parse value = .ok c :=
    forIdx_eq_ok_of fun _ _ => mapError_eq_ok.trans cidr_eq_ok
  rw [envelope, seq_eq_ok, seq_eq_ok, hdomains, hcidrs, bind_eq_ok]
  simp only [seq_eq_ok]
  obtain ⟨egress, ingress⟩ := e
  constructor
  · rintro ⟨hd, hc, egress', hegress, hceiling, hend⟩
    cases hend
    exact ⟨hd, hc, hegress, hceiling, rfl⟩
  · rintro ⟨hd, hc, hegress, hceiling, rfl⟩
    exact ⟨hd, hc, egress, hegress, hceiling, rfl⟩

theorem egressOf_allowlist {domains cidrs : List String} (h : egressOf network = .ok (.allowlist domains cidrs)) :
    domains = sorted network.allowDomains ∧ cidrs = canonicalList network.allowCidrs
      ∧ network.hasDestinations = true := by
  unfold egressOf at h
  split at h <;> split_ifs at h with hsome <;> cases h
  all_goals exact ⟨rfl, rfl, hsome⟩

/-! ## What the ceiling bounds -/

omit [AddressText] in
/-- A covered pattern covers no host that the covering pattern does not. -/
theorem domainCovers_of_patternCovers {ceiling requested host : List Char}
    (h : patternCovers ceiling requested = true) (hhost : domainCovers requested host = true) :
    domainCovers ceiling host = true := by
  unfold patternCovers at h
  rcases domainCovers_iff.mp hhost with ⟨suffix, start, rfl, rfl, hlast, hlen⟩ | ⟨hplain, rfl⟩
  · have hstrip : stripPrefix ['*', '.'] ('*' :: '.' :: suffix) = some suffix :=
      stripPrefix_eq_some.mpr rfl
    simp only [hstrip, Option.any_eq_true, Bool.or_eq_true, beq_iff_eq] at h
    obtain ⟨allowed, hallowed, hcase⟩ := h
    obtain rfl := stripPrefix_eq_some.mp hallowed
    rcases hcase with rfl | hcovers
    · exact domainCovers_iff.mpr (.inl ⟨allowed, start, rfl, rfl, hlast, hlen⟩)
    · rcases domainCovers_iff.mp hcovers with ⟨outer, between, houter, rfl, hlast', -⟩ | ⟨hnone, -⟩
      · -- The host is the labels before the request, the labels between, and the ceiling's suffix.
        refine domainCovers_iff.mpr (.inl ⟨outer, start ++ between, houter, ?_, ?_, ?_⟩)
        · rw [append_assoc]
        · rw [getLast?_append, hlast']
          rfl
        · rw [len_append]
          omega
      · rw [hallowed] at hnone
        cases hnone
  · rw [hplain] at h
    exact h

theorem mem_canonicalList {values : List String} {text : String} (h : text ∈ canonicalList values)
    (hparse : ∀ value ∈ values, ∃ c, parse value = .ok c) :
    ∃ value ∈ values, ∃ c, parse value = .ok c ∧ text = c.canonical := by
  obtain ⟨value, hvalue, rfl⟩ := mem_map.mp (mem_sorted.mp h)
  obtain ⟨c, hc⟩ := hparse value hvalue
  exact ⟨value, hvalue, c, hc, by rw [hc]⟩

/-- Whatever an accepted envelope lets a Template reach, the ceiling covers. -/
theorem ceiling_bounds_envelope (network : Network) (ceiling : PolicyCeiling) (e : NetworkEnvelope)
    (h : envelope network ceiling = .ok e) :
    e.ingress ≤ ceiling.ingress ∧ e.egress.intent ≤ ceiling.egress
      ∧ ∀ domains cidrs, e.egress = .allowlist domains cidrs →
        (∀ allowed, ceiling.domains = some allowed → ∀ host, e.allowsDomain host = true →
          ∃ pattern ∈ allowed.1, domainCovers pattern.toList host.toList = true)
        ∧ ∀ allowed, ceiling.cidrs = some allowed → ∀ text ∈ cidrs, ∀ inner,
          parse text = .ok inner → ∀ address, inner.Mem address →
          ∃ value ∈ allowed.1, ∃ outer, parse value = .ok outer ∧ outer.Mem address := by
  obtain ⟨-, hparse, hegress, hceiling, hingress⟩ := envelope_eq_ok.mp h
  obtain ⟨hin, hclass, hcovers⟩ := checkCeiling_eq_ok.mp hceiling
  refine ⟨hingress ▸ hin, hclass, fun domains cidrs hallow => ?_⟩
  rw [hallow] at hegress hcovers
  obtain ⟨rfl, rfl, -⟩ := egressOf_allowlist hegress
  obtain ⟨hdomains, hcidrs⟩ := hcovers rfl
  constructor
  · intro allowed hallowed host hhost
    rw [NetworkEnvelope.allowsDomain, hallow] at hhost
    obtain ⟨requested, hrequested, hcover⟩ := any_eq_true.mp hhost
    obtain ⟨pattern, hpattern, hpc⟩ :=
      hdomains allowed hallowed requested (mem_sorted.mp hrequested)
    exact ⟨pattern, hpattern, domainCovers_of_patternCovers hpc hcover⟩
  · intro allowed hallowed text htext inner hinner address haddress
    obtain ⟨value, hvalue, c, hc, rfl⟩ := mem_canonicalList htext hparse
    rw [c.parse_canonical] at hinner
    cases hinner
    obtain ⟨c', hc', permitted, hpermitted, outer, houter, hcontains⟩ :=
      cidrCovered_iff.mp (hcidrs allowed hallowed value hvalue)
    rw [hc] at hc'
    cases hc'
    exact ⟨permitted, hpermitted, outer, houter, contains_iff.mp hcontains address haddress⟩

end envelope

/-! ### A concrete text of addresses -/

theorem len_hex (bs : List UInt8) : len (hex bs) = 2 * bs.length := by
  have hone : ∀ cs : List Char, cs.all isHexDigit = true → len cs = cs.length := by
    intro cs hcs
    induction cs with
    | nil => rfl
    | cons c cs ih =>
      simp only [all_cons, Bool.and_eq_true] at hcs
      have hsize : len [c] = 1 := by
        obtain ⟨hc, hlt⟩ := hexDigit_nibble hcs.1
        have hall : ∀ n < 16, len [hexDigit n] = 1 := by decide +kernel
        rw [← hc]
        exact hall _ hlt
      rw [← singleton_append, len_append, ih hcs.2, hsize, singleton_append, length_cons]
      omega
  rw [hone _ (hex_all bs), hex_length]

theorem ofBytes_putWord {w : ℕ} (hw : 256 ^ (w / 8) = 2 ^ w) (x : BitVec w) :
    Codec.ofBytes (putWord x) = x.toNat := by
  rw [putWord, ofBytes_toBytes, hw, Nat.mod_eq_of_lt x.isLt]

/-- Addresses written as the digits of their bytes. -/
@[reducible] def hexText : AddressText where
  parse cs :=
    if cs.length = 8 then some (.v4 (BitVec.ofNat 32 (Codec.ofBytes (ofHex cs))))
    else if cs.length = 32 then some (.v6 (BitVec.ofNat 128 (Codec.ofBytes (ofHex cs))))
    else none
  display
    | .v4 address => String.ofList (hex (putWord address))
    | .v6 address => String.ofList (hex (putWord address))
  parse_display address := by
    cases address with
    | v4 a =>
      have hlen : (hex (putWord a)).length = 8 := by rw [hex_length, putWord, toBytes_length]
      simp only [String.toList_ofList, hlen, if_true, ofHex_hex]
      rw [ofBytes_putWord (w := 32) (by decide), BitVec.ofNat_toNat, BitVec.setWidth_eq]
    | v6 a =>
      have hlen : (hex (putWord a)).length = 32 := by rw [hex_length, putWord, toBytes_length]
      simp only [String.toList_ofList, hlen, ofHex_hex]
      rw [if_neg (by decide), if_pos trivial, ofBytes_putWord (w := 128) (by decide),
        BitVec.ofNat_toNat, BitVec.setWidth_eq]
  no_slash address := by
    have hslash : ∀ bs, '/' ∉ hex bs := by
      intro bs hmem
      have hdigit := all_eq_true.mp (hex_all bs) _ hmem
      exact absurd hdigit (by decide)
    cases address with
    | v4 | v6 =>
      rw [String.toList_ofList]
      exact hslash _
  display_length address := by
    cases address with
    | v4 a | v6 a =>
      change len (hex (putWord a)) ≤ 45
      rw [len_hex, putWord, toBytes_length]
      decide

/-- A list of one zone. -/
def exampleZone : Listed MAX_DOMAINS isDomain := ⟨["*.example.org"], by decide +kernel⟩

/-- A subdomain of a permitted zone, requested by pattern, stays inside the zone. -/
theorem ceiling_bounds_wildcard :
    letI := hexText
    let ceiling : PolicyCeiling :=
      ⟨.allowlist, some ⟨["*.example.org"], by decide +kernel⟩, none, .deny⟩
    ∃ e, envelope ⟨.deny, ["*.b.example.org"], [], .deny⟩ ceiling = .ok e
      ∧ e.allowsDomain "a.b.example.org" = true
      ∧ ∃ pattern ∈ ["*.example.org"],
        domainCovers pattern.toList "a.b.example.org".toList = true := by
  let _ := hexText
  let ceiling : PolicyCeiling :=
    ⟨.allowlist, some ⟨["*.example.org"], by decide +kernel⟩, none, .deny⟩
  have henvelope : envelope ⟨.deny, ["*.b.example.org"], [], .deny⟩ ceiling =
      .ok ⟨.allowlist ["*.b.example.org"] [], .deny⟩ := by
    decide +kernel
  have hallows : (⟨.allowlist ["*.b.example.org"] [], .deny⟩ : NetworkEnvelope).allowsDomain
      "a.b.example.org" = true := by
    decide +kernel
  refine ⟨_, henvelope, hallows, ?_⟩
  exact ((ceiling_bounds_envelope _ ceiling _ henvelope).2.2 _ _ rfl).1 _ rfl _ hallows

end Soma.Template
