import Soma.Netd.Types

/-! # The admitted intent and its encoding

What a claim asks of the network: an egress class, the resolvers DNS may reach, the ports to publish
and the digest of the profile it was admitted against. The encoding is read back by one decoder, in
the daemon protocol and from the ledger; `NetworkIntent.format` says it has exactly one form.
-/

namespace Soma.Netd

open Soma.Codec

inductive EgressClass where
  | denied
  | publicInternet
  | unrestricted
deriving DecidableEq

namespace EgressClass

def forwards : EgressClass → Bool
  | denied => false
  | _ => true

def code : EgressClass → UInt8
  | denied => 1
  | publicInternet => 2
  | unrestricted => 3

def fromCode : UInt8 → Option EgressClass
  | 1 => some denied
  | 2 => some publicInternet
  | 3 => some unrestricted
  | _ => none

end EgressClass

/-! ## Publications -/

inductive TransportProtocol where
  | tcp
  | udp
deriving DecidableEq

inductive HostPort where
  | automatic
  | fixed (port : NonZero 16)
deriving DecidableEq

def HostPort.fromU16 (port : U16) : HostPort :=
  if h : port ≠ 0 then .fixed ⟨port, h⟩ else .automatic

/-- The requested port, zero for an automatic one. -/
def HostPort.raw : HostPort → U16
  | .automatic => 0
  | .fixed port => port.value

variable (address : U32)

/-- `224.0.0.0/4` and the broadcast address are no bind addresses. -/
def bindable4 : Bool :=
  address >>> 28 ≠ 0xe ∧ address ≠ 0xffffffff

/-- `ff00::/8` is no bind address. -/
def bindable6 (address : BitVec 128) : Bool :=
  address >>> 120 ≠ 0xff

inductive HostBind where
  | ipv4 (address : U32) (valid : bindable4 address)
  | ipv6 (address : BitVec 128) (v6Only : Bool) (valid : bindable6 address)
deriving DecidableEq

structure PortPublication where
  bind : HostBind
  hostPort : HostPort
  guestPort : NonZero 16
  protocol : TransportProtocol
deriving DecidableEq

open PortPublication

def MAX_DNS_SERVERS : ℕ := 8
def MAX_PORT_PUBLICATIONS : ℕ := 32

abbrev ProfileDigest := Bytes 32
abbrev IntentDigest := Bytes 32

structure NetworkIntent where
  egress : EgressClass
  resolvers : List U32
  publications : List PortPublication
  profile : ProfileDigest
  resolversBound : resolvers.length ≤ MAX_DNS_SERVERS
  publicationsBound : publications.length ≤ MAX_PORT_PUBLICATIONS
deriving DecidableEq

variable (intent : NetworkIntent)

/-- DNS is allowed exactly when a resolver is declared. -/
def NetworkIntent.dnsAllowed : Bool :=
  !intent.resolvers.isEmpty

/-! ## Encoding -/

/-- The IPv4-mapped address `::ffff:a.b.c.d`. -/
def ipv6Mapped : BitVec 128 :=
  BitVec.ofNat 128 (0xffff * 2 ^ 32 + address.toNat)

def toIpv4Mapped (address : BitVec 128) : Option U32 :=
  if address.toNat / 2 ^ 32 = 0xffff then some (BitVec.ofNat 32 address.toNat) else none

/-- The family, address and IPv6-only bytes of a bind target. -/
def HostBind.raw : HostBind → UInt8 × BitVec 128 × UInt8
  | .ipv4 address _ => (4, ipv6Mapped address, 0)
  | .ipv6 address v6Only _ => (6, address, if v6Only then 1 else 0)

def TransportProtocol.code : TransportProtocol → UInt8
  | .tcp => 6
  | .udp => 17

variable (bind : HostBind)

def encodeBind : List UInt8 :=
  bind.raw.1 :: putWord bind.raw.2.1 ++ [bind.raw.2.2]

variable (publication : PortPublication)

def encodePublication : List UInt8 :=
  encodeBind publication.bind ++ putWord publication.hostPort.raw
    ++ putWord publication.guestPort.value ++ [publication.protocol.code]

/-- A list length as one byte, clamped at the largest. -/
def clampU8 (n : ℕ) : UInt8 :=
  if n < 256 then UInt8.ofNat n else 255

def NetworkIntent.encode : List UInt8 :=
  [intent.egress.code] ++ intent.profile.1 ++ [clampU8 intent.resolvers.length]
    ++ intent.resolvers.flatMap putWord ++ [clampU8 intent.publications.length]
    ++ intent.publications.flatMap encodePublication

/-! ## Decoding -/

/-- Every read past the end is the same protocol failure. -/
def short (_ _ : ℕ) : Error :=
  .protocol "short"

def bindOf : UInt8 × BitVec 128 × UInt8 → Except Error HostBind
  | (family, address, v6Only) =>
    if family = 4 ∧ v6Only = 0 then
      match toIpv4Mapped address with
      | none => .error (.protocol "bind address")
      | some address =>
        if h : bindable4 address then .ok (.ipv4 address h) else .error (.protocol "bind")
    else if family = 6 ∧ (v6Only = 0 ∨ v6Only = 1) then
      if h : bindable6 address then .ok (.ipv6 address (v6Only = 1) h) else .error (.protocol "bind")
    else .error (.protocol "bind family")

def protocolOf : UInt8 → Except Error TransportProtocol
  | 6 => .ok .tcp
  | 17 => .ok .udp
  | _ => .error (.protocol "transport")

def decodeBind : Decoder Error (UInt8 × BitVec 128 × UInt8) := do
  let family ← byte short
  let address ← word short 128
  let v6Only ← byte short
  return (family, address, v6Only)

/-- The guest port is only rejected once the transport was read. -/
def decodePorts : Decoder Error (U16 × U16 × TransportProtocol) := do
  let hostPort ← word short 16
  let guestPort ← word short 16
  let protocol ← refine (byte short) protocolOf
  return (hostPort, guestPort, protocol)

def publicationOf : U16 × U16 × TransportProtocol → Except Error PortPublication
  | (hostPort, guestPort, protocol) =>
    if h : guestPort ≠ 0 then .ok ⟨bind, .fromU16 hostPort, ⟨guestPort, h⟩, protocol⟩
    else .error (.protocol "publication")

def decodePublication : Decoder Error PortPublication := do
  let bind ← refine decodeBind bindOf
  refine decodePorts (publicationOf bind)

def egressOf (code : UInt8) : Except Error EgressClass :=
  match EgressClass.fromCode code with
  | some egress => .ok egress
  | none => .error (.protocol "egress")

variable (egress : EgressClass)

def intentOf (resolvers : List U32) (publications : List PortPublication) (profile : ProfileDigest) :
    Decoder Error NetworkIntent :=
  if h : publications.length ≤ MAX_PORT_PUBLICATIONS ∧ resolvers.length ≤ MAX_DNS_SERVERS then
    return ⟨egress, resolvers, publications, profile, h.2, h.1⟩
  else fail (.protocol "intent bounds")

/-- A length of one byte, at most `bound`. -/
def countOf (bound : ℕ) (what : String) : Decoder Error ℕ :=
  refine (byte short) fun n => if bound < n.toNat then .error (.protocol what) else .ok n.toNat

def readIntent : Decoder Error NetworkIntent := do
  let egress ← refine (byte short) egressOf
  let profile ← array short 32
  let resolvers ← countOf MAX_DNS_SERVERS "resolver count" >>= many (word short 32)
  let publications ← countOf MAX_PORT_PUBLICATIONS "publication count" >>= many decodePublication
  intentOf egress resolvers publications profile

/-- Decodes one intent and rejects trailing bytes. -/
def NetworkIntent.decode (bytes : List UInt8) : Except Error NetworkIntent :=
  match readIntent bytes with
  | .error e => .error e
  | .ok (intent, []) => .ok intent
  | .ok (_, _ :: _) => .error (.protocol "trailing bytes")

/-! ## The formats -/

theorem toIpv4Mapped_ipv6Mapped : toIpv4Mapped (ipv6Mapped address) = some address := by
  have hlt := address.isLt
  have hnat : (ipv6Mapped address).toNat = 0xffff * 2 ^ 32 + address.toNat := by
    rw [ipv6Mapped, BitVec.toNat_ofNat, Nat.mod_eq_of_lt (by omega)]
  unfold toIpv4Mapped
  rw [hnat, if_pos (by omega)]
  congr 1
  apply BitVec.eq_of_toNat_eq
  rw [BitVec.toNat_ofNat]
  omega

theorem ipv6Mapped_of_toIpv4Mapped {raw : BitVec 128} {address : U32} (h : toIpv4Mapped raw = some address) :
    ipv6Mapped address = raw := by
  unfold toIpv4Mapped at h
  split_ifs at h with hhigh
  cases h
  apply BitVec.eq_of_toNat_eq
  have hlt := raw.isLt
  rw [ipv6Mapped, BitVec.toNat_ofNat, BitVec.toNat_ofNat]
  omega

theorem bindOf_raw : bindOf bind.raw = .ok bind := by
  cases bind with
  | ipv4 address valid => simp [bindOf, HostBind.raw, toIpv4Mapped_ipv6Mapped, valid]
  | ipv6 address v6Only valid => cases v6Only <;> simp [bindOf, HostBind.raw, valid]

theorem raw_of_bindOf {raw : UInt8 × BitVec 128 × UInt8} {bind : HostBind} (h : bindOf raw = .ok bind) :
    bind.raw = raw := by
  obtain ⟨family, address, v6Only⟩ := raw
  unfold bindOf at h
  simp only at h
  split_ifs at h with hfour hsix hvalid
  · obtain ⟨rfl, rfl⟩ := hfour
    split at h
    · cases h
    · next mapped hmapped =>
      split_ifs at h with hvalid
      cases h
      simp only [HostBind.raw, ipv6Mapped_of_toIpv4Mapped hmapped]
  · cases h
    obtain ⟨rfl, rfl | rfl⟩ := hsix <;> rfl

theorem fromU16_raw (port : HostPort) : HostPort.fromU16 port.raw = port := by
  cases port with
  | automatic => rfl
  | fixed port => exact dif_pos port.nonzero

theorem raw_fromU16 (port : U16) : (HostPort.fromU16 port).raw = port := by
  unfold HostPort.fromU16
  split_ifs with h
  · rfl
  · exact (not_not.mp h).symm

theorem protocolOf_code (protocol : TransportProtocol) : protocolOf protocol.code = .ok protocol := by
  cases protocol <;> rfl

theorem code_of_protocolOf {code : UInt8} {protocol : TransportProtocol} (h : protocolOf code = .ok protocol) :
    protocol.code = code := by
  unfold protocolOf at h
  split at h
  · cases h; rfl
  · cases h; rfl
  · cases h

theorem egressOf_code : egressOf egress.code = .ok egress := by
  cases egress <;> rfl

theorem code_of_egressOf {code : UInt8} {egress : EgressClass} (h : egressOf code = .ok egress) :
    egress.code = code := by
  unfold egressOf EgressClass.fromCode at h
  split at h
  · next hcode =>
    split at hcode <;> cases hcode <;> cases h <;> rfl
  · cases h

theorem decodeBind_format : Exact decodeBind (fun raw => raw.1 :: putWord raw.2.1 ++ [raw.2.2]) :=
  Format.record ((Format.byte short).field Prod.fst fun _ =>
    (Format.word short (by decide)).field (Prod.fst ∘ Prod.snd) fun _ =>
    (Format.byte short).field (Prod.snd ∘ Prod.snd) fun _ => Format.done (by grind)) (by simp) (by simp)

theorem decodePorts_format : Exact decodePorts (fun raw => putWord raw.1 ++ putWord raw.2.1 ++ [raw.2.2.code]) :=
  Format.record ((Format.word short (by decide)).field Prod.fst fun _ =>
    (Format.word short (by decide)).field (Prod.fst ∘ Prod.snd) fun _ =>
    ((Format.byte short).refine TransportProtocol.code protocolOf_code
      (fun _ _ => code_of_protocolOf)).field (Prod.snd ∘ Prod.snd) fun _ =>
    Format.done (by grind)) (by simp) (by simp)

/-- The three values of a publication behind its bind target. -/
def PortPublication.ports : U16 × U16 × TransportProtocol :=
  (publication.hostPort.raw, publication.guestPort.value, publication.protocol)

theorem publicationOf_ports : publicationOf publication.bind publication.ports = .ok publication := by
  obtain ⟨bind, hostPort, guestPort, protocol⟩ := publication
  simp only [publicationOf, ports, fromU16_raw]
  exact dif_pos guestPort.nonzero

theorem of_publicationOf {bind : HostBind} {raw : U16 × U16 × TransportProtocol} {publication : PortPublication}
    (h : publicationOf bind raw = .ok publication) : publication.bind = bind ∧ publication.ports = raw := by
  obtain ⟨hostPort, guestPort, protocol⟩ := raw
  unfold publicationOf at h
  simp only at h
  split_ifs at h with hport
  cases h
  exact ⟨rfl, by rw [ports, raw_fromU16]⟩

theorem decodePublication_format : Exact decodePublication encodePublication := by
  refine ((decodeBind_format.refine HostBind.raw bindOf_raw (fun _ _ => raw_of_bindOf)).bind
    bind (fun bind _ => decodePorts_format.refineOn (·.bind = bind)
      ports ?_ ?_) ?_).congr ?_ ?_
  · rintro publication rfl
    exact publicationOf_ports publication
  · exact fun _ _ => of_publicationOf
  · exact fun _ _ h => h.2
  · intro publication
    simp
  · intro publication _
    simp [encodePublication, encodeBind, ports]

theorem clampU8_toNat {n : ℕ} (h : n < 256) : (clampU8 n).toNat = n := by
  rw [clampU8, if_pos h, UInt8.toNat_ofNat_of_lt' h]

theorem clampU8_of_toNat (n : UInt8) : clampU8 n.toNat = n := by
  rw [clampU8, if_pos n.toNat_lt, UInt8.ofNat_toNat]

theorem countOf_format (bound : ℕ) (hbound : bound < 256) (what : String) :
    Format (countOf bound what) (fun n => [clampU8 n]) (· ≤ bound) := by
  refine ((Format.byte short).refineOn (· ≤ bound) clampU8 ?_ ?_).congr ?_ (fun _ _ => rfl)
  · intro n hn
    rw [clampU8_toNat (by omega), if_neg (by omega)]
  · intro b n hb
    split_ifs at hb with hlt
    cases hb
    exact ⟨Nat.le_of_not_lt hlt, clampU8_of_toNat b⟩
  · intro n
    exact iff_of_eq (true_and _)

theorem intentOf_format {resolvers : List U32} {publications : List PortPublication} {profile : ProfileDigest} :
    Format (intentOf egress resolvers publications profile) (fun _ => [])
      (fun y => ((((True ∧ y.egress = egress) ∧ y.profile = profile) ∧ y.resolvers = resolvers)
        ∧ y.publications = publications) ∧ True) where
  complete := by
    rintro y rest ⟨⟨⟨⟨⟨-, rfl⟩, rfl⟩, rfl⟩, rfl⟩, -⟩
    rw [intentOf, dif_pos ⟨y.publicationsBound, y.resolversBound⟩]
    rfl
  sound bs y rest h := by
    unfold intentOf at h
    split_ifs at h <;> cases h
    simp

/-- **The intent codec.**  The decoder reads exactly the encodings of intents. -/
theorem readIntent_format : Exact readIntent NetworkIntent.encode := by
  have hegress := (Format.byte short).refine EgressClass.code egressOf_code (fun _ _ => code_of_egressOf)
  have hresolvers := (countOf_format MAX_DNS_SERVERS (by decide) "resolver count").counted
    (Format.word short (w := 32) (by decide))
  have hpublications := (countOf_format MAX_PORT_PUBLICATIONS (by decide)
    "publication count").counted decodePublication_format
  refine Format.record (hegress.field NetworkIntent.egress fun _ =>
    (Format.array short 32).field NetworkIntent.profile fun _ =>
    hresolvers.field NetworkIntent.resolvers fun _ => hpublications.field NetworkIntent.publications fun _ =>
    intentOf_format _) ?_ (by simp [NetworkIntent.encode])
  intro y
  simp [y.resolversBound, y.publicationsBound]

theorem NetworkIntent.decode_encode : decode intent.encode = .ok intent := by
  have h := readIntent_format.complete intent [] trivial
  rw [List.append_nil] at h
  rw [decode, h]

end Soma.Netd
