import Soma.Lib.FirstMatch
import Soma.Netd.Profile

/-! # The sandbox ruleset

One `inet` table per bundle, inside the bundle's network namespace.

* **`Match`** and **`Rule`** are the matches and rules the rulesets are written with; `Match.holds` is
  their meaning on a packet.
* **`SandboxRuleset.forward`** lists the rules of the forward chain in the order the broker emits them.
* **`SandboxRuleset.Egress`** is what the chain is for: which packets of the guest may leave. The
  rules accept exactly those (`forward_accepts_iff_egress`).
-/

namespace Soma.Netd

open Soma.Codec Soma.FirstMatch

/-! ## Published ports -/

/-- One host endpoint mapped onto one guest endpoint; no bind address is the wildcard. -/
structure PublishedPort where
  bind : Option U32
  hostPort : U16
  guest : U32
  guestPort : U16
  protocol : TransportProtocol
deriving DecidableEq

/-! ## Packets -/

inductive IpHeader where
  | v4 (source destination : U32)
  | v6 (source destination : BitVec 128)
deriving DecidableEq

namespace IpHeader

def isV6 : IpHeader → Bool
  | .v4 .. => false
  | .v6 .. => true

def source4 : IpHeader → Option U32
  | .v4 source _ => some source
  | .v6 .. => none

def destination4 : IpHeader → Option U32
  | .v4 _ destination => some destination
  | .v6 .. => none

def destination6 : IpHeader → Option (BitVec 128)
  | .v4 .. => none
  | .v6 _ destination => some destination

end IpHeader

open IpHeader

/-- The transport header of a packet; a later fragment has none. -/
inductive TransportHeader where
  | ports (protocol : TransportProtocol) (source destination : U16)
  | icmpEchoRequest
  | none
deriving DecidableEq

namespace TransportHeader

def source : TransportHeader → Option (TransportProtocol × U16)
  | .ports protocol source _ => some (protocol, source)
  | _ => Option.none

def destination : TransportHeader → Option (TransportProtocol × U16)
  | .ports protocol _ destination => some (protocol, destination)
  | _ => Option.none

end TransportHeader

inductive CtState where
  | new | established | related | invalid | untracked
deriving DecidableEq

inductive CtDirection where
  | original | reply
deriving DecidableEq

/-- What a filter chain sees of a packet. -/
structure Packet where
  iifname : Name
  oifname : Name
  etherSource : Bytes 6
  ip : IpHeader
  transport : TransportHeader
  ctState : CtState
  ctDirection : CtDirection
deriving DecidableEq

/-! ## Rules -/

/-- A named set of a table. -/
structure AddressSet where
  name : String
  elements : List Cidr

inductive Match where
  | iifname (name : Name)
  | oifname (name : Name)
  | etherSource (mac : Bytes 6)
  | etherSourceNot (mac : Bytes 6)
  | ipv6
  | ipSource (address : U32)
  | ipSourceNot (address : U32)
  | ipDestination (address : U32)
  | ipDestinationIn (set : AddressSet)
  | ip6DestinationIn (set : AddressSet)
  | sourcePort (protocol : TransportProtocol) (port : U16)
  | destinationPort (protocol : TransportProtocol) (port : U16)
  | icmpEchoRequest
  | ctDirection (direction : CtDirection)
  | ctState (states : List CtState)

/-- A match on a header field holds only of packets that have the header. -/
def Match.holds : Match → Packet → Bool
  | .iifname name, packet => packet.iifname = name
  | .oifname name, packet => packet.oifname = name
  | .etherSource mac, packet => packet.etherSource = mac
  | .etherSourceNot mac, packet => packet.etherSource ≠ mac
  | .ipv6, packet => packet.ip.isV6
  | .ipSource address, packet => packet.ip.source4 = some address
  | .ipSourceNot address, packet => packet.ip.source4.any (· ≠ address)
  | .ipDestination address, packet => packet.ip.destination4 = some address
  | .ipDestinationIn set, packet =>
    packet.ip.destination4.any fun destination => set.elements.any (·.covers (.v4 destination))
  | .ip6DestinationIn set, packet =>
    packet.ip.destination6.any fun destination => set.elements.any (·.covers (.v6 destination))
  | .sourcePort protocol port, packet => packet.transport.source = some (protocol, port)
  | .destinationPort protocol port, packet => packet.transport.destination = some (protocol, port)
  | .icmpEchoRequest, packet => packet.transport = .icmpEchoRequest
  | .ctDirection direction, packet => packet.ctDirection = direction
  | .ctState states, packet => packet.ctState ∈ states

inductive Verdict where
  | accept | drop
deriving DecidableEq

structure Rule where
  matches_ : List Match
  verdict : Verdict

open Rule

def Rule.applies (rule : Rule) (packet : Packet) : Bool :=
  rule.matches_.all (·.holds packet)

/-- A filter chain with its hook and policy `drop`. -/
structure Chain where
  hook : String
  rules : List Rule

/-- The first rule that applies decides, otherwise the packet is dropped. -/
def Chain.verdict (chain : Chain) (packet : Packet) : Verdict :=
  FirstMatch.verdict Rule.applies Rule.verdict .drop chain.rules packet

/-! ## The sandbox table -/

structure BundleNames where
  sandboxTable : Name
  hostTable : Name
  publicationTable : Name
  tap : Name
  sandboxVeth : Name
  hostVeth : Name
deriving DecidableEq

def BundleNames.new (short : ShortName) : BundleNames where
  sandboxTable := ['s', 'o', 'm', 'a', '_'] ++ short
  hostTable := ['s', 'o', 'm', 'a', 'h', '_'] ++ short
  publicationTable := ['s', 'o', 'm', 'a', 'p', '_'] ++ short
  tap := ['t', 'a', 'p', '0']
  sandboxVeth := ['v', 's', '0']
  hostVeth := ['s', 'v'] ++ short

/-- The packets already translated toward the guest endpoint. -/
def PublishedPort.guestMatch (port : PublishedPort) : List Match :=
  [.ipDestination port.guest, .destinationPort port.protocol port.guestPort]

/-- The guest's replies on this endpoint. -/
def PublishedPort.replyMatch (port : PublishedPort) : List Match :=
  [.ipSource port.guest, .sourcePort port.protocol port.guestPort]

structure SandboxRuleset where
  names : BundleNames
  lease : Lease
  guestMac : Bytes 6
  intent : NetworkIntent
  protected_ : ProtectedSet
  published : List PublishedPort

namespace SandboxRuleset

variable (ruleset : SandboxRuleset)

def protected4 : AddressSet :=
  ⟨"protected4", (ruleset.protected_.map ProtectedDestination.cidr).filter Cidr.isV4⟩

def protected6 : AddressSet :=
  ⟨"protected6", (ruleset.protected_.map ProtectedDestination.cidr).filter (!·.isV4)⟩

def resolvers4 : AddressSet :=
  ⟨"resolvers4", ruleset.intent.resolvers.map fun resolver => .v4 resolver 32⟩

/-- What the guest did not send in its own name is dropped. -/
def spoofed : List Rule :=
  [⟨[.iifname ruleset.names.tap, .etherSourceNot ruleset.guestMac], .drop⟩,
   ⟨[.iifname ruleset.names.tap, .ipv6], .drop⟩,
   ⟨[.iifname ruleset.names.tap, .ipSourceNot ruleset.lease.guest], .drop⟩]

/-- The guest's answers on its published ports come before the protected sets. -/
def answers : List Rule :=
  ruleset.published.map fun port =>
    ⟨[.iifname ruleset.names.tap, .oifname ruleset.names.sandboxVeth] ++ port.replyMatch
      ++ [.ctDirection .reply, .ctState [.established]], .accept⟩

def shielded : List Rule :=
  [⟨[.iifname ruleset.names.tap, .ipDestinationIn ruleset.protected4], .drop⟩,
   ⟨[.iifname ruleset.names.tap, .ip6DestinationIn ruleset.protected6], .drop⟩]

variable (protocol : TransportProtocol)

def dnsAccept : Rule :=
  ⟨[.iifname ruleset.names.tap, .oifname ruleset.names.sandboxVeth,
    .ipDestinationIn ruleset.resolvers4, .destinationPort protocol 53], .accept⟩

def dnsDrop : Rule :=
  ⟨[.iifname ruleset.names.tap, .destinationPort protocol 53], .drop⟩

def opened : Rule :=
  ⟨[.iifname ruleset.names.tap, .oifname ruleset.names.sandboxVeth, .ctState [.new, .established]],
    .accept⟩

/-- What comes back toward the guest. -/
def inbound : List Rule :=
  ruleset.published.map (fun port =>
    ⟨[.iifname ruleset.names.sandboxVeth, .oifname ruleset.names.tap] ++ port.guestMatch
      ++ [.ctState [.new, .established]], .accept⟩)
  ++ [⟨[.iifname ruleset.names.sandboxVeth, .oifname ruleset.names.tap,
        .ipDestination ruleset.lease.guest, .ctState [.established, .related]], .accept⟩]

/-- The forward chain in the order its rules are written. -/
def forward : Chain :=
  ⟨"forward", ruleset.spoofed ++ (ruleset.answers ++ (ruleset.shielded
    ++ ((if ruleset.intent.dnsAllowed then [ruleset.dnsAccept .udp, ruleset.dnsAccept .tcp] else [])
    ++ ([ruleset.dnsDrop .udp, ruleset.dnsDrop .tcp]
    ++ ((if ruleset.intent.egress.forwards then [ruleset.opened] else []) ++ ruleset.inbound)))))⟩

/-! ## What the guest may send -/

variable (packet : Packet)

/-- The packet answers a connection someone opened to a published port of this guest. -/
def Answers : Prop :=
  packet.ctState = .established ∧ packet.ctDirection = .reply
    ∧ ∃ port ∈ ruleset.published, port.guest = ruleset.lease.guest
      ∧ packet.transport.source = some (port.protocol, port.guestPort)

/-- The packet goes to port 53. -/
def IsDns : Prop :=
  ∃ protocol, packet.transport.destination = some (protocol, 53)

/-- The packet goes to a destination the intent lets the guest reach. -/
def Reaches (destination : U32) : Prop :=
  ¬ ruleset.protected_.covers (.v4 destination)
    ∧ (IsDns packet ∧ destination ∈ ruleset.intent.resolvers
      ∨ ¬ IsDns packet ∧ ruleset.intent.egress.forwards
        ∧ (packet.ctState = .new ∨ packet.ctState = .established))

/-- The packets of the guest that may leave the sandbox. -/
def Egress : Prop :=
  packet.etherSource = ruleset.guestMac ∧ packet.oifname = ruleset.names.sandboxVeth
    ∧ ∃ destination, packet.ip = .v4 ruleset.lease.guest destination
      ∧ (ruleset.Answers packet ∨ ruleset.Reaches packet destination)

/-! ## The blocks of the forward chain

Each block is read on a packet that entered from the TAP. -/

theorem resolvers4_covers (destination : U32) :
    ruleset.resolvers4.elements.any (·.covers (.v4 destination)) = true
      ↔ destination ∈ ruleset.intent.resolvers := by
  have hmask : mask4 32 = BitVec.allOnes 32 := by decide
  have hcovers : ∀ resolver : U32,
      Cidr.covers (.v4 resolver 32) (.v4 destination) = decide (destination = resolver) := by
    intro resolver
    change decide (destination &&& mask4 32 = resolver &&& mask4 32) = _
    rw [hmask, BitVec.and_allOnes, BitVec.and_allOnes]
  simp only [resolvers4, List.any_map, List.any_eq_true, Function.comp_apply, hcovers,
    decide_eq_true_eq, exists_eq_right']

variable {ruleset} {packet} {policy : Verdict}

section

variable (htap : packet.iifname = ruleset.names.tap)
include htap

theorem verdict_spoofed :
    verdict applies verdict policy ruleset.spoofed packet =
      if packet.etherSource = ruleset.guestMac ∧ packet.ip.source4 = some ruleset.lease.guest then policy
      else .drop := by
  rw [verdict_uniform (v := .drop) (by simp [spoofed])]
  cases hip : packet.ip with
  | v4 source destination =>
    by_cases hmac : packet.etherSource = ruleset.guestMac
    · by_cases hsource : source = ruleset.lease.guest
      · simp [spoofed, applies, Match.holds, isV6, source4, hip, hmac, hsource]
      · simp [spoofed, applies, Match.holds, isV6, source4, hip, htap, hmac, hsource]
    · simp [spoofed, applies, Match.holds, htap, hmac]
  | v6 source destination =>
    simp [spoofed, applies, Match.holds, isV6, source4, hip, htap]

theorem verdict_answers (hsource : packet.ip.source4 = some ruleset.lease.guest) :
    verdict applies verdict policy ruleset.answers packet = .accept ↔
      packet.oifname = ruleset.names.sandboxVeth ∧ ruleset.Answers packet ∨ policy = .accept := by
  rw [verdict_uniform (v := .accept) (by simp [answers])]
  have hrule : (∃ r ∈ ruleset.answers, r.applies packet) ↔
      packet.oifname = ruleset.names.sandboxVeth ∧ ruleset.Answers packet := by
    simp only [answers, List.mem_map, exists_exists_and_eq_and, applies, PublishedPort.replyMatch,
      List.all_append, List.all_cons, List.all_nil, Match.holds, htap, hsource, Answers]
    simp only [Option.some.injEq, decide_true, Bool.true_and, Bool.and_true, Bool.and_eq_true,
      decide_eq_true_eq, List.mem_singleton]
    constructor
    · rintro ⟨port, hmem, ⟨hveth, hguest, htransport⟩, hreply, hstate⟩
      exact ⟨hveth, hstate, hreply, port, hmem, hguest.symm, htransport⟩
    · rintro ⟨hveth, hstate, hreply, port, hmem, hguest, htransport⟩
      exact ⟨port, hmem, ⟨hveth, hguest.symm, htransport⟩, hreply, hstate⟩
  split_ifs with h
  · exact ⟨fun _ => .inl (hrule.mp h), fun _ => rfl⟩
  · exact ⟨.inr, fun hor => hor.resolve_left fun hanswers => h (hrule.mpr hanswers)⟩

variable {source destination : U32}

theorem verdict_shielded (hip : packet.ip = .v4 source destination) :
    verdict applies verdict policy ruleset.shielded packet =
      if ruleset.protected_.covers (.v4 destination) then .drop else policy := by
  rw [verdict_uniform (v := .drop) (by simp [shielded])]
  simp [shielded, applies, Match.holds, destination4, destination6, hip, htap,
    protected4, ProtectedSet.any_covers, -List.any_filter, -List.any_map]

theorem verdict_dns (hip : packet.ip = .v4 source destination) :
    verdict applies verdict (verdict applies verdict policy
        [ruleset.dnsDrop .udp, ruleset.dnsDrop .tcp] packet)
      (if ruleset.intent.dnsAllowed then [ruleset.dnsAccept .udp, ruleset.dnsAccept .tcp] else [])
      packet = .accept ↔
      IsDns packet ∧ packet.oifname = ruleset.names.sandboxVeth ∧ destination ∈ ruleset.intent.resolvers
        ∨ ¬ IsDns packet ∧ policy = .accept := by
  have hdns : IsDns packet ↔ packet.transport.destination = some (.udp, 53)
      ∨ packet.transport.destination = some (.tcp, 53) := by
    constructor
    · rintro ⟨protocol, h⟩
      cases protocol with
      | tcp => exact .inr h
      | udp => exact .inl h
    · rintro (h | h)
      · exact ⟨_, h⟩
      · exact ⟨_, h⟩
  have hdrop : verdict applies verdict policy [ruleset.dnsDrop .udp, ruleset.dnsDrop .tcp] packet
      = .accept ↔ ¬ IsDns packet ∧ policy = .accept := by
    rw [verdict_uniform (v := .drop) (by simp [dnsDrop])]
    have hrule : (∃ r ∈ [ruleset.dnsDrop .udp, ruleset.dnsDrop .tcp], r.applies packet)
        ↔ IsDns packet := by
      simp [dnsDrop, applies, Match.holds, htap, hdns]
    split_ifs with h
    · simp [hrule.mp h]
    · simp [mt hrule.mpr h]
  by_cases hallowed : ruleset.intent.dnsAllowed
  · rw [if_pos hallowed, verdict_uniform (v := .accept) (by simp [dnsAccept])]
    have haccept : (∃ r ∈ [ruleset.dnsAccept .udp, ruleset.dnsAccept .tcp], r.applies packet) ↔
        IsDns packet ∧ packet.oifname = ruleset.names.sandboxVeth
          ∧ destination ∈ ruleset.intent.resolvers := by
      simp only [dnsAccept, List.mem_cons, List.not_mem_nil, or_false, exists_eq_or_imp, exists_eq_left,
        applies, List.all_cons, List.all_nil, Match.holds, destination4, hip, htap,
        Option.any_some, hdns, Bool.and_eq_true, decide_eq_true_eq, resolvers4_covers, true_and, and_true]
      tauto
    split_ifs with h
    · exact ⟨fun _ => .inl (haccept.mp h), fun _ => rfl⟩
    · rw [hdrop]
      exact ⟨.inr, fun hor => hor.resolve_left fun hresolver => h (haccept.mpr hresolver)⟩
  · have hnone : ruleset.intent.resolvers = [] := by
      simpa [NetworkIntent.dnsAllowed] using hallowed
    rw [if_neg hallowed, verdict_nil, hdrop, hnone]
    simp

end

variable (hnames : ruleset.names.tap ≠ ruleset.names.sandboxVeth)
include hnames

theorem verdict_opened (htap : packet.iifname = ruleset.names.tap) :
    verdict applies verdict (verdict applies verdict .drop ruleset.inbound packet)
      (if ruleset.intent.egress.forwards then [ruleset.opened] else []) packet = .accept ↔
      packet.oifname = ruleset.names.sandboxVeth ∧ ruleset.intent.egress.forwards
        ∧ (packet.ctState = .new ∨ packet.ctState = .established) := by
  have hinbound : verdict applies verdict .drop ruleset.inbound packet = .drop := by
    refine verdict_skip fun r hr => ?_
    simp only [inbound, List.mem_append, List.mem_map, List.mem_singleton] at hr
    rcases hr with ⟨port, -, rfl⟩ | rfl <;> simp [applies, Match.holds, htap, hnames]
  rw [hinbound]
  split_ifs with hforwards
  · rw [verdict_cons, verdict_nil]
    simp only [opened, Rule.applies, List.all_cons, List.all_nil, Match.holds, htap, decide_true,
      Bool.true_and, Bool.and_true, Bool.and_eq_true, decide_eq_true_eq, List.mem_cons,
      List.not_mem_nil, or_false, hforwards, true_and, ite_eq_left_iff, reduceCtorEq, imp_false, not_not]
  · simp [hforwards]

theorem forward_verdict (htap : packet.iifname = ruleset.names.tap) :
    ruleset.forward.verdict packet = .accept ↔ ruleset.Egress packet := by
  unfold Chain.verdict forward Egress
  simp only [verdict_append]
  rw [verdict_spoofed htap]
  by_cases hown : packet.etherSource = ruleset.guestMac
      ∧ packet.ip.source4 = some ruleset.lease.guest
  · obtain ⟨destination, hip⟩ : ∃ destination, packet.ip = .v4 ruleset.lease.guest destination := by
      cases hip : packet.ip with
      | v4 source destination =>
        rw [hip] at hown
        exact ⟨destination, congrArg (v4 · destination) (Option.some.inj hown.2)⟩
      | v6 source destination => simp [hip, source4] at hown
    have hdestination : ∀ d, packet.ip = .v4 ruleset.lease.guest d ↔ d = destination := by
      intro d
      rw [hip, v4.injEq]
      exact ⟨fun h => h.2.symm, fun h => ⟨rfl, h.symm⟩⟩
    rw [if_pos hown, verdict_answers htap hown.2, verdict_shielded htap hip]
    simp only [hown.1, hdestination, exists_eq_left, true_and, Reaches]
    by_cases hcovers : ruleset.protected_.covers (.v4 destination)
    · simp [hcovers]
    · rw [if_neg hcovers, verdict_dns htap hip, verdict_opened hnames htap]
      tauto
  · rw [if_neg hown]
    simp only [reduceCtorEq, false_iff, not_and, not_exists]
    rintro hmac - destination hip
    exact absurd ⟨hmac, by rw [hip]; rfl⟩ hown

end SandboxRuleset

/-- **The sandbox egress policy.**  A packet that enters the forward chain from the TAP is accepted
exactly when the guest may send it. -/
theorem SandboxRuleset.forward_accepts_iff_egress (short : ShortName) (profile : NetworkProfile) (lease : Lease)
    (guestMac : Bytes 6) (intent : NetworkIntent) (published : List PublishedPort) (packet : Packet)
    (htap : packet.iifname = (BundleNames.new short).tap) : let ruleset : SandboxRuleset :=
      ⟨BundleNames.new short, lease, guestMac, intent, profile.protected_, published⟩
    ruleset.forward.verdict packet = .accept ↔ ruleset.Egress packet :=
  forward_verdict (by simp [BundleNames.new]) htap

/-- A guest of the sample profile at `10.200.0.2`, with packets to a public address. -/
def sampleRuleset (egress : EgressClass) (published : List PublishedPort) : SandboxRuleset :=
  ⟨BundleNames.new ['0', '1', '2', '3', '4', '5', '6', '7'], ⟨ipv4 10 200 0 0, 0⟩,
    ⟨[2, 0, 0, 0, 0, 1], rfl⟩, ⟨egress, [], [], .fill 32 1, Nat.zero_le _, Nat.zero_le _⟩,
    NetworkProfile.sample.protected_, published⟩

def samplePacket (transport : TransportHeader) (state : CtState) (direction : CtDirection) : Packet where
  iifname := ['t', 'a', 'p', '0']
  oifname := ['v', 's', '0']
  etherSource := ⟨[2, 0, 0, 0, 0, 1], rfl⟩
  ip := .v4 (ipv4 10 200 0 2) (ipv4 8 8 8 8)
  transport := transport
  ctState := state
  ctDirection := direction

theorem public_connection_is_egress :
    let ruleset := sampleRuleset .publicInternet []
    let packet := samplePacket (.ports .tcp 40000 443) .new .original
    packet.iifname = ruleset.names.tap ∧ ruleset.Egress packet :=
  ⟨rfl, (SandboxRuleset.forward_accepts_iff_egress _ NetworkProfile.sample _ _ _ [] _ rfl).mp
    (by decide +kernel)⟩

/-- A mapping onto another guest's address admits nothing here, although transport and source port are
those of a published port. -/
theorem answer_for_another_guest_is_dropped :
    let port : PublishedPort := ⟨none, 8080, ipv4 10 200 0 6, 80, .tcp⟩
    let ruleset := sampleRuleset .denied [port]
    let packet := samplePacket (.ports .tcp 80 40000) .established .reply
    packet.iifname = ruleset.names.tap ∧ packet.etherSource = ruleset.guestMac
      ∧ packet.ip.source4 = some ruleset.lease.guest ∧ packet.oifname = ruleset.names.sandboxVeth
      ∧ packet.ctState = .established ∧ packet.ctDirection = .reply ∧ port ∈ ruleset.published
      ∧ packet.transport.source = some (port.protocol, port.guestPort)
      ∧ ruleset.forward.verdict packet = .drop := by
  decide +kernel

end Soma.Netd
