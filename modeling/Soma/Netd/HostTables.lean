import Soma.Netd.Bundle

/-! # The tables of the host

Each bundle has a host table and a publication table in the host's namespace. Their chains have policy
accept: a packet passes a hook when no chain drops it, and a chain can only forbid more than the others.
The chains that set the conntrack zone and masquerade decide no packet and are left out.

* **`entering_forwarded`**, **`leaving_forwarded`** and **`entering_delivered`** read one bundle's chains at
  the two filter hooks, **`translations_own`** its publication table.
* **`sandboxes_isolated`** holds them together over the tables of all bundles.
-/

namespace Soma.Netd

open Soma.FirstMatch Soma.Lib

/-- What the host's chains see of a packet: also whether its connection's destination was translated. -/
structure HostPacket extends Packet where
  dnat : Bool

inductive HostMatch where
  | base (condition : Match)
  | ipv4
  | oifnameNot (name : Name)
  | ctStatusDnat

def HostMatch.holds : HostMatch → HostPacket → Bool
  | .base condition, packet => condition.holds packet.toPacket
  | .ipv4, packet => !packet.ip.isV6
  | .oifnameNot name, packet => packet.oifname ≠ name
  | .ctStatusDnat, packet => packet.dnat

/-- A rule with what it decides: a verdict or a translation. -/
structure HostRule (V : Type) where
  matches_ : List HostMatch
  decides : V

def HostRule.applies {V : Type} (rule : HostRule V) (packet : HostPacket) : Bool :=
  rule.matches_.all (·.holds packet)

open HostRule

namespace HostRuleset

variable (ruleset : HostRuleset)

/-- What enters from the bundle is dropped unless it is the guest's own and leaves by the uplink. -/
def entering : List (HostRule Verdict) :=
  let cidrs := ruleset.protected_.map ProtectedDestination.cidr
  let veth := ruleset.names.hostVeth
  [⟨[.base (.iifname veth), .base (.ipSourceNot ruleset.lease.guest)], .drop⟩,
   ⟨[.base (.iifname veth), .base .ipv6], .drop⟩,
   ⟨[.base (.iifname veth), .base (.ipDestinationIn ⟨"protected4", cidrs.filter Cidr.isV4⟩)], .drop⟩,
   ⟨[.base (.iifname veth), .base (.ip6DestinationIn ⟨"protected6", cidrs.filter (!·.isV4)⟩)], .drop⟩,
   ⟨[.base (.iifname veth), .oifnameNot ruleset.uplink.name], .drop⟩]

def leaving : List (HostRule Verdict) :=
  let veth := ruleset.names.hostVeth
  [⟨[.base (.oifname veth), .base (.ipDestination ruleset.lease.guest), .ctStatusDnat], .accept⟩,
   ⟨[.base (.oifname veth), .base (.ctState [.new, .invalid, .untracked])], .drop⟩]

def forward : List (HostRule Verdict) :=
  ruleset.entering ++ ruleset.leaving

def input : List (HostRule Verdict) :=
  [⟨[.base (.iifname ruleset.names.hostVeth), .ctStatusDnat, .base (.ctState [.established, .related])], .accept⟩,
   ⟨[.base (.iifname ruleset.names.hostVeth)], .drop⟩]

end HostRuleset

/-- The packets that arrive for the host endpoint. -/
def PublishedPort.hostMatch (port : PublishedPort) : List HostMatch :=
  [port.bind.elim .ipv4 fun address => .base (.ipDestination address),
    .base (.destinationPort port.protocol port.hostPort)]

def PublishedPort.translation (port : PublishedPort) : U32 × U16 :=
  (port.guest, port.guestPort)

/-- A bundle on the host, with the ports the broker publishes for its guest. -/
structure HostBundle extends HostRuleset where
  published : List PublishedPort
  own : ∃ reservations : List PortReservation, reservations.mapM (publishPort lease.guest) = .ok published

/-- The rules of the publication table, the same at the prerouting and at the output hook. -/
def HostBundle.translations (bundle : HostBundle) : List (HostRule (Option (U32 × U16))) :=
  bundle.published.map fun port => ⟨port.hostMatch, some port.translation⟩

variable (bundles : List HostBundle) (packet : HostPacket)

/-- A packet passes the forward hook. -/
def Forwarded : Prop :=
  ∀ b ∈ bundles, verdict applies decides .accept b.forward packet = .accept

/-- A packet passes the input hook. -/
def Delivered : Prop :=
  ∀ b ∈ bundles, verdict applies decides .accept b.input packet = .accept

/-- Some table translates the destination of the packet. -/
def Rewritten (destination : U32 × U16) : Prop :=
  ∃ b ∈ bundles, verdict applies decides none b.translations packet = some destination

section

variable {bundles} {a : HostBundle} {packet}

theorem forward_accepts (h : Forwarded bundles packet) (ha : a ∈ bundles) :
    (∀ rule ∈ a.entering, rule.applies packet = false)
      ∧ verdict applies decides .accept a.leaving packet = .accept := by
  have h := h a ha
  rw [HostRuleset.forward, verdict_append, verdict_uniform (v := .drop) (by simp [HostRuleset.entering])] at h
  split_ifs at h with hdrop
  exact ⟨by simpa using hdrop, h⟩

/-- What enters from a bundle goes out by the uplink, from its guest and to no protected destination. -/
theorem entering_forwarded (h : Forwarded bundles packet) (ha : a ∈ bundles)
    (hentering : packet.iifname = a.names.hostVeth) : packet.oifname = a.uplink.name ∧ ∃ destination,
      packet.ip = .v4 a.lease.guest destination ∧ a.protected_.covers (.v4 destination) = false := by
  have hpassed := (forward_accepts h ha).1
  cases hip : packet.ip with
  | v6 source destination =>
    simp [HostRuleset.entering, applies, HostMatch.holds, Match.holds, hentering, hip, IpHeader.isV6] at hpassed
  | v4 source destination =>
    simp [HostRuleset.entering, applies, HostMatch.holds, Match.holds, hentering, hip, IpHeader.isV6,
      IpHeader.source4, IpHeader.destination4, IpHeader.destination6, ProtectedSet.any_covers, -List.any_filter,
      -List.any_map, -List.any_eq_false] at hpassed
    obtain ⟨rfl, hcovers, houtput⟩ := hpassed
    exact ⟨houtput, destination, rfl, hcovers⟩

/-- What leaves toward a guest is on a translated connection or belongs to one that is known. -/
theorem leaving_forwarded (h : Forwarded bundles packet) (ha : a ∈ bundles)
    (hleaving : packet.oifname = a.names.hostVeth) :
    packet.ip.destination4 = some a.lease.guest ∧ packet.dnat = true
      ∨ packet.ctState ∉ [.new, .invalid, .untracked] := by
  have hpassed := (forward_accepts h ha).2
  contrapose! hpassed
  obtain ⟨hdnat, hstate⟩ := hpassed
  simpa [HostRuleset.leaving, verdict_cons, applies, HostMatch.holds, Match.holds, hleaving, hstate]
    using hdnat

/-- Only the replies of a translated connection reach the host itself. -/
theorem entering_delivered (h : Delivered bundles packet) (ha : a ∈ bundles)
    (hentering : packet.iifname = a.names.hostVeth) :
    packet.dnat = true ∧ packet.ctState ∈ [.established, .related] := by
  by_contra hother
  refine absurd (h a ha) ?_
  simp [HostRuleset.input, verdict_cons, applies, HostMatch.holds, Match.holds, hentering]
  simpa using hother

/-- A table translates to its own guest, what arrives for an endpoint it publishes. -/
theorem translations_own {destination : U32 × U16}
    (h : verdict applies decides none a.translations packet = some destination) :
    ∃ port ∈ a.published, port.hostMatch.all (·.holds packet) ∧ port.translation = destination
      ∧ port.guest = a.lease.guest := by
  obtain ⟨rule, hrule, happlies, hdecides⟩ := exists_of_verdict h (by simp)
  obtain ⟨port, hport, rfl⟩ := List.mem_map.mp hrule
  obtain ⟨reservations, hpublished⟩ := a.own
  obtain ⟨reservation, -, hreservation⟩ := exists_of_mem_forall₂ (mapM_eq_ok.mp hpublished).flip hport
  refine ⟨port, hport, happlies, Option.some.inj hdecides, ?_⟩
  unfold publishPort at hreservation
  split at hreservation
  · rw [← Except.ok.inj hreservation]
  · cases hreservation

end

/-- **The sandboxes are isolated from each other and from the host**: what a guest sends goes out by the
uplink or answers a translated connection, and what reaches it was published or is an answer. -/
theorem sandboxes_isolated (bundles : List HostBundle) (hguests : (bundles.map (·.lease.guest)).Nodup)
    (huplink : ∀ a ∈ bundles, ∀ b ∈ bundles, a.uplink.name ≠ b.names.hostVeth) (a : HostBundle) (ha : a ∈ bundles)
    (packet : HostPacket) :
    (packet.iifname = a.names.hostVeth → Forwarded bundles packet →
      (packet.oifname = a.uplink.name ∧ ∃ destination,
        packet.ip = .v4 a.lease.guest destination ∧ a.protected_.covers (.v4 destination) = false)
      ∧ ∀ b ∈ bundles, packet.oifname ≠ b.names.hostVeth)
    ∧ (packet.iifname = a.names.hostVeth → Delivered bundles packet →
      packet.dnat = true ∧ packet.ctState ∈ [.established, .related])
    ∧ (packet.oifname = a.names.hostVeth → Forwarded bundles packet →
      packet.ip.destination4 = some a.lease.guest ∧ packet.dnat = true
        ∨ packet.ctState ∉ [.new, .invalid, .untracked])
    ∧ ∀ destination, Rewritten bundles packet destination → destination.1 = a.lease.guest →
      ∃ port ∈ a.published, port.hostMatch.all (·.holds packet) := by
  refine ⟨fun hin h => ?_, fun hin h => entering_delivered h ha hin, fun hout h => leaving_forwarded h ha hout, ?_⟩
  · have hpassed := entering_forwarded h ha hin
    exact ⟨hpassed, fun b hb => hpassed.1 ▸ huplink a ha b hb⟩
  · rintro destination ⟨b, hb, hverdict⟩ hguest
    obtain ⟨port, hport, hmatches, rfl, hown⟩ := translations_own hverdict
    -- The guest tells whose table it was.
    obtain rfl := List.inj_on_of_nodup_map hguests hb ha (hown.symm.trans hguest)
    exact ⟨port, hport, hmatches⟩

/-- A bundle of the sample profile that publishes port 80 of its guest. -/
def sampleBundle (short : ShortName) (network : U32) (hostPort : U16) : HostBundle where
  names := .new short
  lease := ⟨network, 0⟩
  uplink := NetworkProfile.sample.uplink
  zone := ⟨1, firstZone_nonzero⟩
  protected_ := NetworkProfile.sample.protected_
  published := [⟨none, hostPort, Lease.guest ⟨network, 0⟩, 80, .tcp⟩]
  own := ⟨[⟨⟨.ipv4 0 (by decide), .automatic, ⟨80, by decide⟩, .tcp⟩, hostPort⟩], rfl⟩

theorem public_packet_leaves_by_uplink :
    let a := sampleBundle ['a'] (ipv4 10 200 0 0) 8080
    let bundles := [a, sampleBundle ['b'] (ipv4 10 200 0 4) 8081]
    let packet : HostPacket := ⟨{ samplePacket (.ports .tcp 40000 443) .new .original with
      iifname := a.names.hostVeth, oifname := a.uplink.name }, false⟩
    Forwarded bundles packet ∧ ∀ b ∈ bundles, packet.oifname ≠ b.names.hostVeth := by
  intro a bundles packet
  have hforwarded : Forwarded bundles packet := by unfold Forwarded; decide +kernel
  have hisolated := sandboxes_isolated bundles (by decide) (by decide) a (List.mem_cons_self ..) packet
  exact ⟨hforwarded, (hisolated.1 rfl hforwarded).2⟩

end Soma.Netd
