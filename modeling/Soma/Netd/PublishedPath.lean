import Soma.Netd.HostTables

/-! # The path of a published connection

A connection crosses the publication table, the host table and the sandbox table, and each hook sees other
addresses of it: the destination is translated before the forward hooks, and the masquerade of a reply is
undone before the host's. So a reply goes back, for the host table, to the client itself.
-/

namespace Soma.Netd

open Soma.FirstMatch Soma.Codec HostRule

/-- A connection of a client to a host endpoint, with the address that masquerading shows the guest for the client
and the endpoint that the destination is translated to. -/
structure PublishedFlow where
  protocol : TransportProtocol
  client : U32 × U16
  seen : U32 × U16
  host : U32 × U16
  guest : U32 × U16

@[simp] def PublishedFlow.packet (flow : PublishedFlow) (iifname oifname : Name) (mac : Bytes 6) (source destination : U32 × U16)
    (state : CtState) (direction : CtDirection) : Packet :=
  ⟨iifname, oifname, mac, .v4 source.1 destination.1, .ports flow.protocol source.2 destination.2, state, direction⟩

namespace HostBundle

variable (bundle : HostBundle) (flow : PublishedFlow) (mac : Bytes 6) (state : CtState) (intent : NetworkIntent)

@[simp] def sandbox (guestMac : Bytes 6) : SandboxRuleset :=
  ⟨bundle.names, bundle.lease, guestMac, intent, bundle.protected_, bundle.published⟩

/-- The request at the prerouting and the forward hook of the host. -/
@[simp] def arriving : HostPacket :=
  ⟨flow.packet bundle.uplink.name [] mac flow.client flow.host state .original, false⟩

@[simp] def requestAtHost : HostPacket :=
  ⟨flow.packet bundle.uplink.name bundle.names.hostVeth mac flow.client flow.guest state .original, true⟩

def requestAtSandbox : Packet :=
  flow.packet bundle.names.sandboxVeth bundle.names.tap mac flow.seen flow.guest state .original

@[simp] def replyAtSandbox : Packet :=
  flow.packet bundle.names.tap bundle.names.sandboxVeth mac flow.guest flow.seen .established .reply

@[simp] def replyAtHost : HostPacket :=
  ⟨flow.packet bundle.names.hostVeth bundle.uplink.name mac flow.guest flow.client .established .reply, true⟩

variable {bundle flow mac state intent} {guestMac : Bytes 6}

section host

variable (huplink : bundle.uplink.name ≠ bundle.names.hostVeth) (hguest : flow.guest.1 = bundle.lease.guest)
include huplink hguest

theorem requestAtHost_passes :
    verdict applies decides .accept bundle.forward (bundle.requestAtHost flow mac state) = .accept := by
  rw [HostRuleset.forward, verdict_append, verdict_skip]
  · simp [HostRuleset.leaving, verdict_cons, applies, HostMatch.holds, Match.holds, IpHeader.destination4, hguest]
  · simp [HostRuleset.entering, applies, HostMatch.holds, Match.holds, huplink]

/-- The reply is dropped exactly when it goes back to a protected destination. -/
theorem replyAtHost_passes_iff :
    verdict applies decides .accept bundle.forward (bundle.replyAtHost flow mac) = .accept
      ↔ bundle.protected_.covers (.v4 flow.client.1) = false := by
  rw [HostRuleset.forward, verdict_append, verdict_uniform (v := .drop) (by simp [HostRuleset.entering])]
  simp [HostRuleset.entering, HostRuleset.leaving, verdict_cons, applies, HostMatch.holds, Match.holds, IpHeader.isV6,
    IpHeader.source4, IpHeader.destination4, IpHeader.destination6, ProtectedSet.any_covers, -List.any_filter,
    -List.any_map, -List.any_eq_false, hguest, huplink]

end host

section sandbox

variable (hnames : bundle.names.tap ≠ bundle.names.sandboxVeth) {port : PublishedPort} (hport : port ∈ bundle.published)
  (hprotocol : port.protocol = flow.protocol) (hendpoint : port.translation = flow.guest)
include hnames hport hprotocol hendpoint

theorem requestAtSandbox_passes (hstate : state = .new ∨ state = .established) :
    (bundle.sandbox intent guestMac).forward.verdict (bundle.requestAtSandbox flow mac state) = .accept := by
  -- only the last block is about packets toward the guest
  have hiif : ∀ rest v, Rule.applies ⟨.iifname bundle.names.tap :: rest, v⟩ (bundle.requestAtSandbox flow mac state)
      = false := by
    simp [Rule.applies, Match.holds, requestAtSandbox, hnames.symm]
  simp only [Chain.verdict, SandboxRuleset.forward, ← List.append_assoc]
  rw [verdict_append, verdict_skip, SandboxRuleset.inbound, verdict_append, verdict_uniform (v := .accept) (by simp),
    if_pos]
  · refine ⟨_, List.mem_map.mpr ⟨port, hport, rfl⟩, ?_⟩
    simp [Rule.applies, PublishedPort.guestMatch, Match.holds, requestAtSandbox, IpHeader.destination4,
      TransportHeader.destination, hprotocol, ← hendpoint, PublishedPort.translation, hstate]
  · simp only [List.forall_mem_append]
    refine ⟨⟨⟨⟨⟨?_, ?_⟩, ?_⟩, ?_⟩, ?_⟩, ?_⟩
    · simp [SandboxRuleset.spoofed, hiif]
    · simp [SandboxRuleset.answers, hiif]
    · simp [SandboxRuleset.shielded, hiif]
    · split_ifs <;> simp [SandboxRuleset.dnsAccept, hiif]
    · simp [SandboxRuleset.dnsDrop, hiif]
    · split_ifs <;> simp [SandboxRuleset.opened, hiif]

theorem replyAtSandbox_passes (hguest : port.guest = bundle.lease.guest) :
    (bundle.sandbox intent guestMac).forward.verdict (bundle.replyAtSandbox flow guestMac) = .accept := by
  refine (SandboxRuleset.forward_verdict hnames rfl).mpr
    ⟨rfl, rfl, flow.seen.1, ?_, .inl ⟨rfl, rfl, port, hport, hguest, ?_⟩⟩
  · simp [← hendpoint, PublishedPort.translation, hguest]
  · simp [TransportHeader.source, hprotocol, ← hendpoint, PublishedPort.translation]

end sandbox

end HostBundle

/-- **A published port answers a client exactly when the client is not a protected destination.**  Requests pass
all tables, and so do the replies but for that one rule of the host table. -/
theorem published_port_answers_iff (bundle : HostBundle) (short : ShortName) (hnames : bundle.names = .new short)
    (huplink : bundle.uplink.name ≠ bundle.names.hostVeth) (intent : NetworkIntent) (flow : PublishedFlow)
    (mac guestMac : Bytes 6) (state : CtState) (hstate : state = .new ∨ state = .established)
    (htranslated : verdict applies decides none bundle.translations (bundle.arriving flow mac state)
      = some flow.guest) :
    verdict applies decides .accept bundle.forward (bundle.requestAtHost flow mac state) = .accept
      ∧ (bundle.sandbox intent guestMac).forward.verdict (bundle.requestAtSandbox flow mac state) = .accept
      ∧ (bundle.sandbox intent guestMac).forward.verdict (bundle.replyAtSandbox flow guestMac) = .accept
      ∧ (verdict applies decides .accept bundle.forward (bundle.replyAtHost flow mac) = .accept
        ↔ bundle.protected_.covers (.v4 flow.client.1) = false) := by
  have htap : bundle.names.tap ≠ bundle.names.sandboxVeth := by simp [hnames, BundleNames.new]
  obtain ⟨port, hport, hmatches, hendpoint, hown⟩ := translations_own htranslated
  have hguest : flow.guest.1 = bundle.lease.guest := by rw [← hendpoint, ← hown]; rfl
  have hprotocol : port.protocol = flow.protocol := by
    simp [PublishedPort.hostMatch, HostMatch.holds, Match.holds, TransportHeader.destination] at hmatches
    exact hmatches.2.1.symm
  exact ⟨HostBundle.requestAtHost_passes huplink hguest,
    HostBundle.requestAtSandbox_passes htap hport hprotocol hendpoint hstate,
    HostBundle.replyAtSandbox_passes htap hport hprotocol hendpoint hown,
    HostBundle.replyAtHost_passes_iff huplink hguest⟩

/-- A client of port 8080 of a sample bundle, at `10.200.0.2`. -/
def sampleFlow (client : U32) : PublishedFlow :=
  ⟨.tcp, (client, 40000), (ipv4 10 201 0 1, 40000), (ipv4 8 8 4 4, 8080), (ipv4 10 200 0 2, 80)⟩

theorem public_client_answered :
    let bundle := sampleBundle ['a'] (ipv4 10 200 0 0) 8080
    verdict applies decides .accept bundle.forward
      (bundle.replyAtHost (sampleFlow (ipv4 8 8 8 8)) (sampleRuleset .denied []).guestMac) = .accept :=
  (published_port_answers_iff (sampleBundle ['a'] (ipv4 10 200 0 0) 8080) ['a'] rfl (by decide)
    (sampleRuleset .denied []).intent (sampleFlow (ipv4 8 8 8 8)) _ (sampleRuleset .denied []).guestMac .new (.inl rfl)
    (by decide +kernel)).2.2.2.mpr (by decide +kernel)

/-- A client on a private network is let in and never answered. -/
theorem private_client_unanswered :
    let bundle := sampleBundle ['a'] (ipv4 10 200 0 0) 8080
    let flow := sampleFlow (ipv4 192 168 1 10)
    let mac := (sampleRuleset .denied []).guestMac
    verdict applies decides none bundle.translations (bundle.arriving flow mac .new) = some flow.guest
      ∧ verdict applies decides .accept bundle.forward (bundle.requestAtHost flow mac .new) = .accept
      ∧ verdict applies decides .accept bundle.forward (bundle.replyAtHost flow mac) = .drop := by
  decide +kernel

end Soma.Netd
