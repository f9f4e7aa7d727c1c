import Soma.Netd.Address
import Soma.Netd.Intent

/-! # The operator's network profile

The profile carries the two plans, the system resolvers and the destinations no sandbox may reach.
A profile exists only if its plans are apart and none of its resolvers is protected.
-/

namespace Soma.Netd

open Soma.Codec

abbrev Name := List Char

/-- A Linux interface name: one to fifteen ASCII letters, digits, dots or dashes. -/
structure InterfaceName where
  name : Name
  valid : name ≠ [] ∧ name.length ≤ 15 ∧ name ≠ ['.'] ∧ name ≠ ['.', '.']
    ∧ name.all (fun c => c.isAlphanum || c == '-' || c == '.')
deriving DecidableEq

/-! ## Protected destinations -/

inductive ProtectedReason where
  | unspecified | loopback | linkLocal | rfc1918 | sharedAddressSpace | uniqueLocal | multicast
  | broadcast | reserved | benchmark | ipv4Mapped | awsMetadata | awsResolver | awsTimeSync
  | awsEcsMetadata | googleMetadata | azureMetadata | azureWireServer | hostAddress | peer | controlPlane
deriving DecidableEq

/-- The reason's position in its declaration, as digests encode it. -/
def ProtectedReason.code (reason : ProtectedReason) : UInt8 :=
  UInt8.ofNat reason.ctorIdx

structure ProtectedDestination where
  cidr : Cidr
  reason : ProtectedReason
deriving DecidableEq

/-- The address `a.b.c.d`. -/
def ipv4 (a b c d : UInt8) : U32 :=
  BitVec.ofNat 32 (ofBytes [a, b, c, d])

/-- The address of eight 16-bit segments. -/
def ipv6 (segments : List U16) : BitVec 128 :=
  BitVec.ofNat 128 (segments.foldl (fun v s => v * 2 ^ 16 + s.toNat) 0)

/-- The protected destinations every profile has, IPv4 first. -/
def CERTIFIED_DEFAULT : List ProtectedDestination :=
  [⟨.v4 (ipv4 0 0 0 0) 8, .unspecified⟩,
   ⟨.v4 (ipv4 10 0 0 0) 8, .rfc1918⟩,
   ⟨.v4 (ipv4 100 64 0 0) 10, .sharedAddressSpace⟩,
   ⟨.v4 (ipv4 127 0 0 0) 8, .loopback⟩,
   ⟨.v4 (ipv4 169 254 0 0) 16, .linkLocal⟩,
   ⟨.v4 (ipv4 169 254 169 254) 32, .awsMetadata⟩,
   ⟨.v4 (ipv4 169 254 169 254) 32, .googleMetadata⟩,
   ⟨.v4 (ipv4 169 254 169 254) 32, .azureMetadata⟩,
   ⟨.v4 (ipv4 169 254 169 253) 32, .awsResolver⟩,
   ⟨.v4 (ipv4 169 254 169 123) 32, .awsTimeSync⟩,
   ⟨.v4 (ipv4 169 254 170 2) 32, .awsEcsMetadata⟩,
   ⟨.v4 (ipv4 168 63 129 16) 32, .azureWireServer⟩,
   ⟨.v4 (ipv4 172 16 0 0) 12, .rfc1918⟩,
   ⟨.v4 (ipv4 192 0 0 0) 24, .reserved⟩,
   ⟨.v4 (ipv4 192 168 0 0) 16, .rfc1918⟩,
   ⟨.v4 (ipv4 198 18 0 0) 15, .benchmark⟩,
   ⟨.v4 (ipv4 224 0 0 0) 4, .multicast⟩,
   ⟨.v4 (ipv4 240 0 0 0) 4, .reserved⟩,
   ⟨.v4 (ipv4 255 255 255 255) 32, .broadcast⟩,
   ⟨.v6 (ipv6 [0, 0, 0, 0, 0, 0, 0, 0]) 128, .unspecified⟩,
   ⟨.v6 (ipv6 [0, 0, 0, 0, 0, 0, 0, 1]) 128, .loopback⟩,
   ⟨.v6 (ipv6 [0, 0, 0, 0, 0, 0xffff, 0, 0]) 96, .ipv4Mapped⟩,
   ⟨.v6 (ipv6 [0xfd00, 0x0ec2, 0, 0, 0, 0, 0, 0x254]) 128, .awsMetadata⟩,
   ⟨.v6 (ipv6 [0xfc00, 0, 0, 0, 0, 0, 0, 0]) 7, .uniqueLocal⟩,
   ⟨.v6 (ipv6 [0xfe80, 0, 0, 0, 0, 0, 0, 0]) 10, .linkLocal⟩,
   ⟨.v6 (ipv6 [0xff00, 0, 0, 0, 0, 0, 0, 0]) 8, .multicast⟩]

/-- The protected destinations in ruleset order. -/
abbrev ProtectedSet := List ProtectedDestination

namespace ProtectedSet

variable (set : ProtectedSet)

def contains (address : Address) : Bool :=
  set.any fun entry => entry.cidr.contains address

/-- The address lies in a protected prefix, as an address set reads the prefixes. -/
def covers (address : Address) : Bool :=
  set.any fun entry => entry.cidr.covers address

theorem any_covers (destination : U32) :
    ((set.map ProtectedDestination.cidr).filter Cidr.isV4).any (·.covers (.v4 destination))
      = set.covers (.v4 destination) := by
  rw [Bool.eq_iff_iff]
  simp only [covers, List.any_filter, List.any_map, List.any_eq_true, Function.comp_apply, Bool.and_eq_true]
  refine exists_congr fun entry => and_congr_right fun _ => ?_
  cases entry.cidr with
  | v4 address length => simp [Cidr.isV4]
  | v6 address length => simp [Cidr.isV4, Cidr.covers]

def encode : List UInt8 :=
  set.flatMap fun entry => entry.cidr.encode ++ [entry.reason.code]

end ProtectedSet

/-! ## Profiles -/

/-- The operator-owned network profile served by one broker. -/
structure NetworkProfile where
  uplink : InterfaceName
  leases : SubnetPlan
  transit : SubnetPlan
  resolvers : List U32
  protected_ : ProtectedSet
  plansApart : ¬ leases.cidr.overlaps transit.cidr
  resolversBound : resolvers.length ≤ MAX_DNS_SERVERS
  resolversPublic : resolvers.all fun resolver => !protected_.contains (.v4 resolver)

namespace NetworkProfile

/-- The certified destinations, both plans, every host address and every control-plane prefix. -/
def protectedOf (leases transit : SubnetPlan) (hostAddresses : List Address)
    (controlPlane : List Cidr) : ProtectedSet :=
  CERTIFIED_DEFAULT ++ [⟨leases.cidr, .peer⟩, ⟨transit.cidr, .peer⟩]
    ++ hostAddresses.map (fun address => ⟨.host address, .hostAddress⟩)
    ++ controlPlane.map (fun cidr => ⟨cidr, .controlPlane⟩)

def new (uplink : InterfaceName) (leases transit : SubnetPlan) (resolvers : List U32)
    (hostAddresses : List Address) (controlPlane : List Cidr) : Except Error NetworkProfile :=
  if hplans : leases.cidr.overlaps transit.cidr then .error (.invalidProfile "plans overlap")
  else if hbound : resolvers.length ≤ MAX_DNS_SERVERS then
    let protected_ := protectedOf leases transit hostAddresses controlPlane
    if hpublic : resolvers.all (fun resolver => !protected_.contains (.v4 resolver)) then
      .ok ⟨uplink, leases, transit, resolvers, protected_, hplans, hbound, hpublic⟩
    else .error (.invalidProfile "resolver protected")
  else .error (.invalidProfile "too many resolvers")

def digest (prims : Primitives) (profile : NetworkProfile) : ProfileDigest :=
  prims.sha256 ("soma-netd-profile-v1\x00".toUTF8.toList
    ++ profile.uplink.name.map (fun c => UInt8.ofNat c.toNat) ++ [0] ++ profile.leases.cidr.encode
    ++ profile.transit.cidr.encode ++ [clampU8 profile.resolvers.length]
    ++ profile.resolvers.flatMap putWord ++ profile.protected_.encode)

/-- What the broker takes for protected is what its rulesets drop, where the control plane's prefixes have no
host bit. -/
theorem new_contains_eq_covers {uplink : InterfaceName} {leases transit : SubnetPlan} {resolvers : List U32}
    {hosts : List Address} {controlPlane : List Cidr} {profile : NetworkProfile}
    (h : new uplink leases transit resolvers hosts controlPlane = .ok profile)
    (hcontrol : ∀ cidr ∈ controlPlane, cidr.contains cidr.first) (address : Address) :
    profile.protected_.contains address = profile.protected_.covers address := by
  have hprotected : profile.protected_ = protectedOf leases transit hosts controlPlane := by
    simp only [new] at h
    split_ifs at h
    cases h
    rfl
  have hcanonical : ∀ entry ∈ profile.protected_, entry.cidr.contains entry.cidr.first := by
    have hcertified : ∀ entry ∈ CERTIFIED_DEFAULT, entry.cidr.contains entry.cidr.first := by decide +kernel
    have hplan : ∀ plan : SubnetPlan, plan.cidr.contains plan.cidr.first := fun plan => by
      simpa [SubnetPlan.cidr, Cidr.contains, Cidr.first] using plan.aligned
    rw [hprotected, protectedOf]
    simp only [List.forall_mem_append, List.forall_mem_cons, List.forall_mem_map]
    exact ⟨⟨⟨hcertified, hplan _, hplan _, List.forall_mem_nil _⟩, fun address _ => Cidr.host_contains address⟩, hcontrol⟩
  unfold ProtectedSet.contains ProtectedSet.covers
  rw [Bool.eq_iff_iff, List.any_eq_true, List.any_eq_true]
  refine exists_congr fun entry => and_congr_right fun hentry => ?_
  rw [Cidr.contains_eq_covers (hcanonical entry hentry)]

/-- A profile over the broker's default plans with one public resolver. -/
def sample : NetworkProfile where
  uplink := ⟨['u', 'p', 'l', 'i', 'n', 'k', '0'], by decide⟩
  leases := ⟨ipv4 10 200 0 0, 16, by decide, by decide⟩
  transit := ⟨ipv4 10 201 0 0, 16, by decide, by decide⟩
  resolvers := [ipv4 1 1 1 1]
  protected_ := protectedOf ⟨ipv4 10 200 0 0, 16, by decide, by decide⟩
    ⟨ipv4 10 201 0 0, 16, by decide, by decide⟩ [] []
  plansApart := by decide
  resolversBound := by decide
  resolversPublic := by decide +kernel

example : new sample.uplink sample.leases sample.transit sample.resolvers [] [] = .ok sample := by
  rfl

end NetworkProfile

def NetworkIntent.denied (prims : Primitives) (profile : NetworkProfile) : NetworkIntent :=
  ⟨.denied, [], [], profile.digest prims, by decide, by decide⟩

end Soma.Netd
