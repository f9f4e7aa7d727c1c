import Soma.Netd.Types

/-! # Prefixes, plans and leases

A prefix covers the addresses that agree with it on its leading bits. A lease is one `/30` of a plan;
the allocator hands out consecutive indices and never reuses one while it lives.
-/

namespace Soma.Netd

/-! ## Prefixes -/

inductive Address where
  | v4 (bits : U32)
  | v6 (bits : BitVec 128)
deriving DecidableEq

inductive Cidr where
  | v4 (address : U32) (length : Fin 33)
  | v6 (address : BitVec 128) (length : Fin 129)
deriving DecidableEq

instance neZero33 : NeZero 33 := ⟨by decide⟩

instance neZero129 : NeZero 129 := ⟨by decide⟩

/-- The leading `length` bits of `w`. -/
def prefixMask (w length : ℕ) : BitVec w :=
  if length = 0 then 0 else BitVec.allOnes w <<< (w - length)

def mask4 (length : ℕ) : U32 :=
  prefixMask 32 length

def mask6 (length : ℕ) : BitVec 128 :=
  prefixMask 128 length

namespace Cidr

def host : Address → Cidr
  | .v4 bits => .v4 bits 32
  | .v6 bits => .v6 bits 128

/-- Membership as the broker asks it: the host bits of the address are cleared, those of the prefix are
not looked at. -/
def contains : Cidr → Address → Bool
  | .v4 network length, .v4 address => address &&& mask4 length = network
  | .v6 network length, .v6 address => address &&& mask6 length = network
  | _, _ => false

/-- Membership in the interval a prefix stands for in an address set: both sides are masked. -/
def covers : Cidr → Address → Bool
  | .v4 network length, .v4 address => address &&& mask4 length = network &&& mask4 length
  | .v6 network length, .v6 address => address &&& mask6 length = network &&& mask6 length
  | _, _ => false

def first : Cidr → Address
  | .v4 address _ => .v4 address
  | .v6 address _ => .v6 address

theorem contains_eq_covers {cidr : Cidr} (h : cidr.contains cidr.first) (address : Address) :
    cidr.contains address = cidr.covers address := by
  rcases cidr with ⟨network, length⟩ | ⟨network, length⟩ <;> cases address <;>
    simp_all [contains, covers, first]

theorem host_contains (address : Address) : (host address).contains (host address).first := by
  cases address with
  | v4 bits => exact decide_eq_true (BitVec.and_allOnes)
  | v6 bits => exact decide_eq_true (BitVec.and_allOnes)

def overlaps (cidr other : Cidr) : Bool :=
  cidr.contains other.first || other.contains cidr.first

def isV4 : Cidr → Bool
  | .v4 .. => true
  | .v6 .. => false

/-- The 18 bytes that enter a digest. -/
def encode : Cidr → List UInt8
  | .v4 address length =>
    4 :: Codec.putWord address ++ List.replicate 12 0 ++ [UInt8.ofNat length]
  | .v6 address length => 6 :: Codec.putWord address ++ [UInt8.ofNat length]

end Cidr

/-! ## Leases -/

/-- An IPv4 plan carved into consecutive `/30` leases; its base has no host bit. -/
structure SubnetPlan where
  base : U32
  prefixLength : ℕ
  valid : 8 ≤ prefixLength ∧ prefixLength ≤ 28
  aligned : base &&& mask4 prefixLength = base
deriving DecidableEq

variable (plan : SubnetPlan)

def SubnetPlan.cidr : Cidr :=
  .v4 plan.base ⟨plan.prefixLength, by have := plan.valid; omega⟩

def SubnetPlan.capacity : ℕ :=
  2 ^ (30 - plan.prefixLength)

structure Lease where
  network : U32
  index : ℕ
deriving DecidableEq

/-- The `/30` prefix of a lease. -/
def Lease.cidr (lease : Lease) : Cidr :=
  .v4 lease.network 30

/-- The first usable address: the gateway. -/
def Lease.host (lease : Lease) : U32 :=
  lease.network + 1

/-- The second usable address: the guest. -/
def Lease.guest (lease : Lease) : U32 :=
  lease.network + 2

def SubnetPlan.lease (index : ℕ) : Option Lease :=
  if index < plan.capacity ∧ plan.base.toNat + index * 4 < 2 ^ 32 then
    some ⟨plan.base + BitVec.ofNat 32 (index * 4), index⟩
  else none

structure LeasePair where
  guest : Lease
  transit : Lease
deriving DecidableEq

/-- The allocator of one broker process. -/
structure Ipam where
  leases : SubnetPlan
  transit : SubnetPlan
  generation : CleanupGeneration
  next : ℕ
  limit : ℕ
deriving DecidableEq

namespace Ipam

def new (leases transit : SubnetPlan) (generation : CleanupGeneration) (limit : ℕ) :
    Except Error Ipam :=
  if limit = 0 then .error (.invalidProfile "lease limit")
  else .ok ⟨leases, transit, generation, 0, min (min limit leases.capacity) transit.capacity⟩

/-- The next lease pair; the index is used up even when a plan has no lease for it. -/
def allocate (ipam : Ipam) : Except Error LeasePair × Ipam :=
  if ipam.limit ≤ ipam.next then (.error .poolExhausted, ipam)
  else
    let used := { ipam with next := ipam.next + 1 }
    match ipam.leases.lease ipam.next, ipam.transit.lease ipam.next with
    | some guest, some transit => (.ok ⟨guest, transit⟩, used)
    | _, _ => (.error .poolExhausted, used)

theorem lease_index {plan : SubnetPlan} {index : ℕ} {lease : Lease} (h : plan.lease index = some lease) :
    lease.index = index := by
  unfold SubnetPlan.lease at h
  split_ifs at h
  cases h
  rfl

theorem allocate_ok {ipam ipam' : Ipam} {pair : LeasePair} (h : ipam.allocate = (.ok pair, ipam')) :
    pair.guest.index = ipam.next ∧ pair.transit.index = ipam.next
      ∧ ipam' = { ipam with next := ipam.next + 1 } := by
  unfold allocate at h
  simp only at h
  split_ifs at h
  · cases h
  · split at h
    · next guest transit hguest htransit =>
      cases h
      exact ⟨lease_index hguest, lease_index htransit, rfl⟩
    · cases h

theorem next_le_allocate (ipam : Ipam) : ipam.next ≤ ipam.allocate.2.next := by
  unfold allocate
  simp only
  split_ifs
  · exact le_rfl
  · split <;> exact Nat.le_succ _

end Ipam

end Soma.Netd
