import Mathlib.Logic.Function.Basic
import Soma.Lib.Checked

/-! # Host profiles, Machine shapes and demands

What a host has, what one Instance asks for, and what that costs in the unit of every gate.

* **`HostProfile`** is the inventory with its reserves, limits and per-class overcommit ratios;
  `CertifiedProfile` is one that passed `HostProfile.validate`.
* **`MachineShape`** is a request; `ValidShape` is one that passed `MachineShape.validate`.
* **`Demand.of`** prices a shape with checked arithmetic.

Inventories and shapes have the fixed-width fields of the source; demands and usage are natural
numbers whose operations check or saturate at 64 bits.
-/

namespace Soma.Host.Capacity

open Soma.Lib

/-- The workload pattern an operator certified an overcommit policy for. -/
inductive WorkloadClass
  | apiWaiting
  | build
  | idleInteractive
deriving DecidableEq, Repr

/-- How the guest memory promise is admitted. -/
inductive MemoryClass
  | guaranteed
  | elastic (expectedResidentBytes : UInt64)
deriving DecidableEq, Repr

structure MachineShape where
  vcpus : UInt32
  guestMemoryBytes : UInt64
  memoryClass : MemoryClass
  privateStorageBytes : UInt64
  workload : WorkloadClass
  networkUnits : UInt32
  descriptors : UInt32
deriving DecidableEq, Repr

/-- Why a shape is not admissible on any host. -/
inductive ShapeError
  | noVcpus
  | noMemory
  | elasticAboveGuest
deriving DecidableEq, Repr

/-- The checks of a shape, in order. -/
def MachineShape.check (shape : MachineShape) : Except ShapeError Unit :=
  if shape.vcpus = 0 then .error .noVcpus
  else if shape.guestMemoryBytes = 0 then .error .noMemory
  else
    match shape.memoryClass with
    | .elastic expected =>
      if expected > shape.guestMemoryBytes then .error .elasticAboveGuest else .ok ()
    | .guaranteed => .ok ()

/-- A shape that passed its checks. -/
structure ValidShape where
  shape : MachineShape
  valid : shape.check = .ok ()
deriving DecidableEq, Repr

def MachineShape.validate (shape : MachineShape) : Except ShapeError ValidShape :=
  match h : shape.check with
  | .error e => .error e
  | .ok () => .ok ⟨shape, h⟩

/-- Hardware threads and NUMA topology. -/
structure CpuInventory where
  hardwareThreads : UInt32
  reservedThreads : UInt32
  numaNodes : UInt32
deriving DecidableEq, Repr

/-- Physical memory, its reserve, the measured per-VM overhead and the elastic budget. -/
structure MemoryInventory where
  totalBytes : UInt64
  reservedBytes : UInt64
  overheadBytesPerInstance : UInt64
  elasticBudgetBytes : UInt64
deriving DecidableEq, Repr

structure ProcessInventory where
  processes : UInt32
  descriptors : UInt32
deriving DecidableEq, Repr

/-- Operator-certified limits that are separate from raw inventory. -/
structure OperatorLimits where
  residentInstances : UInt32
  concurrentLaunches : UInt32
  runnableVcpus : UInt32
  dirtyMemoryBytes : UInt64
  cleanupSlots : UInt32
deriving DecidableEq, Repr

/-- vCPUs admitted per hardware thread unit. -/
structure Ratio where
  vcpus : UInt32
  threads : UInt32
deriving DecidableEq, Repr

/-- The certified overcommit ratio per workload class. -/
structure OvercommitPolicy where
  apiWaiting : Ratio
  build : Ratio
  idleInteractive : Ratio
deriving DecidableEq, Repr

def OvercommitPolicy.ratio (policy : OvercommitPolicy) : WorkloadClass → Ratio
  | .apiWaiting => policy.apiWaiting
  | .build => policy.build
  | .idleInteractive => policy.idleInteractive

structure HostProfile where
  cpu : CpuInventory
  memory : MemoryInventory
  privateBudgetBytes : UInt64
  networkUnits : UInt32
  process : ProcessInventory
  limits : OperatorLimits
  overcommit : OvercommitPolicy
deriving DecidableEq, Repr

/-- Why a profile is not usable. -/
inductive ProfileError
  | noAdmissibleCpu
  | noAdmissibleMemory
  | noNumaNode
  | zeroRatio
  | elasticBudget
  | zeroOverhead
deriving DecidableEq, Repr

namespace HostProfile

variable (p : HostProfile)

def admissibleCpuUnits : ℕ :=
  p.cpu.hardwareThreads.toNat - p.cpu.reservedThreads.toNat

/-- Bytes after the host reserve. -/
def admissibleMemoryBytes : ℕ :=
  p.memory.totalBytes.toNat - p.memory.reservedBytes.toNat

def hasZeroRatio : Bool :=
  [p.overcommit.apiWaiting, p.overcommit.build, p.overcommit.idleInteractive].any
    fun ratio => ratio.vcpus = 0 || ratio.threads = 0

/-- The checks of a profile, in order. -/
def check : Except ProfileError Unit :=
  if p.cpu.hardwareThreads ≤ p.cpu.reservedThreads then .error .noAdmissibleCpu
  else if p.memory.totalBytes ≤ p.memory.reservedBytes then .error .noAdmissibleMemory
  else if p.cpu.numaNodes = 0 then .error .noNumaNode
  else if p.hasZeroRatio then .error .zeroRatio
  else if p.memory.elasticBudgetBytes.toNat > p.admissibleMemoryBytes then .error .elasticBudget
  else if p.memory.overheadBytesPerInstance = 0 then .error .zeroOverhead
  else .ok ()

end HostProfile

/-- A profile that passed its checks. -/
structure CertifiedProfile where
  profile : HostProfile
  certified : profile.check = .ok ()
deriving DecidableEq, Repr

variable (p : HostProfile)

def HostProfile.validate : Except ProfileError CertifiedProfile :=
  match h : p.check with
  | .error e => .error e
  | .ok () => .ok ⟨p, h⟩

inductive Gate
  | cpuUnits
  | hostMemory
  | elasticMemory
  | privateStorage
  | networkInventory
  | processLimit
  | descriptorLimit
  | operatorSafetyLimit
  | concurrentLaunches
  | runnableVcpus
  | dirtyMemory
  | cleanupSlots
  | numaFit
  | arithmetic
deriving DecidableEq, Repr

/-- A rejection with the gate that refused and the numbers behind it. -/
structure CapacityRejection where
  gate : Gate
  requested : ℕ
  committed : ℕ
  limit : ℕ
deriving DecidableEq, Repr

/-- The milli-units one class census costs under `ratio`, rounded up exactly once. -/
def classMilliUnits (vcpus : ℕ) (ratio : Ratio) : Option ℕ := do
  let thousand ← checkedMul vcpus 1000
  let numerator ← checkedMul thousand ratio.threads.toNat
  let denominator := ratio.vcpus.toNat
  if denominator = 0 then none
  else (checkedAdd numerator (denominator - 1)).map (· / denominator)

/-- What one shape consumes, in the units of every gate. -/
structure Demand where
  cpuMilliUnits : ℕ
  vcpus : ℕ
  workload : WorkloadClass
  guaranteedBytes : ℕ
  elasticBytes : ℕ
  storageBytes : ℕ
  networkUnits : ℕ
  descriptors : ℕ
  runnableVcpus : ℕ
  dirtyBytes : ℕ
deriving DecidableEq, Repr

namespace Demand

/-- The rejection of an overflowing demand. -/
def overflow (requested : ℕ) : CapacityRejection :=
  ⟨.arithmetic, requested, 0, wordMax⟩

/-- A byte count with the measured per-VM overhead on top. -/
def withOverhead (bytes : ℕ) : Except CapacityRejection ℕ :=
  okOr (checkedAdd bytes p.memory.overheadBytesPerInstance.toNat) (overflow bytes)

/-- Guaranteed, elastic and dirty bytes of a shape. -/
def memory (shape : MachineShape) : Except CapacityRejection (ℕ × ℕ × ℕ) :=
  match shape.memoryClass with
  | .guaranteed => do
    let bytes ← withOverhead p shape.guestMemoryBytes.toNat
    .ok (bytes, 0, shape.guestMemoryBytes.toNat)
  | .elastic expected => do
    let bytes ← withOverhead p expected.toNat
    .ok (0, bytes, expected.toNat)

/-- The demand of `shape` on `profile`. -/
def of (certified : CertifiedProfile) (valid : ValidShape) : Except CapacityRejection Demand := do
  let p := certified.profile
  let shape := valid.shape
  let vcpus := shape.vcpus.toNat
  let cpuMilliUnits ← okOr (classMilliUnits vcpus (p.overcommit.ratio shape.workload)) (overflow vcpus)
  let (guaranteedBytes, elasticBytes, dirtyBytes) ← memory p shape
  .ok {
    cpuMilliUnits, vcpus, workload := shape.workload, guaranteedBytes, elasticBytes,
    storageBytes := shape.privateStorageBytes.toNat, networkUnits := shape.networkUnits.toNat,
    descriptors := shape.descriptors.toNat, runnableVcpus := shape.vcpus.toNat, dirtyBytes }

theorem memory_error {p : HostProfile} {shape : MachineShape} {e : CapacityRejection}
    (h : memory p shape = .error e) : e.gate = .arithmetic := by
  unfold memory withOverhead at h
  split at h
  all_goals
    simp only [bind_eq_error, okOr_eq_error] at h
    rcases h with ⟨-, rfl⟩ | ⟨_, -, h⟩
    · rfl
    · cases h

theorem of_error {certified : CertifiedProfile} {valid : ValidShape} {e : CapacityRejection}
    (h : of certified valid = .error e) : e.gate = .arithmetic := by
  unfold of at h
  simp only [bind_eq_error, okOr_eq_error] at h
  rcases h with ⟨-, rfl⟩ | ⟨_, -, hmemory | ⟨_, -, h⟩⟩
  · rfl
  · exact memory_error hmemory
  · cases h

end Demand

/-! ### What validation guarantees -/

namespace CertifiedProfile

variable (c : CertifiedProfile)

theorem elastic_le : c.profile.memory.elasticBudgetBytes.toNat ≤ c.profile.admissibleMemoryBytes := by
  have h := c.certified
  unfold HostProfile.check at h
  split_ifs at h
  omega

theorem ratio_pos (w : WorkloadClass) :
    0 < (c.profile.overcommit.ratio w).vcpus.toNat ∧
      0 < (c.profile.overcommit.ratio w).threads.toNat := by
  have h := c.certified
  unfold HostProfile.check at h
  split_ifs at h with h₁ h₂ h₃ hratio h₄ h₅
  simp only [HostProfile.hasZeroRatio, List.any_cons, List.any_nil, Bool.or_false, Bool.or_eq_true,
    decide_eq_true_eq, not_or] at hratio
  have hpos : ∀ x : UInt32, ¬ x = 0 → 0 < x.toNat := by
    intro x hx
    rw [Nat.pos_iff_ne_zero]
    intro h0
    exact hx (UInt32.toNat_inj.mp (by simpa using h0))
  obtain ⟨⟨ha, ha'⟩, ⟨hb, hb'⟩, hi, hi'⟩ := hratio
  cases w with
  | apiWaiting => exact ⟨hpos _ ha, hpos _ ha'⟩
  | build => exact ⟨hpos _ hb, hpos _ hb'⟩
  | idleInteractive => exact ⟨hpos _ hi, hpos _ hi'⟩

end CertifiedProfile

end Soma.Host.Capacity
