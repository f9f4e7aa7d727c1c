import Soma.Host.Admission.Profile

/-! # Atomic multi-dimension reservation

A reservation prices a shape, applies the demand to a copy of the committed usage gate by gate,
places it on one NUMA node, and only then commits the copy. A rejection commits nothing.

* **`Usage.apply`** is the gate-by-gate candidate; `Usage.Fits` collects what its gates ask and
  `Usage.applied` is the candidate it answers, so that `Usage.apply_eq_ok_iff` is its specification.
* **`reserve`**, **`launched`**, **`beginCleanup`** and **`release`** are the operations under the
  admission lock, on the state `State`.

The CPU cost is not the sum of the demands' costs: the class ratio is applied to the class census,
and rounded up, once (`censusMilliUnits`).
-/

namespace Soma.Host.Capacity

open Soma.Lib

/-- Raw vCPUs per workload class. -/
abbrev Census := WorkloadClass → ℕ

/-- The milli-units a whole census costs under the class ratios. -/
def censusMilliUnits (census : Census) (p : HostProfile) : Option ℕ := do
  let api ← classMilliUnits (census .apiWaiting) (p.overcommit.ratio .apiWaiting)
  let build ← classMilliUnits (census .build) (p.overcommit.ratio .build)
  let total ← checkedAdd api build
  let idle ← classMilliUnits (census .idleInteractive) (p.overcommit.ratio .idleInteractive)
  checkedAdd total idle

/-- Committed usage across every gate. -/
@[ext]
structure Usage where
  cpuMilliUnits : ℕ
  vcpusByClass : Census
  guaranteedBytes : ℕ
  elasticBytes : ℕ
  storageBytes : ℕ
  networkUnits : ℕ
  processes : ℕ
  descriptors : ℕ
  residents : ℕ
  launches : ℕ
  runnableVcpus : ℕ
  dirtyBytes : ℕ
  cleanups : ℕ
  nodeCpu : List ℕ
  nodeVcpus : List Census
  nodeMemory : List ℕ

/-- One capacity gate: the new total, or the rejection that names it. -/
def gate (g : Gate) (committed requested limit : ℕ) : Except CapacityRejection ℕ :=
  match checkedAdd committed requested with
  | none => .error ⟨g, requested, committed, limit⟩
  | some total => if total > limit then .error ⟨g, requested, committed, limit⟩ else .ok total

def HostProfile.cpuLimit (p : HostProfile) : ℕ :=
  satMul p.admissibleCpuUnits 1000

/-- The number of NUMA nodes the usage is kept for. -/
def HostProfile.nodes (p : HostProfile) : ℕ :=
  max p.cpu.numaNodes.toNat 1

structure Reservation where
  id : ℕ
  node : ℕ
  demand : Demand
  launching : Bool
  cleanup : Bool
deriving DecidableEq, Repr

structure NodeFree where
  node : ℕ
  cpuMilliUnits : ℕ
  memoryBytes : ℕ
deriving DecidableEq, Repr

/-- What one shape needs on a node. -/
structure NodeDemand where
  cpuMilliUnits : ℕ
  memoryBytes : ℕ
deriving DecidableEq, Repr

/-- Why no node was chosen. -/
inductive NumaRejection
  | noNodes
  | fragmented (nodes : ℕ)
  | multiNodeUnsupported (nodes : ℕ)
deriving DecidableEq, Repr

/-- A placement policy: the node a demand goes to. -/
abbrev NumaPlacement := NodeDemand → List NodeFree → Except NumaRejection ℕ

def singleNode : NumaPlacement := fun demand free =>
  match free with
  | [] => .error .noNodes
  | [only] =>
    if only.cpuMilliUnits ≥ demand.cpuMilliUnits ∧ only.memoryBytes ≥ demand.memoryBytes then
      .ok only.node
    else .error (.fragmented 1)
  | _ => .error (.multiNodeUnsupported (min free.length (2 ^ 32 - 1)))

namespace Usage

def empty (p : HostProfile) : Usage where
  cpuMilliUnits := 0
  vcpusByClass := fun _ => 0
  guaranteedBytes := 0
  elasticBytes := 0
  storageBytes := 0
  networkUnits := 0
  processes := 0
  descriptors := 0
  residents := 0
  launches := 0
  runnableVcpus := 0
  dirtyBytes := 0
  cleanups := 0
  nodeCpu := List.replicate p.nodes 0
  nodeVcpus := List.replicate p.nodes fun _ => 0
  nodeMemory := List.replicate p.nodes 0

/-- The CPU gate: the next census and its cost. -/
def applyCpu (u : Usage) (d : Demand) (p : HostProfile) : Except CapacityRejection (Census × ℕ) :=
  let overflow : CapacityRejection := ⟨.arithmetic, d.vcpus, u.cpuMilliUnits, p.cpuLimit⟩
  match checkedAdd (u.vcpusByClass d.workload) d.vcpus with
  | none => .error overflow
  | some vcpus =>
    let census := Function.update u.vcpusByClass d.workload vcpus
    match censusMilliUnits census p with
    | none => .error overflow
    | some committed =>
      if committed > p.cpuLimit then
        .error ⟨.cpuUnits, d.cpuMilliUnits, u.cpuMilliUnits, p.cpuLimit⟩
      else .ok (census, committed)

/-- The candidate usage with `d` added, or the first gate that refuses it. -/
def apply (u : Usage) (d : Demand) (p : HostProfile) : Except CapacityRejection Usage := do
  let (vcpusByClass, cpuMilliUnits) ← u.applyCpu d p
  let _ ← gate .hostMemory (satAdd u.guaranteedBytes u.elasticBytes)
    (satAdd d.guaranteedBytes d.elasticBytes) p.admissibleMemoryBytes
  let elasticBytes ← gate .elasticMemory u.elasticBytes d.elasticBytes
    p.memory.elasticBudgetBytes.toNat
  let storageBytes ← gate .privateStorage u.storageBytes d.storageBytes p.privateBudgetBytes.toNat
  let networkUnits ← gate .networkInventory u.networkUnits d.networkUnits p.networkUnits.toNat
  let processes ← gate .processLimit u.processes 1 p.process.processes.toNat
  let descriptors ← gate .descriptorLimit u.descriptors d.descriptors p.process.descriptors.toNat
  let residents ← gate .operatorSafetyLimit u.residents 1 p.limits.residentInstances.toNat
  let launches ← gate .concurrentLaunches u.launches 1 p.limits.concurrentLaunches.toNat
  let runnableVcpus ← gate .runnableVcpus u.runnableVcpus d.runnableVcpus
    p.limits.runnableVcpus.toNat
  let dirtyBytes ← gate .dirtyMemory u.dirtyBytes d.dirtyBytes p.limits.dirtyMemoryBytes.toNat
  let _ ← gate .cleanupSlots u.cleanups 0 p.limits.cleanupSlots.toNat
  .ok { u with
    vcpusByClass, cpuMilliUnits, guaranteedBytes := satAdd u.guaranteedBytes d.guaranteedBytes,
    elasticBytes, storageBytes, networkUnits, processes, descriptors, residents, launches,
    runnableVcpus, dirtyBytes }

/-- The CPU milli-units and memory bytes one node holds. -/
def nodeCapacity (p : HostProfile) : ℕ × ℕ :=
  ((checkedDiv (satMul p.admissibleCpuUnits 1000) p.nodes).getD 0,
    (checkedDiv p.admissibleMemoryBytes p.nodes).getD 0)

def freeNodes (u : Usage) (p : HostProfile) : List NodeFree :=
  (List.range p.nodes).map fun node => {
    node
    cpuMilliUnits := (nodeCapacity p).1 - u.nodeCpu[node]?.getD 0
    memoryBytes := (nodeCapacity p).2 - u.nodeMemory[node]?.getD 0 }

/-- Charges a demand to the node it was placed on. -/
def chargeNode (u : Usage) (p : HostProfile) (node : ℕ) (d : Demand) (memory : ℕ) : Usage :=
  let u :=
    match u.nodeVcpus[node]? with
    | none => u
    | some census =>
      let census := Function.update census d.workload (satAdd (census d.workload) d.vcpus)
      { u with
        nodeVcpus := u.nodeVcpus.set node census
        nodeCpu := u.nodeCpu.set node ((censusMilliUnits census p).getD wordMax) }
  { u with nodeMemory := u.nodeMemory.modify node (satAdd · memory) }

/-- Takes every dimension of a reservation out again. -/
def subtract (u : Usage) (r : Reservation) (p : HostProfile) : Usage :=
  let d := r.demand
  let vcpusByClass :=
    Function.update u.vcpusByClass d.workload (u.vcpusByClass d.workload - d.vcpus)
  let u := { u with
    vcpusByClass
    cpuMilliUnits := (censusMilliUnits vcpusByClass p).getD 0
    guaranteedBytes := u.guaranteedBytes - d.guaranteedBytes
    elasticBytes := u.elasticBytes - d.elasticBytes
    storageBytes := u.storageBytes - d.storageBytes
    networkUnits := u.networkUnits - d.networkUnits
    processes := u.processes - 1
    descriptors := u.descriptors - d.descriptors
    residents := u.residents - 1
    launches := if r.launching then u.launches - 1 else u.launches
    runnableVcpus := u.runnableVcpus - d.runnableVcpus
    dirtyBytes := u.dirtyBytes - d.dirtyBytes }
  let u :=
    match u.nodeVcpus[r.node]? with
    | none => u
    | some census =>
      let census := Function.update census d.workload (census d.workload - d.vcpus)
      { u with
        nodeVcpus := u.nodeVcpus.set r.node census
        nodeCpu := u.nodeCpu.set r.node ((censusMilliUnits census p).getD 0) }
  { u with
    nodeMemory := u.nodeMemory.modify r.node (· - satAdd d.guaranteedBytes d.elasticBytes) }

end Usage

/-- Reports a placement refusal in exactly one dimension, so the three numbers compare. -/
def numaRejection (rejection : NumaRejection) (free : List NodeFree) (demand : NodeDemand) (capacity : ℕ × ℕ) :
    CapacityRejection :=
  let best := fun (dimension : NodeFree → ℕ) => (free.map dimension).foldl max 0
  let (requested, committed, limit) :=
    match rejection with
    | .fragmented _ =>
      let freeCpu := best (·.cpuMilliUnits)
      if freeCpu < demand.cpuMilliUnits then
        (demand.cpuMilliUnits, capacity.1 - freeCpu, capacity.1)
      else (demand.memoryBytes, capacity.2 - best (·.memoryBytes), capacity.2)
    | .noNodes => (1, 0, 0)
    | .multiNodeUnsupported nodes => (nodes, 0, 1)
  ⟨.numaFit, requested, committed, limit⟩

/-- What the admission lock protects. -/
structure State where
  usage : Usage
  nextId : ℕ

/-- The host's admission: its certified profile and its placement policy. -/
structure Admission where
  certified : CertifiedProfile
  placement : NumaPlacement

namespace Admission

variable (a : Admission)

def profile : HostProfile :=
  a.certified.profile

/-- The state admission opens with. -/
def init : State :=
  ⟨Usage.empty a.profile, 1⟩

/-- Asks the policy for a node, reporting its refusal as a capacity rejection. -/
def place (demand : NodeDemand) (free : List NodeFree) : Except CapacityRejection ℕ :=
  match a.placement demand free with
  | .ok node => .ok node
  | .error rejection => .error (numaRejection rejection free demand (Usage.nodeCapacity a.profile))

variable (state : State)

/-- Reserves every dimension for `shape`; nothing is committed on error. -/
def reserve (shape : ValidShape) : Except CapacityRejection (Reservation × State) := do
  let demand ← Demand.of a.certified shape
  let candidate ← state.usage.apply demand a.profile
  let free := state.usage.freeNodes a.profile
  let memory := satAdd demand.guaranteedBytes demand.elasticBytes
  let nodeDemand := ⟨candidate.cpuMilliUnits - state.usage.cpuMilliUnits, memory⟩
  let node ← a.place nodeDemand free
  .ok (⟨state.nextId, node, demand, true, false⟩,
    ⟨candidate.chargeNode a.profile node demand memory, state.nextId + 1⟩)

/-- Marks the Launch finished so the concurrent-launch slot is free. -/
def launched (r : Reservation) : Reservation × State :=
  if r.launching then
    ({ r with launching := false },
      { state with usage := { state.usage with launches := state.usage.launches - 1 } })
  else (r, state)

/-- Takes one bounded cleanup slot for the teardown of a reservation, once. -/
def beginCleanup (r : Reservation) : Except CapacityRejection (Reservation × State) :=
  if r.cleanup then .ok (r, state)
  else do
    let cleanups ← gate .cleanupSlots state.usage.cleanups 1 a.profile.limits.cleanupSlots.toNat
    .ok ({ r with cleanup := true }, { state with usage := { state.usage with cleanups } })

/-- Releases every dimension a reservation holds, with its cleanup slot when it took one. -/
def release (r : Reservation) : State :=
  let usage := state.usage.subtract r a.profile
  { state with
    usage := if r.cleanup then { usage with cleanups := usage.cleanups - 1 } else usage }

end Admission

/-! ### What a gate and a candidate say -/

variable {g : Gate}

theorem gate_eq_ok {committed requested limit total : ℕ} (hlimit : limit ≤ wordMax) :
    gate g committed requested limit = .ok total ↔
      committed + requested ≤ limit ∧ total = committed + requested := by
  unfold gate checkedAdd
  by_cases hsum : committed + requested ≤ wordMax
  · by_cases hfit : committed + requested ≤ limit
    · have hnot : ¬ committed + requested > limit := by omega
      simp [hsum, hfit, hnot, eq_comm]
    · have hgt : committed + requested > limit := by omega
      simp [hsum, hfit, hgt]
  · have hnot : ¬ committed + requested ≤ limit := by omega
    simp [hsum, hnot]

theorem gate_error {committed requested limit : ℕ} {e : CapacityRejection}
    (h : gate g committed requested limit = .error e) : e.gate = g := by
  unfold gate at h
  split at h
  · injection h with h
    rw [← h]
  · split_ifs at h
    injection h with h
    rw [← h]

namespace HostProfile

variable (p : HostProfile)

theorem admissibleMemoryBytes_le : p.admissibleMemoryBytes ≤ wordMax := by
  have h := p.memory.totalBytes.toNat_lt
  unfold admissibleMemoryBytes wordMax
  omega

theorem cpuLimit_eq : p.cpuLimit = p.admissibleCpuUnits * 1000 := by
  have h := p.cpu.hardwareThreads.toNat_lt
  apply satMul_eq
  unfold admissibleCpuUnits wordMax
  omega

end HostProfile

theorem toNat_le_wordMax (x : UInt64) : x.toNat ≤ wordMax := by
  have h := x.toNat_lt
  unfold wordMax
  omega

theorem toNat32_le_wordMax (x : UInt32) : x.toNat ≤ wordMax := by
  have h := x.toNat_lt
  unfold wordMax
  omega

namespace Usage

variable (u : Usage) (d : Demand) (p : HostProfile)

def censusWith : Census :=
  Function.update u.vcpusByClass d.workload (u.vcpusByClass d.workload + d.vcpus)

/-- What the gates ask of a demand on top of the committed usage. -/
structure Fits : Prop where
  census : u.vcpusByClass d.workload + d.vcpus ≤ wordMax
  cpu : ∃ cost, censusMilliUnits (u.censusWith d) p = some cost ∧ cost ≤ p.cpuLimit
  memory : satAdd u.guaranteedBytes u.elasticBytes + satAdd d.guaranteedBytes d.elasticBytes ≤
    p.admissibleMemoryBytes
  elastic : u.elasticBytes + d.elasticBytes ≤ p.memory.elasticBudgetBytes.toNat
  storage : u.storageBytes + d.storageBytes ≤ p.privateBudgetBytes.toNat
  network : u.networkUnits + d.networkUnits ≤ p.networkUnits.toNat
  processes : u.processes + 1 ≤ p.process.processes.toNat
  descriptors : u.descriptors + d.descriptors ≤ p.process.descriptors.toNat
  residents : u.residents + 1 ≤ p.limits.residentInstances.toNat
  launches : u.launches + 1 ≤ p.limits.concurrentLaunches.toNat
  runnable : u.runnableVcpus + d.runnableVcpus ≤ p.limits.runnableVcpus.toNat
  dirty : u.dirtyBytes + d.dirtyBytes ≤ p.limits.dirtyMemoryBytes.toNat
  cleanups : u.cleanups ≤ p.limits.cleanupSlots.toNat

/-- The candidate usage once every gate passed. -/
def applied : Usage :=
  { u with
    vcpusByClass := u.censusWith d
    cpuMilliUnits := (censusMilliUnits (u.censusWith d) p).getD 0
    guaranteedBytes := satAdd u.guaranteedBytes d.guaranteedBytes
    elasticBytes := u.elasticBytes + d.elasticBytes
    storageBytes := u.storageBytes + d.storageBytes
    networkUnits := u.networkUnits + d.networkUnits
    processes := u.processes + 1
    descriptors := u.descriptors + d.descriptors
    residents := u.residents + 1
    launches := u.launches + 1
    runnableVcpus := u.runnableVcpus + d.runnableVcpus
    dirtyBytes := u.dirtyBytes + d.dirtyBytes }

variable {u d p}

theorem applyCpu_eq_ok {census : Census} {cost : ℕ} :
    u.applyCpu d p = .ok (census, cost) ↔
      u.vcpusByClass d.workload + d.vcpus ≤ wordMax ∧ census = u.censusWith d ∧
        censusMilliUnits (u.censusWith d) p = some cost ∧ cost ≤ p.cpuLimit := by
  unfold applyCpu checkedAdd
  by_cases hsum : u.vcpusByClass d.workload + d.vcpus ≤ wordMax
  · simp only [hsum, if_true, true_and]
    change (match censusMilliUnits (u.censusWith d) p with
      | none => _
      | some committed => _) = _ ↔ _
    cases hcost : censusMilliUnits (u.censusWith d) p with
    | none => simp
    | some committed =>
      by_cases hlimit : committed > p.cpuLimit
      · have : ¬ (committed = cost ∧ cost ≤ p.cpuLimit) := by omega
        simp only [if_pos hlimit, Option.some.injEq, this, and_false, iff_false]
        intro h
        cases h
      · simp only [if_neg hlimit, Except.ok.injEq, Prod.mk.injEq, Option.some.injEq]
        constructor
        · rintro ⟨rfl, rfl⟩
          exact ⟨rfl, rfl, by omega⟩
        · rintro ⟨rfl, rfl, -⟩
          exact ⟨rfl, rfl⟩
  · simp [hsum]

theorem apply_eq_ok_iff {u' : Usage} : u.apply d p = .ok u' ↔ u.Fits d p ∧ u' = u.applied d p := by
  unfold apply
  simp only [bind_eq_ok, Prod.exists, applyCpu_eq_ok, gate_eq_ok (toNat_le_wordMax _),
    gate_eq_ok (toNat32_le_wordMax _), gate_eq_ok p.admissibleMemoryBytes_le]
  constructor
  · rintro ⟨_, cost, ⟨hcensus, rfl, hcost, hlimit⟩, _, ⟨hmem, -⟩, _, ⟨hel, rfl⟩, _, ⟨hst, rfl⟩,
      _, ⟨hnet, rfl⟩, _, ⟨hproc, rfl⟩, _, ⟨hdesc, rfl⟩, _, ⟨hres, rfl⟩, _, ⟨hlaunch, rfl⟩,
      _, ⟨hrun, rfl⟩, _, ⟨hdirty, rfl⟩, _, ⟨hclean, -⟩, hok⟩
    refine ⟨⟨hcensus, ⟨cost, hcost, hlimit⟩, hmem, hel, hst, hnet, hproc, hdesc, hres, hlaunch, hrun,
      hdirty, hclean⟩, ?_⟩
    injection hok with hok
    rw [← hok, applied, hcost, Option.getD_some]
  · rintro ⟨h, rfl⟩
    obtain ⟨cost, hcost, hlimit⟩ := h.cpu
    refine ⟨_, cost, ⟨h.census, rfl, hcost, hlimit⟩, _, ⟨h.memory, rfl⟩, _, ⟨h.elastic, rfl⟩, _,
      ⟨h.storage, rfl⟩, _, ⟨h.network, rfl⟩, _, ⟨h.processes, rfl⟩, _, ⟨h.descriptors, rfl⟩, _,
      ⟨h.residents, rfl⟩, _, ⟨h.launches, rfl⟩, _, ⟨h.runnable, rfl⟩, _, ⟨h.dirty, rfl⟩, _,
      ⟨h.cleanups, rfl⟩, ?_⟩
    rw [applied, hcost, Option.getD_some]

variable {e : CapacityRejection}

theorem applyCpu_error (h : u.applyCpu d p = .error e) : e.gate = .arithmetic ∨ e.gate = .cpuUnits := by
  unfold applyCpu at h
  split at h
  · cases h
    exact .inl rfl
  · dsimp only at h
    split at h
    · cases h
      exact .inl rfl
    · split_ifs at h
      cases h
      exact .inr rfl

theorem apply_error_ne_numaFit (h : u.apply d p = .error e) : e.gate ≠ .numaFit := by
  unfold apply at h
  simp only [bind_eq_error] at h
  -- the CPU gate, then the eleven other gates in order
  rcases h with h | ⟨_, -, h | ⟨_, -, h | ⟨_, -, h | ⟨_, -, h | ⟨_, -, h | ⟨_, -, h | ⟨_, -, h |
    ⟨_, -, h | ⟨_, -, h | ⟨_, -, h | ⟨_, -, h | ⟨_, -, h⟩⟩⟩⟩⟩⟩⟩⟩⟩⟩⟩⟩
  · rcases applyCpu_error h with h | h <;> simp [h]
  iterate 11
    · simp [gate_error h]
  · cases h

theorem apply_arithmetic
    (h : ¬ (u.vcpusByClass d.workload + d.vcpus ≤ wordMax ∧
      (censusMilliUnits (u.censusWith d) p).isSome)) :
    ∃ e, u.apply d p = .error e ∧ e.gate = .arithmetic := by
  have hcpu : u.applyCpu d p = .error ⟨.arithmetic, d.vcpus, u.cpuMilliUnits, p.cpuLimit⟩ := by
    unfold applyCpu checkedAdd
    by_cases hsum : u.vcpusByClass d.workload + d.vcpus ≤ wordMax
    · have hnone : censusMilliUnits (u.censusWith d) p = none := by
        simpa [hsum] using h
      rw [if_pos hsum]
      unfold censusWith at hnone
      simp only [hnone]
    · rw [if_neg hsum]
  refine ⟨⟨.arithmetic, d.vcpus, u.cpuMilliUnits, p.cpuLimit⟩, ?_, rfl⟩
  unfold apply
  rw [hcpu]
  rfl

end Usage

namespace Admission

variable {a : Admission}

/-- The node demand a placement is asked for. -/
def nodeDemand (a : Admission) (s : State) (d : Demand) : NodeDemand :=
  ⟨(s.usage.applied d a.profile).cpuMilliUnits - s.usage.cpuMilliUnits,
    satAdd d.guaranteedBytes d.elasticBytes⟩

/-- The state a successful reservation leaves. -/
def reserved (a : Admission) (s : State) (d : Demand) (node : ℕ) : State :=
  ⟨(s.usage.applied d a.profile).chargeNode a.profile node d
    (satAdd d.guaranteedBytes d.elasticBytes), s.nextId + 1⟩

theorem place_eq_ok {demand : NodeDemand} {free : List NodeFree} {node : ℕ} :
    a.place demand free = .ok node ↔ a.placement demand free = .ok node := by
  unfold place
  cases a.placement demand free <;> simp

variable {r : Reservation} {s s' : State}

theorem reserve_eq_ok_iff {shape : ValidShape} :
    a.reserve s shape = .ok (r, s') ↔
      ∃ d node, Demand.of a.certified shape = .ok d ∧ s.usage.Fits d a.profile ∧
        a.placement (a.nodeDemand s d) (s.usage.freeNodes a.profile) = .ok node ∧
        r = ⟨s.nextId, node, d, true, false⟩ ∧ s' = a.reserved s d node := by
  unfold reserve
  simp only [bind_eq_ok, Usage.apply_eq_ok_iff, place_eq_ok]
  constructor
  · rintro ⟨d, hd, candidate, ⟨hfits, rfl⟩, node, hplace, hok⟩
    injection hok with hok
    injection hok with hr hs
    exact ⟨d, node, hd, hfits, hplace, hr.symm, hs.symm⟩
  · rintro ⟨d, node, hd, hfits, hplace, rfl, rfl⟩
    exact ⟨d, hd, _, ⟨hfits, rfl⟩, node, hplace, rfl⟩

variable {e : CapacityRejection}

theorem reserve_error {s : State} {shape : ValidShape} (h : a.reserve s shape = .error e) :
    e.gate = .arithmetic ∨
      ∃ d, Demand.of a.certified shape = .ok d ∧
        (s.usage.apply d a.profile = .error e ∨
          s.usage.Fits d a.profile ∧
            a.place (a.nodeDemand s d) (s.usage.freeNodes a.profile) = .error e) := by
  unfold reserve at h
  simp only [bind_eq_error] at h
  rcases h with h | ⟨d, hd, h | ⟨candidate, happ, h | ⟨_, -, h⟩⟩⟩
  · exact .inl (Demand.of_error h)
  · exact .inr ⟨d, hd, .inl h⟩
  · obtain ⟨hfits, rfl⟩ := Usage.apply_eq_ok_iff.mp happ
    exact .inr ⟨d, hd, .inr ⟨hfits, h⟩⟩
  · cases h

theorem beginCleanup_eq_ok_iff {r r' : Reservation} :
    a.beginCleanup s r = .ok (r', s') ↔
      r.cleanup = true ∧ r' = r ∧ s' = s ∨
      r.cleanup = false ∧ s.usage.cleanups + 1 ≤ a.profile.limits.cleanupSlots.toNat ∧
        r' = { r with cleanup := true } ∧
        s' = { s with usage := { s.usage with cleanups := s.usage.cleanups + 1 } } := by
  unfold beginCleanup
  cases hcleanup : r.cleanup with
  | true => simp [eq_comm]
  | false =>
    simp only [Bool.false_eq_true, if_false, bind_eq_ok, gate_eq_ok (toNat32_le_wordMax _), false_and,
      false_or, true_and]
    constructor
    · rintro ⟨_, ⟨hle, rfl⟩, hok⟩
      injection hok with hok
      injection hok with hr hs
      exact ⟨hle, hr.symm, hs.symm⟩
    · rintro ⟨hle, rfl, rfl⟩
      exact ⟨_, ⟨hle, rfl⟩, rfl⟩

theorem beginCleanup_error {s : State} (h : a.beginCleanup s r = .error e) : e.gate = .cleanupSlots := by
  unfold beginCleanup at h
  split_ifs at h
  rcases bind_eq_error.mp h with h | ⟨_, -, h⟩
  · exact gate_error h
  · cases h

end Admission

end Soma.Host.Capacity
