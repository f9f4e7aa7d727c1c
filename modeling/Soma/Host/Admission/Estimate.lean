import Soma.Host.Admission.Reserve

/-! # The capacity estimate against admission

`estimate` computes the safe count of one uniform shape as the least of nine independent quotients;
admission checks every reservation against its gates. On one NUMA node the two agree.

* **Histories.**  `History.step` is one call of the admission interface on the reservations that are
  still held. `OneNode` ties the per-node usage to the host's usage: the node's census is the host's
  census, so its CPU cost is the host's, and its memory never exceeds what the host committed. The
  single-node placement then accepts whatever the gates accepted, in every history.
* **Filling.**  `Uniform` describes the usage after `n` reservations of one shape. In such a state
  the gates accept one more exactly when `n + 1` is within every quotient.
-/

namespace Soma.Host.Capacity

open Soma.Lib List Admission Usage

/-- A quotient that is unbounded for a zero divisor. -/
def divide (budget perInstance : ℕ) : ℕ :=
  (checkedDiv budget perInstance).getD wordMax

/-- The first entry with the least count. -/
def minByCount : List (Gate × ℕ) → Option (Gate × ℕ)
  | [] => none
  | x :: rest => some (rest.foldl (fun best y => if y.2 < best.2 then y else best) x)

/-- The per-dimension bounds and their minimum. -/
structure CapacityEstimate where
  cpuStrict : ℕ
  cpuOvercommitted : ℕ
  memory : ℕ
  storage : ℕ
  network : ℕ
  process : ℕ
  operator : ℕ
  runnable : ℕ
  dirty : ℕ
  launches : ℕ
  safeCount : ℕ
  binding : Gate
deriving DecidableEq, Repr

variable (p : HostProfile)

/-- The cost and the budget the memory bound divides. -/
def memoryBound (shape : MachineShape) (d : Demand) : ℕ × ℕ :=
  match shape.memoryClass with
  | .guaranteed => (d.guaranteedBytes, p.admissibleMemoryBytes)
  | .elastic _ => (d.elasticBytes, p.memory.elasticBudgetBytes.toNat)

/-- The bounds in the order the binding gate is searched in. -/
def bounds (shape : MachineShape) (d : Demand) : List (Gate × ℕ) :=
  let ratio := p.overcommit.ratio shape.workload
  [(.cpuUnits, divide (satMul p.admissibleCpuUnits ratio.vcpus.toNat)
      (satMul shape.vcpus.toNat ratio.threads.toNat)),
    (.hostMemory, divide (memoryBound p shape d).2 (memoryBound p shape d).1),
    (.privateStorage, divide p.privateBudgetBytes.toNat d.storageBytes),
    (.networkInventory, divide p.networkUnits.toNat d.networkUnits),
    (.processLimit,
      min p.process.processes.toNat (divide p.process.descriptors.toNat d.descriptors)),
    (.operatorSafetyLimit, p.limits.residentInstances.toNat),
    (.runnableVcpus, divide p.limits.runnableVcpus.toNat d.runnableVcpus),
    (.dirtyMemory, divide p.limits.dirtyMemoryBytes.toNat d.dirtyBytes),
    (.concurrentLaunches, p.limits.concurrentLaunches.toNat)]

/-- Estimates the safe count of `shape` on an empty profile. -/
def estimate (certified : CertifiedProfile) (valid : ValidShape) :
    Except CapacityRejection CapacityEstimate := do
  let d ← Demand.of certified valid
  let p := certified.profile
  let shape := valid.shape
  let ratio := p.overcommit.ratio shape.workload
  let best := (minByCount (bounds p shape d)).getD (.arithmetic, 0)
  .ok {
    cpuStrict := divide p.admissibleCpuUnits shape.vcpus.toNat
    cpuOvercommitted := divide (satMul p.admissibleCpuUnits ratio.vcpus.toNat)
      (satMul shape.vcpus.toNat ratio.threads.toNat)
    memory := divide (memoryBound p shape d).2 (memoryBound p shape d).1
    storage := divide p.privateBudgetBytes.toNat d.storageBytes
    network := divide p.networkUnits.toNat d.networkUnits
    process := min p.process.processes.toNat (divide p.process.descriptors.toNat d.descriptors)
    operator := p.limits.residentInstances.toNat
    runnable := divide p.limits.runnableVcpus.toNat d.runnableVcpus
    dirty := divide p.limits.dirtyMemoryBytes.toNat d.dirtyBytes
    launches := p.limits.concurrentLaunches.toNat
    safeCount := best.2
    binding :=
      match shape.memoryClass, best.1 with
      | .elastic _, .hostMemory => .elasticMemory
      | _, binding => binding }

/-! ### Histories on one node -/

/-- The state of admission with the reservations its callers still hold. -/
structure History where
  state : State
  held : List Reservation

/-- One call of the admission interface; a reservation is named by its position. -/
inductive Call
  | reserve (shape : ValidShape)
  | launched (i : ℕ)
  | beginCleanup (i : ℕ)
  | release (i : ℕ)

namespace History

/-- One call: the rejection it answered, if any, and the history after it. -/
def step (a : Admission) (h : History) : Call → Option CapacityRejection × History
  | .reserve shape =>
    match a.reserve h.state shape with
    | .error e => (some e, h)
    | .ok (r, state) => (none, ⟨state, h.held ++ [r]⟩)
  | .launched i =>
    match h.held[i]? with
    | none => (none, h)
    | some r =>
      let (r, state) := launched h.state r
      (none, ⟨state, h.held.set i r⟩)
  | .beginCleanup i =>
    match h.held[i]? with
    | none => (none, h)
    | some r =>
      match a.beginCleanup h.state r with
      | .error e => (some e, h)
      | .ok (r, state) => (none, ⟨state, h.held.set i r⟩)
  | .release i =>
    match h.held[i]? with
    | none => (none, h)
    | some r => (none, ⟨a.release h.state r, h.held.eraseIdx i⟩)

/-- Runs the calls and collects every rejection. -/
def rejections (a : Admission) : History → List Call → List CapacityRejection
  | _, [] => []
  | h, call :: calls =>
    let (rejection, h') := h.step a call
    rejection.toList ++ rejections a h' calls

end History

/-- The per-node usage of a one-node host mirrors the host's usage. -/
structure OneNode (u : Usage) : Prop where
  vcpus : u.nodeVcpus = [u.vcpusByClass]
  cpu : u.nodeCpu = [u.cpuMilliUnits]
  memory : ∃ bytes, u.nodeMemory = [bytes] ∧ bytes ≤ satAdd u.guaranteedBytes u.elasticBytes

section oneNode

variable {a : Admission} {s : State} {d : Demand}

theorem nodes_eq_one (h : p.cpu.numaNodes = 1) : p.nodes = 1 := by
  unfold HostProfile.nodes
  rw [h]
  rfl

variable {p}

theorem OneNode.empty (h : p.cpu.numaNodes = 1) : OneNode (empty p) := by
  have hnodes := nodes_eq_one p h
  constructor
  · simp [Usage.empty, hnodes]
  · simp [Usage.empty, hnodes]
  · exact ⟨0, by simp [Usage.empty, hnodes], Nat.zero_le _⟩

theorem OneNode.placed (hone : a.profile.cpu.numaNodes = 1) (hnode : OneNode s.usage)
    (hfits : s.usage.Fits d a.profile) : singleNode (a.nodeDemand s d) (s.usage.freeNodes a.profile) = .ok 0 := by
  obtain ⟨bytes, hmem, hbytes⟩ := hnode.memory
  obtain ⟨cost, hcost, hlimit⟩ := hfits.cpu
  have hfits := hfits.memory
  have hlimit' : cost ≤ satMul a.profile.admissibleCpuUnits 1000 := hlimit
  have hcpu : satMul a.profile.admissibleCpuUnits 1000 - s.usage.cpuMilliUnits ≥
      (a.nodeDemand s d).cpuMilliUnits := by
    simp only [nodeDemand, applied, hcost, Option.getD_some]
    omega
  have hbytes' : a.profile.admissibleMemoryBytes - bytes ≥ (a.nodeDemand s d).memoryBytes := by
    simp only [nodeDemand]
    omega
  simp only [freeNodes, nodes_eq_one _ hone, range_one, map_cons, map_nil,
    singleNode, nodeCapacity, checkedDiv, hnode.cpu, hmem, getElem?_cons_zero,
    Option.getD_some, Nat.div_one, if_neg (show ¬ (1 = 0) by decide)]
  rw [if_pos ⟨hcpu, hbytes'⟩]

theorem OneNode.reserved (hnode : OneNode s.usage) (hfits : s.usage.Fits d a.profile) :
    OneNode (a.reserved s d 0).usage := by
  obtain ⟨bytes, hmem, hbytes⟩ := hnode.memory
  obtain ⟨cost, hcost, -⟩ := hfits.cpu
  have hcensus : satAdd (s.usage.vcpusByClass d.workload) d.vcpus =
      s.usage.vcpusByClass d.workload + d.vcpus := satAdd_eq hfits.census
  have hcost' : censusMilliUnits (Function.update s.usage.vcpusByClass d.workload
      (s.usage.vcpusByClass d.workload + d.vcpus)) a.profile = some cost := hcost
  constructor
  · simp [Admission.reserved, chargeNode, applied, hnode.vcpus, hcensus, censusWith]
  · simp [Admission.reserved, chargeNode, applied, hnode.vcpus, hnode.cpu, hcensus,
      censusWith, hcost']
  · refine ⟨satAdd bytes (satAdd d.guaranteedBytes d.elasticBytes), ?_, ?_⟩
    · simp [Admission.reserved, chargeNode, applied, hnode.vcpus, hmem]
    · simp only [Admission.reserved, chargeNode, applied, hnode.vcpus, getElem?_cons_zero]
      unfold satAdd at hbytes ⊢
      omega

variable {r : Reservation}

theorem OneNode.release (hr : r.node = 0) (hnode : OneNode s.usage) : OneNode (a.release s r).usage := by
  obtain ⟨bytes, hmem, hbytes⟩ := hnode.memory
  have hsub : OneNode (s.usage.subtract r a.profile) := by
    constructor
    · simp [subtract, hr, hnode.vcpus]
    · simp [subtract, hr, hnode.vcpus, hnode.cpu]
    · refine ⟨bytes - satAdd r.demand.guaranteedBytes r.demand.elasticBytes, ?_, ?_⟩
      · simp [subtract, hr, hnode.vcpus, hmem]
      · simp only [subtract, hr, hnode.vcpus, getElem?_cons_zero]
        unfold satAdd at hbytes ⊢
        omega
  unfold Admission.release
  cases r.cleanup
  · exact hsub
  · exact ⟨hsub.vcpus, hsub.cpu, hsub.memory⟩

/-- The reservations a one-node history holds are all on its node. -/
structure History.OneNode (h : History) : Prop where
  usage : Capacity.OneNode h.state.usage
  placed : ∀ r ∈ h.held, r.node = 0

variable {h : History}

theorem History.OneNode.set (hh : h.OneNode) {state : State} {i : ℕ} (husage : Capacity.OneNode state.usage)
    (hr : r.node = 0) : History.OneNode ⟨state, h.held.set i r⟩ := by
  refine ⟨husage, ?_⟩
  intro r' hr'
  rcases mem_or_eq_of_mem_set hr' with hr' | rfl
  · exact hh.placed r' hr'
  · exact hr

theorem singleNode_eq_ok (hone : p.cpu.numaNodes = 1) {demand : NodeDemand} {u : Usage} {node : ℕ}
    (h : singleNode demand (u.freeNodes p) = .ok node) : node = 0 := by
  simp only [freeNodes, nodes_eq_one p hone, range_one, map_cons, map_nil, singleNode] at h
  split_ifs at h
  injection h with h
  exact h.symm

theorem History.OneNode.step (hone : a.profile.cpu.numaNodes = 1) (hplace : a.placement = singleNode)
    (hh : h.OneNode) (call : Call) : (h.step a call).2.OneNode ∧ ∀ e ∈ (h.step a call).1, e.gate ≠ .numaFit := by
  cases call with
  | reserve shape =>
    simp only [History.step]
    cases hres : a.reserve h.state shape with
    | error e =>
      refine ⟨hh, ?_⟩
      intro e' he'
      obtain rfl : e = e' := by simpa using he'
      rcases reserve_error hres with harith | ⟨d, -, happ | ⟨hfits, hrefused⟩⟩
      · simp [harith]
      · exact apply_error_ne_numaFit happ
      · have hplaced : a.place (a.nodeDemand h.state d) (h.state.usage.freeNodes a.profile) = .ok 0 := by
          rw [place_eq_ok, hplace]
          exact hh.usage.placed hone hfits
        rw [hplaced] at hrefused
        cases hrefused
    | ok pair =>
      obtain ⟨r, state⟩ := pair
      obtain ⟨d, node, -, hfits, hnode, rfl, rfl⟩ := reserve_eq_ok_iff.mp hres
      rw [hplace] at hnode
      obtain rfl := singleNode_eq_ok hone hnode
      exact ⟨⟨hh.usage.reserved hfits, forall_mem_append.mpr ⟨hh.placed, by simp⟩⟩, by simp⟩
  | launched i =>
    simp only [History.step]
    cases hget : h.held[i]? with
    | none => exact ⟨hh, by simp⟩
    | some r =>
      have hr := hh.placed r (mem_of_getElem? hget)
      refine ⟨hh.set ?_ ?_, by simp⟩
      · unfold launched
        split_ifs
        · exact ⟨hh.usage.vcpus, hh.usage.cpu, hh.usage.memory⟩
        · exact hh.usage
      · unfold launched
        split_ifs <;> exact hr
  | beginCleanup i =>
    simp only [History.step]
    cases hget : h.held[i]? with
    | none => exact ⟨hh, by simp⟩
    | some r =>
      have hr := hh.placed r (mem_of_getElem? hget)
      cases hbegin : a.beginCleanup h.state r with
      | error e =>
        simp only [hbegin]
        exact ⟨hh, by simp [beginCleanup_error hbegin]⟩
      | ok pair =>
        obtain ⟨r', state⟩ := pair
        simp only [hbegin]
        rcases beginCleanup_eq_ok_iff.mp hbegin with ⟨-, rfl, rfl⟩ | ⟨-, -, rfl, rfl⟩
        · exact ⟨hh.set hh.usage hr, by simp⟩
        · exact ⟨hh.set ⟨hh.usage.vcpus, hh.usage.cpu, hh.usage.memory⟩ hr, by simp⟩
  | release i =>
    simp only [History.step]
    cases hget : h.held[i]? with
    | none => exact ⟨hh, by simp⟩
    | some r =>
      have hr := hh.placed r (mem_of_getElem? hget)
      refine ⟨⟨hh.usage.release hr, ?_⟩, by simp⟩
      intro r' hr'
      exact hh.placed r' (mem_of_mem_eraseIdx hr')

theorem History.OneNode.rejections (hone : a.profile.cpu.numaNodes = 1) (hplace : a.placement = singleNode)
    (hh : h.OneNode) (calls : List Call) : ∀ e ∈ h.rejections a calls, e.gate ≠ .numaFit := by
  induction calls generalizing h with
  | nil => simp [History.rejections]
  | cons call calls ih =>
    obtain ⟨hnext, hrej⟩ := hh.step hone hplace call
    exact forall_mem_append.mpr ⟨fun e he => hrej e (Option.mem_toList.mp he), ih hnext⟩

end oneNode

/-! ### The cost of a census with one class -/

variable {ratio : Ratio} {k cost : ℕ}

theorem classMilliUnits_eq_some (h : classMilliUnits k ratio = some cost) :
    0 < ratio.vcpus.toNat ∧ k * 1000 * ratio.threads.toNat + (ratio.vcpus.toNat - 1) ≤ wordMax ∧
      cost = (k * 1000 * ratio.threads.toNat + (ratio.vcpus.toNat - 1)) / ratio.vcpus.toNat := by
  unfold classMilliUnits at h
  simp only [Option.bind_eq_bind, Option.bind_eq_some_iff, checkedMul_eq_some] at h
  obtain ⟨_, ⟨-, rfl⟩, _, ⟨-, rfl⟩, h⟩ := h
  split_ifs at h with hzero
  simp only [Option.map_eq_some_iff, checkedAdd_eq_some] at h
  obtain ⟨_, ⟨hle, rfl⟩, rfl⟩ := h
  exact ⟨Nat.pos_of_ne_zero hzero, hle, rfl⟩

theorem classMilliUnits_le (h : classMilliUnits k ratio = some cost) : cost ≤ wordMax := by
  obtain ⟨-, hle, rfl⟩ := classMilliUnits_eq_some h
  exact (Nat.div_le_self _ _).trans hle

theorem classMilliUnits_zero (hpos : 0 < ratio.vcpus.toNat) : classMilliUnits 0 ratio = some 0 := by
  have hle : ratio.vcpus.toNat - 1 ≤ wordMax := by
    have h := toNat32_le_wordMax ratio.vcpus
    omega
  have hdiv : (ratio.vcpus.toNat - 1) / ratio.vcpus.toNat = 0 := Nat.div_eq_of_lt (by omega)
  simp [classMilliUnits, checkedMul, checkedAdd, hle, hdiv, Nat.pos_iff_ne_zero.mp hpos]

theorem censusMilliUnits_single (c : CertifiedProfile) {census : Census} {w : WorkloadClass}
    (hothers : ∀ w', w' ≠ w → census w' = 0) :
    censusMilliUnits census c.profile =
      classMilliUnits (census w) (c.profile.overcommit.ratio w) := by
  have hzero : ∀ w', w' ≠ w →
      classMilliUnits (census w') (c.profile.overcommit.ratio w') = some 0 := by
    intro w' hw'
    rw [hothers w' hw', classMilliUnits_zero (c.ratio_pos w').1]
  unfold censusMilliUnits
  cases hcost : classMilliUnits (census w) (c.profile.overcommit.ratio w) with
  | none => cases w <;> simp [hcost, hzero]
  | some cost =>
    have hle := classMilliUnits_le hcost
    cases w <;> simp [hcost, hzero, checkedAdd, hle]

theorem classMilliUnits_le_cpuLimit {k cost units : ℕ} (hcost : classMilliUnits k ratio = some cost) :
    cost ≤ units * 1000 ↔ k * ratio.threads.toNat ≤ units * ratio.vcpus.toNat := by
  obtain ⟨hpos, -, rfl⟩ := classMilliUnits_eq_some hcost
  rw [add_pred_div_le_iff hpos, Nat.mul_right_comm k, Nat.mul_right_comm units]
  exact Nat.mul_le_mul_right_iff (by decide)

/-! ### Filling an empty host with one shape -/

theorem le_divide_iff {n per budget : ℕ} (hn : n ≤ wordMax) : n ≤ divide budget per ↔ n * per ≤ budget := by
  unfold divide checkedDiv
  split_ifs with hper
  · simp [hper, hn]
  · exact Nat.le_div_iff_mul_le (Nat.pos_of_ne_zero hper)

variable {c : CertifiedProfile} {v : ValidShape}

theorem estimate_ok {est : CapacityEstimate} (h : estimate c v = .ok est) :
    ∃ d, Demand.of c v = .ok d ∧
      est.safeCount = ((minByCount (bounds c.profile v.shape d)).getD (.arithmetic, 0)).2 := by
  unfold estimate at h
  obtain ⟨d, hd, hok⟩ := bind_eq_ok.mp h
  injection hok with hok
  exact ⟨d, hd, by rw [← hok]⟩

theorem le_foldl_min_iff {n : ℕ} (rest : List (Gate × ℕ)) (best : Gate × ℕ) :
    n ≤ (rest.foldl (fun best y => if y.2 < best.2 then y else best) best).2 ↔
      n ≤ best.2 ∧ ∀ y ∈ rest, n ≤ y.2 := by
  induction rest generalizing best with
  | nil => simp
  | cons y rest ih =>
    rw [foldl_cons, ih]
    split_ifs with hlt <;> simp only [mem_cons, forall_eq_or_imp] <;> constructor
    · rintro ⟨hy, hrest⟩
      exact ⟨by omega, hy, hrest⟩
    · rintro ⟨-, hy, hrest⟩
      exact ⟨hy, hrest⟩
    · rintro ⟨hbest, hrest⟩
      exact ⟨hbest, by omega, hrest⟩
    · rintro ⟨hbest, -, hrest⟩
      exact ⟨hbest, hrest⟩

theorem Demand.of_ok {d : Demand} (h : Demand.of c v = .ok d) :
    d.vcpus = v.shape.vcpus.toNat ∧ d.workload = v.shape.workload ∧
      d.runnableVcpus = v.shape.vcpus.toNat ∧ d.guaranteedBytes + d.elasticBytes ≤ wordMax ∧
      (v.shape.memoryClass = .guaranteed ∧ d.elasticBytes = 0 ∨
        (∃ bytes, v.shape.memoryClass = .elastic bytes) ∧ d.guaranteedBytes = 0) := by
  unfold Demand.of at h
  simp only [bind_eq_ok, okOr_eq_ok, Prod.exists] at h
  obtain ⟨units, -, g, e, dirty, hmemory, hok⟩ := h
  injection hok with hok
  subst hok
  unfold Demand.memory Demand.withOverhead at hmemory
  split at hmemory
  · rename_i hclass
    simp only [bind_eq_ok, okOr_eq_ok, checkedAdd_eq_some, Except.ok.injEq, Prod.mk.injEq] at hmemory
    obtain ⟨_, ⟨hle, rfl⟩, rfl, rfl, rfl⟩ := hmemory
    exact ⟨rfl, rfl, rfl, hle, .inl ⟨hclass, rfl⟩⟩
  · rename_i bytes hclass
    simp only [bind_eq_ok, okOr_eq_ok, checkedAdd_eq_some, Except.ok.injEq, Prod.mk.injEq] at hmemory
    obtain ⟨_, ⟨hle, rfl⟩, rfl, rfl, rfl⟩ := hmemory
    exact ⟨rfl, rfl, rfl, by simpa using hle, .inr ⟨⟨bytes, hclass⟩, rfl⟩⟩

/-- The usage after `n` reservations of one demand on an empty host. -/
structure Uniform (p : HostProfile) (d : Demand) (n : ℕ) (u : Usage) : Prop where
  vcpus : u.vcpusByClass d.workload = n * d.vcpus
  others : ∀ w, w ≠ d.workload → u.vcpusByClass w = 0
  guaranteed : u.guaranteedBytes = n * d.guaranteedBytes
  elastic : u.elasticBytes = n * d.elasticBytes
  within : n * (d.guaranteedBytes + d.elasticBytes) ≤ p.admissibleMemoryBytes
  storage : u.storageBytes = n * d.storageBytes
  network : u.networkUnits = n * d.networkUnits
  processes : u.processes = n
  descriptors : u.descriptors = n * d.descriptors
  residents : u.residents = n
  launches : u.launches = n
  runnable : u.runnableVcpus = n * d.runnableVcpus
  dirty : u.dirtyBytes = n * d.dirtyBytes
  cleanups : u.cleanups = 0

namespace Uniform

variable {p} {c : CertifiedProfile} {v : ValidShape} {d : Demand} {n : ℕ} {u : Usage}

theorem empty (p : HostProfile) (d : Demand) : Uniform p d 0 (Usage.empty p) := by
  constructor <;> simp [Usage.empty]

theorem satAdd_memory (h : Uniform p d n u) :
    satAdd u.guaranteedBytes u.elasticBytes = n * (d.guaranteedBytes + d.elasticBytes) := by
  have hwithin := h.within
  have hmax := p.admissibleMemoryBytes_le
  rw [h.guaranteed, h.elastic, Nat.mul_add] at *
  exact satAdd_eq (by omega)

theorem reserved {a : Admission} {s : State} {node : ℕ} (h : Uniform a.profile d n s.usage)
    (hsum : d.guaranteedBytes + d.elasticBytes ≤ wordMax) (hfits : s.usage.Fits d a.profile) :
    Uniform a.profile d (n + 1) (a.reserved s d node).usage := by
  have hmemory := hfits.memory
  rw [h.satAdd_memory, satAdd_eq hsum, ← Nat.succ_mul] at hmemory
  have hmax := a.profile.admissibleMemoryBytes_le
  have hguaranteed : satAdd s.usage.guaranteedBytes d.guaranteedBytes = (n + 1) * d.guaranteedBytes := by
    have hle : (n + 1) * d.guaranteedBytes ≤ (n + 1) * (d.guaranteedBytes + d.elasticBytes) :=
      Nat.mul_le_mul_left _ (Nat.le_add_right _ _)
    have hword := hle.trans (hmemory.trans hmax)
    rw [Nat.succ_mul] at hword ⊢
    rw [h.guaranteed, satAdd_eq hword]
  have hnode : ∀ u : Usage, Uniform a.profile d (n + 1) u →
      Uniform a.profile d (n + 1) (u.chargeNode a.profile node d (satAdd d.guaranteedBytes d.elasticBytes)) := by
    intro u hu
    unfold chargeNode
    split <;> exact ⟨hu.1, hu.2, hu.3, hu.4, hu.5, hu.6, hu.7, hu.8, hu.9, hu.10, hu.11, hu.12, hu.13, hu.14⟩
  apply hnode
  constructor
  · simp [applied, censusWith, h.vcpus, Nat.succ_mul]
  · intro w hw
    simp [applied, censusWith, hw, h.others w hw]
  · exact hguaranteed
  · simp [applied, h.elastic, Nat.succ_mul]
  · exact hmemory
  · simp [applied, h.storage, Nat.succ_mul]
  · simp [applied, h.network, Nat.succ_mul]
  · simp [applied, h.processes]
  · simp [applied, h.descriptors, Nat.succ_mul]
  · simp [applied, h.residents]
  · simp [applied, h.launches]
  · simp [applied, h.runnable, Nat.succ_mul]
  · simp [applied, h.dirty, Nat.succ_mul]
  · exact h.cleanups

theorem census_cost (h : Uniform c.profile d n u) :
    censusMilliUnits (u.censusWith d) c.profile =
      classMilliUnits ((n + 1) * d.vcpus) (c.profile.overcommit.ratio d.workload) := by
  have hothers : ∀ w, w ≠ d.workload → u.censusWith d w = 0 := by
    intro w hw
    rw [censusWith, Function.update_of_ne hw, h.others w hw]
  rw [censusMilliUnits_single c hothers, censusWith, Function.update_self, h.vcpus, Nat.succ_mul]

/-- One more reservation passes every gate exactly when it is within every bound. -/
theorem fits_iff (h : Uniform c.profile d n u) (hd : Demand.of c v = .ok d) (hn : n + 1 ≤ wordMax) {cost : ℕ}
    (hvcpus : u.vcpusByClass d.workload + d.vcpus ≤ wordMax)
    (hcost : censusMilliUnits (u.censusWith d) c.profile = some cost) :
    u.Fits d c.profile ↔ ∀ b ∈ bounds c.profile v.shape d, n + 1 ≤ b.2 := by
  obtain ⟨hv, hw, hrun, hsum, hclass⟩ := Demand.of_ok hd
  have hcpu : cost ≤ c.profile.cpuLimit ↔
      n + 1 ≤ divide (satMul c.profile.admissibleCpuUnits (c.profile.overcommit.ratio v.shape.workload).vcpus.toNat)
        (satMul v.shape.vcpus.toNat (c.profile.overcommit.ratio v.shape.workload).threads.toNat) := by
    have hunits : c.profile.admissibleCpuUnits < 2 ^ 32 :=
      (Nat.sub_le _ _).trans_lt c.profile.cpu.hardwareThreads.toNat_lt
    have hmul : ∀ {x y : ℕ}, x < 2 ^ 32 → y < 2 ^ 32 → satMul x y = x * y := by
      intro x y hx hy
      have := Nat.mul_lt_mul'' hx hy
      exact satMul_eq (by unfold wordMax; omega)
    rw [h.census_cost] at hcost
    rw [c.profile.cpuLimit_eq, classMilliUnits_le_cpuLimit hcost, le_divide_iff hn, hv, hw,
      hmul hunits (UInt32.toNat_lt _), hmul (UInt32.toNat_lt _) (UInt32.toNat_lt _), Nat.mul_assoc]
  have hmemory : (satAdd u.guaranteedBytes u.elasticBytes +
        satAdd d.guaranteedBytes d.elasticBytes ≤ c.profile.admissibleMemoryBytes ∧
      u.elasticBytes + d.elasticBytes ≤ c.profile.memory.elasticBudgetBytes.toNat) ↔
      n + 1 ≤ divide (memoryBound c.profile v.shape d).2 (memoryBound c.profile v.shape d).1 := by
    have helastic := c.elastic_le
    rw [h.satAdd_memory, satAdd_eq hsum, h.elastic, ← Nat.succ_mul, ← Nat.succ_mul, le_divide_iff hn]
    rcases hclass with ⟨hguaranteed, hzero⟩ | ⟨⟨bytes, hel⟩, hzero⟩
    · simp [memoryBound, hguaranteed, hzero]
    · simp only [memoryBound, hel, hzero, Nat.zero_add]
      constructor
      · exact fun h => h.2
      · exact fun h => ⟨h.trans helastic, h⟩
  simp only [bounds, mem_cons, not_mem_nil, or_false, forall_eq_or_imp, forall_eq,
    ← hcpu, ← hmemory, le_divide_iff hn, le_min_iff, Nat.succ_mul]
  constructor
  · intro hf
    obtain ⟨cost', hcost', hlimit⟩ := hf.cpu
    obtain rfl : cost = cost' := by
      rw [hcost] at hcost'
      exact Option.some.inj hcost'
    exact ⟨hlimit, ⟨hf.memory, hf.elastic⟩, h.storage ▸ hf.storage, h.network ▸ hf.network,
      ⟨h.processes ▸ hf.processes, h.descriptors ▸ hf.descriptors⟩, h.residents ▸ hf.residents,
      h.runnable ▸ hf.runnable, h.dirty ▸ hf.dirty, h.launches ▸ hf.launches⟩
  · rintro ⟨hlimit, ⟨hmem, hel⟩, hst, hnet, ⟨hproc, hdesc⟩, hres, hrunnable, hdirty, hlaunch⟩
    exact ⟨hvcpus, ⟨cost, hcost, hlimit⟩, hmem, hel, h.storage ▸ hst, h.network ▸ hnet,
      h.processes ▸ hproc, h.descriptors ▸ hdesc, h.residents ▸ hres, h.launches ▸ hlaunch,
      h.runnable ▸ hrunnable, h.dirty ▸ hdirty, h.cleanups ▸ Nat.zero_le _⟩

end Uniform

/-- The state after `n` reservations of `shape` in a row on an empty host. -/
def reserveTimes (a : Admission) (shape : ValidShape) : ℕ → Except CapacityRejection State
  | 0 => .ok a.init
  | n + 1 => do
    let state ← reserveTimes a shape n
    let (_, state') ← a.reserve state shape
    .ok state'

section filling

variable {a : Admission} {v : ValidShape} {est : CapacityEstimate} {d : Demand} {n : ℕ}
  (hest : estimate a.certified v = .ok est) (hd : Demand.of a.certified v = .ok d)
include hest hd

theorem le_safeCount_iff : n ≤ est.safeCount ↔ ∀ b ∈ bounds a.profile v.shape d, n ≤ b.2 := by
  obtain ⟨d', hd', hsafe⟩ := estimate_ok hest
  obtain rfl : d = d' := by
    rw [hd] at hd'
    injection hd'
  rw [hsafe, profile]
  cases hbounds : bounds a.certified.profile v.shape d with
  | nil => simp [bounds] at hbounds
  | cons x rest => rw [minByCount, Option.getD_some, le_foldl_min_iff, forall_mem_cons]

theorem safeCount_le : est.safeCount + 1 ≤ wordMax := by
  have hle := (le_safeCount_iff hest hd).mp le_rfl
    (.operatorSafetyLimit, a.profile.limits.residentInstances.toNat) (by simp [bounds])
  have hlt := a.profile.limits.residentInstances.toNat_lt
  unfold wordMax
  omega

theorem reserveTimes_ok (hone : a.profile.cpu.numaNodes = 1) (hplace : a.placement = singleNode)
    (harith : ∀ n < est.safeCount, ∀ s e, reserveTimes a v n = .ok s → a.reserve s v = .error e →
      e.gate ≠ .arithmetic) (hn : n ≤ est.safeCount) :
    ∃ s, reserveTimes a v n = .ok s ∧ OneNode s.usage ∧ Uniform a.profile d n s.usage := by
  induction n with
  | zero => exact ⟨a.init, rfl, OneNode.empty hone, Uniform.empty _ _⟩
  | succ n ih =>
    obtain ⟨s, hs, hnode, huniform⟩ := ih (by omega)
    obtain ⟨-, -, -, hsum, -⟩ := Demand.of_ok hd
    have hcensus : s.usage.vcpusByClass d.workload + d.vcpus ≤ wordMax ∧
        (censusMilliUnits (s.usage.censusWith d) a.profile).isSome := by
      by_contra hnone
      obtain ⟨e, he, hgate⟩ := apply_arithmetic hnone
      have hrefused : a.reserve s v = .error e := by
        unfold reserve
        rw [hd]
        change (s.usage.apply d a.profile >>= _) = _
        rw [he]
        rfl
      exact harith n (by omega) s e hs hrefused hgate
    obtain ⟨cost, hcost⟩ := Option.isSome_iff_exists.mp hcensus.2
    have hword := safeCount_le hest hd
    have hfits : s.usage.Fits d a.profile :=
      (huniform.fits_iff hd (by omega) hcensus.1 hcost).mpr ((le_safeCount_iff hest hd).mp hn)
    have hreserve : a.reserve s v = .ok (_, a.reserved s d 0) :=
      reserve_eq_ok_iff.mpr ⟨d, 0, hd, hfits, by rw [hplace]; exact hnode.placed hone hfits, rfl, rfl⟩
    refine ⟨a.reserved s d 0, ?_, hnode.reserved hfits, huniform.reserved hsum hfits⟩
    simp only [reserveTimes, hs]
    change (a.reserve s v >>= _) = _
    rw [hreserve]
    rfl

theorem reserve_refused {s : State}
    (huniform : Uniform a.profile d est.safeCount s.usage) : ∃ e, a.reserve s v = .error e := by
  cases hres : a.reserve s v with
  | error e => exact ⟨e, rfl⟩
  | ok pair =>
    obtain ⟨r, s'⟩ := pair
    obtain ⟨d', node, hd', hfits, -⟩ := reserve_eq_ok_iff.mp hres
    obtain rfl : d = d' := by
      rw [hd] at hd'
      injection hd'
    obtain ⟨cost, hcost, -⟩ := hfits.cpu
    have hword := safeCount_le hest hd
    have hmore := (huniform.fits_iff hd hword hfits.census hcost).mp hfits
    have hsafe := (le_safeCount_iff hest hd).mpr hmore
    omega

end filling

/-- **The estimate agrees with admission.**  On one NUMA node under the single-node placement, and
without an arithmetic refusal on the way, exactly `safeCount` reservations of the shape succeed on
an empty host and the next one is rejected; and no history of calls is ever refused by the NUMA
gate. -/
theorem estimate_agrees_with_admission (c : CertifiedProfile) (hone : c.profile.cpu.numaNodes = 1) :
    (∀ (v : ValidShape) (est : CapacityEstimate), estimate c v = .ok est →
      (∀ n < est.safeCount, ∀ s e, reserveTimes ⟨c, singleNode⟩ v n = .ok s →
        reserve ⟨c, singleNode⟩ s v = .error e → e.gate ≠ .arithmetic) →
      ∃ s e, reserveTimes ⟨c, singleNode⟩ v est.safeCount = .ok s ∧
        reserve ⟨c, singleNode⟩ s v = .error e) ∧
    (∀ calls : List Call, ∀ e ∈ History.rejections ⟨c, singleNode⟩
        ⟨init ⟨c, singleNode⟩, []⟩ calls, e.gate ≠ .numaFit) := by
  constructor
  · intro v est hest harith
    obtain ⟨d, hd, -⟩ := estimate_ok hest
    obtain ⟨s, hs, -, huniform⟩ := reserveTimes_ok (a := ⟨c, singleNode⟩) hest hd hone rfl harith le_rfl
    obtain ⟨e, he⟩ := reserve_refused (a := ⟨c, singleNode⟩) hest hd huniform
    exact ⟨s, e, hs, he⟩
  · intro calls
    have hinit : History.OneNode ⟨init ⟨c, singleNode⟩, []⟩ :=
      ⟨OneNode.empty hone, by simp⟩
    exact hinit.rejections (a := ⟨c, singleNode⟩) hone rfl calls

/-- A one-node host with four threads that admits one Launch at a time, three vCPUs to a thread. -/
def smallHost : HostProfile where
  cpu := ⟨5, 1, 1⟩
  memory := ⟨4096, 1024, 16, 1024⟩
  privateBudgetBytes := 4096
  networkUnits := 8
  process := ⟨8, 64⟩
  limits := ⟨4, 1, 16, 4096, 2⟩
  overcommit := ⟨⟨3, 1⟩, ⟨1, 1⟩, ⟨1, 1⟩⟩

/-- A one-vCPU shape of the API-waiting class. -/
def smallShape : MachineShape where
  vcpus := 1
  guestMemoryBytes := 512
  memoryClass := .guaranteed
  privateStorageBytes := 128
  workload := .apiWaiting
  networkUnits := 1
  descriptors := 4

/-- The small host with room for eight Launches at a time. -/
def wideHost : HostProfile := { smallHost with limits := ⟨4, 8, 16, 4096, 2⟩ }

/-- The bounds of the small shape on that host. -/
def smallEstimate : CapacityEstimate where
  cpuStrict := 4
  cpuOvercommitted := 12
  memory := 5
  storage := 32
  network := 8
  process := 8
  operator := 4
  runnable := 16
  dirty := 8
  launches := 8
  safeCount := 4
  binding := .operatorSafetyLimit

theorem estimate_agrees_on_small_host :
    estimate ⟨wideHost, rfl⟩ ⟨smallShape, rfl⟩ = .ok smallEstimate ∧
      ∃ s e, reserveTimes ⟨⟨wideHost, rfl⟩, singleNode⟩ ⟨smallShape, rfl⟩ 4 = .ok s ∧
        reserve ⟨⟨wideHost, rfl⟩, singleNode⟩ s ⟨smallShape, rfl⟩ = .error e := by
  have hest : estimate ⟨wideHost, rfl⟩ ⟨smallShape, rfl⟩ = .ok smallEstimate := by decide +kernel
  have hfour : ∀ n < 4, (reserveTimes ⟨⟨wideHost, rfl⟩, singleNode⟩ ⟨smallShape, rfl⟩ (n + 1)).toOption.isSome := by
    decide +kernel
  refine ⟨hest, (estimate_agrees_with_admission _ rfl).1 _ smallEstimate hest fun n hn s e hs he => ?_⟩
  have hnext := hfour n hn
  rw [reserveTimes, hs] at hnext
  simp only [bind, Except.bind, he] at hnext
  cases hnext

end Soma.Host.Capacity
