import Mathlib.Algebra.BigOperators.Group.Multiset.Basic
import Mathlib.Algebra.Order.BigOperators.Group.Multiset
import Soma.Host.Admission.Estimate

/-! # What the committed usage is

The usage that belongs to a collection of reservations (`Usage.ofReservations`): every dimension is
the sum over the reservations, except the CPU cost, which is the cost of the summed census. Reserving
adds a reservation to the collection, releasing takes one out, and finishing a launch changes one in
place (`Committed.reserve`, `Committed.release`, `Committed.launched`); saturation never happens.
-/

namespace Soma.Host.Capacity

open Soma.Lib List Usage Admission Demand

variable {p : HostProfile} {R : Multiset Reservation} {r : Reservation} (f : Demand → ℕ)

/-- The sum of one dimension of the demands. -/
def total (R : Multiset Reservation) : ℕ :=
  (R.map fun r => f r.demand).sum

/-- The memory a demand is charged with. -/
def Demand.memoryBytes (d : Demand) : ℕ :=
  d.guaranteedBytes + d.elasticBytes

/-- The vCPUs of the demands, per class. -/
def censusOf (R : Multiset Reservation) : Census :=
  fun workload => total (fun d => if d.workload = workload then d.vcpus else 0) R

variable (node : ℕ)

def onNode (R : Multiset Reservation) : Multiset Reservation :=
  R.filter (·.node = node)

def Usage.ofReservations (p : HostProfile) (R : Multiset Reservation) : Usage where
  cpuMilliUnits := (censusMilliUnits (censusOf R) p).getD 0
  vcpusByClass := censusOf R
  guaranteedBytes := total (·.guaranteedBytes) R
  elasticBytes := total (·.elasticBytes) R
  storageBytes := total (·.storageBytes) R
  networkUnits := total (·.networkUnits) R
  processes := R.card
  descriptors := total (·.descriptors) R
  residents := R.card
  launches := R.countP (·.launching = true)
  runnableVcpus := total (·.runnableVcpus) R
  dirtyBytes := total (·.dirtyBytes) R
  cleanups := R.countP (·.cleanup = true)
  nodeCpu := (range p.nodes).map fun node =>
    (censusMilliUnits (censusOf (onNode node R)) p).getD 0
  nodeVcpus := (range p.nodes).map fun node => censusOf (onNode node R)
  nodeMemory := (range p.nodes).map fun node => total memoryBytes (onNode node R)

/-- The usage is that of the reservations, and their memory fits the host. -/
structure Committed (p : HostProfile) (R : Multiset Reservation) (u : Usage) : Prop where
  usage : u = .ofReservations p R
  memory : total memoryBytes R ≤ p.admissibleMemoryBytes

/-! ### Sums -/

@[simp] theorem total_zero : total f 0 = 0 := rfl

@[simp] theorem total_cons (r : Reservation) (R : Multiset Reservation) :
    total f (r ::ₘ R) = f r.demand + total f R := by
  simp [total]

theorem censusOf_cons (r : Reservation) (R : Multiset Reservation) :
    censusOf (r ::ₘ R) =
      Function.update (censusOf R) r.demand.workload (censusOf R r.demand.workload + r.demand.vcpus) := by
  funext workload
  by_cases h : r.demand.workload = workload
  · subst h
    simp [censusOf, Nat.add_comm]
  · simp [censusOf, h, Function.update_of_ne (Ne.symm h)]

theorem onNode_cons (r : Reservation) (R : Multiset Reservation) :
    onNode node (r ::ₘ R) = if r.node = node then r ::ₘ onNode node R else onNode node R := by
  unfold onNode
  split_ifs with h
  · exact Multiset.filter_cons_of_pos _ h
  · exact Multiset.filter_cons_of_neg _ h

theorem onNode_cons_self : onNode r.node (r ::ₘ R) = r ::ₘ onNode r.node R :=
  Multiset.filter_cons_of_pos _ rfl

theorem onNode_cons_of_ne {node : ℕ} (h : node ≠ r.node) : onNode node (r ::ₘ R) = onNode node R :=
  Multiset.filter_cons_of_neg _ (Ne.symm h)

theorem total_onNode_le (R : Multiset Reservation) : total f (onNode node R) ≤ total f R := by
  induction R using Multiset.induction_on with
  | empty => exact Nat.le_refl _
  | cons r R ih =>
    rw [onNode_cons]
    split_ifs
    · simpa using ih
    · simp only [total_cons]
      omega

theorem total_memoryBytes (R : Multiset Reservation) :
    total memoryBytes R = total (·.guaranteedBytes) R + total (·.elasticBytes) R := by
  induction R using Multiset.induction_on with
  | empty => rfl
  | cons r R ih =>
    simp only [total_cons, ih, memoryBytes]
    omega

/-! ### Lists indexed by node -/

variable {α : Type*}

theorem range_map_modify {n node : ℕ} {f f' : ℕ → α} {g : α → α} (hnode : g (f node) = f' node)
    (hothers : ∀ k, k ≠ node → f k = f' k) : ((range n).map f).modify node g = (range n).map f' := by
  refine ext_getElem? fun k => ?_
  rw [getElem?_modify]
  by_cases hk : k = node
  · by_cases hlt : node < n <;> simp [hk, hlt, hnode]
  · by_cases hlt : k < n <;> simp [Ne.symm hk, hlt, hothers k hk]

/-! ### The cost of a smaller census -/

theorem classMilliUnits_mono {k k' cost' : ℕ} {ratio : Ratio} (hle : k ≤ k')
    (h : classMilliUnits k' ratio = some cost') : ∃ cost, classMilliUnits k ratio = some cost ∧ cost ≤ cost' := by
  unfold classMilliUnits at h ⊢
  simp only [Option.bind_eq_bind, Option.bind_eq_some_iff, checkedMul_eq_some] at h
  obtain ⟨_, ⟨hthousand, rfl⟩, _, ⟨hnumerator, rfl⟩, h⟩ := h
  have hk : k * 1000 ≤ k' * 1000 := Nat.mul_le_mul_right _ hle
  have hkt : k * 1000 * ratio.threads.toNat ≤ k' * 1000 * ratio.threads.toNat :=
    Nat.mul_le_mul_right _ hk
  split_ifs at h with hzero
  simp only [Option.map_eq_some_iff, checkedAdd_eq_some] at h
  obtain ⟨_, ⟨hsum, rfl⟩, rfl⟩ := h
  refine ⟨(k * 1000 * ratio.threads.toNat + (ratio.vcpus.toNat - 1)) / ratio.vcpus.toNat, ?_, ?_⟩
  · have h₁ : k * 1000 ≤ wordMax := hk.trans hthousand
    have h₂ : k * 1000 * ratio.threads.toNat ≤ wordMax := hkt.trans hnumerator
    have h₃ : k * 1000 * ratio.threads.toNat + (ratio.vcpus.toNat - 1) ≤ wordMax :=
      (Nat.add_le_add_right hkt _).trans hsum
    simp [checkedMul, checkedAdd, h₁, h₂, h₃, hzero]
  · exact Nat.div_le_div_right (Nat.add_le_add_right hkt _)

theorem censusMilliUnits_mono {c c' : Census} {cost' : ℕ} (hle : ∀ workload, c workload ≤ c' workload)
    (h : censusMilliUnits c' p = some cost') : ∃ cost, censusMilliUnits c p = some cost ∧ cost ≤ cost' := by
  unfold censusMilliUnits at h ⊢
  simp only [Option.bind_eq_bind, Option.bind_eq_some_iff, checkedAdd_eq_some] at h
  obtain ⟨api', hapi, build', hbuild, _, ⟨hsum, rfl⟩, idle', hidle, htotal, rfl⟩ := h
  obtain ⟨api, hapi, hapi_le⟩ := classMilliUnits_mono (hle .apiWaiting) hapi
  obtain ⟨build, hbuild, hbuild_le⟩ := classMilliUnits_mono (hle .build) hbuild
  obtain ⟨idle, hidle, hidle_le⟩ := classMilliUnits_mono (hle .idleInteractive) hidle
  have h₁ : api + build ≤ wordMax := by omega
  have h₂ : api + build + idle ≤ wordMax := by omega
  exact ⟨api + build + idle, by simp [hapi, hbuild, hidle, checkedAdd, h₁, h₂], by omega⟩

theorem censusMilliUnits_zero (c : CertifiedProfile) : censusMilliUnits (fun _ => 0) c.profile = some 0 := by
  rw [censusMilliUnits_single c (w := .build) fun _ _ => rfl]
  exact classMilliUnits_zero (c.ratio_pos .build).1

/-! ### Charging a node -/

/-- The usage with its node lists given by functions of the node. -/
structure Usage.Indexed (u : Usage) (p : HostProfile) (vcpus : ℕ → Census) (cpu memory : ℕ → ℕ) :
    Prop where
  nodeVcpus : u.nodeVcpus = (range p.nodes).map vcpus
  nodeCpu : u.nodeCpu = (range p.nodes).map cpu
  nodeMemory : u.nodeMemory = (range p.nodes).map memory

variable {u : Usage}

/-- Rewrites the census and the memory of one node, and prices the census again. -/
def Usage.rewriteNode (u : Usage) (node : ℕ) (g : Census → Census) (c : Census → ℕ) (m : ℕ → ℕ) : Usage :=
  let u :=
    match u.nodeVcpus[node]? with
    | none => u
    | some census =>
      let census := g census
      { u with
        nodeVcpus := u.nodeVcpus.set node census
        nodeCpu := u.nodeCpu.set node (c census) }
  { u with nodeMemory := u.nodeMemory.modify node m }

theorem Usage.subtract_eq (u : Usage) (r : Reservation) (p : HostProfile) :
    u.subtract r p =
      rewriteNode
        { u.subtract r p with nodeVcpus := u.nodeVcpus, nodeCpu := u.nodeCpu, nodeMemory := u.nodeMemory } r.node
        (fun census => Function.update census r.demand.workload (census r.demand.workload - r.demand.vcpus))
        (fun census => (censusMilliUnits census p).getD 0)
        (· - satAdd r.demand.guaranteedBytes r.demand.elasticBytes) := by
  unfold subtract rewriteNode
  simp only
  cases u.nodeVcpus[r.node]? <;> rfl

theorem Usage.Indexed.rewriteNode (R' : Multiset Reservation) {node : ℕ} {g : Census → Census} {c : Census → ℕ}
    {m : ℕ → ℕ} (h : u.Indexed p (fun k => censusOf (onNode k R))
      (fun k => (censusMilliUnits (censusOf (onNode k R)) p).getD 0) (fun k => total memoryBytes (onNode k R)))
    (hothers : ∀ k, k ≠ node → onNode k R = onNode k R')
    (hvcpus : g (censusOf (onNode node R)) = censusOf (onNode node R'))
    (hcost : c (censusOf (onNode node R')) = (censusMilliUnits (censusOf (onNode node R')) p).getD 0)
    (hmemory : m (total memoryBytes (onNode node R)) = total memoryBytes (onNode node R')) :
    u.rewriteNode node g c m =
      { u with
        nodeVcpus := (ofReservations p R').nodeVcpus
        nodeCpu := (ofReservations p R').nodeCpu
        nodeMemory := (ofReservations p R').nodeMemory } := by
  have hlist {β : Type} (f : Multiset Reservation → β) {g : β → β} (hf : g (f (onNode node R)) = f (onNode node R')) :
      ((range p.nodes).map fun k => f (onNode k R)).modify node g = (range p.nodes).map fun k => f (onNode k R') :=
    range_map_modify hf fun k hk => by rw [hothers k hk]
  unfold Usage.rewriteNode
  by_cases hnode : node < p.nodes
  · have hget : u.nodeVcpus[node]? = some (censusOf (onNode node R)) := by simp [h.nodeVcpus, hnode]
    rw [hget]
    simp only [h.nodeVcpus, h.nodeCpu, h.nodeMemory, hlist _ hmemory, set_eq_modify, hvcpus, hcost]
    rw [hlist censusOf rfl, hlist (fun S => (censusMilliUnits (censusOf S) p).getD 0) rfl]
    rfl
  · have hget : u.nodeVcpus[node]? = none := by simp [h.nodeVcpus, hnode]
    have hsame {β : Type} (f : Multiset Reservation → β) :
        ((range p.nodes).map fun k => f (onNode k R)) = (range p.nodes).map fun k => f (onNode k R') :=
      map_congr_left fun k hk => by rw [hothers k fun heq => hnode (heq ▸ mem_range.mp hk)]
    rw [hget]
    simp only [h.nodeMemory, hlist _ hmemory]
    simp only [ofReservations, ← hsame censusOf, ← hsame fun S => (censusMilliUnits (censusOf S) p).getD 0,
      ← h.nodeVcpus, ← h.nodeCpu]

theorem censusOf_cons_sub (r : Reservation) (R : Multiset Reservation) :
    Function.update (censusOf (r ::ₘ R)) r.demand.workload
      (censusOf (r ::ₘ R) r.demand.workload - r.demand.vcpus) = censusOf R := by
  rw [censusOf_cons]
  simp

variable {s' : State} {shape : ValidShape}

namespace Committed

variable {a : Admission} {s : State}

theorem init (a : Admission) : Committed a.profile 0 a.init.usage where
  usage := by
    have hcensus : censusOf 0 = fun _ => 0 := rfl
    have hnode : ∀ node, onNode node 0 = 0 := fun _ => rfl
    have hcost : censusMilliUnits (fun _ => 0) a.profile = some 0 := censusMilliUnits_zero a.certified
    simp [Admission.init, empty, ofReservations, hnode, hcensus, hcost, map_const']
  memory := Nat.zero_le _

theorem satAdd_memory (h : Committed p R s.usage) {r : Reservation} (hr : r ∈ R) :
    satAdd r.demand.guaranteedBytes r.demand.elasticBytes = r.demand.memoryBytes := by
  obtain ⟨R', rfl⟩ := Multiset.exists_cons_of_mem hr
  have hbound := h.memory
  rw [total_cons] at hbound
  have hadm := p.admissibleMemoryBytes_le
  refine satAdd_eq ?_
  unfold memoryBytes at hbound
  omega

/-- **Release.**  A reservation that is held is taken out exactly. -/
theorem release (h : Committed a.profile (r ::ₘ R) s.usage) : Committed a.profile R (a.release s r).usage := by
  have hsat := h.satAdd_memory (Multiset.mem_cons_self r R)
  refine ⟨?_, ?_⟩
  · have hcount : ∀ b : Reservation → Bool, (if b r = true then (r ::ₘ R).countP (b · = true) - 1
        else (r ::ₘ R).countP (b · = true)) = R.countP (b · = true) := by
      intro b
      rw [Multiset.countP_cons]
      split_ifs <;> omega
    have hnodes : (ofReservations a.profile (r ::ₘ R)).subtract r a.profile = _ :=
      (subtract_eq _ r a.profile).trans <| Indexed.rewriteNode R ⟨rfl, rfl, rfl⟩
        (fun k hk => onNode_cons_of_ne hk) (by rw [onNode_cons_self, censusOf_cons_sub]) rfl
        (by rw [onNode_cons_self, total_cons, hsat, Nat.add_sub_cancel_left])
    have hsubtract : (ofReservations a.profile (r ::ₘ R)).subtract r a.profile =
        { ofReservations a.profile R with cleanups := (r ::ₘ R).countP (·.cleanup = true) } := by
      rw [hnodes, subtract]
      split <;> simp [ofReservations, censusOf_cons_sub, hcount (·.launching)]
    have hcleanups := hcount (·.cleanup)
    unfold Admission.release
    simp only
    rw [h.usage, hsubtract]
    split_ifs at hcleanups ⊢ <;> simp only [hcleanups] <;> rfl
  · have hbound := h.memory
    rw [total_cons] at hbound
    omega

theorem ofReservations_flags (r r' : Reservation) (hdemand : r'.demand = r.demand) (hnode : r'.node = r.node) :
    ofReservations p (r' ::ₘ R) = { ofReservations p (r ::ₘ R) with
      launches := (r' ::ₘ R).countP (·.launching = true)
      cleanups := (r' ::ₘ R).countP (·.cleanup = true) } := by
  have htotal : ∀ f (X : Multiset Reservation), total f (r' ::ₘ X) = total f (r ::ₘ X) := by
    intro f X
    rw [total_cons, total_cons, hdemand]
  have hon : ∀ f k, total f (onNode k (r' ::ₘ R)) = total f (onNode k (r ::ₘ R)) := by
    intro f k
    rw [onNode_cons, onNode_cons, hnode]
    split_ifs
    · exact htotal f _
    · rfl
  have hcensus : ∀ k, censusOf (onNode k (r' ::ₘ R)) = censusOf (onNode k (r ::ₘ R)) :=
    fun k => funext fun workload => hon _ k
  have hall : censusOf (r' ::ₘ R) = censusOf (r ::ₘ R) := funext fun workload => htotal _ R
  simp [ofReservations, htotal, hon, hcensus, hall]

/-- **Finishing a launch** changes the reservation in place. -/
theorem launched (h : Committed p (r ::ₘ R) s.usage) :
    Committed p ((Admission.launched s r).1 ::ₘ R) (Admission.launched s r).2.usage := by
  unfold Admission.launched
  split_ifs with hlaunching
  · refine ⟨?_, by simpa using h.memory⟩
    simp only
    rw [ofReservations_flags r { r with launching := false } rfl rfl, h.usage]
    simp [ofReservations, hlaunching, Multiset.countP_cons]
  · exact h

/-- **A cleanup slot** changes the reservation in place. -/
theorem beginCleanup {r' : Reservation} (h : Committed a.profile (r ::ₘ R) s.usage)
    (hbegin : a.beginCleanup s r = .ok (r', s')) : Committed a.profile (r' ::ₘ R) s'.usage := by
  obtain ⟨-, rfl, rfl⟩ | ⟨hcleanup, -, rfl, rfl⟩ := beginCleanup_eq_ok_iff.mp hbegin
  · exact h
  · refine ⟨?_, by simpa using h.memory⟩
    simp only
    rw [ofReservations_flags r { r with cleanup := true } rfl rfl, h.usage]
    simp [ofReservations, hcleanup, Multiset.countP_cons]

/-- **Reservation.** -/
theorem reserve (h : Committed a.profile R s.usage)
    (hreserve : a.reserve s shape = .ok (r, s')) : Committed a.profile (r ::ₘ R) s'.usage := by
  obtain ⟨d, node, hd, hfits, -, rfl, rfl⟩ := reserve_eq_ok_iff.mp hreserve
  let r : Reservation := ⟨s.nextId, node, d, true, false⟩
  change Committed a.profile (r ::ₘ R) (a.reserved s d node).usage
  have husage := h.usage
  have hadm := a.profile.admissibleMemoryBytes_le
  have hbound := h.memory
  rw [total_memoryBytes] at hbound
  -- The memory gate saw the exact sums.
  have hmemory : total (·.guaranteedBytes) R + total (·.elasticBytes) R +
      (d.guaranteedBytes + d.elasticBytes) ≤ a.profile.admissibleMemoryBytes := by
    have hgate := hfits.memory
    rw [husage] at hgate
    have hd := (of_ok hd).2.2.2.1
    rw [satAdd_eq (show (ofReservations a.profile R).guaranteedBytes +
      (ofReservations a.profile R).elasticBytes ≤ wordMax from hbound.trans hadm),
      satAdd_eq hd] at hgate
    exact hgate
  have hnodeMemory : ∀ k, total memoryBytes (onNode k R) ≤
      total (·.guaranteedBytes) R + total (·.elasticBytes) R := by
    intro k
    rw [← total_memoryBytes]
    exact total_onNode_le _ k R
  have hself : onNode node (r ::ₘ R) = r ::ₘ onNode node R := onNode_cons_self
  have hcensus : censusOf (r ::ₘ R) = s.usage.censusWith d := by
    rw [censusOf_cons, censusWith, husage]
    rfl
  have hnodeCensus : Function.update (censusOf (onNode node R)) d.workload
      (satAdd (censusOf (onNode node R) d.workload) d.vcpus) = censusOf (r ::ₘ onNode node R) := by
    have hle : censusOf (onNode node R) d.workload ≤ censusOf R d.workload := total_onNode_le _ node R
    have hgate := hfits.census
    rw [husage] at hgate
    rw [satAdd_eq ((Nat.add_le_add_right hle _).trans hgate), censusOf_cons]
  obtain ⟨cost, hcost, -⟩ := hfits.cpu
  obtain ⟨nodeCost, hnodeCost, -⟩ :
      ∃ nodeCost, censusMilliUnits (censusOf (r ::ₘ onNode node R)) a.profile = some nodeCost ∧ nodeCost ≤ cost := by
    rw [← hcensus] at hcost
    refine censusMilliUnits_mono ?_ hcost
    intro workload
    rw [← hself]
    exact total_onNode_le _ node (r ::ₘ R)
  have hnodes : (a.reserved s d node).usage = _ :=
    Indexed.rewriteNode (R := R) (u := s.usage.applied d a.profile) (r ::ₘ R)
      (c := fun census => (censusMilliUnits census a.profile).getD wordMax)
      (by rw [husage]; exact ⟨rfl, rfl, rfl⟩) (fun k hk => (onNode_cons_of_ne hk).symm)
      (hnodeCensus.trans (by rw [hself])) (by rw [hself, hnodeCost]; rfl) (by
        have hnode := hnodeMemory node
        rw [hself, total_cons, satAdd_eq (a := d.guaranteedBytes) (by omega), satAdd_eq (by omega), Nat.add_comm]
        rfl)
  refine ⟨?_, ?_⟩
  · have hguaranteed : satAdd (total (·.guaranteedBytes) R) d.guaranteedBytes =
        total (·.guaranteedBytes) (r ::ₘ R) := by
      rw [satAdd_eq (by omega), total_cons, Nat.add_comm]
    rw [hnodes, applied, ← hcensus, husage]
    refine Usage.ext rfl rfl hguaranteed ?_ ?_ ?_ ?_ ?_ ?_ ?_ ?_ ?_ ?_ rfl rfl rfl
    all_goals simp [ofReservations, Nat.add_comm, r]
  · rw [total_memoryBytes, total_cons, total_cons]
    change d.guaranteedBytes + _ + (d.elasticBytes + _) ≤ _
    omega

end Committed

/-! ### Whole histories -/

/-- Every gated dimension is within its limit, and the CPU cost is that of the census. -/
structure Usage.Within (u : Usage) (p : HostProfile) : Prop where
  census : censusMilliUnits u.vcpusByClass p = some u.cpuMilliUnits
  cpu : u.cpuMilliUnits ≤ p.cpuLimit
  memory : u.guaranteedBytes + u.elasticBytes ≤ p.admissibleMemoryBytes
  elastic : u.elasticBytes ≤ p.memory.elasticBudgetBytes.toNat
  storage : u.storageBytes ≤ p.privateBudgetBytes.toNat
  network : u.networkUnits ≤ p.networkUnits.toNat
  processes : u.processes ≤ p.process.processes.toNat
  descriptors : u.descriptors ≤ p.process.descriptors.toNat
  residents : u.residents ≤ p.limits.residentInstances.toNat
  launches : u.launches ≤ p.limits.concurrentLaunches.toNat
  runnable : u.runnableVcpus ≤ p.limits.runnableVcpus.toNat
  dirty : u.dirtyBytes ≤ p.limits.dirtyMemoryBytes.toNat
  cleanups : u.cleanups ≤ p.limits.cleanupSlots.toNat

namespace Usage.Within

variable {a : Admission} {s : State}

theorem init : a.init.usage.Within a.profile := by
  refine ⟨censusMilliUnits_zero a.certified, ?_, ?_, ?_, ?_, ?_, ?_, ?_, ?_, ?_, ?_, ?_, ?_⟩ <;> exact Nat.zero_le _

theorem reserve (h : Committed a.profile R s.usage)
    (hreserve : a.reserve s shape = .ok (r, s')) : s'.usage.Within a.profile := by
  have hcommitted := h.reserve hreserve
  obtain ⟨d, node, -, hfits, -, rfl, -⟩ := reserve_eq_ok_iff.mp hreserve
  rw [h.usage] at hfits
  rw [hcommitted.usage]
  obtain ⟨cost, hcost, hlimit⟩ := hfits.cpu
  set r : Reservation := ⟨s.nextId, node, d, true, false⟩
  have hcensus : censusOf (r ::ₘ R) = (ofReservations a.profile R).censusWith d := censusOf_cons r R
  rw [← hcensus] at hcost
  have hsum : ∀ f : Demand → ℕ, total f (r ::ₘ R) = total f R + f d := fun f => (total_cons ..).trans (Nat.add_comm ..)
  have hcard : (r ::ₘ R).card = R.card + 1 := Multiset.card_cons ..
  exact {
    census := by simp [ofReservations, hcost]
    cpu := by simpa [ofReservations, hcost] using hlimit
    memory := (total_memoryBytes _).symm.trans_le hcommitted.memory
    elastic := (hsum _).trans_le hfits.elastic
    storage := (hsum _).trans_le hfits.storage
    network := (hsum _).trans_le hfits.network
    processes := hcard.trans_le hfits.processes
    descriptors := (hsum _).trans_le hfits.descriptors
    residents := hcard.trans_le hfits.residents
    launches := (Multiset.countP_cons_of_pos (p := fun r : Reservation => r.launching = true) R rfl).trans_le hfits.launches
    runnable := (hsum _).trans_le hfits.runnable
    dirty := (hsum _).trans_le hfits.dirty
    cleanups := (Multiset.countP_cons_of_neg _ nofun).trans_le hfits.cleanups }

theorem of_cons (h : (ofReservations p (r ::ₘ R)).Within p) : (ofReservations p R).Within p := by
  have hsum : ∀ f : Demand → ℕ, total f R ≤ total f (r ::ₘ R) := fun f => total_cons f r R ▸ Nat.le_add_left ..
  have hcard : R.card ≤ (r ::ₘ R).card := Multiset.card_cons r R ▸ Nat.le_add_right ..
  have hcount : ∀ b : Reservation → Bool, R.countP (b · = true) ≤ (r ::ₘ R).countP (b · = true) :=
    fun b => Multiset.countP_le_of_le _ (Multiset.le_cons_self R r)
  obtain ⟨cost, hcost, hcheaper⟩ := censusMilliUnits_mono (c := censusOf R) (fun workload => hsum _) h.census
  exact {
    census := by simp [ofReservations, hcost]
    cpu := by simpa [ofReservations, hcost] using hcheaper.trans h.cpu
    memory := (Nat.add_le_add (hsum _) (hsum _)).trans h.memory
    elastic := (hsum _).trans h.elastic
    storage := (hsum _).trans h.storage
    network := (hsum _).trans h.network
    processes := hcard.trans h.processes
    descriptors := (hsum _).trans h.descriptors
    residents := hcard.trans h.residents
    launches := (hcount _).trans h.launches
    runnable := (hsum _).trans h.runnable
    dirty := (hsum _).trans h.dirty
    cleanups := (hcount _).trans h.cleanups }

variable (h : s.usage.Within a.profile)
include h

theorem launched : (Admission.launched s r).2.usage.Within a.profile := by
  unfold Admission.launched
  split_ifs
  · exact { h with launches := (Nat.sub_le ..).trans h.launches }
  · exact h

theorem beginCleanup {r' : Reservation} (hbegin : a.beginCleanup s r = .ok (r', s')) :
    s'.usage.Within a.profile := by
  obtain ⟨-, -, rfl⟩ | ⟨-, hle, -, rfl⟩ := beginCleanup_eq_ok_iff.mp hbegin
  · exact h
  · exact { h with cleanups := hle }

end Usage.Within

namespace History

def run (a : Admission) (calls : List Call) : History :=
  calls.foldl (fun h call => (h.step a call).2) ⟨a.init, []⟩

/-- The usage is that of the reservations still held, and within every limit. -/
structure Exact (a : Admission) (h : History) : Prop where
  committed : Committed a.profile h.held h.state.usage
  within : h.state.usage.Within a.profile

variable {a : Admission} {h : History}

theorem Exact.step (hexact : h.Exact a) (call : Call) : (h.step a call).2.Exact a := by
  have hheld : ∀ {i r}, h.held[i]? = some r → ∃ hlt : i < h.held.length,
      Committed a.profile (r ::ₘ (h.held.eraseIdx i : Multiset Reservation)) h.state.usage := by
    intro i r hget
    obtain ⟨hlt, rfl⟩ := List.getElem?_eq_some_iff.mp hget
    refine ⟨hlt, ?_⟩
    rw [Multiset.cons_coe, Multiset.coe_eq_coe.mpr (getElem_cons_eraseIdx_perm hlt)]
    exact hexact.committed
  have hset : ∀ {i r}, i < h.held.length →
      (h.held.set i r : Multiset Reservation) = r ::ₘ (h.held.eraseIdx i : Multiset Reservation) :=
    fun hlt => Multiset.coe_eq_coe.mpr (set_perm_cons_eraseIdx hlt _)
  cases call with
  | reserve shape =>
    simp only [History.step]
    split
    · exact hexact
    · next r state hreserve =>
      refine ⟨?_, .reserve hexact.committed hreserve⟩
      rw [← Multiset.coe_add, add_comm]
      exact hexact.committed.reserve hreserve
  | launched i =>
    simp only [History.step]
    split
    · exact hexact
    · next hget =>
      obtain ⟨hlt, hcommitted⟩ := hheld hget
      exact ⟨hset hlt ▸ hcommitted.launched, hexact.within.launched⟩
  | beginCleanup i =>
    simp only [History.step]
    split
    · exact hexact
    · next hget =>
      obtain ⟨hlt, hcommitted⟩ := hheld hget
      split
      · exact hexact
      · next hbegin => exact ⟨hset hlt ▸ hcommitted.beginCleanup hbegin, hexact.within.beginCleanup hbegin⟩
  | release i =>
    simp only [History.step]
    split
    · exact hexact
    · next hget =>
      obtain ⟨hlt, hcommitted⟩ := hheld hget
      refine ⟨hcommitted.release, ?_⟩
      rw [hcommitted.release.usage]
      exact .of_cons (hcommitted.usage ▸ hexact.within)

theorem step_rejected {call : Call} {e : CapacityRejection} (hrejected : (h.step a call).1 = some e) :
    (h.step a call).2 = h := by
  cases call with
  | reserve shape =>
    cases hreserve : a.reserve h.state shape with
    | error e => simp [History.step, hreserve]
    | ok p => simp [History.step, hreserve] at hrejected
  | beginCleanup i =>
    cases hget : h.held[i]? with
    | none => simp [History.step, hget]
    | some r =>
      cases hbegin : a.beginCleanup h.state r with
      | error e => simp [History.step, hget, hbegin]
      | ok p => simp [History.step, hget, hbegin] at hrejected
  | launched i | release i => cases hget : h.held[i]? <;> simp [History.step, hget] at hrejected

theorem run_exact (a : Admission) (calls : List Call) : (run a calls).Exact a := by
  have hrun : ∀ {h : History}, h.Exact a → (calls.foldl (fun h call => (h.step a call).2) h).Exact a := by
    intro h hexact
    induction calls generalizing h with
    | nil => exact hexact
    | cons call calls ih => exact ih (hexact.step call)
  exact hrun ⟨.init a, .init⟩

/-- After any calls the usage is the sum over the reservations still held, whatever led there; it is within every
limit, and a rejected call leaves it as it is. -/
theorem accounting_exact (a : Admission) (calls : List Call) :
    (run a calls).state.usage = .ofReservations a.profile (run a calls).held
      ∧ (run a calls).state.usage.Within a.profile
      ∧ ∀ call e, ((run a calls).step a call).1 = some e →
        ((run a calls).step a call).2.state.usage = (run a calls).state.usage := by
  have hexact := run_exact a calls
  refine ⟨hexact.committed.usage, hexact.within, fun call e hrejected => ?_⟩
  rw [step_rejected hrejected]

end History

end Soma.Host.Capacity
