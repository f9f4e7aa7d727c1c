import Soma.Host.Pool.Types

/-! # The bounded idempotency registry

Claims are idempotent per operation. The registry is a cache over the ledger: a completed claim is a
`done` binding and its operation is in `recorded`; a binding that was evicted is answered from the
ledger again, and a new pool is seeded from the ledger's claims.

`Registry.reserve` is the whole critical section of `reserve_binding` under the registry lock, with
the ledger's answer for the operation as an argument; `none` means that the caller has to wait for
an attempt in flight.
-/

namespace Soma.Host.Pool

open Std

/-- What the registry knows of one operation. -/
inductive Binding
  | inFlight (fingerprint : Fingerprint)
  | done (fingerprint : Fingerprint) (outcome : ClaimOutcome)
deriving DecidableEq, Repr

def Binding.isDone : Binding → Bool
  | done .. => true
  | inFlight _ => false

/-- The bindings, their age order, and every operation the ledger has a claim of. -/
structure Registry where
  bindings : TreeMap OperationId Binding
  order : List OperationId
  recorded : TreeSet OperationId

namespace Registry

def empty : Registry :=
  ⟨∅, [], ∅⟩

end Registry

variable (claim : ClaimRecord)

def outcomeOf : Option ClaimOutcome := do
  let claimClass ← ClaimClass.fromCode claim.classCode
  some ⟨claim.worker, claim.leaseGeneration, claim.operation, claimClass⟩

def bindingOf : Option Binding := do
  let outcome ← outcomeOf claim
  some (.done claim.fingerprint outcome)

/-- Answers a claim from the ledger. -/
def replay (fingerprint : Fingerprint) : Except ClaimError (Option ClaimOutcome) :=
  if claim.fingerprint ≠ fingerprint then
    .error (.operationConflict claim.operation claim.fingerprint fingerprint)
  else
    match outcomeOf claim with
    | some outcome => .ok (some outcome)
    | none => .error (.ledger (.invariant claim.worker .claiming))

namespace Registry

/-- Restores one binding, newest claims first, while there is room. -/
def seedBinding (limit : ℕ) (reg : Registry) (claim : ClaimRecord) : Registry :=
  if reg.bindings.size ≥ limit then reg
  else if reg.bindings.contains claim.operation then reg
  else
    match bindingOf claim with
    | some binding =>
      { reg with
        bindings := reg.bindings.insert claim.operation binding
        order := claim.operation :: reg.order }
    | none => reg

/-- The registry of a pool opened over recorded claims. -/
def seed (claims : List ClaimRecord) (limit : ℕ) : Registry :=
  let recorded := claims.foldl (fun set claim => set.insert claim.operation) ∅
  claims.reverse.foldl (seedBinding limit) { empty with recorded }

variable (reg : Registry)

/-- The worker of a completed binding is gone. -/
def isDead (dead : WorkerId → Bool) (operation : OperationId) : Bool :=
  match reg.bindings[operation]? with
  | some (.done _ outcome) => dead outcome.worker
  | _ => false

def isCompleted (operation : OperationId) : Bool :=
  match reg.bindings[operation]? with
  | some binding => binding.isDone
  | none => false

/-- Makes room for one binding: the oldest completed one whose worker is gone, or the oldest
completed one. -/
def evict (limit : ℕ) (dead : WorkerId → Bool) : Except ClaimError Registry :=
  if reg.bindings.size < limit then .ok reg
  else
    match (reg.order.find? (reg.isDead dead)).or (reg.order.find? reg.isCompleted) with
    | some operation =>
      .ok { reg with
        order := reg.order.erase operation
        bindings := reg.bindings.erase operation }
    | none => .error (.overloaded ⟨.claimRegistry, reg.bindings.size, limit⟩)

/-- The critical section of a claim's first step. -/
def reserve (limit : ℕ) (dead : WorkerId → Bool)
    (recorded : Except LedgerError (Option ClaimRecord)) (operation : OperationId) (fingerprint : Fingerprint) :
    Option (Except ClaimError (Option ClaimOutcome) × Registry) :=
  match reg.bindings[operation]? with
  | some (.done known outcome) =>
    if known = fingerprint then some (.ok (some outcome), reg)
    else some (.error (.operationConflict operation known fingerprint), reg)
  | some (.inFlight known) =>
    if known ≠ fingerprint then
      some (.error (.operationConflict operation known fingerprint), reg)
    else none
  | none =>
    match (if reg.recorded.contains operation then recorded else .ok none) with
    | .error error => some (.error (.ledger error), reg)
    | .ok (some claim) => some (replay claim fingerprint, reg)
    | .ok none =>
      match reg.evict limit dead with
      | .error error => some (.error error, reg)
      | .ok reg =>
        some (.ok none, { reg with
          bindings := reg.bindings.insert operation (.inFlight fingerprint)
          order := reg.order ++ [operation] })

/-- A failed attempt clears its binding. -/
def clear (operation : OperationId) : Registry :=
  { reg with
    bindings := reg.bindings.erase operation
    order := reg.order.filter (· ≠ operation) }

/-- A recorded attempt completes its binding. -/
def finish (operation : OperationId) (fingerprint : Fingerprint) (outcome : ClaimOutcome) :
    Registry :=
  { reg with
    recorded := reg.recorded.insert operation
    bindings := reg.bindings.insert operation (.done fingerprint outcome) }

/-! ### What the critical sections do -/

/-- A registry with fewer completed bindings. -/
structure Shrinks (reg reg' : Registry) : Prop where
  recorded : reg'.recorded = reg.recorded
  bindings : ∀ (op : OperationId) (b : Binding), reg'.bindings[op]? = some b →
    reg.bindings[op]? = some b
  inFlight : ∀ (op : OperationId) (fp : Fingerprint), reg.bindings[op]? = some (.inFlight fp) →
    reg'.bindings[op]? = some (.inFlight fp)

variable {limit : ℕ} {dead : WorkerId → Bool} {reg} {reg' : Registry}

theorem evict_eq_ok (h : reg.evict limit dead = .ok reg') : reg.Shrinks reg' := by
  unfold evict at h
  split_ifs at h
  · cases h
    exact ⟨rfl, fun _ _ hb => hb, fun _ _ hb => hb⟩
  · split at h
    · rename_i operation hfound
      cases h
      -- the operation that was found has a completed binding
      have hdone : ∃ fp o, reg.bindings[operation]? = some (.done fp o) := by
        rcases Option.or_eq_some_iff.mp hfound with hd | ⟨-, hc⟩
        · have := List.find?_some hd
          unfold isDead at this
          split at this
          · rename_i fp o hb
            exact ⟨fp, o, hb⟩
          · cases this
        · have := List.find?_some hc
          unfold isCompleted at this
          split at this
          · rename_i b hb
            cases b with
            | inFlight fp => cases this
            | done fp o => exact ⟨fp, o, hb⟩
          · cases this
      obtain ⟨fp, o, hdone⟩ := hdone
      refine ⟨rfl, ?_, ?_⟩
      · intro op b hb
        rw [TreeMap.getElem?_erase] at hb
        split_ifs at hb
        exact hb
      · intro op fp' hb
        rw [TreeMap.getElem?_erase]
        split_ifs with heq
        · obtain rfl : operation = op := by simpa using heq
          rw [hdone] at hb
          cases hb
        · exact hb
    · cases h

variable {op : OperationId}

theorem reserve_eq_some {recorded : Except LedgerError (Option ClaimRecord)} {fp : Fingerprint}
    {answer : Except ClaimError (Option ClaimOutcome)}
    (h : reg.reserve limit dead recorded op fp = some (answer, reg')) :
    (∃ o, answer = .ok (some o) ∧ reg' = reg ∧
      (reg.bindings[op]? = some (.done fp o) ∨
        ∃ claim, recorded = .ok (some claim) ∧ claim.fingerprint = fp ∧ outcomeOf claim = some o)) ∨
    (∃ error, answer = .error error ∧ reg' = reg) ∨
    (answer = .ok none ∧ reg.bindings[op]? = none ∧
      (reg.recorded.contains op = true → recorded = .ok none) ∧
      ∃ reg₁, reg.Shrinks reg₁ ∧
        reg' = { reg₁ with
          bindings := reg₁.bindings.insert op (.inFlight fp)
          order := reg₁.order ++ [op] }) := by
  unfold reserve at h
  split at h
  · rename_i known outcome hb
    split_ifs at h with hfp
    · cases h
      exact .inl ⟨outcome, rfl, rfl, .inl (hfp ▸ hb)⟩
    · cases h
      exact .inr (.inl ⟨_, rfl, rfl⟩)
  · split_ifs at h
    cases h
    exact .inr (.inl ⟨_, rfl, rfl⟩)
  · rename_i hb
    split at h
    · cases h
      exact .inr (.inl ⟨_, rfl, rfl⟩)
    · rename_i claim hclaim
      have hrecorded : recorded = .ok (some claim) := by
        split_ifs at hclaim
        · exact hclaim
        · cases hclaim
      cases h
      unfold replay
      split_ifs with hfp
      · exact .inr (.inl ⟨_, rfl, rfl⟩)
      · split
        · rename_i outcome houtcome
          exact .inl ⟨outcome, rfl, rfl, .inr ⟨claim, hrecorded, by simpa using hfp, houtcome⟩⟩
        · exact .inr (.inl ⟨_, rfl, rfl⟩)
    · rename_i hnone
      split at h
      · cases h
        exact .inr (.inl ⟨_, rfl, rfl⟩)
      · rename_i reg₁ hevict
        cases h
        refine .inr (.inr ⟨rfl, hb, ?_, reg₁, evict_eq_ok hevict, rfl⟩)
        intro hcontains
        rwa [if_pos hcontains] at hnone

variable {b : Binding}

theorem seedBinding_bindings {reg : Registry} {claim : ClaimRecord}
    (h : (reg.seedBinding limit claim).bindings[op]? = some b) :
    reg.bindings[op]? = some b ∨ (claim.operation = op ∧ bindingOf claim = some b) := by
  unfold seedBinding at h
  split_ifs at h
  · exact .inl h
  · exact .inl h
  · split at h
    · rename_i binding hbinding
      simp only [TreeMap.getElem?_insert] at h
      split_ifs at h with heq
      · cases h
        exact .inr ⟨by simpa using heq, hbinding⟩
      · exact .inl h
    · exact .inl h

variable {claims : List ClaimRecord}

theorem seed_bindings (h : (seed claims limit).bindings[op]? = some b) :
    ∃ claim ∈ claims, claim.operation = op ∧ bindingOf claim = some b := by
  have hfold : ∀ (l : List ClaimRecord) (reg : Registry), (l.foldl (seedBinding limit) reg).bindings[op]? = some b →
      reg.bindings[op]? = some b ∨ ∃ claim ∈ l, claim.operation = op ∧ bindingOf claim = some b := by
    intro l
    induction l with
    | nil => exact fun reg h => .inl h
    | cons claim l ih =>
      intro reg h
      rcases ih _ h with h | ⟨c, hc, hrest⟩
      · rcases seedBinding_bindings h with h | ⟨hop, hb⟩
        · exact .inl h
        · exact .inr ⟨claim, by simp, hop, hb⟩
      · exact .inr ⟨c, by simp [hc], hrest⟩
  rcases hfold _ _ h with h | ⟨claim, hclaim, hrest⟩
  · simp [empty] at h
  · exact ⟨claim, by simpa using hclaim, hrest⟩

theorem seedBinding_recorded (limit : ℕ) (reg : Registry) (claim : ClaimRecord) :
    (reg.seedBinding limit claim).recorded = reg.recorded := by
  unfold seedBinding
  split_ifs
  · rfl
  · rfl
  · split <;> rfl

theorem seed_recorded {claim : ClaimRecord} (h : claim ∈ claims) :
    (seed claims limit).recorded.contains claim.operation = true := by
  have hsame : ∀ (l : List ClaimRecord) (reg : Registry),
      (l.foldl (seedBinding limit) reg).recorded = reg.recorded := by
    intro l
    induction l with
    | nil => exact fun _ => rfl
    | cons c l ih =>
      intro reg
      rw [List.foldl_cons, ih, seedBinding_recorded]
  have hinsert : ∀ (l : List ClaimRecord) (set : TreeSet OperationId),
      set.contains claim.operation = true ∨ claim ∈ l →
      (l.foldl (fun set c => set.insert c.operation) set).contains claim.operation = true := by
    intro l
    induction l with
    | nil => simp
    | cons c l ih =>
      intro set hor
      refine ih _ ?_
      rcases hor with hset | hmem
      · left
        rw [TreeSet.contains_insert, hset, Bool.or_true]
      · rcases List.mem_cons.mp hmem with rfl | hmem
        · left
          simp
        · exact .inr hmem
  rw [seed, hsame]
  exact hinsert claims ∅ (.inr h)

end Registry

end Soma.Host.Pool
