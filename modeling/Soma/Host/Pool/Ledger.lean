import Soma.Host.StateWord
import Soma.Lib.Checked

/-! # The durable ledger and its projection

Every lifecycle step of a worker is one record of an append-only ledger; after a restart the records
are all the pool knows.

* **`Record`** is one durable statement about a worker; `Record.stored` is the record as it is read
  back, where an all-zero process identity means none.
* **`fold`** projects the records, in sequence order, into one `Entry` per worker. It fails closed:
  a record of an unknown or dead worker, a generation that does not follow, or a phase the transition
  table forbids rejects the whole ledger.
* **`Status`** is the part of an entry that decides acceptance: `Status.Accepts` is the abstract
  automaton one worker's records must follow, and `fold_ok_of_accepts` says that the fold takes what
  this automaton accepts, worker by worker (`entriesOf_append`).
-/

namespace Soma.Host.Pool

open Std Soma.Lib

/-- A worker's identity; the byte order of the source is the order of the numbers. -/
abbrev WorkerId := ℕ

abbrev InstanceId := ℕ

/-- The identity of one claim operation. -/
abbrev OperationId := ℕ

abbrev Fingerprint := ℕ

abbrev PoolKeyDigest := ℕ

structure WorkerIdentity where
  process : ℕ
  token : ℕ
deriving DecidableEq, Repr

def absent : WorkerIdentity :=
  ⟨0, 0⟩

/-- References to broker resources. -/
structure ResourceRefs where
  head : Option ℕ
  bundle : Option (ℕ × ℕ)
deriving DecidableEq, Repr

/-- References to nothing. -/
def ResourceRefs.none : ResourceRefs :=
  ⟨.none, .none⟩

/-- The eight ordered authority steps. -/
inductive TransferStep
  | identity
  | deadline
  | entropy
  | launchPage
  | disk
  | network
  | control
  | commit
deriving DecidableEq, Repr

namespace TransferStep

def all : List TransferStep :=
  [identity, deadline, entropy, launchPage, disk, network, control, commit]

/-- The stable encoding. -/
def code : TransferStep → ℕ
  | identity => 1
  | deadline => 2
  | entropy => 3
  | launchPage => 4
  | disk => 5
  | network => 6
  | control => 7
  | commit => 8

def fromCode : ℕ → Option TransferStep
  | 1 => some identity
  | 2 => some deadline
  | 3 => some entropy
  | 4 => some launchPage
  | 5 => some disk
  | 6 => some network
  | 7 => some control
  | 8 => some commit
  | _ => none

end TransferStep

/-- What reconciliation decided for one suspect. -/
inductive ReconcileDisposition
  | terminated
  | released
  | retained
deriving DecidableEq, Repr

namespace ReconcileDisposition

/-- The stable encoding. -/
def code : ReconcileDisposition → ℕ
  | terminated => 1
  | released => 2
  | retained => 3

def fromCode : ℕ → Option ReconcileDisposition
  | 1 => some terminated
  | 2 => some released
  | 3 => some retained
  | _ => none

theorem fromCode_code (d : ReconcileDisposition) : fromCode d.code = some d := by
  cases d <;> rfl

end ReconcileDisposition

/-- What one record states about a worker. -/
inductive RecordKind
  | constructing
  | sterile
  | constructFailed
  | claiming
  | transferStep
  | transferFault
  | assigned
  | running
  | destroying
  | dead
  | suspect
  | reconciled
  | assigning
deriving DecidableEq, Repr

/-- One durable statement about a worker. -/
structure Record where
  kind : RecordKind
  worker : WorkerId
  leaseGeneration : LeaseGeneration
  key : PoolKeyDigest
  detail : ℕ := 0
  operation : Option OperationId := none
  instanceId : Option InstanceId := none
  fingerprint : Option Fingerprint := none
  resources : ResourceRefs := .none
  identity : Option WorkerIdentity := none
deriving DecidableEq, Repr

variable (r : Record)

/-- The record as it is read back: an all-zero process identity decodes as none. -/
def Record.stored : Record :=
  { r with identity := r.identity.filter (· ≠ absent) }

/-- Why the ledger refused or could not answer. -/
inductive LedgerError
  | openFailed
  | write (seq : ℕ)
  | contended (seq : ℕ)
  | read
  | corrupt (seq : ℕ)
  | invariant (worker : WorkerId) (kind : RecordKind)
deriving DecidableEq, Repr

/-- The ledger's projection of one worker. -/
structure Entry where
  worker : WorkerId
  key : PoolKeyDigest
  phase : Phase
  leaseGeneration : LeaseGeneration
  operation : Option OperationId
  instanceId : Option InstanceId
  fingerprint : Option Fingerprint
  resources : ResourceRefs
  identity : Option WorkerIdentity
  lastStep : Option TransferStep
  wasAssigned : Bool
  suspect : Bool
  records : ℕ
deriving DecidableEq, Repr

/-- The phase a record moves an entry to, when it moves one. -/
def movesTo : RecordKind → Option Phase
  | .sterile => some .sterile
  | .constructFailed | .dead => some .dead
  | .claiming => some .claiming
  | .assigned => some .assigned
  | .running => some .running
  | .destroying => some .destroying
  | .constructing | .assigning | .transferStep | .transferFault | .suspect | .reconciled => none

/-- The claim is the one record that bumps the lease generation. -/
def generationFollows (current : LeaseGeneration) (r : Record) : Bool :=
  (if r.kind = .claiming then current.next.toOption else some current) = some r.leaseGeneration

/-- The entry a constructing record opens. -/
def fresh : Entry where
  worker := r.worker
  key := r.key
  phase := .constructing
  leaseGeneration := r.leaseGeneration
  operation := none
  instanceId := none
  fingerprint := none
  resources := r.resources
  identity := r.identity
  lastStep := none
  wasAssigned := false
  suspect := false
  records := 1

/-- What an admissible record changes in the entry of its worker. -/
def Entry.update (entry : Entry) (r : Record) : Except LedgerError Entry :=
  let entry := { entry with records := entry.records + 1, leaseGeneration := r.leaseGeneration }
  match r.kind with
  | .constructing => .error (.invariant r.worker r.kind)
  | .sterile =>
    if entry.wasAssigned ∨ entry.phase ≠ .constructing then .error (.invariant r.worker r.kind)
    else .ok { entry with phase := .sterile, identity := r.identity, resources := r.resources }
  | .constructFailed | .dead => .ok { entry with phase := .dead }
  | .claiming =>
    .ok { entry with phase := .claiming, operation := r.operation, fingerprint := r.fingerprint }
  | .assigning => .ok { entry with resources := r.resources }
  | .transferStep =>
    .ok { entry with lastStep := TransferStep.fromCode r.detail, resources := r.resources }
  | .transferFault => .ok entry
  | .assigned =>
    .ok { entry with
      phase := .assigned, instanceId := r.instanceId, resources := r.resources, wasAssigned := true }
  | .running => .ok { entry with phase := .running }
  | .destroying => .ok { entry with phase := .destroying }
  | .suspect => .ok { entry with suspect := true }
  | .reconciled =>
    .ok (if ReconcileDisposition.fromCode r.detail ≠ some .retained then { entry with phase := .dead }
      else entry)

/-- One record on the entry of its worker. -/
def foldEntry (entry : Entry) (r : Record) : Except LedgerError Entry :=
  if entry.phase = .dead then .error (.invariant r.worker r.kind)
  else if generationFollows entry.leaseGeneration r = false then .error (.invariant r.worker r.kind)
  else if (movesTo r.kind).any fun next => !entry.phase.mayTransitionTo next then
    .error (.invariant r.worker r.kind)
  else entry.update r

abbrev Entries := TreeMap WorkerId Entry

def fold (entries : Entries) (r : Record) : Except LedgerError Entries :=
  if r.kind = .constructing then
    if entries.contains r.worker then .error (.invariant r.worker r.kind)
    else .ok (entries.insert r.worker (fresh r))
  else
    match entries[r.worker]? with
    | none => .error (.invariant r.worker r.kind)
    | some entry => (foldEntry entry r).map (entries.insert r.worker)

variable (records : List Record)

def entriesOf : Except LedgerError Entries :=
  records.foldlM fold ∅

/-- One claim as the ledger recorded it. -/
structure ClaimRecord where
  operation : OperationId
  fingerprint : Fingerprint
  worker : WorkerId
  leaseGeneration : LeaseGeneration
  classCode : ℕ
deriving DecidableEq, Repr

/-- The claim a record states, when it is a complete claiming record. -/
def Record.claim? : Option ClaimRecord :=
  if r.kind = .claiming then do
    let operation ← r.operation
    let fingerprint ← r.fingerprint
    some ⟨operation, fingerprint, r.worker, r.leaseGeneration, r.detail⟩
  else none

/-- Every recorded claim in order. -/
def claimsOf : List ClaimRecord :=
  records.filterMap Record.claim?

def claimOf (operation : OperationId) : Option ClaimRecord :=
  (claimsOf records).find? (·.operation = operation)

/-! ### The automaton of one worker's records -/

/-- What decides acceptance: nothing recorded yet, or the recorded phase and generation. -/
abbrev Status := Option Packed

def Entry.status (e : Entry) : Packed :=
  ⟨e.phase, e.leaseGeneration⟩

def statusOf (entries : Entries) (w : WorkerId) : Status :=
  entries[w]?.map Entry.status

def phaseAfter (phase : Phase) (r : Record) : Phase :=
  match r.kind with
  | .reconciled => if ReconcileDisposition.fromCode r.detail ≠ some .retained then .dead else phase
  | kind => (movesTo kind).getD phase

/-- The records a worker's status accepts. -/
def Status.Accepts : Status → Record → Prop
  | none, r => r.kind = .constructing
  | some st, r =>
    r.kind ≠ .constructing ∧ st.phase ≠ .dead ∧ generationFollows st.generation r = true ∧
      ∀ next, movesTo r.kind = some next → st.phase.mayTransitionTo next = true

def Status.after : Status → Record → Packed
  | none, r => ⟨.constructing, r.leaseGeneration⟩
  | some st, r => ⟨phaseAfter st.phase r, r.leaseGeneration⟩

variable {r : Record} {st : Status}

theorem Status.accepts_stored : Status.Accepts st r.stored ↔ Status.Accepts st r := by
  cases st <;> exact Iff.rfl

theorem Status.accepts_of_moves {p : Phase} {g : LeaseGeneration}
    (hkind : r.kind ≠ .constructing ∧ r.kind ≠ .claiming) (hdead : p ≠ .dead) (hg : r.leaseGeneration = g)
    (hmoves : ∀ q, movesTo r.kind = some q → p.mayTransitionTo q = true) : Status.Accepts (some ⟨p, g⟩) r :=
  ⟨hkind.1, hdead, by simp [generationFollows, hkind.2, hg], hmoves⟩

theorem Status.after_stored : Status.after st r.stored = Status.after st r := by
  cases st <;> rfl

/-- An entry that is still under construction was never assigned. -/
def Entry.Sound (e : Entry) : Prop :=
  e.phase = .constructing → e.wasAssigned = false

variable {e e' : Entry}

theorem Entry.update_eq_ok (h : e.update r = .ok e') :
    r.kind ≠ .constructing ∧ e'.status = ⟨phaseAfter e.phase r, r.leaseGeneration⟩ ∧
      (e.Sound → e'.Sound) := by
  unfold Entry.update at h
  cases hkind : r.kind <;> simp only [hkind] at h
  case constructing => cases h
  case reconciled =>
    cases h
    refine ⟨by simp, ?_, ?_⟩
    · simp only [Entry.status, phaseAfter, hkind]
      split_ifs <;> rfl
    · split_ifs <;> simp [Entry.Sound]
  case' sterile => split_ifs at h
  all_goals
    cases h
    exact ⟨by simp, by simp [Entry.status, phaseAfter, hkind, movesTo], by simp [Entry.Sound]⟩

/-- The fold of one worker's record is the automaton: what it accepts and where it leads. -/
theorem foldEntry_eq_ok (h : foldEntry e r = .ok e') :
    Status.Accepts (some e.status) r ∧ e'.status = Status.after (some e.status) r ∧
      (e.Sound → e'.Sound) := by
  unfold foldEntry at h
  split_ifs at h with hdead hgen htable
  obtain ⟨hkind, hstatus, hsound⟩ := Entry.update_eq_ok h
  have hgen' : generationFollows e.leaseGeneration r = true := by simpa using hgen
  refine ⟨⟨hkind, hdead, hgen', ?_⟩, hstatus, hsound⟩
  intro next hnext
  simpa [hnext, Entry.status] using htable

theorem foldEntry_ok_of_accepts {e : Entry} (hsound : e.Sound) (h : Status.Accepts (some e.status) r) :
    ∃ e', foldEntry e r = .ok e' := by
  obtain ⟨hkind, hdead, hgen, hmoves⟩ := h
  have htable : ((movesTo r.kind).any fun next => !e.phase.mayTransitionTo next) = false := by
    cases hnext : movesTo r.kind with
    | none => rfl
    | some next =>
      have := hmoves next hnext
      simp only [Entry.status] at this
      simp [this]
  have hdead' : e.phase ≠ .dead := hdead
  have hgen' : generationFollows e.leaseGeneration r = true := hgen
  unfold foldEntry
  simp only [hdead', if_false, hgen', Bool.true_eq_false, htable, Bool.false_eq_true]
  unfold Entry.update
  cases hk : r.kind with
  | constructing => exact absurd hk hkind
  | sterile =>
    have hphase : e.phase = .constructing := by
      have := hmoves .sterile (by simp [hk, movesTo])
      revert this
      simp only [Entry.status]
      cases e.phase <;> simp [Phase.mayTransitionTo]
    simp [hphase, hsound hphase]
  | _ => exact ⟨_, rfl⟩

/-! ### The projection, worker by worker -/

/-- Every entry of the projection is sound. -/
def Entries.Sound (m : Entries) : Prop :=
  ∀ (w : WorkerId) (e : Entry), m[w]? = some e → e.Sound

theorem fold_eq_ok {m m' : Entries} (h : fold m r = .ok m') :
    Status.Accepts (statusOf m r.worker) r ∧
      statusOf m' r.worker = some (Status.after (statusOf m r.worker) r) ∧ ∀ w, w ≠ r.worker → m'[w]? = m[w]? := by
  unfold fold at h
  split_ifs at h with hkind hcontains
  · cases h
    have hnone : m[r.worker]? = none := by simpa using hcontains
    refine ⟨by simp [statusOf, hnone, Status.Accepts, hkind], ?_, fun w hw => ?_⟩
    · simp [statusOf, hnone, Status.after, Entry.status, fresh]
    · simp [TreeMap.getElem?_insert, Ne.symm hw]
  · split at h
    · cases h
    · rename_i entry hentry
      obtain ⟨entry', hfold, hend⟩ := bind_eq_ok.mp h
      cases hend
      obtain ⟨haccepts, hafter, -⟩ := foldEntry_eq_ok hfold
      have hstatus : statusOf m r.worker = some entry.status := by simp [statusOf, hentry]
      refine ⟨by rwa [hstatus], ?_, fun w hw => ?_⟩
      · rw [hstatus, ← hafter]
        simp [statusOf]
      · simp [TreeMap.getElem?_insert, Ne.symm hw]

variable {m : Entries}

theorem fold_ok_of_accepts (hsound : m.Sound) (h : Status.Accepts (statusOf m r.worker) r) :
    ∃ m', fold m r = .ok m' := by
  cases hentry : m[r.worker]? with
  | none =>
    have hkind : r.kind = .constructing := by simpa [statusOf, hentry, Status.Accepts] using h
    have hcontains : ¬ r.worker ∈ m := by simpa using hentry
    refine ⟨m.insert r.worker (fresh r), ?_⟩
    simp [fold, hkind, hcontains]
  | some entry =>
    have haccepts : Status.Accepts (some entry.status) r := by simpa [statusOf, hentry] using h
    obtain ⟨entry', hfold⟩ := foldEntry_ok_of_accepts (hsound _ _ hentry) haccepts
    refine ⟨m.insert r.worker entry', ?_⟩
    simp only [fold, haccepts.1, if_false, hentry, hfold]
    rfl

theorem entriesOf_append : entriesOf (records ++ [r]) = entriesOf records >>= (fold · r) := by
  unfold entriesOf
  rw [List.foldlM_append]
  congr 1
  funext m
  simp

variable {records}

variable {w : WorkerId}

theorem entriesOf_entry {P : WorkerId → Entry → Prop} {e : Entry} (hfresh : ∀ r ∈ records, P r.worker (fresh r))
    (hfold : ∀ r ∈ records, ∀ e e', P r.worker e → foldEntry e r = .ok e' → P r.worker e')
    (h : entriesOf records = .ok m) (he : m[w]? = some e) : P w e := by
  induction records using List.reverseRecOn generalizing m w e with
  | nil =>
    cases h
    simp at he
  | append_singleton records r ih =>
    rw [entriesOf_append, bind_eq_ok] at h
    obtain ⟨m₀, hm₀, hlast⟩ := h
    have hpast : ∀ {w e}, m₀[w]? = some e → P w e := fun he₀ =>
      ih (fun r' hr' => hfresh r' (by simp [hr'])) (fun r' hr' => hfold r' (by simp [hr'])) hm₀ he₀
    by_cases hw : w = r.worker
    · subst hw
      unfold fold at hlast
      split_ifs at hlast
      · cases hlast
        obtain rfl : fresh r = e := by simpa using he
        exact hfresh r (by simp)
      · split at hlast
        · cases hlast
        · rename_i entry hentry
          obtain ⟨entry', hentry', hend⟩ := bind_eq_ok.mp hlast
          cases hend
          obtain rfl : entry' = e := by simpa using he
          exact hfold r (by simp) entry entry' (hpast hentry) hentry'
    · rw [(fold_eq_ok hlast).2.2 w hw] at he
      exact hpast he

theorem entriesOf_sound (h : entriesOf records = .ok m) : m.Sound := by
  refine fun w e => entriesOf_entry (P := fun _ e => e.Sound) (fun r _ => by simp [Entry.Sound, fresh]) ?_ h
  exact fun r _ e e' he hfold => (foldEntry_eq_ok hfold).2.2 he

/-- **Append.**  A ledger that folds goes on folding exactly with a record its worker's status
accepts, and then only that worker's entry changes. -/
theorem entriesOf_append_of_accepts (h : entriesOf records = .ok m)
    (haccepts : Status.Accepts (statusOf m r.worker) r) :
    ∃ m', entriesOf (records ++ [r.stored]) = .ok m' ∧
      statusOf m' r.worker = some (Status.after (statusOf m r.worker) r) ∧
      ∀ w, w ≠ r.worker → m'[w]? = m[w]? := by
  obtain ⟨m', hm'⟩ := fold_ok_of_accepts (entriesOf_sound h) (Status.accepts_stored.mpr haccepts)
  obtain ⟨-, hafter, hothers⟩ := fold_eq_ok hm'
  rw [Status.after_stored] at hafter
  refine ⟨m', ?_, hafter, hothers⟩
  rw [entriesOf_append, h]
  exact hm'

theorem Entry.update_worker (h : e.update r = .ok e') : e'.worker = e.worker := by
  unfold Entry.update at h
  cases hkind : r.kind <;> simp only [hkind] at h
  case constructing => cases h
  case reconciled =>
    cases h
    split_ifs <;> rfl
  case' sterile => split_ifs at h
  all_goals
    cases h
    rfl

theorem entriesOf_worker (h : entriesOf records = .ok m) {e : Entry} (he : m[w]? = some e) :
    e.worker = w ∧ ∃ r ∈ records, r.worker = w := by
  refine entriesOf_entry (P := fun w e => e.worker = w ∧ ∃ r ∈ records, r.worker = w)
    (fun r hr => ⟨rfl, r, hr, rfl⟩) ?_ h he
  intro r hr entry entry' hentry hentry'
  unfold foldEntry at hentry'
  split_ifs at hentry'
  exact ⟨(Entry.update_worker hentry').trans hentry.1, hentry.2⟩

/-! ### What the status says of the records -/

variable {p q : Phase}

theorem mayTransitionTo_code (h : p.mayTransitionTo q = true) : p.code < q.code := by
  cases p <;> cases q <;> simp_all [Phase.mayTransitionTo, Phase.code]

theorem Status.code_le_after {st : Packed} (h : Status.Accepts (some st) r) :
    st.phase.code ≤ (Status.after (some st) r).phase.code := by
  obtain ⟨-, -, -, hmoves⟩ := h
  simp only [Status.after, phaseAfter]
  split
  · split_ifs
    · exact Phase.code_le _
    · exact Nat.le_refl _
  · cases hnext : movesTo r.kind with
    | none => exact Nat.le_refl _
    | some next => exact Nat.le_of_lt (mayTransitionTo_code (hmoves next hnext))

open Status

theorem phaseAfter_of_moves {next : Phase} (h : movesTo r.kind = some next) : phaseAfter p r = next := by
  cases hkind : r.kind <;> simp [hkind, movesTo] at h <;> subst h <;>
    simp [phaseAfter, hkind, movesTo]

theorem phaseAfter_destroying (h : phaseAfter p r = .destroying) (hkind : r.kind ≠ .destroying) :
    p = .destroying := by
  cases hk : r.kind <;> simp_all [phaseAfter, movesTo]
  split_ifs at h
  exact h

theorem entriesOf_recorded (h : entriesOf records = .ok m) (hr : r ∈ records) (hq : movesTo r.kind = some q) :
    ∃ st, statusOf m r.worker = some st ∧ q.code ≤ st.phase.code := by
  induction records using List.reverseRecOn generalizing m with
  | nil => simp at hr
  | append_singleton records r' ih =>
    rw [entriesOf_append, bind_eq_ok] at h
    obtain ⟨m₀, hm₀, hfold⟩ := h
    obtain ⟨haccepts, hafter, hothers⟩ := fold_eq_ok hfold
    by_cases hnew : r = r'
    · subst hnew
      cases hst : statusOf m₀ r.worker with
      | none =>
        rw [hst] at haccepts
        simp only [Accepts] at haccepts
        rw [haccepts] at hq
        cases hq
      | some st =>
        rw [hst] at hafter
        refine ⟨_, hafter, ?_⟩
        rw [after, phaseAfter_of_moves hq]
    · have hold : r ∈ records := by simpa [hnew] using hr
      obtain ⟨st, hst, hle⟩ := ih hm₀ hold
      by_cases hw : r.worker = r'.worker
      · rw [← hw, hst] at haccepts hafter
        exact ⟨_, hafter, hle.trans (code_le_after haccepts)⟩
      · refine ⟨st, ?_, hle⟩
        rw [statusOf, hothers _ hw]
        exact hst

theorem entriesOf_destroying (h : entriesOf records = .ok m) {g : LeaseGeneration}
    (hst : statusOf m w = some ⟨.destroying, g⟩) : ∃ r ∈ records, r.worker = w ∧ r.kind = .destroying := by
  induction records using List.reverseRecOn generalizing m g with
  | nil =>
    cases h
    simp [statusOf] at hst
  | append_singleton records r ih =>
    rw [entriesOf_append, bind_eq_ok] at h
    obtain ⟨m₀, hm₀, hfold⟩ := h
    obtain ⟨haccepts, hafter, hothers⟩ := fold_eq_ok hfold
    have hlast : ∀ {g}, statusOf m₀ w = some ⟨.destroying, g⟩ →
        ∃ r' ∈ records ++ [r], r'.worker = w ∧ r'.kind = .destroying := by
      intro g hst₀
      obtain ⟨r', hr', hrest⟩ := ih hm₀ hst₀
      exact ⟨r', by simp [hr'], hrest⟩
    by_cases hw : w = r.worker
    · subst hw
      rw [hafter] at hst
      have hphase : (after (statusOf m₀ r.worker) r).phase = .destroying := by
        rw [Option.some.inj hst]
      by_cases hkind : r.kind = .destroying
      · exact ⟨r, by simp, rfl, hkind⟩
      · cases hst₀ : statusOf m₀ r.worker with
        | none =>
          rw [hst₀] at hphase
          cases hphase
        | some st =>
          rw [hst₀] at hphase
          refine hlast (g := st.generation) ?_
          rw [hst₀, ← phaseAfter_destroying hphase hkind]
    · rw [statusOf, hothers w hw] at hst
      exact hlast hst

end Soma.Host.Pool
