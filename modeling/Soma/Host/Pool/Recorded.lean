import Soma.Host.Pool.OwnershipStep

/-! # What the ledger knows of the workers

The invariant that ties the durable records to slots, tables and threads. `σ` is the status the
records fold to, worker by worker:

* a thread's handle and the status of its worker go together (`Stage.Recorded`);
* an owned worker is recorded as assigned, running or, after a restart that read an old entry,
  destroying (`Worker.Owns`);
* a sterile slot is recorded as sterile;
* a reconcile pass knows phases that can only have grown since it read them.

`Shared.Sequenced` is what the ledger has to look like when a record is written for the record to be
accepted; only records written after a failed append, after a race between a start and a release, or
from an entry that has changed since a reconcile pass read it can miss it.
-/

namespace Soma.Host.Pool

open Std Soma.Lib

namespace Shared

variable (s : Shared) (w : WorkerId)

/-- The append of the worker's claiming record failed. -/
def ClaimLost : Prop :=
  ∃ r, (r, false) ∈ s.log ∧ r.kind = .claiming ∧ r.worker = w

/-- A record of the kind is stored for the worker. -/
def Wrote (kind : RecordKind) (w : WorkerId) : Prop :=
  ∃ r ∈ s.records, r.worker = w ∧ r.kind = kind

/-- A record that ends the worker's service is stored. -/
def Closed : Prop :=
  ∃ r ∈ s.records, r.worker = w ∧
    (r.kind = .destroying ∨ r.kind = .dead ∨
      (r.kind = .reconciled ∧ ReconcileDisposition.fromCode r.detail ≠ some .retained))

/-- The recorded status of a worker; none when the ledger does not fold. -/
def status : Status :=
  match entriesOf s.records with
  | .ok m => statusOf m w
  | .error _ => none

/-- The ledger a writer has to find for its record to be accepted. -/
def Sequenced (r : Record) : Prop :=
  match r.kind with
  | .destroying => ¬ s.ClaimLost r.worker ∧ ¬ s.Wrote .destroying r.worker
  | .dead => s.Wrote .destroying r.worker
  | .running => ¬ s.Closed r.worker
  | .suspect => ∃ p, p ≠ Phase.dead ∧ s.status r.worker = some ⟨p, r.leaseGeneration⟩
  | .reconciled => ¬ s.Wrote .dead r.worker
  | _ => True

/-- Every slot of the worker is past `Assigned`. -/
def Past : Prop :=
  ∀ (slot : ℕ) (cell : Slot), s.cells[slot]? = some cell → cell.id = w →
    Phase.running.code ≤ cell.word.load.phase.code

end Shared

/-- What is recorded of a worker in service. -/
def Worker.Owns (w : Worker) (st : Status) : Prop :=
  ∃ p, st = some ⟨p, w.generation⟩ ∧
    (p = .assigned ∨ (w.phase = .running ∧ (p = .running ∨ p = .destroying)))

/-- What is recorded of a worker at a stage. -/
def Stage.Recorded (stage : Stage) (w : Worker) (st : Status) (lost : Prop) : Prop :=
  match stage with
  | .opened => st = none
  | .constructing => st = some ⟨.constructing, w.generation⟩
  | .recorded | .published | .evicting => st = some ⟨.sterile, w.generation⟩
  | .won | .taken => ∃ g, st = some ⟨.sterile, g⟩ ∧ g.next = .ok w.generation
  | .unrecorded => lost ∧ ∃ g, st = some ⟨.sterile, g⟩
  | .claimed | .assigned => st = some ⟨.claiming, w.generation⟩
  | .owned | .restored => w.Owns st
  | .closing =>
    (∃ p, p ≠ .dead ∧ p ≠ .constructing ∧ st = some ⟨p, w.generation⟩) ∨
      (lost ∧ ∃ g, st = some ⟨.sterile, g⟩)
  | .destroying _ => (∃ p, p ≠ .dead ∧ st = some ⟨p, w.generation⟩) ∨ ∃ g, st = some ⟨.sterile, g⟩
  | .failed | .closed => True

/-- What a thread assumes is what the ledger says. -/
structure Agrees (σ : WorkerId → Status) (s : Shared) (ℓ : Local) : Prop where
  tenure : ∀ w stage, ℓ.tenure = .holds w stage → stage.Recorded w (σ w.id) (s.ClaimLost w.id)
  pending : ∀ w g, ℓ.pending = some (w, g) →
    (σ w = some ⟨.assigned, g⟩ ∨ s.Closed w) ∧ s.Past w
  snapshot : ∀ es f, ℓ.recon = .gated es f → ∀ e ∈ es,
    ∃ st, σ e.worker = some st ∧ e.phase.code ≤ st.phase.code
  suspect : ∀ es w g code, ℓ.recon = .gated es (.suspect w g code) →
    ∃ p, σ w = some ⟨p, g⟩ ∧ p ≠ .dead ∧
      (code = Phase.running.code → p = .running ∨ p = .destroying)
  restored : ∀ es w g, ℓ.recon = .gated es (.restored w g) →
    ∃ p, σ w = some ⟨p, g⟩ ∧ (p = .running ∨ p = .destroying ∨ (p = .dead ∧ s.Wrote .dead w))

/-- The records, the tables and the threads together. -/
structure Ledgered (σ : WorkerId → Status) (s : Shared) (H : Multiset Local) : Prop where
  agrees : ∀ ℓ ∈ H, Agrees σ s ℓ
  owned : ∀ (id : WorkerId) (o : Owned), s.owned[id]? = some o → o.worker.Owns (σ id)
  sterile : ∀ (slot : ℕ) (cell : Slot), s.cells[slot]? = some cell →
    cell.word.load.phase = .sterile → σ cell.id = some cell.word.load
  pending : (H.filterMap fun ℓ => ℓ.pending.map (·.1)).Nodup

/-- The ledger folds, and everybody agrees with it. -/
def Foldable (s : Shared) (H : Multiset Local) : Prop :=
  ∃ m, entriesOf s.records = .ok m ∧ Ledgered (statusOf m) s H

/-! ### Frames -/

variable {s s' : Shared}

theorem Shared.Past.frame {w : WorkerId} (h : s.Past w) (hcells : s'.cells = s.cells) : s'.Past w := by
  rwa [Past, hcells]

variable {ℓ : Local} {σ : WorkerId → Status}

theorem Agrees.frame (h : Agrees σ s ℓ) (hlog : s'.log = s.log)
    (hpast : ∀ w g, ℓ.pending = some (w, g) → s.Past w → s'.Past w) : Agrees σ s' ℓ where
  tenure w stage ht := by
    rw [Shared.ClaimLost, hlog]
    exact h.tenure w stage ht
  pending w g hp := by
    rw [Shared.Closed, Shared.records_of_log hlog]
    exact ⟨(h.pending w g hp).1, hpast w g hp (h.pending w g hp).2⟩
  snapshot := h.snapshot
  suspect := h.suspect
  restored es w g hc := by
    rw [Shared.Wrote, Shared.records_of_log hlog]
    exact h.restored es w g hc

theorem Agrees.idle (σ : WorkerId → Status) (s : Shared) : Agrees σ s {} := by
  constructor <;> simp

variable {ℓ' : Local}

theorem Agrees.retenure (h : Agrees σ s ℓ)
    (htenure : ∀ w stage, ℓ'.tenure = .holds w stage → stage.Recorded w (σ w.id) (s.ClaimLost w.id))
    (hpending : ℓ'.pending = ℓ.pending) (hrecon : ℓ'.recon = ℓ.recon) : Agrees σ s ℓ' where
  tenure := htenure
  pending := by rw [hpending]; exact h.pending
  snapshot := by rw [hrecon]; exact h.snapshot
  suspect := by rw [hrecon]; exact h.suspect
  restored := by rw [hrecon]; exact h.restored

theorem Agrees.congr (h : Agrees σ s ℓ) (htenure : ℓ'.tenure = ℓ.tenure) (hpending : ℓ'.pending = ℓ.pending)
    (hrecon : ℓ'.recon = ℓ.recon) : Agrees σ s ℓ' :=
  h.retenure (by rw [htenure]; exact h.tenure) hpending hrecon

namespace Ledgered

variable {σ : WorkerId → Status} {s s' : Shared} {ℓ ℓ' : Local} {F : Multiset Local}
  (h : Ledgered σ s (ℓ ::ₘ F))
include h

theorem head : Agrees σ s ℓ :=
  h.agrees ℓ (Multiset.mem_cons_self ℓ F)

theorem tail {m : Local} (hm : m ∈ F) : Agrees σ s m :=
  h.agrees m (Multiset.mem_cons_of_mem hm)

theorem intro (hlog : s'.log = s.log) (hpast : ∀ m ∈ ℓ ::ₘ F, ∀ w g, m.pending = some (w, g) → s.Past w → s'.Past w)
    (hhead : Agrees σ s' ℓ') (hpending : ℓ'.pending = ℓ.pending)
    (howned : ∀ (id : WorkerId) (o : Owned), s'.owned[id]? = some o → o.worker.Owns (σ id))
    (hsterile : ∀ (slot : ℕ) (cell : Slot), s'.cells[slot]? = some cell →
      cell.word.load.phase = .sterile → σ cell.id = some cell.word.load) :
    Ledgered σ s' (ℓ' ::ₘ F) where
  agrees := Multiset.forall_mem_cons.mpr
    ⟨hhead, fun m hm => (h.tail hm).frame hlog (hpast m (Multiset.mem_cons_of_mem hm))⟩
  owned := howned
  sterile := hsterile
  pending := nodup_replace h.pending (.inl (by rw [hpending]))

theorem same (hcells : s'.cells = s.cells) (howned : s'.owned = s.owned) (hlog : s'.log = s.log)
    (hhead : Agrees σ s ℓ') (hpending : ℓ'.pending = ℓ.pending) : Ledgered σ s' (ℓ' ::ₘ F) := by
  refine h.intro hlog (fun m _ w g _ hp => hp.frame hcells)
    (hhead.frame hlog (fun w g _ hp => hp.frame hcells)) hpending ?_ ?_
  · rw [howned]
    exact h.owned
  · rw [hcells]
    exact h.sterile

end Ledgered

end Soma.Host.Pool
