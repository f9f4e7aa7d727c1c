import Soma.Host.Pool.RecordedStep

/-! # Appending keeps the ledger foldable

An append is the one action that changes what the records fold to. A sequenced record is accepted by
the automaton of its worker (`Ledgered.accepts`); what it changes is known to everybody who has an
opinion on that worker:

* the holder of the worker writes most records; nobody else has a live slot of it;
* a pending start writes `Running` over `Assigned`;
* a reconcile pass writes `Suspect` and `Reconciled` for a worker without a slot, or `Reconciled` for
  one it retains, which changes nothing.
-/

namespace Soma.Host.Pool

open Std Soma.Lib Stage Local Shared Tenure Status Phase

variable {g : LeaseGeneration} {r : Record}

variable {stage : Stage} {w : Worker} {m : Entries} {s : Shared}

theorem Stage.Recorded.accepts (h : stage.Recorded w (statusOf m w.id) (s.ClaimLost w.id))
    (hm : entriesOf s.records = .ok m) (hwrite : (stage.write r.kind true).isSome = true) (hw : r.worker = w.id)
    (hg : r.leaseGeneration = w.generation) (hseq : s.Sequenced r) : Accepts (statusOf m r.worker) r := by
  rw [hw]
  cases stage <;> cases hk : r.kind <;> simp [write, hk] at hwrite
  case opened.constructing =>
    rw [show statusOf m w.id = none from h]
    exact hk
  case constructing.sterile | constructing.constructFailed =>
    rw [show statusOf m w.id = _ from h]
    refine accepts_of_moves (by simp [hk]) (by simp) hg ?_
    simp [hk, movesTo, mayTransitionTo]
  case taken.claiming =>
    obtain ⟨g, hst, hnext⟩ := h
    rw [hst]
    refine ⟨by simp [hk], by simp, ?_, ?_⟩
    · simp [generationFollows, hk, hnext, hg, Except.toOption]
    · simp [hk, movesTo, mayTransitionTo]
  case claimed.assigning | claimed.transferStep | claimed.transferFault | assigned.assigned =>
    rw [show statusOf m w.id = _ from h]
    refine accepts_of_moves (by simp [hk]) (by simp) hg ?_
    simp [hk, movesTo, mayTransitionTo]
  case closing.destroying =>
    simp only [Sequenced, hk, hw] at hseq
    rcases h with ⟨p, hdead, hconstructing, hst⟩ | ⟨hlost, -⟩
    · rw [hst]
      refine accepts_of_moves (by simp [hk]) hdead hg ?_
      have hdestroying : p ≠ .destroying := by
        rintro rfl
        exact hseq.2 (entriesOf_destroying hm hst)
      cases p <;> simp_all [movesTo, mayTransitionTo]
    · exact absurd hlost hseq.1
  case destroying.dead =>
    simp only [Sequenced, hk, hw] at hseq
    obtain ⟨r', hr', hw', hk'⟩ := hseq
    obtain ⟨st, hst, hle⟩ := entriesOf_recorded hm hr' (q := .destroying) (by rw [hk']; rfl)
    rw [hw'] at hst
    rcases h with ⟨p, hdead, hst'⟩ | ⟨g, hst'⟩
    · rw [hst'] at hst ⊢
      cases hst
      refine accepts_of_moves (by simp [hk]) hdead hg ?_
      cases p <;> simp_all [movesTo, mayTransitionTo, code]
    · rw [hst'] at hst
      cases hst
      simp [code] at hle

/-- **Acceptance.**  A record whose writer is entitled to it, and that is sequenced, is accepted. -/
theorem Ledgered.accepts {ℓ : Local} {F : Multiset Local} (h : Ledgered (statusOf m) s (ℓ ::ₘ F))
    (hm : entriesOf s.records = .ok m) (hobeys : ℓ.Obeys (.append r)) (hseq : s.Sequenced r) :
    Accepts (statusOf m r.worker) r := by
  by_cases hown : ownRecord r.kind = true
  · obtain ⟨w, stage, ht, hwrite, hw, hg⟩ := hobeys.tenure hown
    exact (h.head.tenure w stage ht).accepts hm hwrite hw hg hseq
  have hkind : r.kind = .running ∨ r.kind = .suspect ∨ r.kind = .reconciled := by
    cases hk : r.kind <;> simp_all [ownRecord]
  rcases hkind with hk | hk | hk
  · simp only [Sequenced, hk] at hseq
    rcases (h.head.pending _ _ (hobeys.pending hk)).1 with hst | hclosed
    · rw [hst]
      refine accepts_of_moves (by simp [hk]) (by simp) rfl ?_
      simp [hk, movesTo, mayTransitionTo]
    · exact absurd hclosed hseq
  · simp only [Sequenced, hk, status, hm] at hseq
    obtain ⟨p, hdead, hst⟩ := hseq
    rw [hst]
    refine accepts_of_moves (by simp [hk]) hdead rfl ?_
    simp [hk, movesTo]
  · simp only [Sequenced, hk] at hseq
    have hst : ∃ p, p ≠ .dead ∧ statusOf m r.worker = some ⟨p, r.leaseGeneration⟩ := by
      obtain ⟨snapshot, ⟨code, hc⟩ | ⟨hc, -⟩⟩ := hobeys.recon.2 hk
      · obtain ⟨p, hst, hdead, -⟩ := h.head.suspect _ _ _ _ hc
        exact ⟨p, hdead, hst⟩
      · obtain ⟨p, hst, rfl | rfl | ⟨-, hwrote⟩⟩ := h.head.restored _ _ _ hc
        · exact ⟨_, by decide, hst⟩
        · exact ⟨_, by decide, hst⟩
        · exact absurd hwrote hseq
    obtain ⟨p, hdead, hst⟩ := hst
    rw [hst]
    refine accepts_of_moves (by simp [hk]) hdead rfl ?_
    simp [hk, movesTo]

/-! ### What an append leaves behind -/

section log

variable {s : Shared} {r : Record} {stored : Bool} {w : WorkerId}

theorem records_subset_appended : ∀ r' ∈ s.records, r' ∈ (Own.appended s r stored).records := by
  intro r' hr'
  rw [Own.records_appended]
  split_ifs
  · exact List.mem_append_left _ hr'
  · exact hr'

theorem Shared.ClaimLost.appended (h : s.ClaimLost w) : (Own.appended s r stored).ClaimLost w := by
  obtain ⟨r', hr', hrest⟩ := h
  exact ⟨r', List.mem_append_left _ hr', hrest⟩

theorem Shared.Wrote.appended {kind : RecordKind} (h : s.Wrote kind w) :
    (Own.appended s r stored).Wrote kind w := by
  obtain ⟨r', hr', hrest⟩ := h
  exact ⟨r', records_subset_appended r' hr', hrest⟩

theorem Shared.Closed.appended (h : s.Closed w) : (Own.appended s r stored).Closed w := by
  obtain ⟨r', hr', hrest⟩ := h
  exact ⟨r', records_subset_appended r' hr', hrest⟩

theorem claimLost_appended (hkind : r.kind = .claiming) : (Own.appended s r false).ClaimLost r.worker :=
  ⟨r.stored, by simp [Own.appended], hkind, rfl⟩

theorem mem_records_appended : r.stored ∈ (Own.appended s r true).records := by
  simp [Own.records_appended]

end log

variable {st : Status} {lost lost' : Prop}

theorem Stage.Recorded.mono (h : stage.Recorded w st lost) (himp : lost → lost') : stage.Recorded w st lost' := by
  cases stage
  case unrecorded => exact ⟨himp h.1, h.2⟩
  case closing => exact h.imp_right fun hlost => ⟨himp hlost.1, hlost.2⟩
  all_goals exact h

theorem Stage.Recorded.stored {stage after : Stage} {lost : Prop} (h : stage.Recorded w st lost)
    (hwrite : stage.write r.kind true = some after) (hg : r.leaseGeneration = w.generation) :
    after.Recorded w (some (Status.after st r)) lost := by
  cases stage <;> cases hk : r.kind <;> simp [write, hk] at hwrite <;> subst hwrite
  case opened.constructing =>
    rw [show st = none from h]
    simp [Recorded, after, hg]
  case constructing.sterile | claimed.assigning | claimed.transferStep | claimed.transferFault =>
    rw [show st = _ from h]
    simp [Recorded, after, phaseAfter, hk, movesTo, hg]
  case constructing.constructFailed => trivial
  case taken.claiming =>
    obtain ⟨g, hst, -⟩ := h
    rw [hst]
    simp [Recorded, Status.after, phaseAfter, hk, movesTo, hg]
  case assigned.assigned =>
    rw [show st = _ from h]
    simp [Recorded, Worker.Owns, Status.after, phaseAfter, hk, movesTo, hg]
  case closing.destroying =>
    have hsome : ∃ st', st = some st' := by
      rcases h with ⟨p, -, -, hst⟩ | ⟨-, g, hst⟩
      · exact ⟨_, hst⟩
      · exact ⟨_, hst⟩
    obtain ⟨st', rfl⟩ := hsome
    refine .inl ⟨.destroying, by decide, ?_⟩
    simp [Status.after, phaseAfter, hk, movesTo, hg]
  case destroying.dead => trivial

theorem Stage.Recorded.unstored {stage after : Stage} (h : stage.Recorded w st lost)
    (hwrite : stage.write r.kind false = some after) (hlost : r.kind = .claiming → lost') :
    after.Recorded w st lost' := by
  cases stage <;> cases hk : r.kind <;> simp [write, hk] at hwrite <;> subst hwrite
  case constructing.constructFailed => trivial
  case taken.claiming =>
    obtain ⟨g, hst, -⟩ := h
    exact ⟨hlost hk, g, hst⟩
  case closing.destroying =>
    rcases h with ⟨p, hdead, -, hst⟩ | ⟨-, hsterile⟩
    · exact .inl ⟨p, hdead, hst⟩
    · exact .inr hsterile
  case destroying.dead => trivial
  all_goals exact h

theorem Worker.Owns.running (h : w.Owns (some ⟨.assigned, g⟩)) (hphase : w.phase = .running) :
    w.Owns (some ⟨.running, g⟩) := by
  obtain ⟨p, hst, -⟩ := h
  cases hst
  exact ⟨_, rfl, .inr ⟨hphase, .inl rfl⟩⟩

theorem Stage.Recorded.running {lost : Prop} (h : stage.Recorded w (some ⟨.assigned, g⟩) lost)
    (hfits : stage.fits w.phase = true) (hpast : running.code ≤ w.phase.code) :
    stage.Recorded w (some ⟨.running, g⟩) lost := by
  cases stage
  case owned =>
    refine Worker.Owns.running h ?_
    rcases (by simpa [fits] using hfits : w.phase = .assigned ∨ w.phase = .running) with hp | hp
    · rw [hp] at hpast
      simp [code] at hpast
    · exact hp
  case restored => exact Worker.Owns.running h (by simpa [fits] using hfits)
  case closing =>
    rcases h with ⟨p, -, -, hst⟩ | ⟨-, g', hst⟩
    · cases hst
      exact .inl ⟨_, by decide, by decide, rfl⟩
    · cases hst
  case destroying stored =>
    rcases h with ⟨p, -, hst⟩ | ⟨g', hst⟩
    · cases hst
      exact .inl ⟨_, by decide, rfl⟩
    · cases hst
  case failed | closed => trivial
  case won | taken =>
    obtain ⟨g', hst, -⟩ := h
    cases hst
  case unrecorded =>
    obtain ⟨-, g', hst⟩ := h
    cases hst
  all_goals cases h

/-! ### The threads -/

section threads

variable {σ σ' : WorkerId → Status} {s : Shared} {ℓ : Local} {r : Record}

theorem Agrees.log (h : Agrees σ s ℓ) (stored : Bool) : Agrees σ (Own.appended s r stored) ℓ where
  tenure w stage ht := (h.tenure w stage ht).mono .appended
  pending w g hp := ⟨(h.pending w g hp).1.imp_right .appended, (h.pending w g hp).2⟩
  snapshot := h.snapshot
  suspect := h.suspect
  restored es w g hc := by
    obtain ⟨p, hst, hp⟩ := h.restored es w g hc
    exact ⟨p, hst, hp.imp_right (Or.imp_right (And.imp_right .appended))⟩

/-- What a stored record does to the statuses. -/
structure Writes (σ σ' : WorkerId → Status) (r : Record) : Prop where
  accepts : Accepts (σ r.worker) r
  self : σ' r.worker = some (after (σ r.worker) r)
  other : ∀ w, w ≠ r.worker → σ' w = σ w

theorem Writes.grown (h : Writes σ σ' r) {w : WorkerId} {n : ℕ} (hst : ∃ st, σ w = some st ∧ n ≤ st.phase.code) :
    ∃ st, σ' w = some st ∧ n ≤ st.phase.code := by
  obtain ⟨st, hst, hle⟩ := hst
  by_cases hw : w = r.worker
  · subst hw
    have haccepts := h.accepts
    rw [hst] at haccepts
    refine ⟨_, h.self, ?_⟩
    rw [hst]
    exact hle.trans (code_le_after haccepts)
  · exact ⟨st, by rw [h.other w hw, hst], hle⟩

theorem Writes.generation (h : Writes σ σ' r) {st : Packed} (hst : σ r.worker = some st)
    (hkind : r.kind ≠ .claiming) : r.leaseGeneration = st.generation := by
  have haccepts := h.accepts
  rw [hst] at haccepts
  have hgen := haccepts.2.2.1
  simpa [generationFollows, hkind, eq_comm] using hgen

theorem Agrees.holder_wrote (h : Agrees σ s ℓ) (hwrites : Writes σ σ' r) (hfits : ℓ.recon.Fits s) {w : Worker}
    {stage : Stage} {lost : Prop} (hw : r.worker = w.id) (hlive : s.LiveAt w.slot w.id)
    (hrecorded : stage.Recorded w (σ w.id) lost) (hwrite : (stage.write r.kind true).isSome = true)
    (hapart : ∀ w' stage', ℓ.tenure = .holds w' stage' → w'.id ≠ w.id) : Agrees σ' (Own.appended s r true) ℓ := by
  -- Once assigned, only the records of a teardown are left to its holder.
  have hcloses : ∀ p g, σ r.worker = some ⟨p, g⟩ → assigned.code ≤ p.code →
      r.kind = .destroying ∨ r.kind = .dead := by
    intro p g hst hle
    rw [← hw, hst] at hrecorded
    cases stage <;> cases hk : r.kind <;> simp [write, hk] at hwrite <;>
      simp_all [Recorded, code]
  have hlog := h.log (r := r) true
  constructor
  · intro w' stage' ht
    rw [hwrites.other _ (hw ▸ hapart w' stage' ht)]
    exact hlog.tenure w' stage' ht
  · intro w' g hp
    refine ⟨?_, (h.pending w' g hp).2⟩
    rcases (hlog.pending w' g hp).1 with hst | hclosed
    · by_cases heq : w' = r.worker
      · subst heq
        right
        refine ⟨r.stored, mem_records_appended, rfl, ?_⟩
        rcases hcloses _ _ hst (Nat.le_refl _) with hk | hk
        · exact .inl hk
        · exact .inr (.inl hk)
      · left
        rw [hwrites.other w' heq, hst]
    · exact .inr hclosed
  · exact fun es f hc e he => hwrites.grown (h.snapshot es f hc e he)
  · intro es w' g code hc
    obtain ⟨p, hst, hrest⟩ := h.suspect es w' g code hc
    refine ⟨p, ?_, hrest⟩
    rw [hwrites.other w' ?_, hst]
    rintro rfl
    rw [hw] at hc
    exact hfits.gone _ _ _ hc rfl w.slot hlive
  · intro es w' g hc
    obtain ⟨p, hst, hp⟩ := hlog.restored es w' g hc
    by_cases heq : w' = r.worker
    · subst heq
      have hle : assigned.code ≤ p.code := by
        rcases hp with rfl | rfl | ⟨rfl, -⟩ <;> decide
      have hkind := hcloses p g hst hle
      have hg : r.leaseGeneration = g :=
        hwrites.generation hst (by rcases hkind with hk | hk <;> simp [hk])
      rcases hkind with hk | hk
      · refine ⟨.destroying, ?_, .inr (.inl rfl)⟩
        rw [hwrites.self, hst]
        simp [after, phaseAfter, hk, movesTo, hg]
      · refine ⟨.dead, ?_, .inr (.inr ⟨rfl, r.stored, mem_records_appended, rfl, hk⟩)⟩
        rw [hwrites.self, hst]
        simp [after, phaseAfter, hk, movesTo, hg]
    · exact ⟨p, by rw [hwrites.other w' heq, hst], hp⟩

theorem Agrees.start_wrote (h : Agrees σ s ℓ) (hwrites : Writes σ σ' r) (hkind : r.kind = .running)
    (hst : σ r.worker = some ⟨.assigned, r.leaseGeneration⟩) (hpast : s.Past r.worker) (hfits : ℓ.tenure.Fits s)
    (hpending : ∀ g, ℓ.pending ≠ some (r.worker, g)) : Agrees σ' (Own.appended s r true) ℓ := by
  have hself : σ' r.worker = some ⟨.running, r.leaseGeneration⟩ := by
    rw [hwrites.self, hst]
    simp [after, phaseAfter, hkind, movesTo]
  have hlog := h.log (r := r) true
  constructor
  · intro w stage ht
    have hrecorded := hlog.tenure w stage ht
    by_cases heq : w.id = r.worker
    · obtain ⟨⟨cell, hcell, hid, hword⟩, hfits⟩ := hfits.holds w stage ht
      have hle := hpast _ cell hcell (by rw [hid, heq])
      rw [hword, StateWord.load_new] at hle
      rw [heq, hst] at hrecorded
      rw [heq, hself]
      exact hrecorded.running hfits hle
    · rw [hwrites.other _ heq]
      exact hrecorded
  · intro w g hp
    have hne : w ≠ r.worker := by
      rintro rfl
      exact hpending g hp
    rw [hwrites.other w hne]
    exact hlog.pending w g hp
  · exact fun es f hc e he => hwrites.grown (h.snapshot es f hc e he)
  · intro es w g code hc
    obtain ⟨p, hst', hdead, hcode⟩ := h.suspect es w g code hc
    by_cases heq : w = r.worker
    · subst heq
      rw [hst] at hst'
      cases hst'
      exact ⟨_, hself, by decide, fun _ => .inl rfl⟩
    · exact ⟨p, by rw [hwrites.other w heq, hst'], hdead, hcode⟩
  · intro es w g hc
    obtain ⟨p, hst', hp⟩ := hlog.restored es w g hc
    by_cases heq : w = r.worker
    · subst heq
      rw [hst] at hst'
      cases hst'
      simp at hp
    · exact ⟨p, by rw [hwrites.other w heq, hst'], hp⟩

theorem Agrees.pass_wrote (h : Agrees σ s ℓ) (hwrites : Writes σ σ' r) (hkind : r.kind = .reconciled)
    (hdetail : ReconcileDisposition.fromCode r.detail ≠ some .retained) (hgone : s.Gone r.worker)
    (hfits : ℓ.tenure.Fits s) (hrecon : ∀ es f, ℓ.recon = .gated es f → f = .none) :
    Agrees σ' (Own.appended s r true) ℓ := by
  have hlog := h.log (r := r) true
  constructor
  · intro w stage ht
    have hne : w.id ≠ r.worker := by
      intro heq
      obtain ⟨hholds, hfits⟩ := hfits.holds w stage ht
      exact hgone w.slot (heq ▸ hholds.live (fits_ne hfits).2)
    rw [hwrites.other _ hne]
    exact hlog.tenure w stage ht
  · intro w g hp
    refine ⟨?_, (h.pending w g hp).2⟩
    by_cases heq : w = r.worker
    · subst heq
      exact .inr ⟨r.stored, mem_records_appended, rfl, .inr (.inr ⟨hkind, hdetail⟩)⟩
    · rw [hwrites.other w heq]
      exact (hlog.pending w g hp).1
  · exact fun es f hc e he => hwrites.grown (h.snapshot es f hc e he)
  · intro es w g code hc
    cases hrecon _ _ hc
  · intro es w g hc
    cases hrecon _ _ hc

end threads

/-! ### The append -/

theorem Writes.unchanged {σ σ' : WorkerId → Status} (h : Writes σ σ' r)
    (hkind : r.kind = .suspect ∨
      (r.kind = .reconciled ∧ ReconcileDisposition.fromCode r.detail = some .retained)) : σ' = σ := by
  funext w
  by_cases hw : w = r.worker
  · subst hw
    cases hst : σ r.worker with
    | none =>
      have haccepts := h.accepts
      rw [hst] at haccepts
      simp only [Accepts] at haccepts
      rcases hkind with hk | ⟨hk, -⟩ <;> rw [hk] at haccepts <;> cases haccepts
    | some st =>
      have hg := h.generation hst (by rcases hkind with hk | ⟨hk, -⟩ <;> simp [hk])
      rw [h.self, hst, after, hg]
      rcases hkind with hk | ⟨hk, hd⟩
      · simp [phaseAfter, hk, movesTo]
      · simp [phaseAfter, hk, hd]
  · exact h.other w hw

variable {answer : Except LedgerError Unit}

namespace Ledgered

variable {σ σ' : WorkerId → Status} {s : Shared} {ℓ ℓ' : Local} {F : Multiset Local} {r : Record}

theorem tenure_of_append (hown : ownRecord r.kind = false)
    (hnext : ℓ.next (.append r) answer = some ℓ') : ℓ'.tenure = ℓ.tenure ∨ ℓ'.tenure = .idle := by
  rw [← Option.some.inj (next_tenure hnext)]
  simp only [Tenure.appended]
  split
  · rename_i w stage ht
    split_ifs
    · exact .inr rfl
    · left
      cases stage <;> cases hk : r.kind <;> simp_all [write, ownRecord]
  · exact .inl rfl

theorem agrees_of_append (h : Agrees σ s ℓ) (htenure : ℓ'.tenure = ℓ.tenure ∨ ℓ'.tenure = .idle)
    (hpending : ℓ'.pending = ℓ.pending) {es : List Entry} {f f' : Focus} (hc : ℓ.recon = .gated es f)
    (hrecon : ℓ'.recon = .gated es f')
    (hsuspect : ∀ w g code, f' = .suspect w g code →
      ∃ p, σ w = some ⟨p, g⟩ ∧ p ≠ .dead ∧
        (code = running.code → p = .running ∨ p = .destroying))
    (hrestored : ∀ w g, f' ≠ .restored w g) : Agrees σ s ℓ' where
  tenure := by
    rcases htenure with ht | ht
    · rw [ht]
      exact h.tenure
    · simp [ht]
  pending := by
    rw [hpending]
    exact h.pending
  snapshot := by
    rw [hrecon]
    rintro _ _ ⟨⟩
    exact h.snapshot es f hc
  suspect := by
    rw [hrecon]
    rintro _ w g code ⟨⟩
    exact hsuspect w g code rfl
  restored := by
    rw [hrecon]
    rintro _ w g ⟨⟩
    exact absurd rfl (hrestored w g)

section

variable (h : Ledgered σ s (ℓ ::ₘ F))
include h

theorem appended {stored : Bool} (hhead : Agrees σ' (Own.appended s r stored) ℓ')
    (htail : ∀ m ∈ F, Agrees σ' (Own.appended s r stored) m) (hpending : ℓ'.pending = ℓ.pending ∨ ℓ'.pending = none)
    (howned : ∀ (id : WorkerId) (o : Owned), s.owned[id]? = some o → o.worker.Owns (σ' id))
    (hsterile : ∀ (slot : ℕ) (cell : Slot), s.cells[slot]? = some cell →
      cell.word.load.phase = .sterile → σ' cell.id = some cell.word.load) :
    Ledgered σ' (Own.appended s r stored) (ℓ' ::ₘ F) where
  agrees := Multiset.forall_mem_cons.mpr ⟨hhead, htail⟩
  owned := howned
  sterile := hsterile
  pending := by
    refine nodup_replace h.pending ?_
    rcases hpending with hp | hp <;> simp [hp]

variable (hobeys : ℓ.Obeys (.append r)) (hwrites : Writes σ σ' r)
  (hnext : ℓ.next (.append r) (.ok ()) = some ℓ')
include hobeys hwrites hnext

theorem holder_step (ho : Own s (ℓ ::ₘ F)) (hown : ownRecord r.kind = true) :
    Ledgered σ' (Own.appended s r true) (ℓ' ::ₘ F) := by
  obtain ⟨w, stage, ht, hwrite, hw, hg⟩ := hobeys.tenure hown
  obtain ⟨hholds, hfits⟩ := ho.head.tenure.holds w stage ht
  have hlive : s.LiveAt w.slot w.id := hholds.live (fits_ne hfits).2
  have hrecorded := h.head.tenure w stage ht
  obtain ⟨after, hafter⟩ := Option.isSome_iff_exists.mp hwrite
  have hkind : r.kind ≠ .running ∧ r.kind ≠ .suspect ∧ r.kind ≠ .reconciled := by
    cases hk : r.kind <;> simp_all [Tenure.ownRecord]
  have htenure : ℓ'.tenure = .holds w after := by
    have := next_tenure hnext
    simp only [Tenure.next, Tenure.appended, ht, hkind.2.2, false_and, if_false] at this
    rw [← Option.some.inj this]
    simp [Except.isOk, Except.toBool, hafter]
  have hpending : ℓ'.pending = ℓ.pending := by
    rw [next_pending hnext]
    simp [pendingNext, hkind.1]
  have hrecon : ℓ'.recon = ℓ.recon := by
    rw [next_recon hnext]
    simp only [Recon.next, Recon.appended]
    split
    · split <;> simp_all
    · simp_all
  have hothers : ∀ a id, s.LiveAt a id → a ≠ w.slot → id ≠ r.worker := by
    intro a id ha hne
    rw [hw]
    exact ho.id_ne ht ha hne
  refine h.appended ?_ ?_ (.inl hpending) ?_ ?_
  · have hidle : Agrees σ s { ℓ with tenure := .idle } := h.head.retenure (by simp) rfl rfl
    have hrest := hidle.holder_wrote hwrites ho.head.recon hw hlive hrecorded hwrite (by simp)
    refine hrest.retenure ?_ hpending hrecon
    intro w' stage' ht'
    rw [htenure] at ht'
    cases ht'
    rw [← hw, hwrites.self, hw]
    exact (hrecorded.stored hafter hg).mono .appended
  · intro m hm
    refine (h.tail hm).holder_wrote hwrites (ho.tail hm).recon hw hlive hrecorded hwrite ?_
    intro w' stage' ht'
    obtain ⟨hholds', hfits'⟩ := (ho.tail hm).tenure.holds w' stage' ht'
    exact ho.id_ne ht (hholds'.live (fits_ne hfits').2) (ho.slot_ne ht hm ht')
  · intro id o hget
    obtain ⟨hholds', hid, hphase⟩ := ho.sound.owned id o hget
    rw [hwrites.other]
    · exact h.owned id o hget
    · rw [← hid]
      refine hothers _ _ (hholds'.live ?_) (ho.head.tenure.apart w stage ht id o hget)
      rcases hphase with hp | hp <;> simp [hp]
  · intro slot cell hcell hphase
    rw [hwrites.other]
    · exact h.sterile slot cell hcell hphase
    · refine hothers slot _ ⟨cell, hcell, rfl, by simp [hphase]⟩ ?_
      rintro rfl
      exact (ho.sterile_free hcell hphase).1 ℓ (Multiset.mem_cons_self ..) (by rw [ht]; rfl)

theorem start_step (ho : Own s (ℓ ::ₘ F)) (hkind : r.kind = .running) (hopen : ¬ s.Closed r.worker) :
    Ledgered σ' (Own.appended s r true) (ℓ' ::ₘ F) := by
  have hpending := hobeys.pending hkind
  obtain ⟨hst | hclosed, hpast⟩ := h.head.pending _ _ hpending
  swap
  · exact absurd hclosed hopen
  have hself : σ' r.worker = some ⟨.running, r.leaseGeneration⟩ := by
    rw [hwrites.self, hst]
    simp [after, phaseAfter, hkind, movesTo]
  have hnone : ℓ'.pending = none := by
    rw [next_pending hnext]
    simp [pendingNext, hkind]
  refine h.appended ?_ ?_ (.inr hnone) ?_ ?_
  · have hcleared : Agrees σ s { ℓ with pending := none } :=
      ⟨h.head.tenure, by simp, h.head.snapshot, h.head.suspect, h.head.restored⟩
    have hrest := hcleared.start_wrote hwrites hkind hst hpast ho.head.tenure (by simp)
    refine hrest.congr ?_ hnone ?_
    · have := next_tenure hnext
      rw [← Option.some.inj this]
      simp only [Tenure.appended, hkind]
      split
      · rename_i w stage ht
        cases stage <;> simp [write, ht]
      · rfl
    · rw [next_recon hnext]
      simp only [Recon.next, Recon.appended, hkind]
      split <;> simp_all
  · intro m hm
    refine (h.tail hm).start_wrote hwrites hkind hst hpast (ho.tail hm).tenure ?_
    intro g hp
    exact nodup_head h.pending (x := r.worker) (by simp [hpending]) m hm (by simp [hp])
  · intro id o hget
    by_cases heq : id = r.worker
    · subst heq
      obtain ⟨⟨cell, hcell, hid, hword⟩, hid', hphase⟩ := ho.sound.owned _ o hget
      have hle := hpast _ cell hcell (by rw [hid, hid'])
      rw [hword, StateWord.load_new] at hle
      have howns := h.owned _ o hget
      rw [hst] at howns
      rw [hself]
      refine howns.running ?_
      rcases hphase with hp | hp
      · rw [hp] at hle
        simp [code] at hle
      · exact hp
    · rw [hwrites.other id heq]
      exact h.owned id o hget
  · intro slot cell hcell hphase
    rw [hwrites.other]
    · exact h.sterile slot cell hcell hphase
    · intro heq
      have := h.sterile slot cell hcell hphase
      rw [heq, hst] at this
      rw [← Option.some.inj this] at hphase
      cases hphase

theorem suspect_step (hkind : r.kind = .suspect) : Ledgered σ' (Own.appended s r true) (ℓ' ::ₘ F) := by
  obtain rfl : σ' = σ := hwrites.unchanged (.inl hkind)
  obtain ⟨snapshot, hc, e, he, hew, -, hcode, -⟩ := hobeys.recon.1 hkind
  have hpending : ℓ'.pending = ℓ.pending := by
    rw [next_pending hnext]
    simp [pendingNext, hkind]
  have hrecon : ℓ'.recon = .gated snapshot (.suspect r.worker r.leaseGeneration r.detail) := by
    rw [next_recon hnext, hc]
    simp [Recon.next, Recon.appended, hkind, Except.isOk, Except.toBool]
  refine h.appended ?_ (fun m hm => (h.tail hm).log true) (.inl hpending) h.owned h.sterile
  refine (agrees_of_append h.head ?_ hpending hc hrecon ?_ (by rintro _ _ ⟨⟩)).log true
  · exact tenure_of_append (by simp [hkind, ownRecord]) hnext
  rintro _ _ _ ⟨⟩
  -- What the pass read has only grown since.
  obtain ⟨st, hst, hle⟩ := h.head.snapshot _ _ hc e he
  rw [hew] at hst
  have haccepts := hwrites.accepts
  rw [hst] at haccepts
  refine ⟨st.phase, ?_, haccepts.2.1, ?_⟩
  · rw [hst, hwrites.generation hst (by simp [hkind])]
  · intro hrunning
    rw [hcode, hrunning] at hle
    have hdead := haccepts.2.1
    cases hp : st.phase <;> simp_all [code]

theorem reconciled_step (ho : Own s (ℓ ::ₘ F)) (hkind : r.kind = .reconciled) :
    Ledgered σ' (Own.appended s r true) (ℓ' ::ₘ F) := by
  obtain ⟨snapshot, focus, hc⟩ : ∃ snapshot focus, ℓ.recon = .gated snapshot focus := by
    obtain ⟨snapshot, ⟨code, hc⟩ | ⟨hc, -⟩⟩ := hobeys.recon.2 hkind
    · exact ⟨_, _, hc⟩
    · exact ⟨_, _, hc⟩
  have hpending : ℓ'.pending = ℓ.pending := by
    rw [next_pending hnext]
    simp [pendingNext, hkind]
  have hrecon : ℓ'.recon = .gated snapshot .none := by
    rw [next_recon hnext, hc]
    simp [Recon.next, Recon.appended, hkind]
  have htenure := tenure_of_append (r := r) (by simp [hkind, ownRecord]) hnext
  have hhead : Agrees σ s ℓ' := agrees_of_append h.head htenure hpending hc hrecon
    (by rintro _ _ _ ⟨⟩) (by rintro _ _ ⟨⟩)
  by_cases hdetail : ReconcileDisposition.fromCode r.detail = some .retained
  · obtain rfl : σ' = σ := hwrites.unchanged (.inr ⟨hkind, hdetail⟩)
    exact h.appended (hhead.log true) (fun m hm => (h.tail hm).log true) (.inl hpending) h.owned
      h.sterile
  · have hgone : s.Gone r.worker := by
      obtain ⟨snapshot', ⟨code, hc'⟩ | ⟨-, hretained⟩⟩ := hobeys.recon.2 hkind
      · exact ho.head.recon.gone _ _ _ hc' rfl
      · rw [hretained, ReconcileDisposition.fromCode_code] at hdetail
        exact absurd rfl hdetail
    have hfits : ℓ'.tenure.Fits s := by
      rcases htenure with ht | ht
      · rw [ht]
        exact ho.head.tenure
      · rw [ht]
        exact .idle s
    refine h.appended (hhead.pass_wrote hwrites hkind hdetail hgone hfits ?_) ?_ (.inl hpending) ?_ ?_
    · intro es f hes
      rw [hrecon] at hes
      cases hes
      rfl
    · intro m hm
      refine (h.tail hm).pass_wrote hwrites hkind hdetail hgone (ho.tail hm).tenure ?_
      intro es f hes
      rw [ho.others_ungated (by simp [hc]) hm] at hes
      cases hes
    · intro id o hget
      obtain ⟨hholds, hid, hphase⟩ := ho.sound.owned id o hget
      have hlive : s.LiveAt o.worker.slot id := by
        rw [← hid]
        exact hholds.live (by rcases hphase with hp | hp <;> simp [hp])
      rw [hwrites.other]
      · exact h.owned id o hget
      · rintro rfl
        exact hgone _ hlive
    · intro slot cell hcell hphase
      rw [hwrites.other]
      · exact h.sterile slot cell hcell hphase
      · intro heq
        exact hgone slot ⟨cell, hcell, heq, by simp [hphase]⟩

theorem stored_step (ho : Own s (ℓ ::ₘ F)) (hseq : s.Sequenced r) :
    Ledgered σ' (Own.appended s r true) (ℓ' ::ₘ F) := by
  by_cases hown : ownRecord r.kind = true
  · exact h.holder_step hobeys hwrites hnext ho hown
  have hkind : r.kind = .running ∨ r.kind = .suspect ∨ r.kind = .reconciled := by
    cases hk : r.kind <;> simp_all [ownRecord]
  rcases hkind with hk | hk | hk
  · simp only [Sequenced, hk] at hseq
    exact h.start_step hobeys hwrites hnext ho hk hseq
  · exact h.suspect_step hobeys hwrites hnext hk
  · exact h.reconciled_step hobeys hwrites hnext ho hk

end

variable {error : LedgerError}

theorem recon_of_unstored (hnext : ℓ.next (.append r) (.error error) = some ℓ') :
    ℓ'.recon = ℓ.recon ∨ ∃ es f, ℓ.recon = .gated es f ∧ ℓ'.recon = .gated es .none := by
  rw [next_recon hnext]
  cases hc : ℓ.recon with
  | idle => exact .inl rfl
  | gated es f =>
    simp only [Recon.next, Recon.appended, Except.isOk, Except.toBool]
    split
    · exact .inr ⟨es, f, rfl, rfl⟩
    · exact .inr ⟨es, f, rfl, rfl⟩
    · exact .inl rfl

theorem unstored_step (h : Ledgered σ s (ℓ ::ₘ F)) (hobeys : ℓ.Obeys (.append r))
    (hnext : ℓ.next (.append r) (.error error) = some ℓ') : Ledgered σ (Own.appended s r false) (ℓ' ::ₘ F) := by
  have hpending : ℓ'.pending = ℓ.pending ∨ ℓ'.pending = none := by
    rw [next_pending hnext]
    simp only [pendingNext]
    split_ifs
    · exact .inr rfl
    · exact .inl rfl
  have hlog := h.head.log (r := r) false
  refine h.appended ⟨?_, ?_, ?_, ?_, ?_⟩ (fun m hm => (h.tail hm).log false) hpending h.owned h.sterile
  · by_cases hown : Tenure.ownRecord r.kind = true
    · obtain ⟨w, stage, ht, hwrite, hw, -⟩ := hobeys.tenure hown
      obtain ⟨after, hafter⟩ : ∃ after, stage.write r.kind false = some after := by
        cases stage <;> cases hk : r.kind <;> simp_all [write]
      have hkind : r.kind ≠ .reconciled := by
        intro hk
        simp [hk, Tenure.ownRecord] at hown
      have htenure : ℓ'.tenure = .holds w after := by
        have := next_tenure hnext
        simp only [Tenure.next, Tenure.appended, ht, hkind, false_and, if_false] at this
        rw [← Option.some.inj this]
        simp [Except.isOk, Except.toBool, hafter]
      intro w' stage' ht'
      rw [htenure] at ht'
      cases ht'
      refine (h.head.tenure w stage ht).unstored hafter ?_
      intro hk
      rw [← hw]
      exact claimLost_appended hk
    · rcases tenure_of_append (by simpa using hown) hnext with ht | ht
      · rw [ht]
        exact hlog.tenure
      · simp [ht]
  · rcases hpending with hp | hp
    · rw [hp]
      exact hlog.pending
    · simp [hp]
  all_goals rcases recon_of_unstored hnext with hc | ⟨es, f, hc, hc'⟩
  · rw [hc]
    exact hlog.snapshot
  · rw [hc']
    rintro _ _ ⟨⟩
    exact h.head.snapshot _ _ hc
  · rw [hc]
    exact hlog.suspect
  · simp [hc']
  · rw [hc]
    exact hlog.restored
  · simp [hc']

end Ledgered

/-! ### Runs -/

namespace Foldable

variable {setup : Setup} {s s' : Shared} {ℓ ℓ' : Local} {F : Multiset Local}

/-- The guard of a run on its appends: what is stored is sequenced. -/
def Guarded : (a : Act) → Choice a → Shared → Prop
  | .append r, none, s => s.Sequenced r
  | _, _, _ => True

theorem append_step (h : Foldable s (ℓ ::ₘ F)) (ho : Own s (ℓ ::ₘ F)) {r : Record} (hobeys : ℓ.Obeys (.append r))
    {failed : Option LedgerError} (hguard : Guarded (.append r) failed s)
    (hexec : s.append r failed = (answer, s')) (hnext : ℓ.next (.append r) answer = some ℓ') :
    Foldable s' (ℓ' ::ₘ F) := by
  obtain ⟨m, hm, h⟩ := h
  cases failed with
  | some error =>
    cases hexec
    refine ⟨m, ?_, h.unstored_step hobeys hnext⟩
    rw [← hm]
    exact congrArg entriesOf (Own.records_appended r false)
  | none =>
    cases hexec
    have haccepts := h.accepts hm hobeys hguard
    obtain ⟨m', hm', hself, hother⟩ := entriesOf_append_of_accepts hm haccepts
    have hwrites : Writes (statusOf m) (statusOf m') r :=
      ⟨haccepts, hself, fun w hw => by rw [statusOf, hother w hw, statusOf]⟩
    refine ⟨m', ?_, h.stored_step hobeys hwrites hnext ho hguard⟩
    rw [← hm']
    exact congrArg entriesOf (Own.records_appended r true)

variable {a : Act}

theorem look_step {σ : WorkerId → Status} (h : Ledgered σ s (ℓ ::ₘ F)) {r : Answer a} (hnext : ℓ.next a r = some ℓ')
    (ha : (∃ slot, a = .openWorker slot) ∨ (∃ slot phase, a = .attach slot phase) ∨
      ∃ slot, a = .observe slot) : Ledgered σ s (ℓ' ::ₘ F) := by
  have hsame : ℓ'.tenure = ℓ.tenure ∧ ℓ'.pending = ℓ.pending ∧ ℓ'.recon = ℓ.recon := by
    have htenure := next_tenure hnext
    rcases ha with ⟨slot, rfl⟩ | ⟨slot, phase, rfl⟩ | ⟨slot, rfl⟩
    all_goals refine ⟨?_, next_pending hnext, next_recon hnext⟩
    · simp only [Tenure.next] at htenure
      split at htenure <;> try split_ifs at htenure
      all_goals exact (Option.some.inj htenure).symm
    · simp only [Tenure.next] at htenure
      split at htenure <;> try split_ifs at htenure
      all_goals exact (Option.some.inj htenure).symm
    · exact (Option.some.inj htenure).symm
  exact h.same rfl rfl rfl (h.head.congr hsame.1 hsame.2.1 hsame.2.2) hsame.2.1

/-- **Step lemma.**  Every action keeps the ledger foldable, when what it stores is sequenced. -/
theorem step (h : Foldable s (ℓ ::ₘ F)) (ho : Own s (ℓ ::ₘ F)) {e : Choice a} {r : Answer a} (hobeys : ℓ.Obeys a)
    (hguard : Guarded a e s) (hexec : exec setup a e s = some (r, s')) (hnext : ℓ.next a r = some ℓ') :
    Foldable s' (ℓ' ::ₘ F) := by
  by_cases happend : a.onLog = true
  · obtain ⟨record, rfl⟩ : ∃ record, a = .append record := by
      cases a <;> cases happend
      exact ⟨_, rfl⟩
    exact h.append_step ho hobeys hguard (Option.some.inj hexec) hnext
  have hlog : s'.log = s.log := (exec_frame hexec).log (by simpa using happend)
  obtain ⟨m, hm, h⟩ := h
  refine ⟨m, by rw [records_of_log hlog, hm], ?_⟩
  have hfresh : ∀ id, (∀ r ∈ s.records, r.worker ≠ id) → statusOf m id = none := by
    intro id hnew
    cases hst : m[id]? with
    | none => simp [statusOf, hst]
    | some e =>
      obtain ⟨-, r, hr, hw⟩ := entriesOf_worker hm hst
      exact absurd hw (hnew r hr)
  cases a with
  | append record => exact absurd rfl happend
  | lockReconcile =>
    simp only [exec] at hexec
    split_ifs at hexec
    cases hexec
    exact h.lock_step hnext
  | unlockReconcile =>
    cases hexec
    exact h.unlock_step hnext
  | freshWorkerId =>
    cases hexec
    refine h.same rfl rfl rfl (h.head.retenure ?_ (next_pending hnext)
      (next_recon hnext)) (next_pending hnext)
    intro w stage ht
    have htenure := next_tenure hnext
    rw [ht] at htenure
    cases htenure
  | addSlot id key phase g => exact h.addSlot_step ho hfresh hobeys (Option.some.inj hexec) hnext
  | openWorker slot =>
    obtain ⟨cell, -, heq⟩ := Option.map_eq_some_iff.mp hexec
    cases heq
    exact look_step h hnext (.inl ⟨slot, rfl⟩)
  | attach slot phase =>
    obtain ⟨cell, -, heq⟩ := Option.map_eq_some_iff.mp hexec
    cases heq
    exact look_step h hnext (.inr (.inl ⟨slot, phase, rfl⟩))
  | advance w target g => exact h.advance_step ho hobeys hexec hnext
  | observe slot =>
    obtain ⟨seen, -, heq⟩ := Option.map_eq_some_iff.mp hexec
    cases heq
    exact look_step h hnext (.inr (.inr ⟨slot, rfl⟩))
  | findSlot id =>
    cases hexec
    exact h.findSlot_step hnext
  | entries =>
    cases hexec
    refine h.entries_step hm ?_ hnext
    intro es hes
    cases e with
    | some error => cases hes
    | none => simpa [entries, hm, Except.map, eq_comm] using hes
  | prepare id payload =>
    cases hexec
    exact h.prepare_step hobeys hnext
  | takePrepared id =>
    cases hexec
    exact h.takePrepared_step hobeys hnext
  | own id o =>
    cases hexec
    exact h.own_step hobeys hnext
  | beginStart id => exact h.beginStart_step (Option.some.inj hexec) hnext
  | endStart id handle started => exact h.endStart_step ho.sound hexec hnext
  | disown id => exact h.disown_step ho.sound (Option.some.inj hexec) hnext
  | _ =>
    obtain ⟨hsame, -⟩ := exec_neutral rfl hexec
    obtain ⟨ℓ'', hnext', htenure, hpending, hrecon, -⟩ := next_neutral (s := s) (ℓ := ℓ) r rfl
    obtain rfl : ℓ'' = ℓ' := Option.some.inj (hnext'.symm.trans hnext)
    exact h.same hsame.cells hsame.owned hsame.log (h.head.congr htenure hpending hrecon) hpending

theorem idle {H : Multiset Local} (h : Foldable s H) : Foldable s ({} ::ₘ H) := by
  obtain ⟨m, hm, h⟩ := h
  refine ⟨m, hm, ⟨?_, h.owned, h.sterile, ?_⟩⟩
  · intro ℓ hℓ
    rcases Multiset.mem_cons.mp hℓ with rfl | hℓ
    · exact .idle _ s
    · exact h.agrees ℓ hℓ
  · rw [Multiset.filterMap_cons_none _ _ rfl]
    exact h.pending

theorem empty {m : Entries} (hm : entriesOf s.records = .ok m) (hcells : s.cells = []) (howned : s.owned = ∅) :
    Foldable s 0 :=
  ⟨m, hm, ⟨by simp, by simp [howned], by simp [hcells], by simp⟩⟩

theorem init (setup : Setup) : Foldable (init setup) 0 :=
  empty (m := ∅) rfl rfl rfl

theorem restart (hopened : s.opened setup = some s') : Foldable s' 0 := by
  obtain ⟨m, hm, rfl⟩ := opened_eq_some hopened
  exact empty (m := m) hm rfl rfl

/-- Runs whose stored records are all sequenced. -/
def sequencedRun (setup : Setup) : Guard Answer Choice Shared :=
  { anyRun setup with act := fun a e s _ => DrawsNew a e s ∧ Guarded a e s }

theorem reach {c : Config Answer Shared}
    (hreach : Reach (machine setup) (sequencedRun setup) (Shared.init setup) c) :
    ∃ H : List Local, List.Forall₂ (Thread.Keeps discipline AtRest) c.threads H ∧
      Own c.shared H ∧ Foldable c.shared H :=
  Own.invariant (G := sequencedRun setup) rfl (fun _ _ _ _ h => h.1) Foldable (init setup) (fun _ _ h => h.idle)
    (fun _ _ _ _ _ _ _ _ _ hown h hobeys hguard hexec hnext => h.step hown hobeys hguard.2 hexec hnext)
    (fun _ _ _ _ hopened => restart hopened) hreach

/-- **The ledger stays foldable.**  In every run of any number of concurrent operations, with any
failures of appends and any restarts, in which no record is stored out of sequence, the ledger folds
in every configuration reached. -/
theorem ledger_folds {c : Config Answer Shared}
    (hreach : Reach (machine setup) (sequencedRun setup) (Shared.init setup) c) :
    ∃ m, entriesOf c.shared.records = .ok m := by
  obtain ⟨H, -, -, m, hm, -⟩ := reach hreach
  exact ⟨m, hm⟩

/-- Whether a record is sequenced, computed. -/
def sequenced (s : Shared) (r : Record) : Bool :=
  match r.kind with
  | .destroying =>
    (s.log.all fun p => p.2 || decide (p.1.kind = .claiming → p.1.worker ≠ r.worker)) &&
      s.records.all fun r' => decide (r'.worker = r.worker → r'.kind ≠ .destroying)
  | .dead => s.records.any fun r' => r'.worker = r.worker ∧ r'.kind = .destroying
  | .running => s.records.all fun r' => decide (r'.worker = r.worker → r'.kind ≠ .destroying ∧ r'.kind ≠ .dead ∧
      (r'.kind = .reconciled → ReconcileDisposition.fromCode r'.detail = some .retained))
  | .suspect => (s.status r.worker).any fun st => st.phase ≠ .dead ∧ st.generation = r.leaseGeneration
  | .reconciled => s.records.all fun r' => decide (r'.worker = r.worker → r'.kind ≠ .dead)
  | _ => true

theorem sequenced_sound {r : Record} (h : sequenced s r) : s.Sequenced r := by
  cases hk : r.kind <;> simp only [sequenced, hk, Bool.and_eq_true, List.all_eq_true, List.any_eq_true] at h <;>
    simp only [Sequenced, hk]
  case destroying =>
    refine ⟨?_, ?_⟩
    · rintro ⟨r', hr', hkind, hworker⟩
      simpa [hkind, hworker] using h.1 _ hr'
    · rintro ⟨r', hr', hworker, hkind⟩
      simpa [hkind, hworker] using h.2 r' hr'
  case dead => simpa [Wrote] using h
  case running =>
    rintro ⟨r', hr', hworker, hkind⟩
    have := of_decide_eq_true (h r' hr') hworker
    grind
  case suspect =>
    obtain ⟨st, hst, hphase⟩ := Option.any_eq_true _ _ |>.mp h
    obtain ⟨hdead, hg⟩ := of_decide_eq_true hphase
    exact ⟨st.phase, hdead, by rw [hst, ← hg]⟩
  case reconciled =>
    rintro ⟨r', hr', hworker, hkind⟩
    exact of_decide_eq_true (h r' hr') hworker hkind

/-- The guard, computed. -/
def guarded : (a : Act) → Choice a → Shared → Bool
  | .append r, none, s => sequenced s r
  | a, e, s => drawsNew a e s

theorem guarded_sound {a : Act} {e : Choice a} (h : guarded a e s) : DrawsNew a e s ∧ Guarded a e s := by
  unfold guarded at h
  split at h
  · exact ⟨trivial, sequenced_sound h⟩
  · next a e s hother =>
    refine ⟨drawsNew_sound h, ?_⟩
    unfold Guarded
    split
    · exact (hother _ rfl HEq.rfl).elim
    · trivial

theorem reach_of_play {moves : List (Move Answer Choice)} (hcalls : OnlyCalls moves) {c : Config Answer Shared}
    (hplay : play ((machine smallPool).checked guarded) ⟨Shared.init smallPool, []⟩ moves = some c) :
    Reach (machine smallPool) (sequencedRun smallPool) (Shared.init smallPool) c :=
  Reach.play (fun _ _ _ _ => guarded_sound) (fun _ => trivial) hcalls .init hplay

/-- A worker lives from its construction to its death and another takes its place. -/
def oneReplaced : List (Move Answer Choice) :=
  oneRunning ++ (calls (.destroy 5) 3 12 (calm 8) ++ calls .construct 4 13 (calm 8))

theorem oneReplaced_calls : OnlyCalls oneReplaced :=
  oneRunning_calls.append (onlyCalls.append onlyCalls)

/-- The second worker is found again after a restart. -/
theorem ledger_folds_over_lives :
    ∃ c, Reach (machine smallPool) (sequencedRun smallPool) (Shared.init smallPool) c ∧
      (c.shared.records.drop 13).map (·.kind) =
        [.running, .destroying, .dead, .constructing, .sterile, .suspect, .reconciled] ∧
      ∃ m, entriesOf c.shared.records = .ok m := by
  let moves := oneReplaced ++ (.restart :: calls .reconcile 0 11 (calm 9))
  have hplay : ((play ((machine smallPool).checked guarded) ⟨Shared.init smallPool, []⟩ moves).map
      fun c => (c.shared.records.drop 13).map (·.kind)) =
        some [.running, .destroying, .dead, .constructing, .sterile, .suspect, .reconciled] := by decide +kernel
  obtain ⟨c, hc, hkinds⟩ := Option.map_eq_some_iff.mp hplay
  have hmoves : OnlyCalls moves :=
    oneReplaced_calls.append fun p hp => onlyCalls p ((List.mem_cons.mp hp).resolve_left (by simp))
  have hreach := reach_of_play hmoves hc
  exact ⟨c, hreach, hkinds, ledger_folds hreach⟩

/-- **What the pool holds is in its ledger.**  In the same runs, whatever is stopped at any moment is
found again: the ledger folds to a nonterminal entry at the lease generation for every owned worker, to
the very phase and generation of every sterile slot, and for a worker that a thread holds to the entry
that its stage says. -/
theorem holdings_are_recorded {c : Config Answer Shared}
    (hreach : Reach (machine setup) (sequencedRun setup) (Shared.init setup) c) :
    ∃ m, entriesOf c.shared.records = .ok m ∧
      (∀ (id : WorkerId) (o : Owned), c.shared.owned[id]? = some o → o.worker.Owns (statusOf m id)) ∧
      (∀ (slot : ℕ) (cell : Slot), c.shared.cells[slot]? = some cell → cell.word.load.phase = .sterile →
        statusOf m cell.id = some cell.word.load) ∧
      ∀ (i : ℕ) (t : Thread Answer), c.threads[i]? = some t → ∃ ℓ, discipline.after t.history = some ℓ ∧
        ∀ w stage, ℓ.tenure = .holds w stage → stage.Recorded w (statusOf m w.id) (c.shared.ClaimLost w.id) := by
  obtain ⟨H, hkeeps, -, m, hm, hledgered⟩ := reach hreach
  refine ⟨m, hm, hledgered.owned, hledgered.sterile, fun i t ht => ?_⟩
  obtain ⟨ℓ, F, hkept, hH, -⟩ := forall₂_set (u := t) hkeeps ht
  exact ⟨ℓ, hkept.after, (hledgered.agrees ℓ (by simp [hH])).tenure⟩

/-- One worker is dead, the second runs and a third is sterile. -/
theorem holdings_are_recorded_running :
    ∃ c m, Reach (machine smallPool) (sequencedRun smallPool) (Shared.init smallPool) c ∧
      [.running, .destroying, .dead] ⊆ c.shared.records.map (·.kind) ∧ entriesOf c.shared.records = .ok m ∧
      (∃ o, c.shared.owned[8]? = some o ∧ o.worker.phase = .running ∧ o.worker.Owns (statusOf m 8)) ∧
      statusOf m 9 = some ⟨.sterile, .first⟩ := by
  let moves := oneReplaced ++ (calls (.launch ⟨6, 2, 0⟩) 5 48 (calm 9) ++ calls (.start 8) 6 4 (calm 9) ++
    calls .construct 7 13 (calm 9))
  have hplay : ((play ((machine smallPool).checked guarded) ⟨Shared.init smallPool, []⟩ moves).map
      fun c => (decide ([.running, .destroying, .dead] ⊆ c.shared.records.map (·.kind)),
        c.shared.owned[8]?.map (·.worker.phase), c.shared.cells[2]?)) =
      some (true, some .running, some ⟨9, 1, .new .sterile .first⟩) := by decide +kernel
  obtain ⟨c, hc, heq⟩ := Option.map_eq_some_iff.mp hplay
  simp only [Prod.mk.injEq, decide_eq_true_eq, Option.map_eq_some_iff] at heq
  obtain ⟨hkinds, ⟨o, ho, hphase⟩, hcell⟩ := heq
  have hreach := reach_of_play (oneReplaced_calls.append ((onlyCalls.append onlyCalls).append onlyCalls)) hc
  obtain ⟨m, hm, howned, hsterile, -⟩ := holdings_are_recorded hreach
  exact ⟨c, m, hreach, hkinds, hm, ⟨o, ho, hphase, howned 8 o ho⟩, hsterile 2 _ hcell rfl⟩

/-- Why a ledger does not fold. -/
def refusal (records : List Record) : Option LedgerError :=
  match entriesOf records with
  | .ok _ => none
  | .error error => some error

/-- A claiming record is lost and the worker is destroyed: its destroying record carries a generation
that the ledger has not seen. -/
theorem lost_claim_breaks_ledger :
    ∃ c, Reach (machine smallPool) (anyRun smallPool) (Shared.init smallPool) c ∧
      entriesOf c.shared.records = .error (.invariant 7 .destroying) := by
  let moves := calls .construct 0 13 (calm 7) ++ calls (.claim 1 1) 1 9 (lossy (· = .claiming) 8)
  have hplay : ((play smallMachine ⟨Shared.init smallPool, []⟩ moves).map
      fun c => refusal c.shared.records) = some (some (.invariant 7 .destroying)) := by
    decide +kernel
  obtain ⟨c, hc, hrefusal⟩ := Option.map_eq_some_iff.mp hplay
  refine ⟨c, (onlyCalls.append onlyCalls).reach hc, ?_⟩
  cases hfold : entriesOf c.shared.records with
  | ok m => simp [refusal, hfold] at hrefusal
  | error error =>
    rw [refusal, hfold] at hrefusal
    rw [Option.some.inj hrefusal]

end Foldable

end Soma.Host.Pool
