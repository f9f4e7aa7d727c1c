import Soma.Host.Pool.Conduct
import Soma.Host.Pool.Frames
import Soma.Host.Pool.Ownership
import Soma.Lib.Table

/-! # Ownership is kept by every action

One lemma per kind of action, and `Own.step`, which puts them together; `Own.invariant` is the run rule,
and `slot_has_one_holder` what it gives for every run.
-/

namespace Soma.Host.Pool

open Std Soma.Lib Multiset Tenure Shared

theorem Stage.write_fits {stage after : Stage} {kind : RecordKind} {stored : Bool} {p : Phase}
    (h : stage.write kind stored = some after) (hfits : stage.fits p = true) :
    after.fits p = true ∧ after ≠ .won ∧ after ≠ .published := by
  cases stage <;> cases kind <;> simp [Stage.write] at h <;> subst h <;> cases stored <;>
    simp_all [Stage.fits]

variable {s : Shared}

theorem Tenure.Fits.appended {t : Tenure} (h : t.Fits s) (r : Record) (stored : Bool) :
    (t.appended r stored).Fits s := by
  cases t with
  | holds w stage =>
    simp only [Tenure.appended]
    split_ifs
    · exact .idle s
    · obtain ⟨hholds, hfits⟩ := h.holds w stage rfl
      cases hwrite : stage.write r.kind stored with
      | none => exact h
      | some after =>
        obtain ⟨hfits', hwon, hpublished⟩ := Stage.write_fits hwrite hfits
        exact .of_holds hholds hfits' (h.apart w stage rfl) fun hst => (hst.elim hwon hpublished).elim
  | _ => exact h

theorem Recon.Fits.appended {c : Recon} (h : c.Fits s) {r : Record} {stored : Bool} (hobeys : c.obeys (.append r))
    (hstored : stored = true → r.stored ∈ s.records) : (c.appended r stored).Fits s := by
  cases c with
  | idle => exact .idle s
  | gated snapshot focus =>
    simp only [Recon.appended]
    split
    · rename_i hkind
      obtain ⟨snapshot', hc, -⟩ := hobeys.1 hkind
      cases hc
      cases stored with
      | true =>
        refine .of_gated (h.snapshot _ _ rfl) ?_ ?_
        · rintro w ⟨⟩
          exact ⟨r.stored, hstored rfl, rfl⟩
        · rintro w ⟨⟩
          exact h.gone _ _ _ rfl rfl
      | false => exact .unfocused (h.snapshot _ _ rfl)
    · exact .unfocused (h.snapshot _ _ rfl)
    · exact h

namespace Own

variable {s s' : Shared} {ℓ : Local} {F : Multiset Local}

/-! ### Slots -/

variable {g : LeaseGeneration} {w : Worker} {id : WorkerId} {r : Record}

section

variable (h : Own s (ℓ ::ₘ F))
include h

theorem advance_step {target : Phase} (hobeys : ℓ.Obeys (.advance w target g)) {answer : Except StateRace Worker}
    (hexec : s.advance w target g = some (answer, s')) :
    Steps ℓ (.advance w target g) answer s' F := by
  rcases hobeys.tenure with ⟨stage, ht, hmove, rfl⟩ | ⟨ht, hsterile, htarget⟩
  · obtain ⟨after, hafter⟩ := Option.isSome_iff_exists.mp hmove
    exact h.advance_holder ht hafter hexec
  · refine h.advance_sterile ht hsterile ?_ hexec
    rcases htarget with ⟨rfl, -⟩ | ⟨rfl, -⟩
    · exact .inl rfl
    · exact .inr rfl

theorem fresh_step (hnew : id ∉ s.drawn) :
    Own { s with drawn := id :: s.drawn } ({ ℓ with tenure := .drawn id } ::ₘ F) := by
  have hsound : Sound { s with drawn := id :: s.drawn } := { h.sound with
    cells := fun id' hk => List.mem_cons_of_mem _ (h.sound.cells id' hk)
    records := fun r hr => List.mem_cons_of_mem _ (h.sound.records r hr) }
  refine h.intro hsound (h.head.frame ⟨by rintro _ _ ⟨⟩, by rintro _ _ ⟨⟩, by rintro _ _ ⟨⟩, ?_⟩) ?_ ?_ ?_ Iff.rfl rfl
  · rintro id' ⟨⟩
    refine ⟨List.mem_cons_self .., fun hk => hnew (h.sound.cells id hk), ?_⟩
    rintro r hr rfl
    exact hnew (h.sound.records r hr)
  · intro m hm
    have hm' := (h.tail hm).tenure
    refine (h.tail hm).frame (hm'.frame (fun _ _ _ => rfl) hm'.apart (fun _ _ _ _ hp => hp) ?_)
    intro id' hid'
    obtain ⟨hmem, hrest⟩ := hm'.fresh id' hid'
    exact ⟨List.mem_cons_of_mem _ hmem, hrest⟩
  · rintro k ⟨⟩
  · rintro id' ⟨⟩ m hm hdrawn
    exact hnew ((h.tail hm).tenure.fresh id (eq_drawn_of_drawn? hdrawn)).1

theorem drawn_ne (hr : r ∈ s.records) : ∀ m ∈ ℓ ::ₘ F, m.tenure.drawn? ≠ some r.worker := by
  intro m hm hdrawn
  exact ((h.fits m hm).tenure.fresh _ (eq_drawn_of_drawn? hdrawn)).2.2 r hr rfl

theorem addSlot_step {key : PoolKeyDigest} {phase : Phase} {max : ℕ} (hobeys : ℓ.Obeys (.addSlot id key phase g))
    {answer : Except Overloaded ℕ} (hexec : s.addSlot max ⟨id, key, .new phase g⟩ = (answer, s')) :
    Steps ℓ (.addSlot id key phase g) answer s' F := by
  rcases addSlot_eq hexec with ⟨overloaded, rfl, rfl⟩ | ⟨rfl, rfl, -⟩
  · refine ⟨{ ℓ with tenure := .idle }, rfl, ?_⟩
    refine h.intro h.sound.compacted (h.head.frame (.idle _)) ?_ ?_ ?_ Iff.rfl rfl
    · intro m hm
      have hm' := (h.tail hm).tenure
      exact (h.tail hm).frame (hm'.frame (fun _ _ _ => rfl) hm'.apart (fun _ _ _ _ hp => hp) hm'.fresh)
    · rintro k ⟨⟩
    · rintro id' ⟨⟩
  · rcases hobeys.tenure with ⟨ht, rfl, rfl⟩ | ⟨ht, rfl⟩
    · -- a construction: nobody knows the drawn worker
      obtain ⟨hdrawn, hunknown, hunrecorded⟩ := h.head.tenure.fresh id ht
      have hrecon : ℓ.recon = .idle := by simpa [Recon.obeys] using hobeys.recon
      refine ⟨{ ℓ with tenure := .holds ⟨s.cells.length, id, .constructing, .first⟩ .opened }, ?_, ?_⟩
      · simp only [Local.next, next, Recon.next, hrecon]
        rfl
      · refine h.added rfl (.inl rfl) ?_ hdrawn ?_ rfl rfl rfl ?_ Iff.rfl
        · rintro a ⟨cell, hcell, hid, -⟩
          exact hunknown ⟨a, cell, hcell, hid⟩
        · intro m hm
          refine ⟨nodup_head h.draws (by simp [ht, drawn?]) m hm, ?_⟩
          intro es f hc hf
          have hw : f.worker? = some id := by
            cases f <;> simp_all [Focus.worker?, Focus.gone?]
          obtain ⟨r, hr, hrw⟩ := (h.tail hm).recon.focus es f id hc hw
          exact hunrecorded r hr hrw
        · rw [hrecon]
          exact .idle _
    · -- a retained worker: this thread is the one inside the gate
      obtain ⟨snapshot, hrecon⟩ : ∃ snapshot, ℓ.recon = .gated snapshot (.suspect id g Phase.running.code) := by
        simpa [Recon.obeys] using hobeys.recon
      obtain ⟨r, hr, hrw⟩ := h.head.recon.focus _ _ id hrecon rfl
      refine ⟨{ ℓ with
        tenure := .holds ⟨s.cells.length, id, .running, g⟩ .restored
        recon := .gated snapshot (.restored id g) }, ?_, ?_⟩
      · simp only [Local.next, next, Recon.next, hrecon]
        rfl
      · refine h.added rfl (.inr rfl) (h.head.recon.gone _ _ id hrecon rfl)
          (hrw ▸ h.sound.records r hr) ?_ rfl rfl rfl ?_ (by simp [hrecon])
        · intro m hm
          refine ⟨hrw ▸ h.drawn_ne hr m (mem_cons_of_mem hm), ?_⟩
          intro es f hc
          rw [h.others_ungated (by simp [hrecon]) hm] at hc
          cases hc
        · refine .of_gated (h.head.recon.snapshot _ _ hrecon) ?_ ?_
          · rintro w ⟨⟩
            exact ⟨r, hr, hrw⟩
          · rintro w ⟨⟩

/-! ### Records -/

theorem record_known (hobeys : ℓ.Obeys (.append r)) :
    s.Known r.worker ∨ ∃ r' ∈ s.records, r'.worker = r.worker := by
  by_cases hown : ownRecord r.kind = true
  · obtain ⟨w, stage, ht, -, hid, -⟩ := hobeys.tenure hown
    rw [hid]
    exact .inl (h.head.tenure.holds w stage ht).1.known
  · have hkind : r.kind = .running ∨ r.kind = .suspect ∨ r.kind = .reconciled := by
      cases hk : r.kind <;> simp_all [ownRecord]
    rcases hkind with hk | hk | hk
    · exact .inl (h.head.pending _ _ (hobeys.pending hk))
    · obtain ⟨snapshot, hc, -⟩ := hobeys.recon.1 hk
      exact .inr (h.head.recon.focus _ _ _ hc rfl)
    · obtain ⟨snapshot, ⟨code, hc⟩ | ⟨hc, -⟩⟩ := hobeys.recon.2 hk <;>
        exact .inr (h.head.recon.focus _ _ _ hc rfl)

end

/-- The ledger with one more append. -/
def appended (s : Shared) (r : Record) (stored : Bool) : Shared :=
  { s with log := s.log ++ [(r.stored, stored)] }

theorem records_appended (r : Record) (stored : Bool) :
    (appended s r stored).records = if stored then s.records ++ [r.stored] else s.records := by
  cases stored <;> simp [appended, records]

variable (h : Own s (ℓ ::ₘ F))
include h

theorem append_step (hobeys : ℓ.Obeys (.append r)) (answer : Except LedgerError Unit) :
    Steps ℓ (.append r) answer (appended s r answer.isOk) F := by
  have hold : ∀ r' ∈ s.records, r' ∈ (appended s r answer.isOk).records := by
    intro r' hr'
    rw [records_appended]
    split_ifs
    · exact List.mem_append_left _ hr'
    · exact hr'
  have hnew : ∀ r' ∈ (appended s r answer.isOk).records, r' ∈ s.records ∨ r'.worker = r.worker := by
    intro r' hr'
    rw [records_appended] at hr'
    split_ifs at hr'
    · rcases List.mem_append.mp hr' with hr' | hr'
      · exact .inl hr'
      · rw [List.mem_singleton.mp hr']
        exact .inr rfl
    · exact .inl hr'
  have hknown := h.record_known hobeys
  have htenure : ∀ m ∈ ℓ ::ₘ F, m.tenure.Fits (appended s r answer.isOk) := by
    intro m hm
    have hm' := (h.fits m hm).tenure
    refine hm'.frame (fun _ _ _ => rfl) hm'.apart (fun _ _ _ _ hp => hp) ?_
    intro id hid
    obtain ⟨hmem, hunknown, hunrecorded⟩ := hm'.fresh id hid
    refine ⟨hmem, hunknown, ?_⟩
    rintro r' hr' rfl
    rcases hnew r' hr' with hr' | heq
    · exact hunrecorded r' hr' rfl
    · rcases hknown with hk | ⟨r'', hr'', heq''⟩
      · exact hunknown (heq ▸ hk)
      · exact hunrecorded r'' hr'' (heq''.trans heq.symm)
  have hrecon : ∀ m ∈ ℓ ::ₘ F, m.recon.Fits (appended s r answer.isOk) :=
    fun m hm => (h.fits m hm).recon.frame hold (fun _ _ _ _ _ hg => hg)
  have hsound : Sound (appended s r answer.isOk) := { h.sound with
    records := fun r' hr' => by
      rcases hnew r' hr' with hr' | heq
      · exact h.sound.records r' hr'
      · rw [heq]
        rcases hknown with hk | ⟨r'', hr'', heq''⟩
        · exact h.sound.cells _ hk
        · exact heq'' ▸ h.sound.records r'' hr'' }
  refine ⟨_, rfl, ?_⟩
  refine h.intro hsound ?_ (fun m hm => ⟨htenure m (mem_cons_of_mem hm), (h.tail hm).pending,
      hrecon m (mem_cons_of_mem hm), (h.tail hm).reclaim⟩) ?_ ?_ ?_ rfl
  · refine ⟨?_, ?_, ?_, h.head.reclaim⟩
    · exact (htenure ℓ (mem_cons_self ..)).appended r answer.isOk
    · intro w g hp
      refine h.head.pending w g ?_
      change (if r.kind = .running then none else ℓ.pending) = some (w, g) at hp
      split_ifs at hp
      exact hp
    · refine (hrecon ℓ (mem_cons_self ..)).appended hobeys.recon ?_
      intro hok
      rw [records_appended, if_pos hok]
      exact List.mem_append_right _ (List.mem_singleton_self _)
  · intro k hk
    refine .inl ?_
    revert hk
    change (ℓ.tenure.appended r answer.isOk).slot? = some k → _
    cases ℓ.tenure with
    | holds w stage =>
      simp only [Tenure.appended]
      split_ifs
      · rintro ⟨⟩
      · exact fun hk => hk
    | _ => exact fun hk => hk
  · intro id hid
    refine nodup_head h.draws ?_
    revert hid
    change (ℓ.tenure.appended r answer.isOk).drawn? = some id → _
    cases ℓ.tenure with
    | holds w stage =>
      simp only [Tenure.appended]
      split_ifs
      · rintro ⟨⟩
      · rintro ⟨⟩
    | _ => exact fun hid => hid
  · change ℓ.recon.appended r answer.isOk = .idle ↔ ℓ.recon = .idle
    cases ℓ.recon with
    | idle => rfl
    | gated snapshot focus =>
      simp only [Recon.appended]
      split <;> simp

/-! ### Payloads -/

variable {stage : Stage}

theorem id_ne (ht : ℓ.tenure = .holds w stage) {a : ℕ} (hlive : s.LiveAt a id) (ha : a ≠ w.slot) : id ≠ w.id := by
  rintro rfl
  obtain ⟨hholds, hfits⟩ := h.head.tenure.holds w stage ht
  exact ha (h.sound.ids a w.slot w.id hlive (hholds.live (Stage.fits_ne hfits).2))

theorem prepare_step {payload : Prepared} (hobeys : ℓ.Obeys (.prepare id payload)) :
    Steps ℓ (.prepare id payload) () { s with prepared := s.prepared.insert id payload } F := by
  obtain ⟨w, ht, rfl⟩ := hobeys.tenure
  have hgrows : ∀ id' ∈ s.prepared, id' ∈ s.prepared.insert w.id payload := by
    intro id' hid'
    simp [hid']
  have hsound : Sound { s with prepared := s.prepared.insert w.id payload } := { h.sound with
    sterile := fun a cell hcell hphase => hgrows _ (h.sound.sterile a cell hcell hphase) }
  have hnext : ℓ.next (.prepare w.id payload) () = some { ℓ with tenure := .holds w .published } := by
    simp only [Local.next, next, ht]
    rfl
  refine ⟨_, hnext, ?_⟩
  obtain ⟨hholds, hstage⟩ := h.head.tenure.holds w _ ht
  refine h.intro hsound (h.head.frame (.of_holds hholds hstage (h.head.tenure.apart w _ ht) fun _ => by simp)) ?_ ?_ ?_
    Iff.rfl rfl
  · intro m hm
    have hm' := (h.tail hm).tenure
    exact (h.tail hm).frame (hm'.frame (fun _ _ _ => rfl) hm'.apart (fun _ _ _ _ hp => hgrows _ hp) hm'.fresh)
  · rintro k ⟨⟩
    exact .inl (by rw [ht]; rfl)
  · rintro id ⟨⟩

theorem takePrepared_step (hobeys : ℓ.Obeys (.takePrepared id)) :
    Steps ℓ (.takePrepared id) (s.prepared[id]?) { s with prepared := s.prepared.erase id } F := by
  obtain ⟨w, stage, ht, hstage, rfl⟩ := hobeys.tenure
  obtain ⟨hholds, hfits⟩ := h.head.tenure.holds w stage ht
  have hkeeps : ∀ a id', s.LiveAt a id' → a ≠ w.slot → id' ∈ s.prepared →
      id' ∈ s.prepared.erase w.id := by
    intro a id' hlive ha hmem
    simp [hmem, Ne.symm (h.id_ne ht hlive ha)]
  have htail : ∀ m ∈ F, Fits { s with prepared := s.prepared.erase w.id } m := by
    intro m hm
    have hm' := (h.tail hm).tenure
    refine (h.tail hm).frame (hm'.frame (fun _ _ _ => rfl) hm'.apart ?_ hm'.fresh)
    intro w' stage' ht' _ hmem
    obtain ⟨hholds', hfits'⟩ := hm'.holds w' stage' ht'
    exact hkeeps w'.slot w'.id (hholds'.live (Stage.fits_ne hfits').2) (h.slot_ne ht hm ht') hmem
  have hsound : Sound { s with prepared := s.prepared.erase w.id } := { h.sound with
    sterile := fun a cell hcell hphase => by
      refine hkeeps a cell.id ⟨cell, hcell, rfl, by simp [hphase]⟩ ?_
        (h.sound.sterile a cell hcell hphase)
      rintro rfl
      exact (h.sterile_free hcell hphase).1 ℓ (mem_cons_self ..) (by simp [ht, slot?]) }
  obtain ⟨after, hafter, hfits', hnext⟩ : ∃ after : Stage, (after = .taken ∨ after = .closing) ∧
      after.fits w.phase = true ∧
      ℓ.next (.takePrepared w.id) s.prepared[w.id]? = some { ℓ with tenure := .holds w after } := by
    rcases hstage with rfl | rfl
    · have hsome : s.prepared[w.id]?.isSome = true := by
        simpa using h.head.tenure.payload w .won ht (.inl rfl)
      refine ⟨.taken, .inl rfl, hfits, ?_⟩
      simp only [Local.next, next, ht, tookPrepared, hsome]
      rfl
    · refine ⟨.closing, .inr rfl, hfits, ?_⟩
      simp only [Local.next, next, ht, tookPrepared]
      rfl
  refine ⟨_, hnext, ?_⟩
  refine h.intro hsound (h.head.frame (.of_holds hholds hfits' (h.head.tenure.apart w stage ht) ?_)) htail ?_ ?_
    Iff.rfl rfl
  · rcases hafter with rfl | rfl <;> simp
  · rintro k ⟨⟩
    exact .inl (by rw [ht]; rfl)
  · rintro id ⟨⟩

/-! ### The owned table -/

variable {o : Owned}

section

variable {owned : TreeMap WorkerId Owned} (ℓ' : Local) (hrecon : ℓ'.recon = ℓ.recon) (hreclaim : ℓ'.reclaim = ℓ.reclaim)
include hrecon hreclaim

theorem owned_step
    (howned : ∀ (id : WorkerId) (o : Owned), owned[id]? = some o →
      s.Holds o.worker ∧ o.worker.id = id ∧ (o.worker.phase = .assigned ∨ o.worker.phase = .running))
    (hapart : ∀ m ∈ F, ∀ w stage, m.tenure = .holds w stage → ∀ (id : WorkerId) (o : Owned),
      owned[id]? = some o → o.worker.slot ≠ w.slot)
    (htenure : ℓ'.tenure.Fits { s with owned }) (hpending : ℓ'.pending = ℓ.pending ∨
      ∃ w g, ℓ'.pending = some (w, g) ∧ s.Known w)
    (hslot : ∀ k, ℓ'.tenure.slot? = some k → ℓ.tenure.slot? = some k ∨
      ∀ m ∈ F, m.tenure.slot? ≠ some k)
    (hdrawn : ℓ'.tenure.drawn? = none ∨ ℓ'.tenure = ℓ.tenure) : Own { s with owned } (ℓ' ::ₘ F) := by
  have hsound : Sound { s with owned } := { h.sound with owned := howned }
  refine h.intro hsound ⟨htenure, ?_, ?_, ?_⟩ ?_ hslot ?_ (by rw [hrecon]) rfl
  · intro w g hp
    rcases hpending with heq | ⟨w', g', heq, hknown⟩
    · exact h.head.pending w g (heq ▸ hp)
    · rw [heq] at hp
      cases hp
      exact hknown
  · rw [hrecon]
    exact h.head.recon.frame (fun _ hr => hr) (fun _ _ _ _ _ hg => hg)
  · rw [hreclaim]
    exact h.head.reclaim
  · intro m hm
    have hm' := (h.tail hm).tenure
    exact (h.tail hm).frame (hm'.frame (fun _ _ _ => rfl) (hapart m hm) (fun _ _ _ _ hp => hp) hm'.fresh)
  · intro id hid
    rcases hdrawn with hnone | heq
    · rw [hnone] at hid
      cases hid
    · exact nodup_head h.draws (heq ▸ hid)

theorem owned_insert (o : Owned) (ht : ℓ.tenure = .holds o.worker stage)
    (hstage : stage = .owned ∨ stage = .restored) (htenure : ℓ'.tenure = .idle)
    (hpending : ℓ'.pending = ℓ.pending ∨ ∃ w g, ℓ'.pending = some (w, g) ∧ s.Known w) :
    Own { s with owned := s.owned.insert o.worker.id o } (ℓ' ::ₘ F) := by
  obtain ⟨hholds, hfits⟩ := h.head.tenure.holds _ stage ht
  refine h.owned_step ℓ' hrecon hreclaim ?_ ?_ (htenure ▸ .idle _) hpending ?_ (.inl (by rw [htenure]; rfl))
  · intro id' o' ho'
    rw [TreeMap.getElem?_insert] at ho'
    split_ifs at ho' with heq
    · cases ho'
      refine ⟨hholds, by simpa using heq, ?_⟩
      rcases hstage with rfl | rfl
      · simpa [Stage.fits] using hfits
      · exact .inr (by simpa [Stage.fits] using hfits)
    · exact h.sound.owned id' o' ho'
  · intro m hm w stage' ht' id' o' ho'
    rw [TreeMap.getElem?_insert] at ho'
    split_ifs at ho' with heq
    · cases ho'
      exact (h.slot_ne ht hm ht').symm
    · exact (h.tail hm).tenure.apart w stage' ht' id' o' ho'
  · rw [htenure]
    rintro k ⟨⟩

theorem owned_same
    (hworker : ∀ (id : WorkerId) (o : Owned), owned[id]? = some o →
      ∃ o' : Owned, s.owned[id]? = some o' ∧ o.worker = o'.worker)
    (htenure : ℓ'.tenure = ℓ.tenure) (hpending : ℓ'.pending = ℓ.pending) :
    Own { s with owned } (ℓ' ::ₘ F) := by
  have hapart : ∀ m ∈ ℓ ::ₘ F, ∀ w stage, m.tenure = .holds w stage →
      ∀ (id : WorkerId) (o : Owned), owned[id]? = some o → o.worker.slot ≠ w.slot := by
    intro m hm w stage ht id o ho
    obtain ⟨o', ho', heq⟩ := hworker id o ho
    rw [heq]
    exact (h.fits m hm).tenure.apart w stage ht id o' ho'
  refine h.owned_step ℓ' hrecon hreclaim ?_ (fun m hm => hapart m (mem_cons_of_mem hm)) ?_ (.inl hpending) ?_
    (.inr htenure)
  · intro id o ho
    obtain ⟨o', ho', heq⟩ := hworker id o ho
    rw [heq]
    exact h.sound.owned id o' ho'
  · rw [htenure]
    exact h.head.tenure.frame (fun _ _ _ => rfl) (hapart ℓ (mem_cons_self ..))
      (fun _ _ _ _ hp => hp) h.head.tenure.fresh
  · rw [htenure]
    exact fun k hk => .inl hk

theorem owned_erase (ho : s.owned[id]? = some o) (htenure : ℓ'.tenure = .holds o.worker .owned)
    (hpending : ℓ'.pending = ℓ.pending) : Own { s with owned := s.owned.erase id } (ℓ' ::ₘ F) := by
  obtain ⟨hholds, hid, hphase⟩ := h.sound.owned id o ho
  have hleft : ∀ (id' : WorkerId) (o' : Owned), (s.owned.erase id)[id']? = some o' →
      id' ≠ id ∧ s.owned[id']? = some o' := by
    intro id' o' ho'
    rw [TreeMap.getElem?_erase] at ho'
    split_ifs at ho' with heq
    refine ⟨?_, ho'⟩
    rintro rfl
    exact heq (by simp)
  refine h.owned_step ℓ' hrecon hreclaim (fun id' o' ho' => h.sound.owned id' o' (hleft id' o' ho').2)
    (fun m hm w stage ht id' o' ho' => (h.tail hm).tenure.apart w stage ht id' o' (hleft id' o' ho').2)
    ?_ (.inl hpending) ?_ (.inl (by rw [htenure]; rfl))
  · rw [htenure]
    refine .of_holds hholds (by simpa [Stage.fits] using hphase) ?_ (by simp)
    intro id' o' ho' heq
    obtain ⟨hne, ho''⟩ := hleft id' o' ho'
    obtain ⟨⟨cell', hcell', hid', -⟩, hworker', -⟩ := h.sound.owned id' o' ho''
    obtain ⟨cell, hcell, hidc, -⟩ := hholds
    rw [heq, hcell] at hcell'
    cases hcell'
    exact hne (by rw [← hworker', ← hid', hidc, hid])
  · rw [htenure]
    rintro k ⟨⟩
    refine .inr ?_
    intro m hm hk
    obtain ⟨w, stage, htm, hslot⟩ := eq_holds_of_slot? hk
    exact (h.tail hm).tenure.apart w stage htm id o ho hslot.symm

theorem run_step (ho : s.owned[id]? = some o) {cell : Slot} (hcell : s.cells[o.worker.slot]? = some cell)
    (hidc : cell.id = id) (htenure : ℓ'.tenure = .idle)
    (hpending : ℓ'.pending = some (id, o.worker.generation)) :
    Own { s.moved o.worker.slot cell .running o.worker.generation with
      owned := s.owned.insert id { o with worker := { o.worker with phase := .running } } }
      (ℓ' ::ₘ F) := by
  obtain ⟨-, hid, -⟩ := h.sound.owned id o ho
  -- the thread takes the worker out, moves it and puts it back
  have htaken := h.owned_erase { ℓ with tenure := .holds o.worker .owned } rfl rfl ho rfl rfl
  have hmoved := htaken.moved rfl hcell .running o.worker.generation (some .owned)
    { ℓ with tenure := .holds { o.worker with phase := .running } .owned } (by simp)
    (by simp [Stage.fits]) rfl rfl rfl rfl
  have hback := hmoved.owned_insert ℓ' hrecon hreclaim { o with worker := { o.worker with phase := .running } } rfl
    (.inl rfl) htenure (.inr ⟨id, _, hpending, o.worker.slot, _, moved_self hcell, hidc⟩)
  refine hback.owned_same ℓ' rfl rfl ?_ rfl rfl
  intro id' o' ho'
  refine ⟨o', ?_, rfl⟩
  change ((s.owned.erase id).insert o.worker.id _)[id']? = some o'
  change (s.owned.insert id _)[id']? = some o' at ho'
  rw [TreeMap.getElem?_insert] at ho' ⊢
  rw [hid]
  split_ifs at ho' ⊢ with heq
  · exact ho'
  · rw [TreeMap.getElem?_erase, if_neg heq]
    exact ho'

end

theorem own_step (hobeys : ℓ.Obeys (.own id o)) :
    Steps ℓ (.own id o) () { s with owned := s.owned.insert id o } F := by
  obtain ⟨stage, ht, hstage, rfl⟩ := hobeys.tenure
  exact ⟨_, rfl, h.owned_insert _ (by rfl) (by rfl) o ht hstage rfl (.inl rfl)⟩

theorem owned_replace (ho : s.owned[id]? = some o) {o' : Owned} (hworker : o'.worker = o.worker) :
    Own { s with owned := s.owned.insert id o' } (ℓ ::ₘ F) := by
  refine h.owned_same ℓ rfl rfl ?_ rfl rfl
  intro id' o'' ho''
  rw [TreeMap.getElem?_insert] at ho''
  split_ifs at ho'' with heq
  · cases ho''
    obtain rfl : id = id' := by simpa using heq
    exact ⟨o, ho, hworker⟩
  · exact ⟨o'', ho'', rfl⟩

theorem beginStart_step {answer : Except LifecycleError (Option LauncherHandle)}
    (hexec : s.beginStart id = (answer, s')) : Steps ℓ (.beginStart id) answer s' F := by
  refine ⟨ℓ, rfl, ?_⟩
  unfold beginStart at hexec
  split at hexec
  · cases hexec
    exact h
  · rename_i o ho
    split_ifs at hexec
    · cases hexec
      exact h
    · cases hexec
      exact h
    · cases hexec
      exact h.owned_replace ho rfl

theorem disown_step {answer : Except LifecycleError Owned} (hexec : s.disown id = (answer, s')) :
    Steps ℓ (.disown id) answer s' F := by
  unfold disown at hexec
  split at hexec
  · cases hexec
    exact ⟨_, rfl, h.same (.refl s) rfl rfl rfl rfl h.head.reclaim⟩
  · rename_i o ho
    split_ifs at hexec
    · cases hexec
      exact ⟨_, rfl, h.same (.refl s) rfl rfl rfl rfl h.head.reclaim⟩
    · cases hexec
      exact ⟨_, rfl, h.owned_erase _ rfl rfl ho rfl rfl⟩

end Own

variable {handle : Option LauncherHandle} {started : Except StartFault Unit} {answer : StartEnd}

theorem Sound.endStart_eq {s s' : Shared} (h : Sound s) {id : WorkerId}
    (hexec : s.endStart id handle started = some (answer, s')) :
    (answer = .unknown ∧ s' = s) ∨
      ∃ o, s.owned[id]? = some o ∧
        ((∃ fault, started = .error fault ∧ answer = .faulted { o with handle, starting := false } ∧
            s' = { s with
              owned := (s.owned.insert id { o with handle, starting := false }).erase id }) ∨
          (answer = .notAssigned ∧
            s' = { s with owned := s.owned.insert id { o with handle, starting := false } }) ∨
          ∃ cell, s.cells[o.worker.slot]? = some cell ∧ cell.id = id ∧
            o.worker.phase = .assigned ∧ cell.word = .new .assigned o.worker.generation ∧
            answer = .running
              { o with handle, starting := false, worker := { o.worker with phase := .running } } ∧
            s' = { s.moved o.worker.slot cell .running o.worker.generation with
              owned := (s.owned.insert id { o with handle, starting := false }).insert id
                { o with
                  handle, starting := false, worker := { o.worker with phase := .running } } }) := by
  unfold endStart at hexec
  split at hexec
  · cases hexec
    exact .inl ⟨rfl, rfl⟩
  rename_i o ho
  refine .inr ⟨o, ho, ?_⟩
  obtain ⟨hholds, hid, -⟩ := h.owned id o ho
  obtain ⟨cell, hcell, hidc, hword⟩ := hholds
  simp only at hexec
  split at hexec
  · cases hexec
    exact .inl ⟨_, rfl, rfl, rfl⟩
  refine .inr ?_
  split at hexec
  · cases hexec
  rename_i observed hobserved
  have hload : observed = o.worker.packed := by
    have hsome : some cell.word.load = some observed := by
      rw [← hobserved, load, hcell]
      rfl
    rw [← Option.some.inj hsome, hword]
    exact StateWord.load_new _ _
  split_ifs at hexec with hphase
  · cases hexec
    exact .inl ⟨rfl, rfl⟩
  refine .inr ⟨cell, hcell, by rw [hidc, hid], ?_⟩
  have hassigned : o.worker.phase = .assigned := by
    rw [hload] at hphase
    simpa [Worker.packed] using hphase
  have hworker : ({ o.worker with phase := .assigned, generation := observed.generation } : Worker) = o.worker := by
    rw [hload, ← hassigned]
    rfl
  have hgen : observed.generation = o.worker.generation := by
    rw [hload]
    rfl
  rw [hworker, hgen] at hexec
  refine ⟨hassigned, by rw [hword, hassigned], ?_⟩
  have hallowed : StateWord.Allowed o.worker.packed ⟨.running, o.worker.generation⟩ := by
    simp [StateWord.Allowed, Worker.packed, hassigned, Phase.mayTransitionTo, StateWord.expectedGeneration]
  have hspec : ∀ {answer : Except StateRace Worker} {s₂ : Shared},
      advance { s with owned := s.owned.insert id { o with handle, starting := false } }
        o.worker .running o.worker.generation = some (answer, s₂) →
      answer = .ok { o.worker with phase := .running } ∧
        s₂ = { s.moved o.worker.slot cell .running o.worker.generation with
          owned := s.owned.insert id { o with handle, starting := false } } := by
    intro answer s₂ hadvance
    have hholds : Holds
        { s with owned := s.owned.insert id { o with handle, starting := false } } o.worker :=
      ⟨cell, hcell, hidc, hword⟩
    obtain ⟨cell', hcell', -, rfl, rfl⟩ := advance_of_holds hholds hallowed hadvance
    obtain rfl : cell = cell' := Option.some.inj (hcell.symm.trans hcell')
    exact ⟨rfl, rfl⟩
  split at hexec
  · cases hexec
  · rename_i race s₂ hadvance
    cases (hspec hadvance).1
  · rename_i worker s₂ hadvance
    obtain ⟨hok, rfl⟩ := hspec hadvance
    cases hok
    cases hexec
    exact ⟨rfl, rfl⟩

namespace Own

variable {s s' : Shared} {ℓ : Local} {F : Multiset Local}

section

variable (h : Own s (ℓ ::ₘ F))
include h

theorem endStart_step {id : WorkerId} (hobeys : ℓ.Obeys (.endStart id handle started))
    (hexec : s.endStart id handle started = some (answer, s')) :
    Steps ℓ (.endStart id handle started) answer s' F := by
  have hidle : ℓ.tenure = .idle := hobeys.tenure
  rcases h.sound.endStart_eq hexec with ⟨rfl, rfl⟩ | ⟨o, ho, hcases⟩
  · exact ⟨ℓ, rfl, h⟩
  -- the entry gets its handle back; its worker stays
  let o₁ : Owned := { o with handle, starting := false }
  have ho₁ : (s.owned.insert id o₁)[id]? = some o₁ := by simp
  have h₁ : Own { s with owned := s.owned.insert id o₁ } (ℓ ::ₘ F) := h.owned_replace ho rfl
  obtain ⟨-, hid, -⟩ := h.sound.owned id o ho
  rcases hcases with ⟨fault, rfl, rfl, rfl⟩ | ⟨rfl, rfl⟩ | ⟨cell, hcell, hidc, -, -, rfl, rfl⟩
  · exact ⟨_, rfl, h₁.owned_erase _ rfl rfl ho₁ rfl rfl⟩
  · exact ⟨ℓ, rfl, h₁⟩
  · refine ⟨_, rfl, h₁.run_step _ (by rfl) (by rfl) ho₁ hcell hidc hidle ?_⟩
    exact congrArg (fun w => some (w, o₁.worker.generation)) hid

/-! ### The reconcile gate and reads -/

theorem recon_step {ℓ' : Local} (htenure : ℓ'.tenure = ℓ.tenure) (hpending : ℓ'.pending = ℓ.pending)
    (hrecon : ℓ'.recon.Fits s) (hidle : ℓ'.recon = .idle ↔ ℓ.recon = .idle) (hreclaim : ℓ'.reclaim.Fits s) :
    Own s (ℓ' ::ₘ F) := by
  refine h.intro h.sound ⟨?_, ?_, hrecon, hreclaim⟩ (fun m hm => h.tail hm) ?_ ?_ hidle rfl
  · rw [htenure]
    exact h.head.tenure
  · rw [hpending]
    exact h.head.pending
  · rw [htenure]
    exact fun k hk => .inl hk
  · rw [htenure]
    exact fun id hid => nodup_head h.draws hid

theorem gate_step {gate : Bool} {recon : Recon} (hrecon : recon.Fits { s with reconcileGate := gate })
    (hgate : ({ ℓ with recon } ::ₘ F).countP (fun ℓ => ℓ.recon ≠ .idle) = if gate then 1 else 0) :
    Own { s with reconcileGate := gate } ({ ℓ with recon } ::ₘ F) := by
  have hsame : Same s { s with reconcileGate := gate } := ⟨rfl, rfl, rfl, rfl, rfl, rfl⟩
  refine ⟨hsame.sound h.sound, ?_, nodup_replace h.slots (.inl rfl), nodup_replace h.draws (.inl rfl), hgate⟩
  refine forall_mem_cons.mpr ⟨?_, fun m hm => hsame.fits (h.tail hm)⟩
  exact ⟨hsame.tenure h.head.tenure, h.head.pending, hrecon, h.head.reclaim⟩

theorem lock_step (hobeys : ℓ.Obeys .lockReconcile) (hfree : s.reconcileGate = false) :
    Steps ℓ .lockReconcile () { s with reconcileGate := true } F := by
  have hidle : ℓ.recon = .idle := hobeys.recon
  have hrecon : (Recon.gated [] .none).Fits { s with reconcileGate := true } := .unfocused (by simp)
  refine ⟨_, rfl, h.gate_step hrecon ?_⟩
  have hg := h.gate
  rw [countP_cons, hfree] at hg
  rw [countP_cons]
  simp_all [Recon.next]

theorem unlock_step (hobeys : ℓ.Obeys .unlockReconcile) :
    Steps ℓ .unlockReconcile () { s with reconcileGate := false } F := by
  have hgated : ℓ.recon ≠ .idle := hobeys.recon
  refine ⟨_, rfl, h.gate_step (.idle _) ?_⟩
  have hnone : F.countP (fun ℓ => ℓ.recon ≠ .idle) = 0 := by
    rw [countP_eq_zero]
    exact fun m hm hne => hne (h.others_ungated hgated hm)
  rw [countP_cons, hnone]
  simp [Recon.next]

theorem entries_step {answer : Except LedgerError (List Entry)}
    (hanswer : ∀ es, answer = .ok es → ∃ m, entriesOf s.records = .ok m ∧ es = m.values) :
    Steps ℓ .entries answer s F := by
  refine ⟨_, rfl, ?_⟩
  refine h.recon_step rfl rfl ?_ ?_ h.head.reclaim
  · cases answer with
    | error error => exact h.head.recon
    | ok es =>
      change (ℓ.recon.next .entries (.ok es)).Fits s
      cases hc : ℓ.recon with
      | idle => exact .idle s
      | gated snapshot focus =>
        obtain ⟨m, hm, rfl⟩ := hanswer es rfl
        refine .unfocused ?_
        intro e he
        obtain ⟨w, hw⟩ := Table.mem_values.mp he
        obtain ⟨hworker, r, hr, hrw⟩ := entriesOf_worker hm hw
        exact ⟨r, hr, by rw [hrw, hworker]⟩
  · cases answer with
    | error error => exact Iff.rfl
    | ok es =>
      change ℓ.recon.next .entries (.ok es) = .idle ↔ _
      cases ℓ.recon <;> simp [Recon.next]

end

variable {w : WorkerId}

theorem gone_of_findSlot (h : Sound s) (hnone : s.findSlot w = none) : s.Gone w := by
  rintro a ⟨cell, hcell, hid, hlive⟩
  by_cases ha : a ∈ s.table
  · exact findSlot_eq_none hnone a ha cell hcell hid
  · exact hlive (h.table a cell hcell ha)

variable {slot : ℕ} {cell : Slot}

section

variable (h : Own s (ℓ ::ₘ F))
include h

theorem findSlot_step (hobeys : ℓ.Obeys (.findSlot w)) :
    Steps ℓ (.findSlot w) (s.findSlot w) s F := by
  obtain ⟨reclaim, hreclaim, hfits⟩ : ∃ reclaim, ℓ.reclaim.next (.findSlot w) (s.findSlot w) = some reclaim ∧
      reclaim.Fits s := by
    cases hc : ℓ.reclaim with
    | idle => exact ⟨.idle, rfl, .idle s⟩
    | active views p gone =>
      cases hfound : s.findSlot w with
      | none => exact ⟨_, rfl, by rintro _ _ _ _ ⟨⟩⟩
      | some slot =>
        refine ⟨_, rfl, ?_⟩
        rintro _ _ _ _ ⟨⟩
        exact (findSlot_eq_some hfound).2
  have hnext : ℓ.next (.findSlot w) (s.findSlot w) =
      some { ℓ with recon := ℓ.recon.next (.findSlot w) (s.findSlot w), reclaim } := by
    simp only [Local.next, next, Option.bind_some, hreclaim, Option.map_some]
    rfl
  refine ⟨_, hnext, h.recon_step rfl rfl ?_ ?_ hfits⟩
  · cases hc : ℓ.recon with
    | idle => exact .idle s
    | gated snapshot focus =>
      obtain ⟨e, he, hew⟩ := hobeys.recon snapshot focus hc
      obtain ⟨r, hr, hrw⟩ := h.head.recon.snapshot _ _ hc e he
      cases hfound : s.findSlot w with
      | some slot => exact .unfocused (h.head.recon.snapshot _ _ hc)
      | none =>
        refine .of_gated (h.head.recon.snapshot _ _ hc) ?_ ?_
        · rintro w' ⟨⟩
          exact ⟨r, hr, by rw [hrw, hew]⟩
        · rintro w' ⟨⟩
          exact gone_of_findSlot h.sound hfound
  · cases hc : ℓ.recon <;> simp [Recon.next]

theorem observe_step {seen : Worker} (hseen : s.observe slot = some seen) :
    Steps ℓ (.observe slot) seen s F := by
  obtain ⟨reclaim, hreclaim, hfits⟩ : ∃ reclaim, ℓ.reclaim.next (.observe slot) seen = some reclaim ∧
      reclaim.Fits s := by
    have hsame := h.head.reclaim
    cases hc : ℓ.reclaim with
    | idle => exact ⟨.idle, rfl, .idle s⟩
    | active views p gone =>
      rw [hc] at hsame
      cases p with
      | none => exact ⟨_, rfl, by rintro _ _ _ _ ⟨⟩⟩
      | some p =>
        obtain ⟨w, probed⟩ := p
        by_cases hslot : slot = probed
        · subst hslot
          obtain ⟨cell, hcell, hid⟩ := hsame _ _ _ _ rfl
          have hidw : seen.id = w := by
            rw [observe, hcell] at hseen
            cases hseen
            exact hid
          refine ⟨.active views none (if seen.phase.isTerminal then w :: gone else gone), ?_, by rintro _ _ _ _ ⟨⟩⟩
          simp [Reclaim.next, hidw]
        · exact ⟨.active views (some (w, probed)) gone, by simp [Reclaim.next, hslot], hsame⟩
  have hnext : ℓ.next (.observe slot) seen = some { ℓ with reclaim } := by
    simp only [Local.next, next, Option.bind_some, hreclaim, Option.map_some]
    rfl
  exact ⟨_, hnext, h.recon_step rfl rfl h.head.recon Iff.rfl hfits⟩

theorem holder_eq {w : Worker} {stage : Stage} (ht : ℓ.tenure = .holds w stage) (hcell : s.cells[w.slot]? = some cell) :
    w = ⟨w.slot, cell.id, w.phase, cell.word.load.generation⟩ ∧ cell.word.load.phase = w.phase ∧ stage.fits w.phase := by
  obtain ⟨⟨cell', hcell', hid, hword⟩, hfits⟩ := h.head.tenure.holds w _ ht
  obtain rfl : cell' = cell := Option.some.inj (hcell'.symm.trans hcell)
  rw [hid, hword, StateWord.load_new]
  exact ⟨rfl, rfl, hfits⟩

theorem openWorker_step (hobeys : ℓ.Obeys (.openWorker slot)) (hcell : s.cells[slot]? = some cell) :
    ∃ ℓ', ℓ.next (.openWorker slot) ⟨slot, cell.id, .constructing, cell.word.load.generation⟩ =
      some ℓ' ∧ Own s (ℓ' ::ₘ F) := by
  obtain ⟨w, ht, rfl⟩ := hobeys.tenure
  obtain ⟨hw, -, hfits⟩ := h.holder_eq ht hcell
  rw [show w.phase = .constructing by simpa [Stage.fits] using hfits] at hw
  have hnext : ℓ.tenure.next (.openWorker w.slot) w = some ℓ.tenure := by
    rw [ht]
    exact if_pos rfl
  refine ⟨ℓ, ?_, h⟩
  rw [← hw, Local.next, hnext]
  rfl

theorem attach_step {phase : Phase} (hobeys : ℓ.Obeys (.attach slot phase)) (hcell : s.cells[slot]? = some cell) :
    ∃ ℓ', ℓ.next (.attach slot phase)
        (if cell.word.load.phase = phase then
          some ⟨slot, cell.id, phase, cell.word.load.generation⟩ else none) = some ℓ' ∧
      Own s (ℓ' ::ₘ F) := by
  obtain ⟨w, ht, rfl, rfl⟩ := hobeys.tenure
  obtain ⟨hw, hload, hfits⟩ := h.holder_eq ht hcell
  rw [show w.phase = .running by simpa [Stage.fits] using hfits] at hw hload
  have hnext : ℓ.tenure.next (.attach w.slot .running) (some w) = some ℓ.tenure := by
    rw [ht]
    exact if_pos rfl
  refine ⟨ℓ, ?_, h⟩
  rw [if_pos hload, ← hw, Local.next, hnext]
  rfl

end

/-! ### All actions -/

end Own

/-- Actions on the registry, the capacity, the live table and the environment. -/
def Act.neutral : Act → Bool
  | .needsReconcile | .setReconciled | .beginConstruct | .endConstruct | .slots | .occupancy
  | .ownedView _ | .reserveBinding .. | .clearBinding _ | .finishBinding .. | .reserveCapacity
  | .releaseCapacity _ | .capacityLaunched _ | .lockLive | .unlockLive _ | .lookup .. | .bindLive _
  | .removeLive _ | .listLive | .env _ | .report _ => true
  | _ => false

variable {a : Act}

theorem exec_neutral {setup : Setup} {s s' : Shared} {e : Choice a} {r : Answer a} (ha : a.neutral = true)
    (hexec : exec setup a e s = some (r, s')) : Same s s' ∧ s'.reconcileGate = s.reconcileGate := by
  cases a <;> cases ha
  case beginConstruct =>
    simp only [exec] at hexec
    split_ifs at hexec <;> cases hexec <;> exact ⟨⟨rfl, rfl, rfl, rfl, rfl, rfl⟩, rfl⟩
  case reserveBinding operation fingerprint =>
    simp only [exec, reserveBinding] at hexec
    split at hexec
    · cases hexec
      exact ⟨⟨rfl, rfl, rfl, rfl, rfl, rfl⟩, rfl⟩
    · split_ifs at hexec
      cases hexec
      exact ⟨.refl _, rfl⟩
  case reserveCapacity =>
    simp only [exec] at hexec
    split at hexec <;> cases hexec <;> exact ⟨⟨rfl, rfl, rfl, rfl, rfl, rfl⟩, rfl⟩
  case lockLive | lookup | bindLive | removeLive | listLive =>
    simp only [exec] at hexec
    split_ifs at hexec
    cases hexec
    exact ⟨⟨rfl, rfl, rfl, rfl, rfl, rfl⟩, rfl⟩
  all_goals
    cases hexec
    exact ⟨⟨rfl, rfl, rfl, rfl, rfl, rfl⟩, rfl⟩

theorem next_neutral {ℓ : Local} (r : Answer a) (ha : a.neutral = true) :
    ∃ ℓ', ℓ.next a r = some ℓ' ∧ ℓ'.tenure = ℓ.tenure ∧ ℓ'.pending = ℓ.pending ∧
      ℓ'.recon = ℓ.recon ∧ (ℓ.reclaim.Fits s → ℓ'.reclaim.Fits s) := by
  cases a <;> cases ha
  case lockLive => exact ⟨_, rfl, rfl, rfl, rfl, fun _ => by rintro _ _ _ _ ⟨⟩⟩
  case unlockLive gone => exact ⟨_, rfl, rfl, rfl, rfl, fun _ => .idle s⟩
  all_goals exact ⟨_, rfl, rfl, rfl, rfl, id⟩

namespace Own

variable {setup : Setup} {s s' : Shared} {ℓ : Local} {F : Multiset Local}

/-- **Step lemma.**  Every action a thread is entitled to keeps ownership, and its answer is one the
discipline expects. -/
theorem step (h : Own s (ℓ ::ₘ F)) {a : Act} {e : Choice a} {r : Answer a} (hobeys : ℓ.Obeys a)
    (hdraws : DrawsNew a e s) (hexec : exec setup a e s = some (r, s')) : Steps ℓ a r s' F := by
  cases a with
  | lockReconcile =>
    simp only [exec] at hexec
    split_ifs at hexec with hgate
    cases hexec
    exact h.lock_step hobeys (by simpa using hgate)
  | unlockReconcile =>
    cases hexec
    exact h.unlock_step hobeys
  | freshWorkerId =>
    cases hexec
    exact ⟨_, rfl, h.fresh_step hdraws⟩
  | addSlot id key phase g => exact h.addSlot_step hobeys (Option.some.inj hexec)
  | openWorker slot =>
    obtain ⟨cell, hcell, heq⟩ := Option.map_eq_some_iff.mp hexec
    cases heq
    exact h.openWorker_step hobeys hcell
  | attach slot phase =>
    obtain ⟨cell, hcell, heq⟩ := Option.map_eq_some_iff.mp hexec
    cases heq
    exact h.attach_step hobeys hcell
  | advance w target g => exact h.advance_step hobeys hexec
  | observe slot =>
    obtain ⟨seen, hseen, heq⟩ := Option.map_eq_some_iff.mp hexec
    cases heq
    exact h.observe_step hseen
  | findSlot id =>
    cases hexec
    exact h.findSlot_step hobeys
  | append record =>
    cases e with
    | none =>
      cases hexec
      exact h.append_step hobeys (.ok ())
    | some error =>
      cases hexec
      exact h.append_step hobeys (.error error)
  | entries =>
    cases hexec
    refine h.entries_step ?_
    intro es hes
    cases e with
    | some error => cases hes
    | none =>
      cases hm : entriesOf s.records with
      | error error => simp [entries, hm, Except.map] at hes
      | ok m =>
        refine ⟨m, rfl, ?_⟩
        simpa [entries, hm, Except.map, eq_comm] using hes
  | prepare id payload =>
    cases hexec
    exact h.prepare_step hobeys
  | takePrepared id =>
    cases hexec
    exact h.takePrepared_step hobeys
  | own id o =>
    cases hexec
    exact h.own_step hobeys
  | beginStart id => exact h.beginStart_step (Option.some.inj hexec)
  | endStart id handle started => exact h.endStart_step hobeys hexec
  | disown id => exact h.disown_step (Option.some.inj hexec)
  | _ =>
    obtain ⟨hsame, hgate⟩ := exec_neutral rfl hexec
    obtain ⟨ℓ', hnext, htenure, hpending, hrecon, hreclaim⟩ := next_neutral (s := s) r rfl
    exact ⟨ℓ', hnext, h.same hsame hgate htenure hpending hrecon (hreclaim h.head.reclaim)⟩

/-! ### Runs -/

variable {H : Multiset Local}

theorem idle (h : Own s H) : Own s ({} ::ₘ H) where
  sound := h.sound
  fits := forall_mem_cons.mpr ⟨.idle s, h.fits⟩
  slots := by
    rw [filterMap_cons_none _ _ rfl]
    exact h.slots
  draws := by
    rw [filterMap_cons_none _ _ rfl]
    exact h.draws
  gate := by
    rw [countP_cons_of_neg _ (by simp)]
    exact h.gate

theorem empty (hcells : s.cells = []) (howned : s.owned = ∅) (hgate : s.reconcileGate = false)
    (hrecords : ∀ r ∈ s.records, r.worker ∈ s.drawn) : Own s 0 where
  sound :=
    { owned := by simp [howned]
      table := by simp [hcells]
      ids := by simp [LiveAt, hcells]
      cells := by simp [Known, hcells]
      records := hrecords
      sterile := by simp [hcells] }
  fits := by simp
  slots := by simp
  draws := by simp
  gate := by simp [hgate]

theorem init (setup : Setup) : Own (Shared.init setup) 0 :=
  empty rfl rfl rfl (by simp [Shared.records, Shared.init])

theorem restart (h : Own s H) (hopened : s.opened setup = some s') : Own s' 0 := by
  obtain ⟨m, -, rfl⟩ := Shared.opened_eq_some hopened
  exact empty rfl rfl rfl h.sound.records

/-- **Run rule.**  What every step of the discipline keeps, given the ownership, holds in every run. -/
theorem invariant {G : Guard Answer Choice Shared} (hspawn : G.spawn = (anyRun setup).spawn)
    (hdraws : ∀ a e s hist, G.act a e s hist → DrawsNew a e s)
    (I : Shared → Multiset Local → Prop) (hinit : I (Shared.init setup) 0) (hidle : ∀ s H, I s H → I s ({} ::ₘ H))
    (hact : ∀ a e s hist ℓ ℓ' F r s', Own s (ℓ ::ₘ F) → I s (ℓ ::ₘ F) → ℓ.Obeys a → G.act a e s hist →
      exec setup a e s = some (r, s') → ℓ.next a r = some ℓ' → I s' (ℓ' ::ₘ F))
    (hrestart : ∀ s H s', I s H → s.opened setup = some s' → I s' 0) {c : Config Answer Shared}
    (hreach : Reach (machine setup) G (Shared.init setup) c) :
    ∃ H : List Local, List.Forall₂ (Thread.Keeps discipline Local.AtRest) c.threads H ∧
      Own c.shared H ∧ I c.shared H :=
  hreach.invariant discipline (fun s H => Own s H ∧ I s H) Local.AtRest ⟨.init setup, hinit⟩
    (fun p hp => by
      rw [hspawn] at hp
      obtain ⟨operation, rfl⟩ := hp
      exact program_conduct setup operation)
    (fun s H h => ⟨h.1.idle, hidle s H h.2⟩)
    (fun a e s hist ℓ F r s' h _ hobeys hguard hexec => by
      obtain ⟨ℓ', hnext, hown⟩ := h.1.step hobeys (hdraws a e s hist hguard) hexec
      exact ⟨ℓ', hnext, hown, hact a e s hist ℓ ℓ' F r s' h.1 h.2 hobeys hguard hexec hnext⟩)
    (fun s H s' h _ hopened => ⟨h.1.restart hopened, hrestart s H s' h.2 hopened⟩)

end Own

/-- **One holder per slot.**  In every run of any number of concurrent operations, with any failures and
any restarts, no two threads hold the same slot, no two owned entries are on the same slot and none is on
a slot that a thread holds. An owned entry is on the slot of its own worker, at the entry's phase and
lease generation. -/
theorem slot_has_one_holder {c : Config Answer Shared}
    (hreach : Reach (machine setup) (anyRun setup) (Shared.init setup) c) :
    ∃ H : List Local, List.Forall₂ (fun t ℓ => discipline.after t.history = some ℓ) c.threads H ∧
      (H.filterMap (·.tenure.slot?)).Nodup ∧ ∀ (id : WorkerId) (o : Owned), c.shared.owned[id]? = some o →
        c.shared.Holds o.worker ∧ o.worker.id = id ∧ o.worker.slot ∉ H.filterMap (·.tenure.slot?) ∧
        ∀ (id' : WorkerId) (o' : Owned), c.shared.owned[id']? = some o' → o'.worker.slot = o.worker.slot → id' = id := by
  obtain ⟨H, hkeeps, hown, -⟩ := Own.invariant (G := anyRun setup) rfl (fun _ _ _ _ h => h) (fun _ _ => True) trivial
    (fun _ _ h => h) (fun _ _ _ _ _ _ _ _ _ _ _ _ _ _ _ => trivial) (fun _ _ _ _ _ => trivial) hreach
  refine ⟨H, hkeeps.imp fun _ _ h => h.after, hown.slots, fun id o ho => ?_⟩
  obtain ⟨⟨cell, hcell, hcellid, hword⟩, hid, -⟩ := hown.sound.owned id o ho
  refine ⟨⟨cell, hcell, hcellid, hword⟩, hid, fun hheld => ?_, fun id' o' ho' hslot => ?_⟩
  · obtain ⟨ℓ, hℓ, hslot⟩ := List.mem_filterMap.mp hheld
    obtain ⟨w, stage, ht, hw⟩ := eq_holds_of_slot? hslot
    exact (hown.fits ℓ hℓ).tenure.apart w stage ht id o ho hw.symm
  · -- the cell names its worker
    obtain ⟨⟨cell', hcell', hcellid', -⟩, hid', -⟩ := hown.sound.owned id' o' ho'
    rw [hslot, hcell] at hcell'
    cases hcell'
    rw [← hid', ← hid, ← hcellid', ← hcellid]

/-- A worker is in service while another thread constructs the next one. -/
theorem slot_has_one_holder_launched :
    ∃ c, Reach (machine smallPool) (anyRun smallPool) (Shared.init smallPool) c ∧ c.shared.owned.size = 1 ∧
      ∃ H : List Local, List.Forall₂ (fun t ℓ => discipline.after t.history = some ℓ) c.threads H ∧
        (H.filterMap (·.tenure.slot?)).Nodup := by
  let moves := (calls .construct 0 13 (calm 7) ++ calls (.launch ⟨5, 1, 0⟩) 1 46 (calm 8)) ++
    calls .construct 2 8 (calm 9)
  have hplay : ((play smallMachine ⟨Shared.init smallPool, []⟩ moves).map
      fun c => c.shared.owned.size) = some 1 := by decide +kernel
  obtain ⟨c, hc, hsize⟩ := Option.map_eq_some_iff.mp hplay
  have hreach := ((onlyCalls.append onlyCalls).append onlyCalls).reach hc
  obtain ⟨H, hH, hslots, -⟩ := slot_has_one_holder hreach
  exact ⟨c, hreach, hsize, H, hH, hslots⟩

end Soma.Host.Pool
