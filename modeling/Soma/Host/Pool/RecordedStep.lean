import Soma.Host.Pool.Recorded

/-! # The ledger goes on folding

One lemma per kind of action that touches slots, owned entries or records, and `Foldable.step`, which
puts them together. The heart is the append: a sequenced record is accepted (`Ledgered.accepts`), and
what it changes is only what its writer is entitled to change.
-/

namespace Soma.Host.Pool

open Std Soma.Lib Local StateWord Shared

/-! ### Slots -/

variable {target : Phase}

theorem Shared.Past.moved {s : Shared} {w : WorkerId} (h : s.Past w) {k : ℕ} {cell : Slot}
    (hcell : s.cells[k]? = some cell) {g : LeaseGeneration}
    (hallowed : Allowed cell.word.load ⟨target, g⟩) : (s.moved k cell target g).Past w := by
  intro a cell' hcell' hid
  rcases moved_eq_some hcell hcell' with ⟨rfl, rfl⟩ | ⟨-, hcell'⟩
  · have hle := h a cell hcell hid
    have hlt := mayTransitionTo_code hallowed.1
    simp only [load_new] at hlt ⊢
    omega
  · exact h a cell' hcell' hid

variable {st : Status} {w : Worker}

theorem Worker.Owns.ne (h : w.Owns st) : ∃ p, p ≠ .dead ∧ p ≠ .constructing ∧ st = some ⟨p, w.generation⟩ := by
  obtain ⟨p, hst, rfl | ⟨-, rfl | rfl⟩⟩ := h <;> exact ⟨_, by decide, by decide, hst⟩

theorem Stage.Recorded.move {stage after : Stage} {lost : Prop} (h : stage.Recorded w st lost)
    (hmove : stage.move target = some (some after)) : after.Recorded { w with phase := target } st lost := by
  cases stage <;> cases target <;> simp [Stage.move] at hmove <;> subst hmove
  case unrecorded.destroying => exact .inr h
  case claimed.destroying => exact .inl ⟨_, by decide, by decide, h⟩
  case assigned.destroying => exact .inl ⟨_, by decide, by decide, h⟩
  case owned.destroying => exact .inl h.ne
  case claimed.assigned => exact h

variable {key : PoolKeyDigest}

namespace Agrees

variable {σ : WorkerId → Status} {s : Shared} {ℓ ℓ' : Local}

theorem added (h : Agrees σ s ℓ) (hfits : ℓ.tenure.Fits s)
    (hfresh : ∀ id, (∀ r ∈ s.records, r.worker ≠ id) → σ id = none) {id : WorkerId}
    {phase : Phase} {g : LeaseGeneration} {slot : ℕ} (hobeys : ℓ.Obeys (.addSlot id key phase g))
    (hnext : ℓ.next (.addSlot id key phase g) (.ok slot) = some ℓ') : Agrees σ s ℓ' := by
  have htenure : ℓ'.tenure = .holds ⟨slot, id, phase, g⟩ (if phase = .constructing then .opened else .restored) :=
    (Option.some.inj (next_tenure hnext)).symm
  have hpending : ℓ'.pending = ℓ.pending := next_pending hnext
  have hrecon := next_recon hnext
  rcases hobeys.tenure with ⟨ht, rfl, -⟩ | ⟨-, rfl⟩
  · have hidle : ℓ.recon = .idle := by simpa [Recon.obeys] using hobeys.recon
    refine h.retenure ?_ hpending (by rw [hrecon, hidle]; rfl)
    intro w stage hw
    rw [htenure] at hw
    cases hw
    exact hfresh id (hfits.fresh id ht).2.2
  · obtain ⟨snapshot, hgated⟩ : ∃ snapshot, ℓ.recon = .gated snapshot (.suspect id g Phase.running.code) := by
      simpa [Recon.obeys] using hobeys.recon
    obtain ⟨p, hσ, -, hp⟩ := h.suspect _ _ _ _ hgated
    replace hp := hp rfl
    have hrecon' : ℓ'.recon = .gated snapshot (.restored id g) := by
      rw [hrecon, hgated]
      rfl
    constructor
    · intro w stage hw
      rw [htenure] at hw
      cases hw
      exact ⟨p, hσ, .inr ⟨rfl, hp⟩⟩
    · rw [hpending]
      exact h.pending
    · intro es f hes
      rw [hrecon'] at hes
      cases hes
      exact h.snapshot _ _ hgated
    · intro es w g' code hes
      rw [hrecon'] at hes
      cases hes
    · intro es w g' hes
      rw [hrecon'] at hes
      cases hes
      exact ⟨p, hσ, hp.elim .inl (fun hd => .inr (.inl hd))⟩

end Agrees

namespace Ledgered

variable {σ : WorkerId → Status} {s s' : Shared} {ℓ ℓ' : Local} {F : Multiset Local}
  {g : LeaseGeneration} {cell : Slot} {id : WorkerId} {owned : TreeMap WorkerId Owned} {o : Owned}

section

variable (h : Ledgered σ s (ℓ ::ₘ F))
include h

theorem moved {k : ℕ} (hcell : s.cells[k]? = some cell) (hallowed : Allowed cell.word.load ⟨target, g⟩)
    (hsterile : target = .sterile → σ cell.id = some ⟨.sterile, g⟩) (hhead : Agrees σ s ℓ')
    (hpending : ℓ'.pending = ℓ.pending) : Ledgered σ (s.moved k cell target g) (ℓ' ::ₘ F) := by
  refine h.intro rfl (fun m _ w g' _ hp => hp.moved hcell hallowed)
    (hhead.frame rfl (fun w g' _ hp => hp.moved hcell hallowed)) hpending h.owned ?_
  intro a cell' hcell' hphase
  rcases moved_eq_some hcell hcell' with ⟨rfl, rfl⟩ | ⟨-, hcell'⟩
  · rw [load_new] at hphase ⊢
    obtain rfl : target = .sterile := hphase
    exact hsterile rfl
  · exact h.sterile a cell' hcell' hphase

theorem handed {a : Act} {r : Answer a} (hnext : ℓ.next a r = some ℓ') (hcells : s'.cells = s.cells)
    (hlog : s'.log = s.log) (howned : ∀ (id : WorkerId) (o : Owned), s'.owned[id]? = some o → o.worker.Owns (σ id))
    (hpending : pendingNext ℓ.pending a r = ℓ.pending) (hrecon : ℓ.recon.next a r = ℓ.recon)
    (htenure : ∀ w stage, ℓ.tenure.next a r = some (.holds w stage) →
      stage.Recorded w (σ w.id) (s.ClaimLost w.id)) : Ledgered σ s' (ℓ' ::ₘ F) := by
  rw [← next_pending hnext] at hpending
  rw [← next_recon hnext] at hrecon
  have hhead : Agrees σ s ℓ' :=
    h.head.retenure (fun w stage ht => htenure w stage (ht ▸ next_tenure hnext)) hpending hrecon
  exact h.intro hlog (fun m _ w g _ hp => hp.frame hcells) (hhead.frame hlog (fun w g _ hp => hp.frame hcells))
    hpending howned (hcells ▸ h.sterile)

theorem advance_step (ho : Own s (ℓ ::ₘ F)) {w : Worker} (hobeys : ℓ.Obeys (.advance w target g))
    {answer : Except StateRace Worker} (hexec : s.advance w target g = some (answer, s'))
    (hnext : ℓ.next (.advance w target g) answer = some ℓ') : Ledgered σ s' (ℓ' ::ₘ F) := by
  have htenure := next_tenure hnext
  have hpending : ℓ'.pending = ℓ.pending := next_pending hnext
  have hrecon : ℓ'.recon = ℓ.recon := next_recon hnext
  rcases hobeys.tenure with ⟨stage, ht, hmove, rfl⟩ | ⟨ht, hsterile, htarget⟩
  · -- The holder: the records do not change, the stage does.
    obtain ⟨after, hafter⟩ := Option.isSome_iff_exists.mp hmove
    obtain ⟨hholds, hfits⟩ := ho.head.tenure.holds w stage ht
    have hallowed : Allowed w.packed ⟨target, w.generation⟩ := Stage.move_allowed hfits hafter
    obtain ⟨cell, hcell, hid, rfl, rfl⟩ := advance_of_holds hholds hallowed hexec
    have hload : cell.word.load = w.packed := by
      obtain ⟨cell', hcell', -, hword⟩ := hholds
      rw [hcell] at hcell'
      cases hcell'
      rw [hword, load_new]
      rfl
    refine h.moved hcell (by rwa [hload]) ?_ (h.head.retenure ?_ hpending hrecon) hpending
    · rintro rfl
      have hrecorded := h.head.tenure w stage ht
      cases stage <;> simp [Stage.move] at hafter
      rw [hid]
      exact hrecorded
    · intro w' stage' ht'
      rw [ht'] at htenure
      simp only [Tenure.next, ht, Tenure.moved, hafter, if_true] at htenure
      cases after with
      | none => cases htenure
      | some after =>
        cases htenure
        exact (h.head.tenure w stage ht).move hafter
  · -- A sterile slot: who wins it finds it recorded as sterile.
    obtain ⟨cell, hcell, ⟨rfl, hallowed, hword, rfl⟩ | ⟨⟨race, rfl⟩, rfl, -⟩⟩ :=
      advance_eq_some hexec
    · have hload : cell.word.load = w.packed := by
        rw [hword, load_new]
        rfl
      have hσ : σ cell.id = some ⟨.sterile, w.generation⟩ := by
        rw [h.sterile _ cell hcell (by rw [hload]; exact hsterile), hload, ← hsterile]
        rfl
      refine h.moved hcell (by rwa [hload]) ?_ (h.head.retenure ?_ hpending hrecon) hpending
      · rintro rfl
        rcases htarget with ⟨htarget, -⟩ | ⟨htarget, -⟩ <;> cases htarget
      · intro w' stage' ht'
        rw [ht'] at htenure
        simp only [Tenure.next, ht, Tenure.moved] at htenure
        cases htenure
        rcases htarget with ⟨rfl, hg⟩ | ⟨rfl, rfl⟩
        · exact ⟨w.generation, hσ, hg⟩
        · exact hσ
    · refine h.handed hnext rfl rfl h.owned rfl rfl ?_
      simp [Tenure.next, ht, Tenure.moved]

theorem addSlot_step (ho : Own s (ℓ ::ₘ F)) (hfresh : ∀ id, (∀ r ∈ s.records, r.worker ≠ id) → σ id = none)
    {phase : Phase} {max : ℕ} (hobeys : ℓ.Obeys (.addSlot id key phase g))
    {answer : Except Overloaded ℕ} (hexec : s.addSlot max ⟨id, key, .new phase g⟩ = (answer, s'))
    (hnext : ℓ.next (.addSlot id key phase g) answer = some ℓ') : Ledgered σ s' (ℓ' ::ₘ F) := by
  have hpending : ℓ'.pending = ℓ.pending := next_pending hnext
  rcases addSlot_eq hexec with ⟨overloaded, rfl, rfl⟩ | ⟨rfl, rfl, -⟩
  · refine h.handed hnext rfl rfl h.owned rfl rfl ?_
    rintro w stage ⟨⟩
  · -- A new slot is constructing, of a worker nobody started, or running.
    have hnew : (phase = .constructing ∧ ¬ s.Known id ∧ σ id = none) ∨ phase = .running := by
      rcases hobeys.tenure with ⟨ht, rfl, -⟩ | ⟨-, rfl⟩
      · obtain ⟨-, hknown, hrecords⟩ := ho.head.tenure.fresh id ht
        exact .inl ⟨rfl, hknown, hfresh id hrecords⟩
      · exact .inr rfl
    have hpast : ∀ m ∈ ℓ ::ₘ F, ∀ w g', m.pending = some (w, g') → s.Past w →
        Past { s with
          cells := s.cells ++ [⟨id, key, .new phase g⟩]
          table := (s.table.filter fun a => !s.isDead a) ++ [s.cells.length] } w := by
      intro m hm w g' hp hpast a cell hcell hid
      rcases getElem?_append_cell.mp hcell with hold | ⟨-, rfl⟩
      · exact hpast a cell hold hid
      · rcases hnew with ⟨-, hknown, -⟩ | rfl
        · obtain rfl : id = w := hid
          exact absurd ((ho.fits m hm).pending id g' hp) hknown
        · rw [load_new]
    have hhead : Agrees σ s ℓ' := h.head.added ho.head.tenure hfresh hobeys hnext
    refine h.intro rfl hpast (hhead.frame rfl ?_) hpending h.owned ?_
    · rw [hpending]
      exact hpast ℓ (Multiset.mem_cons_self ..)
    · intro a cell hcell hphase
      rcases getElem?_append_cell.mp hcell with hold | ⟨-, rfl⟩
      · exact h.sterile a cell hold hphase
      · rw [load_new] at hphase
        rcases hnew with ⟨rfl, -⟩ | rfl <;> cases hphase

/-! ### The prepared table -/

theorem prepare_step {payload : Prepared} (hobeys : ℓ.Obeys (.prepare id payload))
    (hnext : ℓ.next (.prepare id payload) () = some ℓ') :
    Ledgered σ { s with prepared := s.prepared.insert id payload } (ℓ' ::ₘ F) := by
  obtain ⟨w, ht, -⟩ := hobeys.tenure
  refine h.handed hnext rfl rfl h.owned rfl rfl ?_
  intro w' stage' htenure
  simp only [Tenure.next, ht] at htenure
  cases htenure
  exact h.head.tenure w .recorded ht

theorem takePrepared_step {answer : Option Prepared} (hobeys : ℓ.Obeys (.takePrepared id))
    (hnext : ℓ.next (.takePrepared id) answer = some ℓ') :
    Ledgered σ { s with prepared := s.prepared.erase id } (ℓ' ::ₘ F) := by
  obtain ⟨w, stage, ht, hstage, -⟩ := hobeys.tenure
  refine h.handed hnext rfl rfl h.owned rfl rfl ?_
  intro w' stage' htenure
  have hrecorded := h.head.tenure w stage ht
  rcases hstage with rfl | rfl <;> simp only [Tenure.next, ht, Tenure.tookPrepared] at htenure
  · split_ifs at htenure
    cases htenure
    exact hrecorded
  · cases htenure
    exact .inl ⟨_, by decide, by decide, hrecorded⟩

/-! ### The owned table -/

theorem owned_step (howned : ∀ (id : WorkerId) (o : Owned), owned[id]? = some o → o.worker.Owns (σ id)) :
    Ledgered σ { s with owned } (ℓ ::ₘ F) :=
  h.intro rfl (fun _ _ _ _ _ hp => hp) (h.head.frame rfl (fun _ _ _ hp => hp)) rfl howned h.sterile

theorem owns_insert (ho : o.worker.Owns (σ id)) (id' : WorkerId) (o' : Owned)
    (hget : (s.owned.insert id o)[id']? = some o') : o'.worker.Owns (σ id') := by
  rw [TreeMap.getElem?_insert] at hget
  split_ifs at hget with heq
  · obtain rfl : id = id' := by simpa using heq
    cases hget
    exact ho
  · exact h.owned id' o' hget

theorem owns_erase (id' : WorkerId) (o' : Owned) (hget : (s.owned.erase id)[id']? = some o') :
    o'.worker.Owns (σ id') := by
  rw [TreeMap.getElem?_erase] at hget
  split_ifs at hget
  exact h.owned id' o' hget

theorem own_step (hobeys : ℓ.Obeys (.own id o)) (hnext : ℓ.next (.own id o) () = some ℓ') :
    Ledgered σ { s with owned := s.owned.insert id o } (ℓ' ::ₘ F) := by
  obtain ⟨stage, ht, hstage, rfl⟩ := hobeys.tenure
  refine h.handed hnext rfl rfl (h.owns_insert ?_) rfl rfl ?_
  · have hrecorded := h.head.tenure _ stage ht
    rcases hstage with rfl | rfl
    · exact hrecorded
    · exact hrecorded
  · rintro w' stage' ⟨⟩

theorem beginStart_step {answer : Except LifecycleError (Option LauncherHandle)}
    (hexec : s.beginStart id = (answer, s')) (hnext : ℓ.next (.beginStart id) answer = some ℓ') :
    Ledgered σ s' (ℓ' ::ₘ F) := by
  obtain rfl : ℓ = ℓ' := Option.some.inj hnext
  unfold beginStart at hexec
  split at hexec
  · cases hexec
    exact h
  · rename_i o ho
    split_ifs at hexec
    · cases hexec
      exact h
    · cases hexec
      exact h
    · cases hexec
      exact h.owned_step (h.owns_insert (h.owned id o ho))

theorem disown_step (hsound : Sound s) {answer : Except LifecycleError Owned} (hexec : s.disown id = (answer, s'))
    (hnext : ℓ.next (.disown id) answer = some ℓ') : Ledgered σ s' (ℓ' ::ₘ F) := by
  unfold disown at hexec
  split at hexec
  · cases hexec
    exact h.handed hnext rfl rfl h.owned rfl rfl fun w stage ht => h.head.tenure w stage (Option.some.inj ht)
  · rename_i o ho
    split_ifs at hexec
    · cases hexec
      exact h.handed hnext rfl rfl h.owned rfl rfl fun w stage ht => h.head.tenure w stage (Option.some.inj ht)
    · cases hexec
      refine h.handed hnext rfl rfl h.owns_erase rfl rfl ?_
      rintro w stage ⟨⟩
      have howns := h.owned id o ho
      rw [← (hsound.owned id o ho).2.1] at howns
      exact howns

theorem run_step (hsound : Sound s) (ho : s.owned[id]? = some o) (hcell : s.cells[o.worker.slot]? = some cell)
    (hidc : cell.id = id) (hassigned : o.worker.phase = .assigned)
    (hword : cell.word = .new .assigned o.worker.generation)
    (howned : ∀ (id' : WorkerId) (o' : Owned), owned[id']? = some o' →
      (id' = id ∧ o'.worker = { o.worker with phase := .running }) ∨ s.owned[id']? = some o')
    (htenure : ℓ'.tenure = ℓ.tenure) (hrecon : ℓ'.recon = ℓ.recon)
    (hpending : ℓ'.pending = some (id, o.worker.generation)) :
    Ledgered σ { s.moved o.worker.slot cell .running o.worker.generation with owned } (ℓ' ::ₘ F) := by
  have hload : cell.word.load = ⟨.assigned, o.worker.generation⟩ := by rw [hword, load_new]
  have hallowed : Allowed cell.word.load ⟨.running, o.worker.generation⟩ := by
    rw [hload]
    exact ⟨rfl, rfl⟩
  have hσ : σ id = some ⟨.assigned, o.worker.generation⟩ := by
    obtain ⟨p, hp, rfl | ⟨hrunning, -⟩⟩ := h.owned id o ho
    · exact hp
    · rw [hassigned] at hrunning
      cases hrunning
  -- The other slots of the worker are dead: two live slots are never of one worker.
  have hpast : Past (s.moved o.worker.slot cell .running o.worker.generation) id := by
    intro a cell' hcell' hid'
    rcases moved_eq_some hcell hcell' with ⟨rfl, rfl⟩ | ⟨heq, hcell'⟩
    · rw [load_new]
    · by_cases hdead : cell'.word.load.phase = .dead
      · rw [hdead]
        decide
      · refine absurd (hsound.ids a o.worker.slot id ⟨cell', hcell', hid', hdead⟩ ?_) heq
        exact ⟨cell, hcell, hidc, by simp [hload]⟩
  have hold : ∀ m ∈ ℓ ::ₘ F, ∀ g, m.pending ≠ some (id, g) := by
    intro m hm g hp
    have hle := ((h.agrees m hm).pending id g hp).2 _ cell hcell hidc
    rw [hload] at hle
    simp [Phase.code] at hle
  refine ⟨?_, ?_, ?_, ?_⟩
  · intro m hm
    rcases Multiset.mem_cons.mp hm with rfl | hm
    · refine ⟨?_, ?_, hrecon ▸ h.head.snapshot, hrecon ▸ h.head.suspect, hrecon ▸ h.head.restored⟩
      · rw [htenure]
        exact h.head.tenure
      · intro w g hp
        rw [hpending] at hp
        cases hp
        exact ⟨.inl hσ, hpast⟩
    · exact (h.tail hm).frame rfl (fun w g _ hp => hp.moved hcell hallowed)
  · intro id' o' ho'
    rcases howned id' o' ho' with ⟨rfl, hworker⟩ | hold
    · rw [hworker]
      exact ⟨_, hσ, .inl rfl⟩
    · exact h.owned id' o' hold
  · intro a cell' hcell' hphase
    rcases moved_eq_some hcell hcell' with ⟨rfl, rfl⟩ | ⟨-, hcell'⟩
    · rw [load_new] at hphase
      cases hphase
    · exact h.sterile a cell' hcell' hphase
  · refine nodup_cons_of (nodup_tail h.pending) ?_
    intro w hw m hm hmw
    obtain ⟨⟨w', g⟩, hmp, rfl⟩ := Option.map_eq_some_iff.mp hmw
    rw [hpending] at hw
    cases hw
    exact hold m (Multiset.mem_cons_of_mem hm) g hmp

theorem endStart_step (hsound : Sound s) {handle : Option LauncherHandle} {started : Except StartFault Unit}
    {answer : StartEnd} (hexec : s.endStart id handle started = some (answer, s'))
    (hnext : ℓ.next (.endStart id handle started) answer = some ℓ') : Ledgered σ s' (ℓ' ::ₘ F) := by
  rcases hsound.endStart_eq hexec with ⟨rfl, rfl⟩ | ⟨o, ho, hcases⟩
  · obtain rfl : ℓ = ℓ' := Option.some.inj hnext
    exact h
  have howns := h.owned id o ho
  rcases hcases with ⟨fault, rfl, rfl, rfl⟩ | ⟨rfl, rfl⟩ |
    ⟨cell, hcell, hidc, hassigned, hword, rfl, rfl⟩
  · refine h.handed hnext rfl rfl ?_ rfl rfl ?_
    · intro id' o' hget
      rw [TreeMap.getElem?_erase] at hget
      split_ifs at hget with heq
      rw [TreeMap.getElem?_insert, if_neg heq] at hget
      exact h.owned id' o' hget
    · rintro w stage ⟨⟩
      rw [← (hsound.owned id o ho).2.1] at howns
      exact howns
  · obtain rfl : ℓ = ℓ' := Option.some.inj hnext
    exact h.owned_step (h.owns_insert howns)
  · refine h.run_step hsound ho hcell hidc hassigned hword ?_
      (Option.some.inj (next_tenure hnext)).symm (next_recon hnext) ?_
    · intro id' o' hget
      rw [TreeMap.getElem?_insert] at hget
      split_ifs at hget with heq
      · cases hget
        obtain rfl : id = id' := by simpa using heq
        exact .inl ⟨rfl, rfl⟩
      · rw [TreeMap.getElem?_insert, if_neg heq] at hget
        exact .inr hget
    · rw [next_pending hnext, ← (hsound.owned id o ho).2.1]
      rfl

/-! ### Reads under the reconcile gate -/

theorem refocus (hcells : s'.cells = s.cells) (howned : s'.owned = s.owned) (hlog : s'.log = s.log) {a : Act}
    {r : Answer a} (hnext : ℓ.next a r = some ℓ') (htenure : ℓ.tenure.next a r = some ℓ.tenure)
    (hpending : pendingNext ℓ.pending a r = ℓ.pending)
    (hrecon : ∀ es f, ℓ.recon.next a r = .gated es f →
      (∀ e ∈ es, ∃ st, σ e.worker = some st ∧ e.phase.code ≤ st.phase.code) ∧
        (f = .none ∨ ∃ w, f = .looking w)) :
    Ledgered σ s' (ℓ' ::ₘ F) := by
  rw [next_tenure hnext] at htenure
  rw [← next_pending hnext] at hpending
  rw [← next_recon hnext] at hrecon
  refine h.same hcells howned hlog ⟨?_, ?_, ?_, ?_, ?_⟩ hpending
  · rw [Option.some.inj htenure]
    exact h.head.tenure
  · rw [hpending]
    exact h.head.pending
  · exact fun es f hc => (hrecon es f hc).1
  · intro es w g code hc
    rcases (hrecon es _ hc).2 with hf | ⟨w', hf⟩ <;> cases hf
  · intro es w g hc
    rcases (hrecon es _ hc).2 with hf | ⟨w', hf⟩ <;> cases hf

theorem lock_step (hnext : ℓ.next .lockReconcile () = some ℓ') :
    Ledgered σ { s with reconcileGate := true } (ℓ' ::ₘ F) := by
  refine h.refocus rfl rfl rfl hnext rfl rfl ?_
  rintro es f ⟨⟩
  exact ⟨by simp, .inl rfl⟩

theorem unlock_step (hnext : ℓ.next .unlockReconcile () = some ℓ') :
    Ledgered σ { s with reconcileGate := false } (ℓ' ::ₘ F) := by
  refine h.refocus rfl rfl rfl hnext rfl rfl ?_
  rintro es f ⟨⟩

theorem findSlot_step {w : WorkerId} {found : Option ℕ} (hnext : ℓ.next (.findSlot w) found = some ℓ') :
    Ledgered σ s (ℓ' ::ₘ F) := by
  refine h.refocus rfl rfl rfl hnext rfl rfl ?_
  intro es f hc
  cases hrecon : ℓ.recon with
  | idle =>
    rw [hrecon] at hc
    cases hc
  | gated snapshot focus =>
    rw [hrecon] at hc
    cases hc
    refine ⟨h.head.snapshot _ _ hrecon, ?_⟩
    split_ifs
    · exact .inr ⟨w, rfl⟩
    · exact .inl rfl

end

theorem entries_step {m : Entries} (hm : entriesOf s.records = .ok m) (h : Ledgered (statusOf m) s (ℓ ::ₘ F))
    {answer : Except LedgerError (List Entry)} (hanswer : ∀ es, answer = .ok es → es = m.values)
    (hnext : ℓ.next .entries answer = some ℓ') : Ledgered (statusOf m) s (ℓ' ::ₘ F) := by
  cases answer with
  | error error =>
    exact h.handed hnext rfl rfl h.owned rfl rfl fun w stage ht => h.head.tenure w stage (Option.some.inj ht)
  | ok es =>
    refine h.refocus rfl rfl rfl hnext rfl rfl ?_
    intro es' f hc
    cases hrecon : ℓ.recon with
    | idle =>
      rw [hrecon] at hc
      cases hc
    | gated snapshot focus =>
      rw [hrecon] at hc
      cases hc
      refine ⟨?_, .inl rfl⟩
      intro e he
      rw [hanswer es rfl] at he
      obtain ⟨w, hw⟩ := Table.mem_values.mp he
      have hworker := (entriesOf_worker hm hw).1
      refine ⟨e.status, ?_, Nat.le_refl _⟩
      rw [statusOf, hworker, hw]
      rfl

end Ledgered

end Soma.Host.Pool
