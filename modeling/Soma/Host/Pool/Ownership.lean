import Mathlib.Data.Multiset.Filter
import Soma.Host.Pool.Slots

/-! # Who owns a worker

The invariant that ties threads, tables and slots together, over every interleaving, every failure
and every restart:

* **`Sound`**: what the shared state says of itself. An owned entry is on the slot of its worker, in
  its state; a slot outside the table is dead; no two live slots are of one worker; a sterile slot has
  its payload.
* **`Fits`**: what one thread holds is what it believes: its handle is in the state its stage says, no
  entry of the owned table is on the same slot.
* **`Own`**: all threads together. No two threads hold one slot, draw one identity or pass the
  reconcile gate.

Its step lemma `Own.step` also says that an answer the discipline excludes never comes: a holder never
loses a compare-and-swap.
-/

namespace Soma.Host.Pool

open Std Soma.Lib Multiset Tenure Shared

/-- The worker a reconcile pass is at. -/
def Focus.worker? : Focus → Option WorkerId
  | none => .none
  | looking w | suspect w _ _ | restored w _ => some w

/-- The worker a reconcile pass found without a slot. -/
def Focus.gone? : Focus → Option WorkerId
  | looking w | suspect w _ _ => some w
  | _ => .none

/-- A drawn identity that has no slot yet. -/
def Tenure.drawn? : Tenure → Option WorkerId
  | drawn id => some id
  | _ => none

theorem Tenure.eq_holds_of_slot? {t : Tenure} {k : ℕ} (h : t.slot? = some k) :
    ∃ w stage, t = .holds w stage ∧ w.slot = k := by
  cases t <;> simp_all [slot?]

theorem Tenure.eq_drawn_of_drawn? {t : Tenure} {id : WorkerId} (h : t.drawn? = some id) : t = .drawn id := by
  cases t <;> simp_all [drawn?]

/-- What the shared state says of itself. -/
structure Sound (s : Shared) : Prop where
  owned : ∀ (id : WorkerId) (o : Owned), s.owned[id]? = some o →
    s.Holds o.worker ∧ o.worker.id = id ∧ (o.worker.phase = .assigned ∨ o.worker.phase = .running)
  table : ∀ (slot : ℕ) (cell : Slot), s.cells[slot]? = some cell → slot ∉ s.table →
    cell.word.load.phase = .dead
  ids : ∀ a b id, s.LiveAt a id → s.LiveAt b id → a = b
  cells : ∀ id, s.Known id → id ∈ s.drawn
  records : ∀ r ∈ s.records, r.worker ∈ s.drawn
  sterile : ∀ (slot : ℕ) (cell : Slot), s.cells[slot]? = some cell →
    cell.word.load.phase = .sterile → cell.id ∈ s.prepared

/-- The worker a thread holds is there. -/
structure Tenure.Fits (s : Shared) (t : Tenure) : Prop where
  holds : ∀ w stage, t = holds w stage → s.Holds w ∧ stage.fits w.phase = true
  apart : ∀ w stage, t = .holds w stage → ∀ (id : WorkerId) (o : Owned), s.owned[id]? = some o →
    o.worker.slot ≠ w.slot
  payload : ∀ w stage, t = .holds w stage → stage = .won ∨ stage = .published → w.id ∈ s.prepared
  fresh : ∀ id, t = .drawn id → id ∈ s.drawn ∧ ¬ s.Known id ∧ ∀ r ∈ s.records, r.worker ≠ id

/-- The reconcile pass is about workers of the ledger, and of those without a slot. -/
structure Recon.Fits (s : Shared) (c : Recon) : Prop where
  snapshot : ∀ es f, c = gated es f → ∀ e ∈ es, ∃ r ∈ s.records, r.worker = e.worker
  focus : ∀ es f w, c = gated es f → f.worker? = some w → ∃ r ∈ s.records, r.worker = w
  gone : ∀ es f w, c = gated es f → f.gone? = some w → s.Gone w

variable (s : Shared)

/-- The slot looked at is the worker's. -/
def Reclaim.Fits (c : Reclaim) : Prop :=
  ∀ views w slot gone, c = active views (some (w, slot)) gone →
    ∃ cell, s.cells[slot]? = some cell ∧ cell.id = w

/-- What a thread holds is there. -/
structure Fits (s : Shared) (ℓ : Local) : Prop where
  tenure : ℓ.tenure.Fits s
  pending : ∀ w g, ℓ.pending = some (w, g) → s.Known w
  recon : ℓ.recon.Fits s
  reclaim : ℓ.reclaim.Fits s

/-- The threads and the shared state together. -/
structure Own (s : Shared) (H : Multiset Local) : Prop where
  sound : Sound s
  fits : ∀ ℓ ∈ H, Fits s ℓ
  slots : (H.filterMap fun ℓ => ℓ.tenure.slot?).Nodup
  draws : (H.filterMap fun ℓ => ℓ.tenure.drawn?).Nodup
  gate : H.countP (fun ℓ => ℓ.recon ≠ .idle) = if s.reconcileGate then 1 else 0

/-- The discipline goes on from an answer, and the invariant holds of the shared state behind it. -/
abbrev Steps (ℓ : Local) (a : Act) (r : Answer a) (s : Shared) (F : Multiset Local) : Prop :=
  ∃ ℓ', ℓ.next a r = some ℓ' ∧ Own s (ℓ' ::ₘ F)

/-! ### Frames -/

theorem Tenure.Fits.idle : idle.Fits s := by
  constructor <;> simp

theorem Recon.Fits.idle : Recon.idle.Fits s := by
  constructor <;> simp

theorem Reclaim.Fits.idle : Reclaim.idle.Fits s := by
  simp [Reclaim.Fits]

theorem Fits.idle : Fits s {} :=
  ⟨.idle s, by simp, .idle s, .idle s⟩

variable {s s' : Shared} {t : Tenure}

theorem Tenure.Fits.frame (h : t.Fits s)
    (hcell : ∀ w stage, t = .holds w stage → s'.cells[w.slot]? = s.cells[w.slot]?)
    (howned : ∀ w stage, t = .holds w stage → ∀ (id : WorkerId) (o : Owned),
      s'.owned[id]? = some o → o.worker.slot ≠ w.slot)
    (hprepared : ∀ w stage, t = .holds w stage → stage = .won ∨ stage = .published →
      w.id ∈ s.prepared → w.id ∈ s'.prepared)
    (hfresh : ∀ id, t = .drawn id → id ∈ s'.drawn ∧ ¬ s'.Known id ∧ ∀ r ∈ s'.records, r.worker ≠ id) :
    t.Fits s' where
  holds w stage ht := by
    obtain ⟨⟨cell, hc, hid, hword⟩, hfits⟩ := h.holds w stage ht
    exact ⟨⟨cell, by rw [hcell w stage ht, hc], hid, hword⟩, hfits⟩
  apart := howned
  payload w stage ht hstage := hprepared w stage ht hstage (h.payload w stage ht hstage)
  fresh := hfresh

theorem Tenure.Fits.of_holds {w : Worker} {stage : Stage} (hholds : s.Holds w) (hfits : stage.fits w.phase = true)
    (hapart : ∀ (id : WorkerId) (o : Owned), s.owned[id]? = some o → o.worker.slot ≠ w.slot)
    (hpayload : stage = .won ∨ stage = .published → w.id ∈ s.prepared) : (Tenure.holds w stage).Fits s := by
  constructor
  · rintro _ _ ⟨⟩
    exact ⟨hholds, hfits⟩
  · rintro _ _ ⟨⟩
    exact hapart
  · rintro _ _ ⟨⟩
    exact hpayload
  · rintro _ ⟨⟩

theorem Recon.Fits.of_gated {es : List Entry} {f : Focus}
    (hsnapshot : ∀ e ∈ es, ∃ r ∈ s.records, r.worker = e.worker)
    (hfocus : ∀ w, f.worker? = some w → ∃ r ∈ s.records, r.worker = w)
    (hgone : ∀ w, f.gone? = some w → s.Gone w) : (Recon.gated es f).Fits s := by
  constructor
  · rintro _ _ ⟨⟩
    exact hsnapshot
  · rintro _ _ w ⟨⟩
    exact hfocus w
  · rintro _ _ w ⟨⟩
    exact hgone w

theorem Recon.Fits.unfocused {es : List Entry} (hsnapshot : ∀ e ∈ es, ∃ r ∈ s.records, r.worker = e.worker) :
    (Recon.gated es .none).Fits s := by
  refine .of_gated hsnapshot ?_ ?_ <;> rintro w ⟨⟩

variable {c : Recon}

theorem Recon.Fits.frame (h : c.Fits s) (hrecords : ∀ r ∈ s.records, r ∈ s'.records)
    (hgone : ∀ es f w, c = .gated es f → f.gone? = some w → s.Gone w → s'.Gone w) : c.Fits s' where
  snapshot es f hc e he := by
    obtain ⟨r, hmem, hw⟩ := h.snapshot es f hc e he
    exact ⟨r, hrecords r hmem, hw⟩
  focus es f w hc hw := by
    obtain ⟨r, hmem, hw'⟩ := h.focus es f w hc hw
    exact ⟨r, hrecords r hmem, hw'⟩
  gone es f w hc hw := hgone es f w hc hw (h.gone es f w hc hw)

theorem Reclaim.Fits.frame {c : Reclaim} (h : c.Fits s) (hev : s.Evolves s') : c.Fits s' := by
  intro views w slot gone hc
  obtain ⟨cell, hcell, hid⟩ := h views w slot gone hc
  obtain ⟨cell', hcell', hid', -⟩ := hev slot cell hcell
  exact ⟨cell', hcell', by rw [hid', hid]⟩

theorem Fits.frame {m : Local} {table : List ℕ} {prepared : TreeMap WorkerId Prepared}
    {owned : TreeMap WorkerId Owned} {drawn : List WorkerId} (h : Fits s m)
    (ht : t.Fits { s with table, prepared, owned, drawn }) :
    Fits { s with table, prepared, owned, drawn } { m with tenure := t } :=
  ⟨ht, h.pending, h.recon.frame (fun _ hr => hr) (fun _ _ _ _ _ hg => hg), h.reclaim⟩

/-- The parts of the shared state that ownership is about. -/
structure Same (s s' : Shared) : Prop where
  cells : s'.cells = s.cells
  table : s'.table = s.table
  owned : s'.owned = s.owned
  prepared : s'.prepared = s.prepared
  drawn : s'.drawn = s.drawn
  log : s'.log = s.log

theorem Same.refl (s : Shared) : Same s s :=
  ⟨rfl, rfl, rfl, rfl, rfl, rfl⟩

variable {id : WorkerId}

section

variable (h : Same s s')
include h

theorem Same.records : s'.records = s.records := by
  rw [Shared.records, h.log, Shared.records]

theorem Same.holds {w : Worker} : s'.Holds w ↔ s.Holds w := by
  rw [Shared.Holds, Shared.Holds, h.cells]

theorem Same.liveAt {a : ℕ} : s'.LiveAt a id ↔ s.LiveAt a id := by
  rw [Shared.LiveAt, Shared.LiveAt, h.cells]

theorem Same.known : s'.Known id ↔ s.Known id := by
  rw [Known, Known, h.cells]

theorem Same.gone : s'.Gone id ↔ s.Gone id := by
  simp [Gone, h.liveAt]

theorem Same.sound (hs : Sound s) : Sound s' where
  owned id o ho := by
    rw [h.owned] at ho
    rw [h.holds]
    exact hs.owned id o ho
  table slot cell hc ht := by
    rw [h.cells] at hc
    rw [h.table] at ht
    exact hs.table slot cell hc ht
  ids a b id ha hb := hs.ids a b id (h.liveAt.mp ha) (h.liveAt.mp hb)
  cells id hk := by
    rw [h.drawn]
    exact hs.cells id (h.known.mp hk)
  records r hr := by
    rw [h.records] at hr
    rw [h.drawn]
    exact hs.records r hr
  sterile slot cell hc hp := by
    rw [h.cells] at hc
    rw [h.prepared]
    exact hs.sterile slot cell hc hp

theorem Same.evolves : s.Evolves s' :=
  .refl_of_cells h.cells

theorem Same.tenure (ht : t.Fits s) : t.Fits s' :=
  ht.frame (fun _ _ _ => by rw [h.cells])
    (fun w stage hw id o ho => ht.apart w stage hw id o (by rwa [h.owned] at ho))
    (fun _ _ _ _ hp => by rwa [h.prepared])
    (fun id hid => by
      rw [h.drawn, h.known, h.records]
      exact ht.fresh id hid)

theorem Same.recon (hc : c.Fits s) : c.Fits s' :=
  hc.frame (fun _ hr => by rwa [h.records]) (fun _ _ _ _ _ hg => h.gone.mpr hg)

theorem Same.fits {m : Local} (hm : Fits s m) : Fits s' m :=
  ⟨h.tenure hm.tenure, fun w g hp => h.known.mpr (hm.pending w g hp), h.recon hm.recon,
    hm.reclaim.frame h.evolves⟩

end

/-! ### The thread that acts and the others -/

section threads

variable {α : Type} {f : Local → Option α} {ℓ ℓ' : Local} {F : Multiset Local}

theorem nodup_tail (h : ((ℓ ::ₘ F).filterMap f).Nodup) : (F.filterMap f).Nodup := by
  cases hf : f ℓ with
  | none => rwa [filterMap_cons_none _ _ hf] at h
  | some x =>
    rw [filterMap_cons_some _ _ _ hf] at h
    exact (nodup_cons.mp h).2

theorem nodup_head (h : ((ℓ ::ₘ F).filterMap f).Nodup) {x : α} (hx : f ℓ = some x) : ∀ m ∈ F, f m ≠ some x := by
  rw [filterMap_cons_some _ _ _ hx] at h
  intro m hm hfm
  exact (nodup_cons.mp h).1 ((mem_filterMap _ _).mpr ⟨m, hm, hfm⟩)

theorem nodup_cons_of (hF : (F.filterMap f).Nodup) (hnew : ∀ x, f ℓ' = some x → ∀ m ∈ F, f m ≠ some x) :
    ((ℓ' ::ₘ F).filterMap f).Nodup := by
  cases hf : f ℓ' with
  | none => rwa [filterMap_cons_none _ _ hf]
  | some x =>
    rw [filterMap_cons_some _ _ _ hf, nodup_cons]
    refine ⟨?_, hF⟩
    intro hmem
    obtain ⟨m, hm, hfm⟩ := (mem_filterMap _ _).mp hmem
    exact hnew x hf m hm hfm

theorem nodup_replace (h : ((ℓ ::ₘ F).filterMap f).Nodup) (hle : f ℓ' = f ℓ ∨ f ℓ' = none) :
    ((ℓ' ::ₘ F).filterMap f).Nodup := by
  refine nodup_cons_of (nodup_tail h) ?_
  intro x hx
  rcases hle with heq | hnone
  · exact nodup_head h (heq ▸ hx)
  · rw [hnone] at hx
    cases hx

end threads

namespace Own

variable {s s' : Shared} {ℓ ℓ' : Local} {F : Multiset Local} (h : Own s (ℓ ::ₘ F))
include h

theorem head : Fits s ℓ :=
  h.fits ℓ (mem_cons_self ℓ F)

variable {m : Local}

theorem tail (hm : m ∈ F) : Fits s m :=
  h.fits m (mem_cons_of_mem hm)

theorem intro (hsound : Sound s') (hhead : Fits s' ℓ') (htail : ∀ m ∈ F, Fits s' m)
    (hslot : ∀ k, ℓ'.tenure.slot? = some k → ℓ.tenure.slot? = some k ∨
      ∀ m ∈ F, m.tenure.slot? ≠ some k)
    (hdrawn : ∀ id, ℓ'.tenure.drawn? = some id → ∀ m ∈ F, m.tenure.drawn? ≠ some id)
    (hrecon : ℓ'.recon = .idle ↔ ℓ.recon = .idle) (hgate : s'.reconcileGate = s.reconcileGate) :
    Own s' (ℓ' ::ₘ F) where
  sound := hsound
  fits := forall_mem_cons.mpr ⟨hhead, htail⟩
  slots := by
    refine nodup_cons_of (nodup_tail h.slots) ?_
    intro k hk
    rcases hslot k hk with hsame | hnew
    · exact nodup_head h.slots hsame
    · exact hnew
  draws := nodup_cons_of (nodup_tail h.draws) hdrawn
  gate := by
    have hg := h.gate
    rw [countP_cons] at hg ⊢
    rw [hgate, ← hg]
    simp [hrecon]

theorem slot_ne {w : Worker} {stage : Stage} (ht : ℓ.tenure = .holds w stage) (hm : m ∈ F) {w' : Worker}
    {stage' : Stage} (ht' : m.tenure = .holds w' stage') : w'.slot ≠ w.slot := by
  intro heq
  refine nodup_head h.slots (x := w.slot) (by simp [ht, slot?]) m hm ?_
  simp [ht', slot?, heq]

theorem others_ungated (hℓ : ℓ.recon ≠ .idle) (hm : m ∈ F) : m.recon = .idle := by
  by_contra hne
  have hg := h.gate
  rw [countP_cons, if_pos hℓ] at hg
  have hpos : 0 < F.countP (fun ℓ => ℓ.recon ≠ .idle) := countP_pos.mpr ⟨m, hm, hne⟩
  split_ifs at hg
  all_goals omega

theorem same (hsame : Same s s') (hgate : s'.reconcileGate = s.reconcileGate) (htenure : ℓ'.tenure = ℓ.tenure)
    (hpending : ℓ'.pending = ℓ.pending) (hrecon : ℓ'.recon = ℓ.recon) (hreclaim : ℓ'.reclaim.Fits s) :
    Own s' (ℓ' ::ₘ F) := by
  refine h.intro (hsame.sound h.sound) ?_ (fun m hm => hsame.fits (h.tail hm)) ?_ ?_ ?_ hgate
  · refine ⟨?_, ?_, ?_, hreclaim.frame hsame.evolves⟩
    · rw [htenure]
      exact hsame.tenure h.head.tenure
    · rw [hpending]
      exact fun w g hp => hsame.known.mpr (h.head.pending w g hp)
    · rw [hrecon]
      exact hsame.recon h.head.recon
  · rw [htenure]
    exact fun k hk => .inl hk
  · rw [htenure]
    exact fun id hid => nodup_head h.draws hid
  · rw [hrecon]

end Own

/-! ### Moving a slot -/

variable {stage : Stage}

theorem Stage.move_allowed {p target : Phase} {g : LeaseGeneration} {after : Option Stage}
    (hfits : stage.fits p = true) (hmove : stage.move target = some after) :
    StateWord.Allowed ⟨p, g⟩ ⟨target, g⟩ := by
  cases stage <;> cases target <;> simp [Stage.move] at hmove <;> simp [Stage.fits] at hfits
  all_goals
    first
    | (subst hfits; exact ⟨rfl, rfl⟩)
    | (rcases hfits with rfl | rfl <;> exact ⟨rfl, rfl⟩)

theorem Stage.move_fits {stage after : Stage} {target : Phase} (hmove : stage.move target = some (some after)) :
    after.fits target = true ∧ after ≠ .won ∧ after ≠ .published := by
  cases stage <;> cases target <;> simp [Stage.move] at hmove <;> subst hmove <;> decide

theorem Stage.fits_ne {p : Phase} (h : stage.fits p = true) : p ≠ .sterile ∧ p ≠ .dead := by
  cases stage <;> cases p <;> simp_all [Stage.fits]

section set

variable {s : Shared} {k : ℕ} {cell : Slot} {target : Phase} {g : LeaseGeneration}

def Shared.moved (s : Shared) (k : ℕ) (cell : Slot) (target : Phase) (g : LeaseGeneration) : Shared :=
  { s with cells := s.cells.set k { cell with word := .new target g } }

theorem Shared.moved_ne {a : ℕ} (hne : a ≠ k) : (s.moved k cell target g).cells[a]? = s.cells[a]? :=
  List.getElem?_set_ne (Ne.symm hne)

variable (hcell : s.cells[k]? = some cell)
include hcell

theorem Shared.moved_self : (s.moved k cell target g).cells[k]? = some { cell with word := .new target g } :=
  List.getElem?_set_self (List.getElem?_eq_some_iff.mp hcell).1

theorem Shared.moved_eq_some {a : ℕ} {cell' : Slot} (h : (s.moved k cell target g).cells[a]? = some cell') :
    (a = k ∧ cell' = { cell with word := .new target g }) ∨ (a ≠ k ∧ s.cells[a]? = some cell') := by
  by_cases heq : a = k
  · rw [heq, moved_self hcell] at h
    exact .inl ⟨heq, (Option.some.inj h).symm⟩
  · rw [moved_ne heq] at h
    exact .inr ⟨heq, h⟩

theorem Shared.known_of_moved {id : WorkerId} (h : (s.moved k cell target g).Known id) : s.Known id := by
  obtain ⟨a, cell', hcell', hid⟩ := h
  rcases moved_eq_some hcell hcell' with ⟨rfl, rfl⟩ | ⟨-, hcell'⟩
  · exact ⟨a, cell, hcell, hid⟩
  · exact ⟨a, cell', hcell', hid⟩

theorem Tenure.Fits.moved {t : Tenure} (ht : t.Fits s) (hslot : t.slot? ≠ some k) : t.Fits (s.moved k cell target g) := by
  refine ht.frame ?_ ht.apart (fun _ _ _ _ hp => hp) ?_
  · rintro w stage rfl
    refine moved_ne ?_
    rintro rfl
    exact hslot rfl
  · intro id hid
    obtain ⟨hmem, hknown, hrecords⟩ := ht.fresh id hid
    exact ⟨hmem, fun hk => hknown (known_of_moved hcell hk), hrecords⟩

variable (hlive : cell.word.load.phase ≠ .dead)
include hlive

theorem Sound.moved (hs : Sound s) (howned : ∀ (id : WorkerId) (o : Owned), s.owned[id]? = some o → o.worker.slot ≠ k)
    (hsterile : target = .sterile → cell.id ∈ s.prepared) : Sound (s.moved k cell target g) where
  owned id o ho := by
    obtain ⟨⟨cell', hcell', hid, hword⟩, hrest⟩ := hs.owned id o ho
    exact ⟨⟨cell', by rw [moved_ne (howned id o ho), hcell'], hid, hword⟩, hrest⟩
  table a cell' hcell' ha := by
    rcases moved_eq_some hcell hcell' with ⟨rfl, -⟩ | ⟨-, hcell'⟩
    · exact absurd (hs.table a cell hcell ha) hlive
    · exact hs.table a cell' hcell' ha
  ids a b id ha hb :=
    hs.ids a b id (liveAt_of_set hcell hlive ha) (liveAt_of_set hcell hlive hb)
  cells id hk := hs.cells id (known_of_moved hcell hk)
  records := hs.records
  sterile a cell' hcell' hphase := by
    rcases moved_eq_some hcell hcell' with ⟨rfl, rfl⟩ | ⟨-, hcell'⟩
    · rw [StateWord.load_new] at hphase
      exact hsterile hphase
    · exact hs.sterile a cell' hcell' hphase

theorem Shared.gone_moved {id : WorkerId} (h : s.Gone id) : (s.moved k cell target g).Gone id :=
  fun a ha => h a (liveAt_of_set hcell hlive ha)

theorem Fits.moved {m : Local} (hm : Fits s m) (hslot : m.tenure.slot? ≠ some k) : Fits (s.moved k cell target g) m :=
  ⟨hm.tenure.moved hcell hslot,
    fun w g' hp => (evolves_set hcell hlive).known (hm.pending w g' hp),
    hm.recon.frame (fun _ hr => hr) (fun _ _ _ _ _ hg => gone_moved hcell hlive hg),
    hm.reclaim.frame (evolves_set hcell hlive)⟩

end set

namespace Own

variable {s s' : Shared} {ℓ : Local} {F : Multiset Local} {w : Worker} {cell : Slot}
  (h : Own s (ℓ ::ₘ F))
include h

theorem moved {stage : Stage} (ht : ℓ.tenure = .holds w stage) (hcell : s.cells[w.slot]? = some cell)
    (target : Phase) (g : LeaseGeneration) (after : Option Stage) (ℓ' : Local)
    (hsterile : target = .sterile → w.id ∈ s.prepared)
    (hafter : ∀ stage', after = some stage' →
      stage'.fits target = true ∧ stage' ≠ .won ∧ stage' ≠ .published)
    (htenure : ℓ'.tenure = after.elim .idle (.holds { w with phase := target, generation := g }))
    (hpending : ℓ'.pending = ℓ.pending) (hrecon : ℓ'.recon = ℓ.recon)
    (hreclaim : ℓ'.reclaim = ℓ.reclaim) : Own (s.moved w.slot cell target g) (ℓ' ::ₘ F) := by
  obtain ⟨⟨cell', hcell', hid, hword⟩, hfits⟩ := h.head.tenure.holds w stage ht
  rw [hcell] at hcell'
  cases hcell'
  have hlive : cell.word.load.phase ≠ .dead := by
    rw [hword, StateWord.load_new]
    exact (Stage.fits_ne hfits).2
  have hslot : ∀ m ∈ F, m.tenure.slot? ≠ some w.slot :=
    nodup_head h.slots (by simp [ht, slot?])
  have hrest : Fits (s.moved w.slot cell target g) { ℓ with tenure := .idle } :=
    Fits.moved hcell hlive ⟨.idle s, h.head.pending, h.head.recon, h.head.reclaim⟩ (by simp [slot?])
  have hsound : Sound (s.moved w.slot cell target g) :=
    h.sound.moved hcell hlive (h.head.tenure.apart w stage ht) fun htarget => hid ▸ hsterile htarget
  refine h.intro hsound ?_ (fun m hm => (h.tail hm).moved hcell hlive (hslot m hm)) ?_ ?_ (by rw [hrecon]) rfl
  · refine ⟨?_, hpending ▸ hrest.pending, hrecon ▸ hrest.recon, hreclaim ▸ hrest.reclaim⟩
    rw [htenure]
    cases after with
    | none => exact .idle _
    | some stage' =>
      obtain ⟨hfits', hwon, hpublished⟩ := hafter stage' rfl
      exact .of_holds ⟨_, moved_self hcell, hid, rfl⟩ hfits' (h.head.tenure.apart w stage ht)
        fun hst => (hst.elim hwon hpublished).elim
  · rw [htenure]
    intro k hk
    cases after with
    | none => simp [slot?] at hk
    | some stage' => exact .inl (by rw [ht]; exact hk)
  · rw [htenure]
    intro id hid
    cases after <;> simp [drawn?] at hid

variable {answer : Except StateRace Worker}

theorem advance_holder {stage : Stage} (ht : ℓ.tenure = .holds w stage) {target : Phase} {after : Option Stage}
    (hmove : stage.move target = some after) (hexec : s.advance w target w.generation = some (answer, s')) :
    Steps ℓ (.advance w target w.generation) answer s' F := by
  obtain ⟨hholds, hfits⟩ := h.head.tenure.holds w stage ht
  obtain ⟨cell, hcell, hid, rfl, rfl⟩ :=
    advance_of_holds hholds (Stage.move_allowed hfits hmove) hexec
  let w' : Worker := { w with phase := target, generation := w.generation }
  have hnext : ℓ.next (.advance w target w.generation) (.ok w') =
      some { ℓ with tenure := after.elim .idle (.holds w') } := by
    simp only [Local.next, Tenure.next, ht, Tenure.moved, hmove, w', if_true]
    cases after <;> rfl
  refine ⟨_, hnext, h.moved ht hcell target w.generation after _ ?_ ?_ rfl rfl rfl rfl⟩
  · rintro rfl
    refine h.head.tenure.payload w stage ht (.inr ?_)
    cases stage <;> simp [Stage.move] at hmove
    rfl
  · rintro stage' rfl
    exact Stage.move_fits hmove

theorem sterile_free {k : ℕ} (hcell : s.cells[k]? = some cell) (hphase : cell.word.load.phase = .sterile) :
    (∀ m ∈ ℓ ::ₘ F, m.tenure.slot? ≠ some k) ∧
      ∀ (id : WorkerId) (o : Owned), s.owned[id]? = some o → o.worker.slot ≠ k := by
  constructor
  · intro m hm hk
    obtain ⟨w, stage, htm, rfl⟩ := eq_holds_of_slot? hk
    obtain ⟨⟨cell', hcell', -, hword⟩, hfits⟩ := (h.fits m hm).tenure.holds w stage htm
    rw [hcell] at hcell'
    cases hcell'
    rw [hword, StateWord.load_new] at hphase
    exact (Stage.fits_ne hfits).1 hphase
  · rintro id o ho rfl
    obtain ⟨⟨cell', hcell', -, hword⟩, -, hassigned⟩ := h.sound.owned id o ho
    rw [hcell] at hcell'
    cases hcell'
    rw [hword, StateWord.load_new] at hphase
    rcases hassigned with hp | hp <;> rw [hp] at hphase <;> cases hphase

theorem advance_sterile (ht : ℓ.tenure = .idle) {target : Phase} {g : LeaseGeneration}
    (hsterile : w.phase = .sterile) (htarget : target = .claiming ∨ target = .destroying)
    (hexec : s.advance w target g = some (answer, s')) :
    Steps ℓ (.advance w target g) answer s' F := by
  obtain ⟨cell, hcell, ⟨rfl, -, hword, rfl⟩ | ⟨⟨race, rfl⟩, rfl, -⟩⟩ := advance_eq_some hexec
  · have hphase : cell.word.load.phase = .sterile := by
      rw [hword, StateWord.load_new, hsterile]
    have hlive : cell.word.load.phase ≠ .dead := by
      rw [hphase]
      decide
    obtain ⟨hfree, howned⟩ := h.sterile_free hcell hphase
    have hnext : ℓ.next (.advance w target g) (.ok ⟨w.slot, cell.id, target, g⟩) = some { ℓ with
          tenure :=
            .holds ⟨w.slot, cell.id, target, g⟩ (if target = .claiming then .won else .evicting) } := by
      simp only [Local.next, Tenure.next, ht, Tenure.moved]
      rfl
    refine ⟨_, hnext, ?_⟩
    have hsound : Sound (s.moved w.slot cell target g) := by
      refine h.sound.moved hcell hlive howned ?_
      rintro rfl
      rcases htarget with htarget | htarget <;> cases htarget
    have hrest : Fits (s.moved w.slot cell target g) ℓ :=
      h.head.moved hcell hlive (hfree ℓ (mem_cons_self ..))
    refine h.intro hsound ?_
      (fun m hm => (h.tail hm).moved hcell hlive (hfree m (mem_cons_of_mem hm))) ?_ ?_
      Iff.rfl rfl
    · refine ⟨?_, hrest.pending, hrest.recon, hrest.reclaim⟩
      refine .of_holds ⟨_, moved_self hcell, rfl, rfl⟩ ?_ howned fun _ => h.sound.sterile w.slot cell hcell hphase
      rcases htarget with rfl | rfl <;> rfl
    · rintro k ⟨⟩
      exact .inr fun m hm => hfree m (mem_cons_of_mem hm)
    · rintro id ⟨⟩
  · refine ⟨ℓ, ?_, h⟩
    simp only [Local.next, Tenure.next, ht, Tenure.moved]
    rw [← ht]
    rfl

end Own

/-! ### Adding a slot -/

section added

variable {s : Shared} {slot : Slot}

/-- The shared state without its dead slots in the table. -/
def Shared.compacted (s : Shared) : Shared :=
  { s with table := s.table.filter fun a => !s.isDead a }

def Shared.added (s : Shared) (slot : Slot) : Shared :=
  { s with
    cells := s.cells ++ [slot]
    table := (s.table.filter fun a => !s.isDead a) ++ [s.cells.length] }

variable {a : ℕ} {cell : Slot}

theorem Shared.added_old (h : s.cells[a]? = some cell) : (s.added slot).cells[a]? = some cell :=
  getElem?_append_cell.mpr (.inl h)

theorem Shared.added_new : (s.added slot).cells[s.cells.length]? = some slot :=
  getElem?_append_cell.mpr (.inr ⟨rfl, rfl⟩)

theorem Shared.evolves_added : s.Evolves (s.added slot) :=
  fun _ cell hcell => ⟨cell, added_old hcell, rfl, fun hdead => hdead⟩

theorem Shared.liveAt_of_added {id : WorkerId} (h : (s.added slot).LiveAt a id) :
    s.LiveAt a id ∨ (a = s.cells.length ∧ id = slot.id) := by
  obtain ⟨cell, hcell, hid, hphase⟩ := h
  rcases getElem?_append_cell.mp hcell with hold | ⟨ha, rfl⟩
  · exact .inl ⟨cell, hold, hid, hphase⟩
  · exact .inr ⟨ha, hid.symm⟩

theorem Shared.known_of_added {id : WorkerId} (h : (s.added slot).Known id) : s.Known id ∨ id = slot.id := by
  obtain ⟨a, cell, hcell, hid⟩ := h
  rcases getElem?_append_cell.mp hcell with hold | ⟨-, rfl⟩
  · exact .inl ⟨a, cell, hold, hid⟩
  · exact .inr hid.symm

theorem Shared.Holds.added {w : Worker} (h : s.Holds w) : (s.added slot).Holds w := by
  obtain ⟨cell, hcell, hid, hword⟩ := h
  exact ⟨cell, added_old hcell, hid, hword⟩

theorem Sound.dead_of_not_mem (hs : Sound s) (hcell : s.cells[a]? = some cell)
    (ha : a ∉ s.table.filter fun a => !s.isDead a) : cell.word.load.phase = .dead := by
  by_contra hlive
  refine hlive (hs.table a cell hcell ?_)
  intro hmem
  exact ha (List.mem_filter.mpr ⟨hmem, by simp [(isDead_eq_false hcell).mpr hlive]⟩)

theorem Sound.compacted (hs : Sound s) : Sound s.compacted :=
  { hs with table := fun _ _ hcell ha => hs.dead_of_not_mem hcell ha }

theorem Sound.added (hs : Sound s) (hgone : s.Gone slot.id) (hdrawn : slot.id ∈ s.drawn)
    (hphase : slot.word.load.phase ≠ .sterile) : Sound (s.added slot) where
  owned id o ho := by
    obtain ⟨hholds, hrest⟩ := hs.owned id o ho
    exact ⟨hholds.added, hrest⟩
  table a cell hcell ha := by
    obtain ⟨hold, hnew⟩ : a ∉ (s.table.filter fun a => !s.isDead a) ∧ a ≠ s.cells.length := by
      simpa [Shared.added, not_or] using ha
    rcases getElem?_append_cell.mp hcell with hcell' | ⟨heq, -⟩
    · exact hs.dead_of_not_mem hcell' hold
    · exact absurd heq hnew
  ids a b id ha hb := by
    rcases liveAt_of_added ha with ha | ⟨rfl, rfl⟩ <;>
      rcases liveAt_of_added hb with hb | ⟨rfl, hid⟩
    · exact hs.ids a b id ha hb
    · exact absurd (hid ▸ ha) (hgone a)
    · exact absurd hb (hgone b)
    · rfl
  cells id hk := by
    rcases known_of_added hk with hk | rfl
    · exact hs.cells id hk
    · exact hdrawn
  records := hs.records
  sterile a cell hcell hsterile := by
    rcases getElem?_append_cell.mp hcell with hcell' | ⟨-, rfl⟩
    · exact hs.sterile a cell hcell' hsterile
    · exact absurd hsterile hphase

theorem Fits.added {m : Local} (hm : Fits s m) (hdrawn : m.tenure.drawn? ≠ some slot.id)
    (hfocus : ∀ es f, m.recon = .gated es f → f.gone? ≠ some slot.id) : Fits (s.added slot) m := by
  refine ⟨?_, ?_, ?_, hm.reclaim.frame evolves_added⟩
  · refine hm.tenure.frame ?_ hm.tenure.apart (fun _ _ _ _ hp => hp) ?_
    · intro w stage ht
      obtain ⟨⟨cell, hcell, -⟩, -⟩ := hm.tenure.holds w stage ht
      rw [hcell, added_old hcell]
    · intro id hid
      obtain ⟨hmem, hknown, hrecords⟩ := hm.tenure.fresh id hid
      refine ⟨hmem, ?_, hrecords⟩
      intro hk
      rcases known_of_added hk with hk | rfl
      · exact hknown hk
      · exact hdrawn (by rw [hid]; rfl)
  · exact fun w g hp => evolves_added.known (hm.pending w g hp)
  · refine hm.recon.frame (fun _ hr => hr) ?_
    intro es f w hc hw hgone a ha
    rcases liveAt_of_added ha with ha | ⟨-, rfl⟩
    · exact hgone a ha
    · exact hfocus es f hc hw

end added

namespace Own

variable {s : Shared} {ℓ : Local} {F : Multiset Local}

theorem slot_lt (h : Own s (ℓ ::ₘ F)) : ∀ m ∈ ℓ ::ₘ F, m.tenure.slot? ≠ some s.cells.length := by
  intro m hm hk
  obtain ⟨w, stage, htm, hslot⟩ := eq_holds_of_slot? hk
  obtain ⟨⟨cell, hcell, -⟩, -⟩ := (h.fits m hm).tenure.holds w stage htm
  rw [hslot] at hcell
  simp at hcell

theorem owned_slot_ne (h : Own s (ℓ ::ₘ F)) (id : WorkerId) (o : Owned) (ho : s.owned[id]? = some o) :
    o.worker.slot ≠ s.cells.length := by
  intro hslot
  obtain ⟨⟨cell, hcell, -⟩, -⟩ := h.sound.owned id o ho
  rw [hslot] at hcell
  simp at hcell

theorem added (h : Own s (ℓ ::ₘ F)) {id : WorkerId} {key : PoolKeyDigest} {phase : Phase} {g : LeaseGeneration}
    {stage : Stage} (hfits : stage.fits phase = true) (hstage : stage = .opened ∨ stage = .restored)
    (hgone : s.Gone id) (hdrawn : id ∈ s.drawn)
    (hothers : ∀ m ∈ F, m.tenure.drawn? ≠ some id ∧
      ∀ es f, m.recon = .gated es f → f.gone? ≠ some id)
    {ℓ' : Local} (htenure : ℓ'.tenure = .holds ⟨s.cells.length, id, phase, g⟩ stage)
    (hpending : ℓ'.pending = ℓ.pending) (hreclaim : ℓ'.reclaim = ℓ.reclaim)
    (hrecon : ℓ'.recon.Fits (s.added ⟨id, key, .new phase g⟩))
    (hidle : ℓ'.recon = .idle ↔ ℓ.recon = .idle) : Own (s.added ⟨id, key, .new phase g⟩) (ℓ' ::ₘ F) := by
  have hphase := Stage.fits_ne hfits
  refine h.intro (h.sound.added hgone hdrawn ?_) ?_ ?_ ?_ ?_ hidle rfl
  · rw [StateWord.load_new]
    exact hphase.1
  · refine ⟨?_, ?_, hrecon, ?_⟩
    · rw [htenure]
      refine .of_holds ⟨_, added_new, rfl, rfl⟩ hfits h.owned_slot_ne ?_
      rcases hstage with rfl | rfl <;> simp
    · rw [hpending]
      exact fun w g' hp => evolves_added.known (h.head.pending w g' hp)
    · rw [hreclaim]
      exact h.head.reclaim.frame evolves_added
  · intro m hm
    exact (h.tail hm).added (hothers m hm).1 (hothers m hm).2
  · rw [htenure]
    rintro k ⟨⟩
    exact .inr fun m hm => h.slot_lt m (mem_cons_of_mem hm)
  · rw [htenure]
    rintro id ⟨⟩

end Own

end Soma.Host.Pool
