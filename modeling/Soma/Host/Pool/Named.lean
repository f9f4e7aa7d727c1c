import Soma.Host.Pool.OwnershipStep

/-! # What the ledger names

A claiming record names its operation and an assigned record its Instance, so an entry that has come
to `Running` names both.
-/

namespace Soma.Host.Pool

open Std Soma.Lib

/-- The record names what the projection reads from it. -/
def Record.Named (r : Record) : Prop :=
  (r.kind = .claiming → r.operation.isSome) ∧ (r.kind = .assigned → r.instanceId.isSome)

/-- The entry names what its phase needs. -/
def Entry.Named (e : Entry) : Prop :=
  (e.phase = .claiming ∨ e.phase = .assigned ∨ e.phase = .running → e.operation.isSome) ∧
    (e.phase = .assigned ∨ e.phase = .running → e.instanceId.isSome)

theorem foldEntry_named {e e' : Entry} {r : Record} (he : e.Named) (hr : r.Named)
    (h : foldEntry e r = .ok e') : e'.Named := by
  obtain ⟨⟨-, -, -, hmoves⟩, -, -⟩ := foldEntry_eq_ok h
  unfold foldEntry at h
  split_ifs at h
  obtain ⟨hoperation, hinstance⟩ := he
  unfold Entry.update at h
  -- a phase that needs a name is entered from one that needs less, by the record that states the rest
  cases hkind : r.kind <;> simp only [hkind] at h
  case constructing => cases h
  case sterile =>
    split_ifs at h
    cases h
    simp [Entry.Named]
  case claiming =>
    cases h
    exact ⟨fun _ => hr.1 hkind, by simp⟩
  case assigned =>
    cases h
    have hfrom := hmoves .assigned (by rw [hkind]; rfl)
    have hphase : e.phase = .claiming := by
      cases hp : e.phase <;> simp [Entry.status, hp, Phase.mayTransitionTo] at hfrom ⊢
    exact ⟨fun _ => hoperation (.inl hphase), fun _ => hr.2 hkind⟩
  case running =>
    cases h
    have hfrom := hmoves .running (by rw [hkind]; rfl)
    have hphase : e.phase = .assigned := by
      cases hp : e.phase <;> simp [Entry.status, hp, Phase.mayTransitionTo] at hfrom ⊢
    exact ⟨fun _ => hoperation (.inr (.inl hphase)), fun _ => hinstance (.inl hphase)⟩
  case reconciled =>
    cases h
    split_ifs
    · simp [Entry.Named]
    · exact ⟨hoperation, hinstance⟩
  case constructFailed | dead | destroying =>
    cases h
    simp [Entry.Named]
  all_goals
    cases h
    exact ⟨hoperation, hinstance⟩

theorem entriesOf_named {records : List Record} {m : Entries} (hrecords : ∀ r ∈ records, r.Named)
    (h : entriesOf records = .ok m) {w : WorkerId} {e : Entry} (he : m[w]? = some e) : e.Named := by
  refine entriesOf_entry (P := fun _ e => e.Named) (fun r _ => by simp [Entry.Named, fresh]) ?_ h he
  intro r hr entry entry' hentry hentry'
  exact foldEntry_named hentry (hrecords r hr) hentry'

/-- **Step lemma.** -/
theorem step_named {setup : Setup} {s s' : Shared} {ℓ : Local} {a : Act} {e : Choice a} {answer : Answer a}
    (h : ∀ r ∈ s.records, r.Named) (hobeys : ℓ.Obeys a) (hexec : exec setup a e s = some (answer, s')) :
    ∀ r ∈ s'.records, r.Named := by
  by_cases hlog : a.onLog = true
  · cases a <;> simp [Act.onLog] at hlog
    rename_i r
    have hr : r.stored.Named := by
      refine ⟨?_, ?_⟩
      · intro hkind
        obtain ⟨operation, -, -, -, hoperation, -⟩ := hobeys.standing hkind
        exact Option.isSome_iff_exists.mpr ⟨operation, hoperation⟩
      · intro hkind
        obtain ⟨i, hi, -⟩ := hobeys.window hkind
        exact Option.isSome_iff_exists.mpr ⟨i, hi⟩
    cases e with
    | none =>
      cases hexec
      intro r' hr'
      change r' ∈ (Own.appended s r true).records at hr'
      rw [Own.records_appended] at hr'
      rcases List.mem_append.mp hr' with hr' | hr'
      · exact h r' hr'
      · rw [List.mem_singleton.mp hr']
        exact hr
    | some error =>
      cases hexec
      intro r' hr'
      change r' ∈ (Own.appended s r false).records at hr'
      rw [Own.records_appended] at hr'
      exact h r' hr'
  · rw [Shared.records_of_log ((exec_frame hexec).log (by simpa using hlog))]
    exact h

/-- **Run lemma.**  Every record the pool's operations store is named. -/
theorem records_named {setup : Setup} {c : Config Answer Shared}
    (hreach : Reach (machine setup) (anyRun setup) (Shared.init setup) c) : ∀ r ∈ c.shared.records, r.Named := by
  obtain ⟨H, -, -, hnamed⟩ := Own.invariant rfl (fun _ _ _ _ h => h) (fun s _ => ∀ r ∈ s.records, r.Named)
    (by simp [Shared.records, Shared.init]) (fun _ _ h => h)
    (fun _ _ _ _ _ _ _ _ _ _ h hobeys _ hexec _ => step_named h hobeys hexec)
    (fun s H s' h hopened => by
      obtain ⟨m, -, rfl⟩ := Shared.opened_eq_some hopened
      exact h) hreach
  exact hnamed

end Soma.Host.Pool
