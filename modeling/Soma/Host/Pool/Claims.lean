import Soma.Host.Pool.Foldable

/-! # One winner per operation

The registry, the recorded claims and the threads that claim, over every interleaving, every failure
and every restart:

* the ledger has at most one claim per operation, and a completed binding answers it (`Registered`);
* a thread that attempts an operation has the binding in flight, and there is no claim of it yet
  (`Standing.Fits`);
* the grants that were reported, and the threads that are about to report one, are of different
  operations.
-/

namespace Soma.Host.Pool

open Std Soma.Lib List Pool.Event Shared Registry

/-- The ledger has the claim of an operation, with its fingerprint and outcome. -/
def Shared.Claims (s : Shared) (op : OperationId) (fp : Fingerprint) (o : ClaimOutcome) : Prop :=
  ∃ c ∈ claimsOf s.records, c.operation = op ∧ c.fingerprint = fp ∧ outcomeOf c = some o

def Event.grant? : Event → Option OperationId
  | .claimed op _ (.ok (_, true)) => some op
  | _ => none

namespace Standing

/-- The operation a thread holds the binding of. -/
def attempts? : Standing → Option OperationId
  | attempting op _ | recorded op _ _ => some op
  | _ => none

/-- The operation a thread has won and not reported. -/
def wins? : Standing → Option OperationId
  | recorded op _ _ | granted op _ _ => some op
  | _ => none

/-- What a thread believes of its claim. -/
def Fits (s : Shared) : Standing → Prop
  | idle => True
  | attempting op fp =>
    s.registry.bindings[op]? = some (.inFlight fp) ∧ ∀ c ∈ claimsOf s.records, c.operation ≠ op
  | recorded op fp o => s.registry.bindings[op]? = some (.inFlight fp) ∧ s.Claims op fp o
  | granted op fp o | replayed op fp o => s.Claims op fp o

end Standing

/-- The registry, the recorded claims, the reports and the threads together. -/
structure Registered (s : Shared) (H : Multiset Local) : Prop where
  complete : ∀ r ∈ s.records, r.kind = .claiming → r.outcome?.isSome = true
  unique : ((claimsOf s.records).map (·.operation)).Nodup
  done : ∀ op fp o, s.registry.bindings[op]? = some (.done fp o) → s.Claims op fp o
  known : ∀ c ∈ claimsOf s.records, s.registry.recorded.contains c.operation = true ∨
    ∃ fp, s.registry.bindings[c.operation]? = some (.inFlight fp)
  flight : ∀ c ∈ claimsOf s.records, ∀ fp,
    s.registry.bindings[c.operation]? = some (.inFlight fp) → c.fingerprint = fp
  standing : ∀ ℓ ∈ H, ℓ.standing.Fits s
  attempts : (H.filterMap fun ℓ => ℓ.standing.attempts?).Nodup
  reported : ∀ op fp o g, claimed op fp (.ok (o, g)) ∈ s.events → s.Claims op fp o
  grants : (s.events.filterMap grant?).Nodup
  wins : (H.filterMap fun ℓ => ℓ.standing.wins?).Nodup
  unreported : ∀ ℓ ∈ H, ∀ op, ℓ.standing.wins? = some op → op ∉ s.events.filterMap grant?

/-! ### The claims of the ledger -/

theorem claimsOf_append (records : List Record) (r : Record) :
    claimsOf (records ++ [r]) = claimsOf records ++ r.claim?.toList := by
  rw [claimsOf, filterMap_append, claimsOf]
  cases h : r.claim? <;> simp [h]

theorem Record.claim?_eq_none {r : Record} (h : r.kind ≠ .claiming) : r.claim? = none := by
  simp [Record.claim?, h]

theorem Record.claim?_eq_some {r : Record} {c : ClaimRecord} (h : r.claim? = some c) :
    r.kind = .claiming ∧ r.operation = some c.operation ∧ r.fingerprint = some c.fingerprint := by
  unfold Record.claim? at h
  split_ifs at h with hkind
  simp only [Option.bind_eq_bind, Option.bind_eq_some_iff, Option.some.injEq] at h
  obtain ⟨op, hop, fp, hfp, rfl⟩ := h
  exact ⟨hkind, hop, hfp⟩

namespace Registered

variable {setup : Setup} {s s' : Shared} {ℓ ℓ' : Local} {F : Multiset Local}

theorem head (h : Registered s (ℓ ::ₘ F)) : ℓ.standing.Fits s :=
  h.standing ℓ (Multiset.mem_cons_self ℓ F)

theorem tail (h : Registered s (ℓ ::ₘ F)) {m : Local} (hm : m ∈ F) : m.standing.Fits s :=
  h.standing m (Multiset.mem_cons_of_mem hm)

theorem claims_unique {H : Multiset Local} (h : Registered s H) {op : OperationId} {fp fp' : Fingerprint}
    {o o' : ClaimOutcome} (hc : s.Claims op fp o) (hc' : s.Claims op fp' o') : fp = fp' ∧ o = o' := by
  obtain ⟨c, hmem, hop, rfl, ho⟩ := hc
  obtain ⟨c', hmem', hop', rfl, ho'⟩ := hc'
  obtain rfl : c = c' := inj_on_of_nodup_map h.unique hmem hmem' (by rw [hop, hop'])
  rw [ho] at ho'
  exact ⟨rfl, Option.some.inj ho'⟩

section

variable {c : Standing} (hc : c.Fits s)
include hc

theorem fits_inFlight {op : OperationId} (hop : c.attempts? = some op) :
    ∃ fp, s.registry.bindings[op]? = some (.inFlight fp) := by
  cases c <;> cases hop
  · exact ⟨_, hc.1⟩
  · exact ⟨_, hc.1⟩

theorem fits_claims {op : OperationId} (hop : c.wins? = some op) : ∃ fp o, s.Claims op fp o := by
  cases c <;> cases hop
  · exact ⟨_, _, hc.2⟩
  · exact ⟨_, _, hc⟩

theorem fits_mono (hold : ∀ c' ∈ claimsOf s.records, c' ∈ claimsOf s'.records)
    (hnew : ∀ op, c.attempts? = some op → ∀ c' ∈ claimsOf s'.records, c' ∈ claimsOf s.records ∨ c'.operation ≠ op)
    (hbinding : ∀ op fp, c.attempts? = some op → s.registry.bindings[op]? = some (.inFlight fp) →
      s'.registry.bindings[op]? = some (.inFlight fp)) : c.Fits s' := by
  have hclaims : ∀ op fp o, s.Claims op fp o → s'.Claims op fp o := by
    rintro op fp o ⟨c', hc', hrest⟩
    exact ⟨c', hold c' hc', hrest⟩
  cases c with
  | idle => trivial
  | attempting op fp =>
    exact ⟨hbinding op fp rfl hc.1, fun c' hc' => (hnew op rfl c' hc').elim (hc.2 c') id⟩
  | recorded op fp o => exact ⟨hbinding op fp rfl hc.1, hclaims op fp o hc.2⟩
  | granted op fp o => exact hclaims op fp o hc
  | replayed op fp o => exact hclaims op fp o hc

theorem fits_of_same (hclaims : claimsOf s'.records = claimsOf s.records)
    (hbinding : ∀ op fp, c.attempts? = some op → s.registry.bindings[op]? = some (.inFlight fp) →
      s'.registry.bindings[op]? = some (.inFlight fp)) : c.Fits s' := by
  refine fits_mono hc ?_ ?_ hbinding
  · rw [hclaims]
    exact fun _ => id
  · rw [hclaims]
    exact fun _ _ _ => .inl

end

variable {r : Record}

section

variable (h : Registered s (ℓ ::ₘ F))
include h

section

variable (hcomplete : ∀ r ∈ s'.records, r.kind = .claiming → r.outcome?.isSome = true)
  (hclaims : claimsOf s'.records = claimsOf s.records)
  (hevents : ∀ op fp r, claimed op fp r ∈ s'.events → claimed op fp r ∈ s.events)
  (hgrants : s'.events.filterMap grant? = s.events.filterMap grant?)
include hcomplete hclaims hevents hgrants

theorem intro (hdone : ∀ op fp o, s'.registry.bindings[op]? = some (.done fp o) → s.Claims op fp o)
    (hknown : ∀ c ∈ claimsOf s.records, s'.registry.recorded.contains c.operation = true ∨
      ∃ fp, s'.registry.bindings[c.operation]? = some (.inFlight fp))
    (hflight : ∀ c ∈ claimsOf s.records, ∀ fp,
      s'.registry.bindings[c.operation]? = some (.inFlight fp) → c.fingerprint = fp)
    (hhead : ℓ'.standing.Fits s')
    (htail : ∀ m ∈ F, ∀ op fp, m.standing.attempts? = some op →
      s.registry.bindings[op]? = some (.inFlight fp) →
      s'.registry.bindings[op]? = some (.inFlight fp))
    (hattempts : ∀ op, ℓ'.standing.attempts? = some op → ∀ m ∈ F, m.standing.attempts? ≠ some op)
    (hwins : ∀ op, ℓ'.standing.wins? = some op → ℓ.standing.wins? = some op) : Registered s' (ℓ' ::ₘ F) where
  complete := hcomplete
  unique := by
    rw [hclaims]
    exact h.unique
  done op fp o hb := by
    rw [Claims, hclaims]
    exact hdone op fp o hb
  known := by
    rw [hclaims]
    exact hknown
  flight := by
    rw [hclaims]
    exact hflight
  standing := Multiset.forall_mem_cons.mpr ⟨hhead, fun m hm => fits_of_same (h.tail hm) hclaims (htail m hm)⟩
  attempts := nodup_cons_of (nodup_tail h.attempts) hattempts
  reported op fp o g hmem := by
    rw [Claims, hclaims]
    exact h.reported op fp o g (hevents _ _ _ hmem)
  grants := by
    rw [hgrants]
    exact h.grants
  wins := nodup_cons_of (nodup_tail h.wins) fun op hop => nodup_head h.wins (hwins op hop)
  unreported := by
    rw [hgrants]
    obtain ⟨hown, hothers⟩ := Multiset.forall_mem_cons.mp h.unreported
    exact Multiset.forall_mem_cons.mpr ⟨fun op hop => hown op (hwins op hop), hothers⟩

theorem same (hregistry : s'.registry = s.registry) (hstanding : ℓ'.standing = ℓ.standing) :
    Registered s' (ℓ' ::ₘ F) := by
  have hbinding : ∀ (c : Standing) op fp, c.attempts? = some op →
      s.registry.bindings[op]? = some (.inFlight fp) →
      s'.registry.bindings[op]? = some (.inFlight fp) := by
    intro c op fp _ hb
    rwa [hregistry]
  refine h.intro hcomplete hclaims hevents hgrants ?_ ?_ ?_ ?_ (fun m _ => hbinding m.standing) ?_ ?_
  · rw [hregistry]
    exact h.done
  · rw [hregistry]
    exact h.known
  · rw [hregistry]
    exact h.flight
  · rw [hstanding]
    exact fits_of_same h.head hclaims (hbinding _)
  · rw [hstanding]
    exact fun op hop => nodup_head h.attempts hop
  · rw [hstanding]
    exact fun op hop => hop

end

/-! ### The registry -/

variable {op : OperationId}

theorem reserveBinding_step {fp : Fingerprint} {unreadable : Option LedgerError} {late : Bool}
    {answer : Except ClaimError (Option ClaimOutcome)}
    (hexec : s.reserveBinding setup op fp unreadable late = some (answer, s'))
    (hnext : ℓ.next (.reserveBinding op fp) answer = some ℓ') : Registered s' (ℓ' ::ₘ F) := by
  have hstanding := Local.next_standing hnext
  unfold reserveBinding at hexec
  simp only at hexec
  split at hexec
  swap
  · split_ifs at hexec
    cases hexec
    exact h.same h.complete rfl (fun _ _ _ hm => hm) rfl rfl hstanding
  rename_i answer' registry hreserve
  cases hexec
  rcases reserve_eq_some hreserve with ⟨o, rfl, rfl, hsource⟩ | ⟨error, rfl, rfl⟩ |
    ⟨rfl, hnone, hrecorded, reg₁, hshrinks, rfl⟩
  · -- A replay: the binding or the ledger has the claim.
    have hclaims : s.Claims op fp o := by
      rcases hsource with hb | ⟨claim, hclaim, hfp, ho⟩
      · exact h.done op fp o hb
      · cases unreadable with
        | some error => cases hclaim
        | none =>
          have hfind : claimOf s.records op = some claim := Except.ok.inj hclaim
          have hop := find?_some hfind
          exact ⟨claim, mem_of_find?_eq_some hfind, by simpa using hop, hfp, ho⟩
    refine h.intro h.complete rfl (fun _ _ _ hm => hm) rfl h.done h.known h.flight ?_
      (fun _ _ _ _ _ hb => hb) ?_ ?_
    all_goals rw [hstanding]
    · exact hclaims
    · rintro op' ⟨⟩
    · rintro op' ⟨⟩
  · exact h.same h.complete rfl (fun _ _ _ hm => hm) rfl rfl hstanding
  · -- A new attempt: nothing is recorded of the operation.
    have hnew : ∀ c ∈ claimsOf s.records, c.operation ≠ op := by
      rintro c hc rfl
      rcases h.known c hc with hcontains | ⟨fp', hb⟩
      · have := hrecorded hcontains
        cases unreadable with
        | some error => cases this
        | none =>
          have hfind : claimOf s.records c.operation = none := Except.ok.inj this
          have := find?_eq_none.mp hfind c hc
          simp at this
      · rw [hnone] at hb
        cases hb
    have hfree : ∀ m ∈ F, m.standing.attempts? ≠ some op := by
      intro m hm hop
      obtain ⟨fp', hb⟩ := fits_inFlight (h.tail hm) hop
      rw [hnone] at hb
      cases hb
    have hother : ∀ (op' : OperationId), op' ≠ op →
        (reg₁.bindings.insert op (.inFlight fp))[op']? = reg₁.bindings[op']? := by
      intro op' hne
      simp [TreeMap.getElem?_insert, Ne.symm hne]
    refine h.intro h.complete rfl (fun _ _ _ hm => hm) rfl ?_ ?_ ?_ ?_ ?_ ?_ ?_
    · intro op' fp' o hb
      simp only [TreeMap.getElem?_insert] at hb
      split_ifs at hb
      · cases hb
      · exact h.done op' fp' o (hshrinks.bindings _ _ hb)
    · intro c hc
      rcases h.known c hc with hcontains | ⟨fp', hb⟩
      · left
        change reg₁.recorded.contains c.operation = true
        rw [hshrinks.recorded]
        exact hcontains
      · exact .inr ⟨fp', (hother _ (hnew c hc)).trans (hshrinks.inFlight _ _ hb)⟩
    · intro c hc fp' hb
      exact h.flight c hc fp' (hshrinks.bindings _ _ ((hother _ (hnew c hc)).symm.trans hb))
    · rw [hstanding]
      exact ⟨by simp, hnew⟩
    · intro m hm op' fp' hop hb
      have hne : op' ≠ op := by
        rintro rfl
        exact hfree m hm hop
      exact (hother op' hne).trans (hshrinks.inFlight _ _ hb)
    · rw [hstanding]
      rintro op' ⟨⟩
      exact hfree
    · rw [hstanding]
      rintro op' ⟨⟩

theorem clearBinding_step (hobeys : ℓ.Obeys (.clearBinding op))
    (hnext : ℓ.next (.clearBinding op) () = some ℓ') :
    Registered { s with registry := s.registry.clear op } (ℓ' ::ₘ F) := by
  obtain ⟨fp, hattempting⟩ := hobeys.standing
  have hfits := h.head
  rw [hattempting] at hfits
  have hother : ∀ (op' : OperationId), op' ≠ op →
      (s.registry.clear op).bindings[op']? = s.registry.bindings[op']? := by
    intro op' hne
    simp [clear, TreeMap.getElem?_erase, Ne.symm hne]
  have hidle : ℓ'.standing = .idle := Local.next_standing hnext
  refine h.intro h.complete rfl (fun _ _ _ hm => hm) rfl ?_ ?_ ?_ ?_ ?_ ?_ ?_
  · intro op' fp' o hb
    simp only [clear, TreeMap.getElem?_erase] at hb
    split_ifs at hb
    exact h.done op' fp' o hb
  · intro c hc
    rcases h.known c hc with hcontains | ⟨fp', hb⟩
    · exact .inl hcontains
    · exact .inr ⟨fp', by rw [hother _ (hfits.2 c hc)]; exact hb⟩
  · intro c hc fp' hb
    rw [hother _ (hfits.2 c hc)] at hb
    exact h.flight c hc fp' hb
  · rw [hidle]
    trivial
  · intro m hm op' fp' hop hb
    rw [hother op']
    · exact hb
    · rintro rfl
      exact nodup_head h.attempts (x := op') (by rw [hattempting]; rfl) m hm hop
  · rw [hidle]
    rintro op' ⟨⟩
  · rw [hidle]
    rintro op' ⟨⟩

theorem finishBinding_step {fp : Fingerprint} {o : ClaimOutcome}
    (hobeys : ℓ.Obeys (.finishBinding op fp o)) (hnext : ℓ.next (.finishBinding op fp o) () = some ℓ') :
    Registered { s with registry := s.registry.finish op fp o } (ℓ' ::ₘ F) := by
  have hrecorded : ℓ.standing = .recorded op fp o := hobeys.standing
  have hfits := h.head
  rw [hrecorded] at hfits
  have hgranted : ℓ'.standing = .granted op fp o := Local.next_standing hnext
  have hother : ∀ (op' : OperationId), op' ≠ op →
      (s.registry.finish op fp o).bindings[op']? = s.registry.bindings[op']? := by
    intro op' hne
    simp [finish, TreeMap.getElem?_insert, Ne.symm hne]
  refine h.intro h.complete rfl (fun _ _ _ hm => hm) rfl ?_ ?_ ?_ ?_ ?_ ?_ ?_
  · intro op' fp' o' hb
    simp only [finish, TreeMap.getElem?_insert] at hb
    split_ifs at hb with heq
    · cases hb
      obtain rfl : op = op' := by simpa using heq
      exact hfits.2
    · exact h.done op' fp' o' hb
  · intro c hc
    by_cases hop : c.operation = op
    · left
      simp [finish, hop]
    · rcases h.known c hc with hcontains | ⟨fp', hb⟩
      · left
        change (s.registry.recorded.insert op).contains c.operation = true
        rw [TreeSet.contains_insert, hcontains, Bool.or_true]
      · exact .inr ⟨fp', by rw [hother _ hop]; exact hb⟩
  · intro c hc fp' hb
    by_cases hop : c.operation = op
    · simp [finish, hop] at hb
    · rw [hother _ hop] at hb
      exact h.flight c hc fp' hb
  · rw [hgranted]
    exact hfits.2
  · intro m hm op' fp' hop hb
    rw [hother op']
    · exact hb
    · rintro rfl
      exact nodup_head h.attempts (x := op') (by rw [hrecorded]; rfl) m hm hop
  · rw [hgranted]
    rintro op' ⟨⟩
  · rw [hgranted, hrecorded]
    exact fun op' hop => hop

/-! ### The ledger -/

theorem claim_step (hkind : r.kind = .claiming) (hobeys : ℓ.Obeys (.append r))
    (hnext : ℓ.next (.append r) (.ok ()) = some ℓ') : Registered (Own.appended s r true) (ℓ' ::ₘ F) := by
  obtain ⟨op, fp, o, hattempting, hop, hfp, ho⟩ := hobeys.standing hkind
  obtain ⟨c, hc, hco⟩ := Option.bind_eq_some_iff.mp ho
  obtain ⟨-, hcop, hcfp⟩ := Record.claim?_eq_some hc
  obtain rfl : c.operation = op := Option.some.inj (hcop.symm.trans hop)
  obtain rfl : c.fingerprint = fp := Option.some.inj (hcfp.symm.trans hfp)
  have hfits := h.head
  rw [hattempting] at hfits
  have hrecords : (Own.appended s r true).records = s.records ++ [r.stored] := Own.records_appended r true
  have hclaims : claimsOf (Own.appended s r true).records = claimsOf s.records ++ [c] := by
    rw [hrecords, claimsOf_append, show r.stored.claim? = some c from hc]
    rfl
  have hgrown : ∀ c' ∈ claimsOf s.records, c' ∈ claimsOf (Own.appended s r true).records := by
    rw [hclaims]
    exact fun _ => mem_append_left _
  have hold : ∀ op fp o, s.Claims op fp o → (Own.appended s r true).Claims op fp o := by
    rintro op fp o ⟨c', hc', hrest⟩
    exact ⟨c', hgrown c' hc', hrest⟩
  have hnew : (Own.appended s r true).Claims c.operation c.fingerprint o :=
    ⟨c, by rw [hclaims]; simp, rfl, rfl, hco⟩
  have hstanding : ℓ'.standing = .recorded c.operation c.fingerprint o := by
    rw [Local.next_standing hnext, hattempting]
    simp [Standing.next, Standing.appended, ho, Except.isOk, Except.toBool]
  have hmem : ∀ c' ∈ claimsOf (Own.appended s r true).records, c' ∈ claimsOf s.records ∨ c' = c := by
    rw [hclaims]
    simp
  have hunclaimed : ∀ fp o, ¬ s.Claims c.operation fp o := by
    rintro fp o ⟨c', hc', hop', -⟩
    exact hfits.2 c' hc' hop'
  constructor
  · rw [hrecords]
    exact forall_mem_append.mpr
      ⟨h.complete, forall_mem_singleton.mpr fun _ => Option.isSome_iff_exists.mpr ⟨o, ho⟩⟩
  · rw [hclaims, map_append]
    refine nodup_append.mpr ⟨h.unique, by simp, ?_⟩
    intro op hop op' hop'
    obtain ⟨c', hc', rfl⟩ := mem_map.mp hop
    obtain rfl : op' = c.operation := by simpa using hop'
    exact hfits.2 c' hc'
  · exact fun op fp o hb => hold op fp o (h.done op fp o hb)
  · intro c' hc'
    rcases hmem c' hc' with hc' | rfl
    · exact h.known c' hc'
    · exact .inr ⟨_, hfits.1⟩
  · intro c' hc' fp hb
    rcases hmem c' hc' with hc' | rfl
    · exact h.flight c' hc' fp hb
    · have hsame := hfits.1.symm.trans hb
      cases hsame
      rfl
  · refine Multiset.forall_mem_cons.mpr ⟨?_, ?_⟩
    · rw [hstanding]
      exact ⟨hfits.1, hnew⟩
    · intro m hm
      refine fits_mono (h.tail hm) hgrown ?_ fun _ _ _ hb => hb
      intro op hop c' hc'
      refine (hmem c' hc').imp_right ?_
      rintro rfl rfl
      exact nodup_head h.attempts (x := c'.operation) (by rw [hattempting]; rfl) m hm hop
  · refine nodup_replace h.attempts (.inl ?_)
    rw [hstanding, hattempting]
    rfl
  · exact fun op fp o g hmem => hold op fp o (h.reported op fp o g hmem)
  · exact h.grants
  · refine nodup_cons_of (nodup_tail h.wins) ?_
    rw [hstanding]
    rintro op ⟨⟩ m hm hop
    obtain ⟨fp, o, hc⟩ := fits_claims (h.tail hm) hop
    exact hunclaimed fp o hc
  · intro m hm op hop
    rcases Multiset.mem_cons.mp hm with rfl | hm
    · rw [hstanding] at hop
      cases hop
      intro hmem
      obtain ⟨e, he, hgrant⟩ := mem_filterMap.mp hmem
      unfold grant? at hgrant
      split at hgrant
      · cases hgrant
        exact hunclaimed _ _ (h.reported _ _ _ _ he)
      · cases hgrant
    · exact h.unreported m (Multiset.mem_cons_of_mem hm) op hop

theorem append_step (hobeys : ℓ.Obeys (.append r)) {failed : Option LedgerError} {answer : Except LedgerError Unit}
    (hexec : s.append r failed = (answer, s')) (hnext : ℓ.next (.append r) answer = some ℓ') :
    Registered s' (ℓ' ::ₘ F) := by
  have hstanding := Local.next_standing hnext
  cases failed with
  | some error =>
    cases hexec
    have hrecords : (Own.appended s r false).records = s.records := Own.records_appended r false
    have hsame : ℓ'.standing = ℓ.standing := by
      rw [hstanding]
      simp only [Standing.next, Standing.appended, Except.isOk, Except.toBool]
      split <;> simp_all
    change Registered (Own.appended s r false) (ℓ' ::ₘ F)
    refine h.same ?_ (by rw [hrecords]) (fun _ _ _ hm => hm) rfl rfl hsame
    rw [hrecords]
    exact h.complete
  | none =>
    cases hexec
    change Registered (Own.appended s r true) (ℓ' ::ₘ F)
    by_cases hkind : r.kind = .claiming
    · exact h.claim_step hkind hobeys hnext
    · have hrecords : (Own.appended s r true).records = s.records ++ [r.stored] :=
        Own.records_appended r true
      refine h.same ?_ ?_ (fun _ _ _ hm => hm) rfl rfl ?_
      · rw [hrecords]
        exact forall_mem_append.mpr ⟨h.complete, forall_mem_singleton.mpr fun hk => absurd hk hkind⟩
      · rw [hrecords, claimsOf_append, show r.stored.claim? = none from Record.claim?_eq_none hkind]
        simp
      · rw [hstanding]
        exact Standing.appended_of_ne hkind

/-! ### Reports -/

theorem report_step {event : Event} (hobeys : ℓ.Obeys (.report event))
    (hnext : ℓ.next (.report event) () = some ℓ') :
    Registered { s with events := s.events ++ [event] } (ℓ' ::ₘ F) := by
  by_cases hclaimed : ∃ op fp r, event = .claimed op fp r
  swap
  · -- An event that is about no claim.
    have hstanding : ℓ'.standing = ℓ.standing := by
      rw [Local.next_standing hnext]
      cases event <;> first | rfl | exact absurd ⟨_, _, _, rfl⟩ hclaimed
    refine h.same h.complete rfl ?_ ?_ rfl hstanding
    · intro op fp r hmem
      refine (mem_append.mp hmem).resolve_right fun hmem => ?_
      exact absurd ⟨op, fp, r, (mem_singleton.mp hmem).symm⟩ hclaimed
    · have hnone : [event].filterMap grant? = [] := by
        cases event <;> first | rfl | exact absurd ⟨_, _, _, rfl⟩ hclaimed
      rw [filterMap_append, hnone, append_nil]
  obtain ⟨op, fp, result, rfl⟩ := hclaimed
  have hidle : ℓ'.standing = .idle := Local.next_standing hnext
  -- What is reported is what the thread believes, and the ledger has it.
  have hfits := h.head
  have hclaims : ∀ o g, result = .ok (o, g) → s.Claims op fp o := by
    rintro o g rfl
    cases g with
    | true =>
      rw [show ℓ.standing = .granted op fp o from hobeys.standing] at hfits
      exact hfits
    | false =>
      rw [show ℓ.standing = .replayed op fp o from hobeys.standing] at hfits
      exact hfits
  have hgrant : ∀ op', (claimed op fp result).grant? = some op' →
      ℓ.standing.wins? = some op' := by
    intro op' hop'
    unfold grant? at hop'
    split at hop'
    · rename_i op'' fp'' o heq
      cases heq
      cases hop'
      rw [show ℓ.standing = .granted op fp o from hobeys.standing]
      rfl
    · cases hop'
  have hevents : (s.events ++ [claimed op fp result]).filterMap grant? =
      s.events.filterMap grant? ++ (claimed op fp result).grant?.toList := by
    rw [filterMap_append]
    cases hg : (claimed op fp result).grant? <;> simp [hg]
  constructor
  · exact h.complete
  · exact h.unique
  · exact h.done
  · exact h.known
  · exact h.flight
  · refine Multiset.forall_mem_cons.mpr ⟨?_, fun m hm => fits_of_same (h.tail hm) rfl (fun _ _ _ hb => hb)⟩
    rw [hidle]
    trivial
  · exact nodup_replace h.attempts (.inr (by rw [hidle]; rfl))
  · intro op' fp' o g hmem
    rcases mem_append.mp hmem with hmem | hmem
    · exact h.reported op' fp' o g hmem
    · obtain ⟨rfl, rfl, rfl⟩ : op' = op ∧ fp' = fp ∧ .ok (o, g) = result := by simpa using hmem
      exact hclaims o g rfl
  · rw [hevents]
    refine nodup_append.mpr ⟨h.grants, ?_, ?_⟩
    · cases (claimed op fp result).grant? <;> simp
    · rintro op₁ hop₁ op₂ hop₂ rfl
      have hwin := hgrant op₁ (by simpa using hop₂)
      exact h.unreported ℓ (Multiset.mem_cons_self ..) op₁ hwin hop₁
  · exact nodup_replace h.wins (.inr (by rw [hidle]; rfl))
  · intro m hm op' hop'
    rcases Multiset.mem_cons.mp hm with rfl | hm
    · rw [hidle] at hop'
      cases hop'
    · rw [hevents]
      intro hmem
      rcases mem_append.mp hmem with hmem | hmem
      · exact h.unreported m (Multiset.mem_cons_of_mem hm) op' hop' hmem
      · exact nodup_head h.wins (hgrant op' (by simpa using hmem)) m hm hop'

/-! ### Runs -/

/-- **Step lemma.** -/
theorem step {a : Act} {e : Choice a} {r : Answer a} (hobeys : ℓ.Obeys a) (hexec : exec setup a e s = some (r, s'))
    (hnext : ℓ.next a r = some ℓ') : Registered s' (ℓ' ::ₘ F) := by
  have hframe := exec_frame hexec
  cases a with
  | reserveBinding op fp => exact h.reserveBinding_step hexec hnext
  | clearBinding op =>
    cases hexec
    exact h.clearBinding_step hobeys hnext
  | finishBinding op fp o =>
    cases hexec
    exact h.finishBinding_step hobeys hnext
  | append record => exact h.append_step hobeys (Option.some.inj hexec) hnext
  | report event =>
    cases hexec
    exact h.report_step hobeys hnext
  | _ =>
    have hrecords := records_of_log (hframe.log rfl)
    have hevents := hframe.events rfl
    refine h.same ?_ (by rw [hrecords]) ?_ (by rw [hevents]) (hframe.registry rfl)
      (Local.next_standing hnext)
    · rw [hrecords]
      exact h.complete
    · rw [hevents]
      exact fun _ _ _ hm => hm

end

theorem idle {H : Multiset Local} (h : Registered s H) : Registered s ({} ::ₘ H) where
  __ := h
  standing := Multiset.forall_mem_cons.mpr ⟨trivial, h.standing⟩
  attempts := by
    rw [Multiset.filterMap_cons_none _ _ rfl]
    exact h.attempts
  wins := by
    rw [Multiset.filterMap_cons_none _ _ rfl]
    exact h.wins
  unreported := Multiset.forall_mem_cons.mpr ⟨nofun, h.unreported⟩

theorem init (setup : Setup) : Registered (Shared.init setup) 0 := by
  constructor <;> simp [Shared.init, Shared.records, claimsOf, empty]

theorem restart {H : Multiset Local} (h : Registered s H) (hopened : s.opened setup = some s') :
    Registered s' 0 := by
  obtain ⟨m, -, rfl⟩ := Shared.opened_eq_some hopened
  constructor
  · exact h.complete
  · exact h.unique
  · intro op fp o hb
    obtain ⟨claim, hclaim, hop, hbinding⟩ := seed_bindings hb
    obtain ⟨outcome, houtcome, heq⟩ := Option.bind_eq_some_iff.mp hbinding
    cases heq
    exact ⟨claim, hclaim, hop, rfl, houtcome⟩
  · exact fun c hc => .inl (seed_recorded hc)
  · intro c hc fp hb
    obtain ⟨claim, -, -, hbinding⟩ := seed_bindings hb
    obtain ⟨outcome, -, heq⟩ := Option.bind_eq_some_iff.mp hbinding
    cases heq
  · simp
  · simp
  · intro op fp o g hmem
    refine h.reported op fp o g ?_
    simpa using hmem
  · have hnone : [restarted].filterMap grant? = [] := rfl
    rw [filterMap_append, hnone, append_nil]
    exact h.grants
  · simp
  · simp

theorem reach {c : Config Answer Shared} (hreach : Reach (machine setup) (anyRun setup) (Shared.init setup) c) :
    ∃ H : List Local, Forall₂ (Thread.Keeps discipline Local.AtRest) c.threads H ∧
      Own c.shared H ∧ Registered c.shared H :=
  Own.invariant rfl (fun _ _ _ _ h => h) Registered (init setup) (fun _ _ h => h.idle)
    (fun _ _ _ _ _ _ _ _ _ _ h hobeys _ hexec hnext => h.step hobeys hexec hnext)
    (fun _ _ _ h hopened => h.restart hopened) hreach

/-! ### What a client sees -/

variable {H : Multiset Local} {op : OperationId} {fp fp' : Fingerprint}

theorem claiming_records {records : List Record}
    (hcomplete : ∀ r ∈ records, r.kind = .claiming → r.outcome?.isSome = true) (op : OperationId) :
    (records.filter fun r => r.kind = .claiming ∧ r.operation = some op).length =
      ((claimsOf records).map (·.operation)).count op := by
  induction records with
  | nil => rfl
  | cons r records ih =>
    have ih := ih fun r' hr' => hcomplete r' (mem_cons_of_mem _ hr')
    by_cases hkind : r.kind = .claiming
    · have hsome := hcomplete r (mem_cons_self ..) hkind
      obtain ⟨o, ho⟩ := Option.isSome_iff_exists.mp hsome
      obtain ⟨c, hc, -⟩ := Option.bind_eq_some_iff.mp ho
      obtain ⟨-, hop, -⟩ := Record.claim?_eq_some hc
      rw [claimsOf, filterMap_cons_some hc, map_cons, count_cons, ← claimsOf, ← ih]
      by_cases heq : c.operation = op
      · simp [hkind, hop, heq]
      · simp [hkind, hop, heq]
    · rw [claimsOf, filterMap_cons_none (Record.claim?_eq_none hkind), ← claimsOf, ← ih]
      simp [hkind]

theorem claimOf_eq (h : Registered s H) {c : ClaimRecord} (hc : c ∈ claimsOf s.records) :
    claimOf s.records c.operation = some c := by
  cases hfind : claimOf s.records c.operation with
  | none =>
    have := find?_eq_none.mp hfind c hc
    simp at this
  | some c' =>
    have hop := find?_some hfind
    have heq : c' = c :=
      inj_on_of_nodup_map h.unique (mem_of_find?_eq_some hfind) hc (by simpa using hop)
    rw [heq]

variable (setup) in
theorem conflict (h : Registered s H)
    (hknown : s.registry.bindings[op]? = some (.inFlight fp) ∨ ∃ o, s.Claims op fp o) (hne : fp ≠ fp')
    (unreadable : Option LedgerError) (late : Bool) :
    ∃ error, s.reserveBinding setup op fp' unreadable late = some (.error error, s) ∧
      (error = .operationConflict op fp fp' ∨
        (s.registry.bindings[op]? = none ∧ unreadable.map ClaimError.ledger = some error)) := by
  have hbinding : ∀ fp₁, s.registry.bindings[op]? = some (.inFlight fp₁) → fp₁ = fp := by
    intro fp₁ hb
    rcases hknown with hb' | ⟨o, c, hc, hop, hfp, -⟩
    · rw [hb] at hb'
      cases hb'
      rfl
    · rw [← hop] at hb
      rw [← hfp, h.flight c hc fp₁ hb]
  have hdone : ∀ fp₁ o₁, s.registry.bindings[op]? = some (.done fp₁ o₁) → fp₁ = fp := by
    intro fp₁ o₁ hb
    rcases hknown with hb' | ⟨o, hclaims⟩
    · rw [hb] at hb'
      cases hb'
    · exact (h.claims_unique (h.done op fp₁ o₁ hb) hclaims).1
  unfold reserveBinding reserve
  cases hb : s.registry.bindings[op]? with
  | some binding =>
    cases binding with
    | inFlight fp₁ =>
      obtain rfl := hbinding fp₁ hb
      exact ⟨_, by simp [hne], .inl rfl⟩
    | done fp₁ o₁ =>
      obtain rfl := hdone fp₁ o₁ hb
      exact ⟨_, by simp [hne], .inl rfl⟩
  | none =>
    rcases hknown with hb' | ⟨o, c, hc, rfl, rfl, -⟩
    · rw [hb] at hb'
      cases hb'
    have hcontains : s.registry.recorded.contains c.operation = true := by
      rcases h.known c hc with hcontains | ⟨fp₁, hb'⟩
      · exact hcontains
      · rw [hb] at hb'
        cases hb'
    cases unreadable with
    | some error => exact ⟨.ledger error, by simp [hcontains], .inr ⟨rfl, rfl⟩⟩
    | none =>
      have hfind := h.claimOf_eq hc
      exact ⟨_, by simp [hcontains, hfind, replay, hne], .inl rfl⟩

theorem claims_of_record (h : Registered s H) (hr : r ∈ s.records) (hkind : r.kind = .claiming)
    (hop : r.operation = some op) (hfp : r.fingerprint = some fp) : ∃ o, s.Claims op fp o := by
  obtain ⟨o, ho⟩ := Option.isSome_iff_exists.mp (h.complete r hr hkind)
  obtain ⟨c, hc, hco⟩ := Option.bind_eq_some_iff.mp ho
  obtain ⟨-, hcop, hcfp⟩ := Record.claim?_eq_some hc
  refine ⟨o, c, mem_filterMap.mpr ⟨r, hr, hc⟩, ?_, ?_, hco⟩
  · exact Option.some.inj (hcop.symm.trans hop)
  · exact Option.some.inj (hcfp.symm.trans hfp)

theorem record_of_claims {o : ClaimOutcome} (hclaims : s.Claims op fp o) :
    ∃ r ∈ s.records, r.kind = .claiming ∧ r.operation = some op ∧ r.fingerprint = some fp ∧
      r.outcome? = some o := by
  obtain ⟨c, hc, rfl, rfl, ho⟩ := hclaims
  obtain ⟨r, hr, hrc⟩ := mem_filterMap.mp hc
  obtain ⟨hkind, hop, hfp⟩ := Record.claim?_eq_some hrc
  exact ⟨r, hr, hkind, hop, hfp, by rw [Record.outcome?, hrc]; exact ho⟩

/-- **One winner per operation.**  In every configuration that any run reaches, with any failures,
evictions and restarts, and for every operation:

* at most one claiming record is stored;
* at most one call returned a grant;
* every call that succeeded carries the fingerprint and the outcome of that record;
* a call with another fingerprint than the one in flight or recorded is over after its first step,
  without a change: it is answered with the conflict, or, when the binding was evicted and the ledger
  cannot be read, with the ledger's error. -/
theorem claim_has_single_winner {c : Config Answer Shared}
    (hreach : Reach (machine setup) (anyRun setup) (Shared.init setup) c) (op : OperationId) :
    (c.shared.records.filter fun r => r.kind = .claiming ∧ r.operation = some op).length ≤ 1 ∧
    (c.shared.events.filterMap grant?).count op ≤ 1 ∧
    (∀ fp o grant, claimed op fp (.ok (o, grant)) ∈ c.shared.events →
      ∃ r ∈ c.shared.records, r.kind = .claiming ∧ r.operation = some op ∧
        r.fingerprint = some fp ∧ r.outcome? = some o) ∧
    ∀ fp fp', fp ≠ fp' →
      (c.shared.registry.bindings[op]? = some (.inFlight fp) ∨
        ∃ r ∈ c.shared.records, r.kind = .claiming ∧ r.operation = some op ∧
          r.fingerprint = some fp) →
      ∃ rest, claim setup op fp' = .act (.reserveBinding op fp') rest ∧
        ∀ choice, ∃ error,
          exec setup (.reserveBinding op fp') choice c.shared = some (.error error, c.shared) ∧
          rest (.error error) = .ret (.error error) ∧
          (error = .operationConflict op fp fp' ∨
            (c.shared.registry.bindings[op]? = none ∧
              choice.1.map ClaimError.ledger = some error)) := by
  obtain ⟨H, -, -, h⟩ := reach hreach
  refine ⟨?_, nodup_iff_count_le_one.mp h.grants op, ?_, ?_⟩
  · rw [claiming_records h.complete]
    exact nodup_iff_count_le_one.mp h.unique op
  · exact fun fp o grant hmem => record_of_claims (h.reported op fp o grant hmem)
  · intro fp fp' hne hknown
    refine ⟨_, rfl, ?_⟩
    intro choice
    have hclaims : c.shared.registry.bindings[op]? = some (.inFlight fp) ∨
        ∃ o, c.shared.Claims op fp o := by
      refine hknown.imp_right ?_
      rintro ⟨r, hr, hkind, hop, hfp⟩
      exact h.claims_of_record hr hkind hop hfp
    obtain ⟨error, hexec, herror⟩ := h.conflict setup hclaims hne choice.1 choice.2
    exact ⟨error, hexec, rfl, herror⟩

/-- Two calls for one operation: the first wins a worker, the second is a replay. -/
theorem replay_has_single_winner :
    ∃ c, Reach (machine smallPool) (anyRun smallPool) (Shared.init smallPool) c ∧
      c.shared.events.length = 2 ∧
      (c.shared.records.filter fun r => r.kind = .claiming ∧ r.operation = some 1).length ≤ 1 ∧
      (c.shared.events.filterMap grant?).count 1 ≤ 1 := by
  let moves := calls .construct 0 13 (calm 7) ++ calls (.claim 1 1) 1 9 (calm 8) ++
    calls (.claim 1 1) 2 2 (calm 8)
  have hplay : ((play smallMachine ⟨Shared.init smallPool, []⟩ moves).map
      fun c => c.shared.events.length) = some 2 := by decide +kernel
  obtain ⟨c, hc, hlength⟩ := Option.map_eq_some_iff.mp hplay
  have hreach := ((onlyCalls.append onlyCalls).append onlyCalls).reach hc
  obtain ⟨hrecords, hgrants, -, -⟩ := claim_has_single_winner hreach 1
  exact ⟨c, hreach, hlength, hrecords, hgrants⟩

/-- The ledger cannot be read. -/
def unreadable : (a : Act) → Choice a
  | .reserveBinding .. => (some .read, false)
  | a => calm 8 a

/-- A call was refused because the ledger could not be read. -/
def Unread : Event → Bool
  | .claimed 1 9 (.error (.ledger .read)) => true
  | _ => false

/-- Operation 1 is recorded with fingerprint 1 and its binding is evicted by operation 3; a call for
operation 1 with fingerprint 9 is not answered with the conflict while the ledger cannot be read. -/
theorem evicted_conflict_is_unread :
    ∃ c, Reach (machine smallPool) (anyRun smallPool) (Shared.init smallPool) c ∧
      (∃ r ∈ c.shared.records, r.kind = .claiming ∧ r.operation = some 1 ∧ r.fingerprint = some 1) ∧
      ∃ e ∈ c.shared.events, Unread e = true := by
  let moves := calls .construct 0 13 (calm 7) ++ calls (.claim 1 1) 1 9 (calm 8) ++
    (calls (.claim 2 2) 2 1 (calm 8) ++ calls (.claim 3 3) 3 1 (calm 8) ++ calls (.claim 1 9) 4 2 unreadable)
  have hplay : ((play smallMachine ⟨Shared.init smallPool, []⟩ moves).map fun c =>
      (c.shared.records.any fun r => r.kind = .claiming ∧ r.operation = some 1 ∧ r.fingerprint = some 1) &&
        c.shared.events.any Unread) = some true := by decide +kernel
  obtain ⟨c, hc, hboth⟩ := Option.map_eq_some_iff.mp hplay
  have hmoves : OnlyCalls moves :=
    (onlyCalls.append onlyCalls).append ((onlyCalls.append onlyCalls).append onlyCalls)
  refine ⟨c, hmoves.reach hc, ?_⟩
  simpa using hboth

end Registered

end Soma.Host.Pool
