import Soma.Lib.Alone
import Soma.Host.Pool.Named

/-! # What a reconcile pass leaves after a restart

A pool opens over a ledger that any run may have written, and reconciles it alone. The pass goes over
the nonterminal entries; `Suspect` is one of them with what the launcher answered about its process.

* **`Adopted`**: which workers have a slot and an owned entry.
* **`Pass`**: after some suspects, the ledger has every one of them closed or kept, those that were kept
  are adopted as long as the table has room, and the others were released and terminated.

The pass keeps a running Instance that is alive whether the table has room for it or not, so nothing is
left unowned exactly when there is room for all of them (`reconcile_leaves_nothing_unowned`).
-/

namespace Soma.Host.Pool

open Std Soma.Lib List Shared

/-! ### What the launcher answered -/

/-- The worker marked suspect last. -/
def markedBy (marked : Option WorkerId) : Act → Option WorkerId
  | .append r => if r.kind = .suspect then some r.worker else marked
  | _ => marked

/-- A probe and the worker it is about. -/
def probedBy (marked : Option WorkerId) : (a : Act) → Answer a → Option (WorkerId × Liveness)
  | .env (.probe _), liveness => marked.map (·, liveness)
  | _, _ => none

/-- The launcher's answers in a history, each with the worker it is about: a pass marks a worker as
suspect before it probes its process. -/
def probesFrom (marked : Option WorkerId) : History Answer → List (WorkerId × Liveness)
  | [] => []
  | x :: h => (probedBy marked x.1 x.2).toList ++ probesFrom (markedBy marked x.1) h

/-- Actions that mark and probe nothing. -/
def Act.silent : Act → Bool
  | .append r => r.kind ≠ .suspect
  | .env (.probe _) => false
  | _ => true

theorem probesFrom_silent {h₁ h₂ : History Answer} {marked : Option WorkerId}
    (hsilent : ∀ x ∈ h₁, x.1.silent = true) : probesFrom marked (h₁ ++ h₂) = probesFrom marked h₂ := by
  induction h₁ with
  | nil => rfl
  | cons x h₁ ih =>
    obtain ⟨a, r⟩ := x
    have ha : a.silent = true := hsilent ⟨a, r⟩ (mem_cons_self ..)
    have hmarked : markedBy marked a = marked := by
      cases a <;> try rfl
      exact if_neg (by simpa [Act.silent] using ha)
    have hprobed : probedBy marked a r = none := by
      cases a <;> try rfl
      rename_i query
      cases query <;> first | rfl | cases ha
    rw [cons_append, probesFrom, hmarked, hprobed]
    exact ih fun x hx => hsilent x (mem_cons_of_mem _ hx)

/-! ### Suspects -/

/-- A nonterminal entry without a slot, with what the launcher answered when it has a process. -/
structure Suspect where
  entry : Entry
  liveness : Option Liveness

/-- A running Instance that is alive. -/
def Suspect.kept (x : Suspect) : Bool :=
  x.entry.phase = .running ∧ x.liveness = some .alive

/-- The suspect's references were released, and its process was terminated unless it was gone. -/
def Suspect.Closed (x : Suspect) (h : History Answer) : Prop :=
  (∃ reply, ⟨.env (.release x.entry.resources), reply⟩ ∈ h) ∧
    (x.liveness = some .alive ∨ x.liveness = some .unknown →
      ∃ identity reply, x.entry.identity = some identity ∧ ⟨.env (.terminate identity), reply⟩ ∈ h)

variable {h h' : History Answer}

theorem Suspect.Closed.mono {x : Suspect} (hclosed : x.Closed h) (hmem : ∀ y ∈ h, y ∈ h') : x.Closed h' := by
  obtain ⟨⟨reply, hreply⟩, hterminated⟩ := hclosed
  refine ⟨⟨reply, hmem _ hreply⟩, ?_⟩
  intro hliveness
  obtain ⟨identity, outcome, hidentity, houtcome⟩ := hterminated hliveness
  exact ⟨identity, outcome, hidentity, hmem _ houtcome⟩

/-! ### Adoption -/

/-- The workers with a slot, in the order of the table, are the workers with an owned entry. -/
structure Adopted (s : Shared) (ws : List WorkerId) : Prop where
  live : ∀ slot ∈ s.table, s.isDead slot = false
  slots : s.table.map (fun slot => s.cells[slot]?.map (·.id)) = ws.map some
  owned : ∀ w, w ∈ s.owned ↔ w ∈ ws

namespace Adopted

variable {s s' : Shared} {ws : List WorkerId} {w : WorkerId}

theorem findSlot_isSome (h : Adopted s ws) : (s.findSlot w).isSome = true ↔ w ∈ ws := by
  have hmem : w ∈ ws ↔ ∃ slot ∈ s.table, s.cells[slot]?.map (·.id) = some w := by
    rw [← mem_map, h.slots]
    simp
  rw [hmem, findSlot, find?_isSome]
  simp [Option.any_eq_true, Option.map_eq_some_iff]

theorem same (h : Adopted s ws) (hcells : s'.cells = s.cells) (htable : s'.table = s.table)
    (howned : s'.owned = s.owned) : Adopted s' ws where
  live slot hslot := by
    rw [htable] at hslot
    rw [isDead, hcells]
    exact h.live slot hslot
  slots := by rw [htable, hcells, h.slots]
  owned w := by rw [howned, h.owned]

variable {g : LeaseGeneration} {key : PoolKeyDigest}

theorem addSlot (h : Adopted s ws) {max : ℕ} {answer : Except Overloaded ℕ} (hw : w ∉ ws)
    (hadd : s.addSlot max ⟨w, key, .new .running g⟩ = (answer, s')) :
    if ws.length < max then
      answer = .ok s.cells.length ∧
        s' = { s with
          cells := s.cells ++ [⟨w, key, .new .running g⟩], table := s.table ++ [s.cells.length] }
    else (∃ overloaded, answer = .error overloaded) ∧ s' = s := by
  have hlive : (s.table.filter fun a => !s.isDead a) = s.table :=
    filter_eq_self.mpr fun a ha => by simp [h.live a ha]
  have hlength : s.table.length = ws.length := by simpa using congrArg length h.slots
  have hany : (s.table.any fun a => s.cells[a]?.any (·.id = w)) = false := by
    have hnone := (not_congr h.findSlot_isSome).mpr hw
    rw [findSlot, find?_isSome] at hnone
    rw [any_eq_false]
    exact fun a ha htrue => hnone ⟨a, ha, htrue⟩
  unfold Shared.addSlot at hadd
  simp only [hlive, hany, hlength, Bool.false_eq_true, if_false] at hadd
  split_ifs at hadd with hfull
  · cases hadd
    rw [if_neg (by omega)]
    exact ⟨⟨_, rfl⟩, rfl⟩
  · cases hadd
    rw [if_pos (by omega)]
    exact ⟨rfl, rfl⟩

theorem own (h : Adopted s ws) {o : Owned} (hcells : s'.cells = s.cells ++ [⟨w, key, .new .running g⟩])
    (htable : s'.table = s.table ++ [s.cells.length]) (howned : s'.owned = s.owned.insert w o) :
    Adopted s' (ws ++ [w]) := by
  -- the table's slots are older than the new one
  have hold : ∀ slot ∈ s.table, s'.cells[slot]? = s.cells[slot]? := by
    intro slot hslot
    have hsome : s.cells[slot]?.map (·.id) ∈ ws.map some := by
      rw [← h.slots]
      exact mem_map_of_mem hslot
    rw [hcells]
    refine getElem?_append_left ?_
    by_contra hge
    rw [getElem?_eq_none (by omega)] at hsome
    simp at hsome
  constructor
  · intro slot hslot
    rw [htable] at hslot
    rcases mem_append.mp hslot with hslot | hslot
    · rw [isDead, hold slot hslot]
      exact h.live slot hslot
    · obtain rfl := mem_singleton.mp hslot
      simp [isDead, hcells, StateWord.load_new]
  · rw [htable, map_append, map_append, ← h.slots]
    refine congrArg₂ _ (map_congr_left fun slot hslot => by rw [hold slot hslot]) ?_
    simp [hcells]
  · intro w'
    rw [howned, TreeMap.mem_insert, mem_append, h.owned, mem_singleton,
      Std.compare_eq_iff_eq, or_comm, eq_comm]

end Adopted

/-! ### The subroutines of a pass, alone -/

section alone

variable {setup : Setup} {s s' : Shared} {h : History Answer} {ws : List WorkerId} {entry : Entry}

/-- One more worker, when there is room. -/
def adding (max : ℕ) (ws : List WorkerId) (w : WorkerId) : List WorkerId :=
  if ws.length < max then ws ++ [w] else ws

theorem capacityLaunched_runs {reservation answer : Option Capacity.Reservation}
    (hrun : Runs (machine setup) (capacityLaunched reservation) s h answer s') :
    Same s s' ∧ ∀ x ∈ h, x.1.silent = true := by
  cases reservation with
  | none =>
    obtain ⟨rfl, -, rfl⟩ := hrun.of_ret
    exact ⟨.refl _, by simp⟩
  | some reservation =>
    obtain ⟨_, r, s₁, h₁, hexec, rfl, hrest⟩ := hrun.of_call_bind
    obtain ⟨rfl, -, rfl⟩ := hrest.of_ret
    cases hexec
    exact ⟨{ __ := Same.refl s }, by simp [Act.silent]⟩

theorem retain_runs {answer : Bool × Bool} (hadopted : Adopted s ws) (hw : entry.worker ∉ ws)
    (hinstance : entry.instanceId.isSome) (hoperation : entry.operation.isSome) (hidentity : entry.identity.isSome)
    (hrun : Runs (machine setup) (retain entry) s h answer s') :
    s'.log = s.log ∧ (∀ x ∈ h, x.1.silent = true) ∧
      Adopted s' (adding setup.limits.max ws entry.worker) := by
  obtain ⟨i, hi⟩ := Option.isSome_iff_exists.mp hinstance
  obtain ⟨operation, hop⟩ := Option.isSome_iff_exists.mp hoperation
  obtain ⟨identity, hid⟩ := Option.isSome_iff_exists.mp hidentity
  unfold retain at hrun
  obtain ⟨_, added, s₁, h₁, hadd, rfl, hrun₁⟩ := hrun.of_call_bind
  have hadded := hadopted.addSlot hw (Option.some.inj hadd)
  unfold adding
  split_ifs at hadded ⊢ with hroom
  · obtain ⟨rfl, rfl⟩ := hadded
    -- the new slot is running, so the handle attaches
    obtain ⟨_, attached, s₂, h₂, hattach, rfl, hrun₂⟩ := hrun₁.of_call_bind
    simp only [machine, exec, getElem?_append_right le_rfl, Nat.sub_self, getElem?_cons_zero,
      Option.map_some, StateWord.load_new, if_true] at hattach
    cases hattach
    change Runs _ (adopt entry _) _ _ _ _ at hrun₂
    simp only [adopt, hi, hop, hid] at hrun₂
    obtain ⟨_, reserved, s₃, h₃, hreserve, rfl, hrun₃⟩ := hrun₂.of_call_bind
    have hreserved : s₃.log = s.log ∧ s₃.cells = s.cells ++ [⟨entry.worker, entry.key, .new .running
        entry.leaseGeneration⟩] ∧ s₃.table = s.table ++ [s.cells.length] ∧ s₃.owned = s.owned := by
      simp only [machine, exec] at hreserve
      split at hreserve
      all_goals
        cases hreserve
        exact ⟨rfl, rfl, rfl, rfl⟩
    obtain ⟨h₄, reservation, s₄, h₅, rfl, hlaunched, hrun₄⟩ := hrun₃.of_bind
    obtain ⟨hsame, hsilent⟩ := capacityLaunched_runs hlaunched
    obtain ⟨_, _, s₅, h₆, hown, rfl, hrun₅⟩ := hrun₄.of_call_bind
    obtain ⟨rfl, -, rfl⟩ := hrun₅.of_ret
    cases hown
    refine ⟨hsame.log.trans hreserved.1, ?_, ?_⟩
    · intro x hx
      simp only [mem_cons, mem_append, not_mem_nil, or_false] at hx
      rcases hx with rfl | rfl | rfl | hx | rfl
      all_goals first | rfl | exact hsilent x hx
    · have hinsert : ∀ o, s₄.owned.insert entry.worker o = s.owned.insert entry.worker o := by
        intro o
        rw [hsame.owned, hreserved.2.2.2]
      exact hadopted.own (hsame.cells.trans hreserved.2.1) (hsame.table.trans hreserved.2.2.1) (hinsert _)
  · obtain ⟨⟨overloaded, rfl⟩, rfl⟩ := hadded
    obtain ⟨rfl, -, rfl⟩ := hrun₁.of_ret
    exact ⟨rfl, by simp [Act.silent], hadopted⟩

variable {liveness : Option Liveness} {answer : ReconcileDisposition × Bool × Bool}

theorem closeSuspect_runs (hidentity : liveness.isSome = true → entry.identity.isSome = true)
    (hrun : Runs (machine setup) (closeSuspect entry liveness) s h answer s') :
    answer.1 ≠ .retained ∧ Same s s' ∧ (∀ x ∈ h, x.1.silent = true) ∧
      (⟨entry, liveness⟩ : Suspect).Closed h := by
  unfold closeSuspect at hrun
  obtain ⟨h₁, destroyed, s₁, h₂, rfl, hterminate, hrun₁⟩ := hrun.of_bind
  have hterminated : Same s s₁ ∧ (∀ x ∈ h₁, x.1.silent = true) ∧
      (liveness = some .alive ∨ liveness = some .unknown →
        ∃ identity reply, entry.identity = some identity ∧ ⟨.env (.terminate identity), reply⟩ ∈ h₁) := by
    unfold terminateSuspect at hterminate
    split at hterminate
    case h_3 =>
      rename_i halive hunknown
      obtain ⟨rfl, -, rfl⟩ := hterminate.of_ret
      refine ⟨.refl _, by simp, ?_⟩
      rintro (hl | hl)
      all_goals
        obtain ⟨identity, hid⟩ := Option.isSome_iff_exists.mp (hidentity (by rw [hl]; rfl))
        first
          | exact absurd hl (halive identity hid)
          | exact absurd hl (hunknown identity hid)
    all_goals
      rename_i identity hid
      obtain ⟨_, outcome, s₂, h₃, hexec, rfl, hret⟩ := hterminate.of_call_bind
      obtain ⟨rfl, -, rfl⟩ := hret.of_ret
      cases hexec
      refine ⟨{ __ := Same.refl s }, by simp [Act.silent], ?_⟩
      exact fun _ => ⟨identity, _, hid, mem_singleton_self _⟩
  obtain ⟨hsame, hsilent, hterminated⟩ := hterminated
  obtain ⟨_, released, s₂, h₃, hexec, rfl, hret⟩ := hrun₁.of_call_bind
  obtain ⟨rfl, rfl, rfl⟩ := hret.of_ret
  cases hexec
  refine ⟨?_, { __ := hsame }, ?_, ⟨_, mem_append_right _ (mem_singleton_self _)⟩, ?_⟩
  · dsimp only
    split_ifs <;> decide
  · exact forall_mem_append.mpr ⟨hsilent, forall_mem_singleton.mpr rfl⟩
  · intro hliveness
    obtain ⟨identity, reply, hid, hreply⟩ := hterminated hliveness
    exact ⟨identity, reply, hid, mem_append_left _ hreply⟩

theorem decideSuspect_runs (hadopted : Adopted s ws) (hw : entry.worker ∉ ws) (hnamed : entry.Named)
    (hidentity : liveness.isSome = true → entry.identity.isSome = true)
    (hrun : Runs (machine setup) (decideSuspect entry liveness) s h answer s') :
    s'.log = s.log ∧ (∀ x ∈ h, x.1.silent = true) ∧
      if (⟨entry, liveness⟩ : Suspect).kept = true then
        answer.1 = .retained ∧ Adopted s' (adding setup.limits.max ws entry.worker)
      else answer.1 ≠ .retained ∧ Adopted s' ws ∧ (⟨entry, liveness⟩ : Suspect).Closed h := by
  unfold decideSuspect at hrun
  split_ifs at hrun with hkept
  · obtain ⟨h₁, retained, s₁, h₂, rfl, hretain, hret⟩ := hrun.of_bind
    obtain ⟨rfl, rfl, rfl⟩ := hret.of_ret
    obtain ⟨hrunning, rfl⟩ := hkept
    obtain ⟨hlog, hsilent, hafter⟩ := retain_runs hadopted hw (hnamed.2 (.inr hrunning))
      (hnamed.1 (.inr (.inr hrunning))) (hidentity rfl) hretain
    rw [if_pos (by simp [Suspect.kept, hrunning]), append_nil]
    exact ⟨hlog, hsilent, rfl, hafter⟩
  · obtain ⟨hne, hsame, hsilent, hclosed⟩ := closeSuspect_runs hidentity hrun
    rw [if_neg (by simpa [Suspect.kept] using hkept)]
    exact ⟨hsame.log, hsilent, hne, hadopted.same hsame.cells hsame.table hsame.owned, hclosed⟩

theorem probe_runs {identity : Option WorkerIdentity}
    (hrun : Runs (machine setup) (probe identity) s h liveness s') :
    Same s s' ∧ (liveness.isSome = true → identity.isSome = true) ∧
      ∀ (w : WorkerId) (h' : History Answer),
        probesFrom (some w) (h ++ h') = liveness.toList.map (w, ·) ++ probesFrom (some w) h' := by
  cases identity with
  | none =>
    obtain ⟨rfl, rfl, rfl⟩ := hrun.of_ret
    exact ⟨.refl _, by simp, fun _ _ => rfl⟩
  | some identity =>
    obtain ⟨_, reply, s₁, h₁, hexec, rfl, hret⟩ := hrun.of_call_bind
    obtain ⟨rfl, rfl, rfl⟩ := hret.of_ret
    cases hexec
    exact ⟨{ __ := Same.refl s }, fun _ => rfl, fun _ _ => rfl⟩

theorem append_runs {r : Record} {e : Choice (.append r)}
    (hexec : (machine setup).exec (.append r) e s = some (.ok (), s')) : s' = Own.appended s r true := by
  cases e <;> cases hexec
  rfl

theorem reconcileSuspect_runs {finding : ReconcileFinding} (hadopted : Adopted s ws) (hw : entry.worker ∉ ws)
    (hnamed : entry.Named) (hrun : Runs (machine setup) (reconcileSuspect setup entry) s h (.ok finding) s') :
    ∃ (x : Suspect) (disposition : ReconcileDisposition), x.entry = entry ∧
      s'.records = s.records ++
        [(suspectRecord setup entry).stored, (reconciledRecord setup entry disposition).stored] ∧
      (disposition = .retained ↔ x.kept = true) ∧
      (∀ marked h', probesFrom marked (h ++ h') =
        x.liveness.toList.map (entry.worker, ·) ++ probesFrom (some entry.worker) h') ∧
      Adopted s' (if x.kept then adding setup.limits.max ws entry.worker else ws) ∧
      (x.kept = false → x.Closed h) := by
  unfold reconcileSuspect at hrun
  obtain ⟨_, marked, s₁, h₁, hmark, rfl, hrun₁⟩ := hrun.of_call_bind
  cases marked with
  | error error =>
    cases hrun₁.of_ret.2.1
  | ok =>
  obtain rfl := append_runs hmark
  obtain ⟨h₂, liveness, s₂, h₃, rfl, hprobe, hrun₂⟩ := hrun₁.of_bind
  obtain ⟨hsame, hidentity, hprobes⟩ := probe_runs hprobe
  obtain ⟨resources, _, s₃, h₄, hverify, rfl, hrun₃⟩ := hrun₂.of_call_bind
  cases hverify
  obtain ⟨h₅, decision, s₄, h₆, rfl, hdecide, hrun₄⟩ := hrun₃.of_bind
  have hadopted₂ : ∀ calls, Adopted { s₂ with calls } ws :=
    fun _ => hadopted.same hsame.cells hsame.table hsame.owned
  obtain ⟨hlog₄, hsilent, hdecided⟩ :=
    decideSuspect_runs (hadopted₂ _) hw hnamed hidentity hdecide
  obtain ⟨_, recorded, s₅, h₇, hrecord, rfl, hrun₅⟩ := hrun₄.of_call_bind
  cases recorded with
  | error error =>
    cases hrun₅.of_ret.2.1
  | ok =>
  obtain rfl := append_runs hrecord
  obtain ⟨rfl, -, rfl⟩ := hrun₅.of_ret
  refine ⟨⟨entry, liveness⟩, decision.1, rfl, ?_, ?_, ?_, ?_, ?_⟩
  · have hrecords : s₄.records = s.records ++ [(suspectRecord setup entry).stored] := by
      rw [records_of_log (hlog₄.trans hsame.log)]
      exact Own.records_appended _ true
    rw [Own.records_appended, if_pos rfl, hrecords, append_assoc]
    rfl
  · split_ifs at hdecided with hkept
    · exact iff_of_true hdecided.1 hkept
    · exact iff_of_false hdecided.1 hkept
  · intro marked h'
    -- the suspect is marked, probed, and nothing after that marks or probes
    rw [cons_append, append_assoc, cons_append, append_assoc, probesFrom]
    change probesFrom (some entry.worker) (h₂ ++ ([⟨.env (.verify entry.resources), resources⟩] ++
      (h₅ ++ ([⟨.append (reconciledRecord setup entry decision.1), .ok ()⟩] ++ h')))) = _
    rw [hprobes, probesFrom_silent (by simp [Act.silent]), probesFrom_silent hsilent,
      probesFrom_silent (by simp [Act.silent, reconciledRecord, entryRecord])]
  · split_ifs at hdecided with hkept
    · rw [if_pos hkept]
      exact hdecided.2.same rfl rfl rfl
    · rw [if_neg hkept]
      exact hdecided.2.1.same rfl rfl rfl
  · intro hkept
    rw [if_neg (by simp [hkept])] at hdecided
    refine hdecided.2.2.mono fun y hy => ?_
    simp [hy]

end alone

/-! ### The loop -/

theorem adding_take (max : ℕ) (ws : List WorkerId) (w : WorkerId) :
    adding max (ws.take max) w = (ws ++ [w]).take max := by
  unfold adding
  rw [take_append, length_take]
  split_ifs with hroom
  · rw [take_of_length_le (l := [w]) (by simp; omega)]
  · rw [show max - ws.length = 0 by omega, take_zero, append_nil]

variable (done : List Suspect)

def kept : List WorkerId :=
  (done.filter (·.kept)).map (·.entry.worker)

/-- What the launcher answered about the suspects. -/
def answers : List (WorkerId × Liveness) :=
  done.flatMap fun x => x.liveness.toList.map (x.entry.worker, ·)

/-- A pass over the ledger `m₀` has reconciled the suspects `done`. -/
structure Pass (max : ℕ) (m₀ : Entries) (s : Shared) (h : History Answer) (done : List Suspect) :
    Prop where
  ledger : ∃ m, entriesOf s.records = .ok m ∧
    (∀ x ∈ done, statusOf m x.entry.worker =
      some ⟨if x.kept then x.entry.phase else .dead, x.entry.leaseGeneration⟩) ∧
    ∀ w, (∀ x ∈ done, x.entry.worker ≠ w) → m[w]? = m₀[w]?
  adopted : Adopted s ((kept done).take max)
  probes : ∃ marked, ∀ h', probesFrom none (h ++ h') = answers done ++ probesFrom marked h'
  closed : ∀ x ∈ done, x.kept = false → x.Closed h

variable {e : Entry} {m : Entries}

theorem entriesOf_reconciled (setup : Setup) {records : List Record} (disposition : ReconcileDisposition)
    (hm : entriesOf records = .ok m) (hstatus : statusOf m e.worker = some e.status) (hphase : e.phase ≠ .dead) :
    ∃ m', entriesOf (records ++
        [(suspectRecord setup e).stored, (reconciledRecord setup e disposition).stored]) = .ok m' ∧
      statusOf m' e.worker =
        some ⟨if disposition = .retained then e.phase else .dead, e.leaseGeneration⟩ ∧
      ∀ w, w ≠ e.worker → m'[w]? = m[w]? := by
  obtain ⟨m₁, hm₁, hstatus₁, hothers₁⟩ := entriesOf_append_of_accepts (r := suspectRecord setup e) hm (by
      change Status.Accepts (statusOf m e.worker) _
      rw [hstatus]
      exact Status.accepts_of_moves (by simp [suspectRecord, entryRecord]) hphase rfl
        (by simp [suspectRecord, entryRecord, movesTo]))
  have hmarked : statusOf m₁ e.worker = some e.status := by
    change statusOf m₁ e.worker = some (Status.after (statusOf m e.worker) _) at hstatus₁
    rw [hstatus₁, hstatus]
    rfl
  obtain ⟨m₂, hm₂, hstatus₂, hothers₂⟩ := entriesOf_append_of_accepts
    (r := reconciledRecord setup e disposition) hm₁ (by
      change Status.Accepts (statusOf m₁ e.worker) _
      rw [hmarked]
      exact Status.accepts_of_moves (by simp [reconciledRecord, entryRecord]) hphase rfl
        (by simp [reconciledRecord, entryRecord, movesTo]))
  refine ⟨m₂, by rw [← hm₂, append_assoc]; rfl, ?_, ?_⟩
  · change statusOf m₂ e.worker = some (Status.after (statusOf m₁ e.worker) _) at hstatus₂
    rw [hstatus₂, hmarked]
    cases disposition <;> rfl
  · intro w hw
    rw [hothers₂ w hw, hothers₁ w hw]

theorem kept_append (x : Suspect) :
    kept (done ++ [x]) = if x.kept then kept done ++ [x.entry.worker] else kept done := by
  unfold kept
  rw [filter_append, map_append]
  split_ifs with hx <;> simp [hx]

theorem answers_append (x : Suspect) :
    answers (done ++ [x]) = answers done ++ x.liveness.toList.map (x.entry.worker, ·) := by
  simp [answers]

variable {done : List Suspect} {m₀ : Entries}

theorem Pass.silent {max : ℕ} {s t : Shared} {h : History Answer} (hpass : Pass max m₀ s h done) (y : Sigma Answer)
    (hy : y.1.silent = true) (hsame : Same s t) : Pass max m₀ t (h ++ [y]) done where
  ledger := by
    rw [records_of_log hsame.log]
    exact hpass.ledger
  adopted := hpass.adopted.same hsame.cells hsame.table hsame.owned
  probes := by
    obtain ⟨marked, hmarked⟩ := hpass.probes
    refine ⟨marked, fun h' => ?_⟩
    rw [append_assoc, hmarked, probesFrom_silent (by simpa using hy)]
  closed x hx hkept := (hpass.closed x hx hkept).mono fun z hz => mem_append_left _ hz

theorem not_mem_take_kept {max : ℕ} {w : WorkerId} (hnew : ∀ x ∈ done, x.entry.worker ≠ w) :
    w ∉ (kept done).take max := by
  intro hmem
  obtain ⟨x, hx, hxw⟩ := mem_map.mp (mem_of_mem_take hmem)
  exact hnew x (mem_filter.mp hx).1 hxw

variable {s s' : Shared} {setup : Setup}

/-- **Step lemma.**  One more suspect. -/
theorem Pass.suspect {finding : ReconcileFinding} (hpass : Pass setup.limits.max m₀ s h done)
    (hentry : m₀[e.worker]? = some e) (hnamed : e.Named) (hphase : e.phase.isNonterminal = true)
    (hnew : ∀ x ∈ done, x.entry.worker ≠ e.worker)
    (hrun : Runs (machine setup) (reconcileSuspect setup e) s h' (.ok finding) s') :
    ∃ x : Suspect, x.entry = e ∧ Pass setup.limits.max m₀ s' (h ++ h') (done ++ [x]) := by
  obtain ⟨x, disposition, rfl, hrecords, hdisposition, hprobes, hadopted, hclosed⟩ :=
    reconcileSuspect_runs hpass.adopted (not_mem_take_kept hnew) hnamed hrun
  obtain ⟨m, hm, hdone, hothers⟩ := hpass.ledger
  have hlive : x.entry.phase ≠ .dead := by
    intro hdead
    rw [hdead] at hphase
    cases hphase
  have hbefore : statusOf m x.entry.worker = some x.entry.status := by
    rw [statusOf, hothers _ hnew, hentry]
    rfl
  obtain ⟨m', hm', hstatus, hothers'⟩ := entriesOf_reconciled setup disposition hm hbefore hlive
  refine ⟨x, rfl, ?_, ?_, ?_, ?_⟩
  · refine ⟨m', by rw [hrecords, hm'], ?_, ?_⟩
    · refine forall_mem_append.mpr ⟨fun y hy => ?_, forall_mem_singleton.mpr ?_⟩
      · rw [statusOf, hothers' _ (hnew y hy)]
        exact hdone y hy
      · rw [hstatus]
        simp only [hdisposition]
    · intro w hw
      rw [hothers' w fun heq => hw x (by simp) heq.symm]
      exact hothers w fun y hy => hw y (by simp [hy])
  · rw [kept_append]
    split_ifs at hadopted ⊢ with hx
    · rwa [adding_take] at hadopted
    · exact hadopted
  · obtain ⟨marked, hmarked⟩ := hpass.probes
    refine ⟨some x.entry.worker, fun h'' => ?_⟩
    rw [append_assoc, hmarked, hprobes, answers_append, append_assoc]
  · refine forall_mem_append.mpr ⟨fun y hy hkept => ?_, forall_mem_singleton.mpr fun hkept => ?_⟩
    · exact (hpass.closed y hy hkept).mono fun z hz => mem_append_left _ hz
    · exact (hclosed hkept).mono fun z hz => mem_append_right _ hz

variable {findings : List ReconcileFinding}

/-- **Run lemma.**  The loop reconciles every nonterminal entry. -/
theorem Pass.entries {es : List Entry} (hpass : Pass setup.limits.max m₀ s h done)
    (hentries : ∀ e ∈ es, m₀[e.worker]? = some e ∧ e.Named) (hnodup : (es.map (·.worker)).Nodup)
    (hnew : ∀ x ∈ done, ∀ e ∈ es, x.entry.worker ≠ e.worker)
    (hrun : Runs (machine setup) (reconcileEntries setup es) s h' (.ok findings) s') :
    ∃ done', Pass setup.limits.max m₀ s' (h ++ h') (done ++ done') ∧
      done'.map (·.entry) = es.filter (·.phase.isNonterminal) := by
  induction es generalizing s h h' done findings with
  | nil =>
    obtain ⟨rfl, -, rfl⟩ := hrun.of_ret
    exact ⟨[], by simpa using hpass, rfl⟩
  | cons e es ih =>
    rw [map_cons, nodup_cons] at hnodup
    have hnew' : ∀ x ∈ done, ∀ e' ∈ es, x.entry.worker ≠ e'.worker :=
      fun x hx e' he' => hnew x hx e' (mem_cons_of_mem _ he')
    have hentries' : ∀ e ∈ es, m₀[e.worker]? = some e ∧ e.Named :=
      fun e' he' => hentries e' (mem_cons_of_mem _ he')
    unfold reconcileEntries at hrun
    split_ifs at hrun with hphase
    swap
    · obtain ⟨done', hpass', hdone'⟩ := ih hpass hentries' hnodup.2 hnew' hrun
      exact ⟨done', hpass', by simp [hphase, hdone']⟩
    obtain ⟨hentry, hnamed⟩ := hentries e (mem_cons_self ..)
    have hnew₀ : ∀ x ∈ done, x.entry.worker ≠ e.worker :=
      fun x hx => hnew x hx e (mem_cons_self ..)
    obtain ⟨_, found, s₁, h₁, hfind, rfl, hrun₁⟩ := hrun.of_call_bind
    cases hfind
    -- no slot of this worker was restored yet
    have hnone : s.findSlot e.worker = none := by
      rw [← Option.not_isSome_iff_eq_none, hpass.adopted.findSlot_isSome]
      exact not_mem_take_kept hnew₀
    rw [hnone] at hrun₁ ⊢
    obtain ⟨h₂, finding, s₂, h₃, rfl, hsuspect, hrun₂⟩ := hrun₁.of_bind
    cases finding with
    | error error =>
      cases hrun₂.of_ret.2.1
    | ok finding =>
    have hpass₀ := hpass.silent ⟨.findSlot e.worker, none⟩ rfl (.refl s)
    obtain ⟨x, rfl, hpass₁⟩ := hpass₀.suspect hentry hnamed hphase hnew₀ hsuspect
    obtain ⟨h₄, rest, s₃, h₅, rfl, hloop, hret⟩ := hrun₂.of_bind
    obtain ⟨rfl, hrest, rfl⟩ := hret.of_ret
    cases rest with
    | error error => cases hrest
    | ok rest =>
    have hnew₁ : ∀ y ∈ done ++ [x], ∀ e' ∈ es, y.entry.worker ≠ e'.worker := by
      refine forall_mem_append.mpr ⟨hnew', forall_mem_singleton.mpr fun e' he' heq => ?_⟩
      exact hnodup.1 (heq ▸ mem_map_of_mem he')
    obtain ⟨done', hpass', hdone'⟩ := ih hpass₁ hentries' hnodup.2 hnew₁ hloop
    refine ⟨x :: done', ?_, by simp [hphase, hdone']⟩
    simpa using hpass'

/-! ### A whole pass -/

/-- Nothing is left unowned after a pass over the ledger `m₀`. -/
structure Settled (m₀ : Entries) (s : Shared) (h : History Answer) : Prop where
  /-- The ledger folds, and a worker it still has as nonterminal has a live slot, and an owned entry
  when it is running. -/
  owned : ∃ m, entriesOf s.records = .ok m ∧ ∀ (w : WorkerId) (e : Entry), m[w]? = some e →
    e.phase.isNonterminal = true →
      (∃ slot, s.findSlot w = some slot ∧ s.isDead slot = false) ∧
        (e.phase = .running → w ∈ s.owned)
  /-- A worker that was not retained was released, and terminated unless its process was gone. -/
  closed : ∀ (w : WorkerId) (e : Entry), m₀[w]? = some e → e.phase.isNonterminal = true →
    w ∉ s.owned →
      (∃ reply, ⟨.env (.release e.resources), reply⟩ ∈ h) ∧
        ∀ liveness, (w, liveness) ∈ probesFrom none h → liveness = .alive ∨ liveness = .unknown →
          ∃ identity reply, e.identity = some identity ∧ ⟨.env (.terminate identity), reply⟩ ∈ h

/-- The running workers of the ledger whose process the launcher found alive. -/
def aliveRunning (m₀ : Entries) (h : History Answer) : ℕ :=
  (probesFrom none h).countP fun x => x.2 = .alive ∧ m₀[x.1]?.any (·.phase = .running)

theorem entries_nodup {records : List Record} (h : entriesOf records = .ok m) :
    (m.values.map (·.worker)).Nodup := by
  have hkeys : m.values.map (·.worker) = m.keys := by
    rw [Table.values_eq, map_map, ← TreeMap.map_fst_toList_eq_keys]
    refine map_congr_left fun x hx => ?_
    exact (entriesOf_worker h (TreeMap.mem_toList_iff_getElem?_eq_some.mp hx)).1
  rw [hkeys]
  exact TreeMap.nodup_keys

theorem countP_answers (h : ∀ x ∈ done, m₀[x.entry.worker]? = some x.entry) :
    ((answers done).countP fun x => x.2 = .alive ∧ m₀[x.1]?.any (·.phase = .running)) =
      (kept done).length := by
  induction done with
  | nil => rfl
  | cons x done ih =>
    have hx := h x (mem_cons_self ..)
    have hrest := ih fun y hy => h y (mem_cons_of_mem _ hy)
    have hone : ((x.liveness.toList.map (x.entry.worker, ·)).countP fun x =>
        x.2 = .alive ∧ m₀[x.1]?.any (·.phase = .running)) = if x.kept then 1 else 0 := by
      cases hl : x.liveness with
      | none => simp [Suspect.kept, hl]
      | some liveness => simp [Suspect.kept, hl, hx, countP_cons, and_comm]
    rw [answers, flatMap_cons, countP_append, hone]
    change _ + (answers done).countP _ = _
    rw [hrest]
    simp only [kept, filter_cons]
    split_ifs with hkept
    · rw [map_cons, length_cons, Nat.add_comm]
    · exact Nat.zero_add _

theorem Pass.opened (hopened : s.opened setup = some s') (hm₀ : entriesOf s'.records = .ok m₀) :
    Pass setup.limits.max m₀ s' [] [] := by
  obtain ⟨m, -, rfl⟩ := opened_eq_some hopened
  refine ⟨⟨m₀, hm₀, by simp, by simp⟩, ?_, ⟨none, fun _ => rfl⟩, by simp⟩
  exact ⟨by simp, by simp [kept], by simp [kept]⟩

theorem reconcile_passes {h : History Answer} (hpass : Pass setup.limits.max m₀ s [] [])
    (hrecords : ∀ r ∈ s.records, r.Named) (hm₀ : entriesOf s.records = .ok m₀)
    (hrun : Runs (machine setup) (reconcile setup) s h (.ok findings) s') :
    ∃ done, Pass setup.limits.max m₀ s' h done ∧
      done.map (·.entry) = m₀.values.filter (·.phase.isNonterminal) := by
  unfold reconcile at hrun
  obtain ⟨_, _, s₁, h₁, hlock, rfl, hrun₁⟩ := hrun.of_call_bind
  obtain ⟨h₂, result, s₂, h₃, rfl, hgated, hrun₂⟩ := hrun₁.of_bind
  obtain ⟨_, _, s₃, h₄, hunlock, rfl, hret⟩ := hrun₂.of_call_bind
  obtain ⟨rfl, rfl, rfl⟩ := hret.of_ret
  unfold reconcileGated at hgated
  obtain ⟨failed, es, s₄, h₅, hread, rfl, hgated₁⟩ := hgated.of_call_bind
  have hs₁ : s₁ = { s with reconcileGate := true } := by
    simp only [machine, exec] at hlock
    split_ifs at hlock
    cases hlock
    rfl
  subst hs₁
  cases failed with
  | some error =>
    cases hread
    cases hgated₁.of_ret.2.1
  | none =>
  have hvalues : es = .ok m₀.values ∧ s₄ = { s with reconcileGate := true } := by
    have hread' : some ((entriesOf s.records).map (·.values), { s with reconcileGate := true }) =
        some (es, s₄) := hread
    rw [hm₀] at hread'
    cases hread'
    exact ⟨rfl, rfl⟩
  obtain ⟨rfl, rfl⟩ := hvalues
  obtain ⟨h₆, found, s₅, h₇, rfl, hloop, hgated₂⟩ := hgated₁.of_bind
  cases found with
  | error error =>
    cases hgated₂.of_ret.2.1
  | ok found =>
  obtain ⟨_, _, s₆, h₈, hset, rfl, hret₂⟩ := hgated₂.of_call_bind
  obtain ⟨rfl, -, rfl⟩ := hret₂.of_ret
  cases hset
  cases hunlock
  have hentries : ∀ e ∈ m₀.values, m₀[e.worker]? = some e ∧ e.Named := by
    intro e he
    obtain ⟨w, hw⟩ := Table.mem_values.mp he
    rw [(entriesOf_worker hm₀ hw).1]
    exact ⟨hw, entriesOf_named hrecords hm₀ hw⟩
  have hpass₁ := (hpass.silent (t := { s with reconcileGate := true }) ⟨.lockReconcile, ()⟩ rfl
    { __ := Same.refl s }).silent ⟨.entries, .ok m₀.values⟩ rfl (.refl _)
  obtain ⟨done, hdone, hsuspects⟩ := hpass₁.entries hentries (entries_nodup hm₀) (by simp) hloop
  refine ⟨done, ?_, hsuspects⟩
  have hpass₂ := (hdone.silent (t := { s₅ with reconciled := true }) ⟨.setReconciled, ()⟩ rfl
    { __ := Same.refl s₅ }).silent (t := { s₅ with reconciled := true, reconcileGate := false })
    ⟨.unlockReconcile, ()⟩ rfl { __ := Same.refl s₅ }
  simpa using hpass₂

namespace Pass

variable {max : ℕ} {m₀ : Entries} {s : Shared} {h : History Answer} {done : List Suspect}
  {records : List Record}

theorem probes_eq (hpass : Pass max m₀ s h done) : probesFrom none h = answers done := by
  obtain ⟨marked, hmarked⟩ := hpass.probes
  simpa [probesFrom] using hmarked []

theorem mem_kept {x : Suspect} (hx : x ∈ done) (hkept : x.kept = true) : x.entry.worker ∈ kept done :=
  mem_map_of_mem (mem_filter.mpr ⟨hx, hkept⟩)

variable (hm₀ : entriesOf records = .ok m₀)
  (hsuspects : done.map (·.entry) = m₀.values.filter (·.phase.isNonterminal))
include hm₀ hsuspects

theorem mem_suspects {e : Entry} :
    (∃ x ∈ done, x.entry = e) ↔ m₀[e.worker]? = some e ∧ e.phase.isNonterminal = true := by
  rw [← mem_map, hsuspects, mem_filter, Table.mem_values]
  refine and_congr_left fun _ => ⟨?_, fun he => ⟨_, he⟩⟩
  rintro ⟨w, hw⟩
  rw [(entriesOf_worker hm₀ hw).1]
  exact hw

theorem nodup_suspects : (done.map (·.entry.worker)).Nodup := by
  have hmap : done.map (·.entry.worker) = (done.map (·.entry)).map (·.worker) := by
    rw [map_map]
    rfl
  rw [hmap, hsuspects]
  exact (entries_nodup hm₀).sublist (filter_sublist.map _)

theorem room_of_settled (hpass : Pass max m₀ s h done) (hsettled : Settled m₀ s h) : (kept done).length ≤ max := by
  by_contra hroom
  have hlt : max < (kept done).length := by omega
  obtain ⟨x, hx, hxw⟩ := mem_map.mp (getElem_mem hlt)
  obtain ⟨hx, hkept⟩ := mem_filter.mp hx
  obtain ⟨m, hm, hdone, -⟩ := hpass.ledger
  obtain ⟨m', hm', howned⟩ := hsettled.owned
  cases hm.symm.trans hm'
  have hrunning : x.entry.phase = .running := by
    have := hkept
    simp only [Suspect.kept, decide_eq_true_eq] at this
    exact this.1
  have hstatus := hdone x hx
  rw [if_pos hkept, hrunning] at hstatus
  obtain ⟨e, he, hphase⟩ := Option.map_eq_some_iff.mp hstatus
  obtain ⟨⟨slot, hslot, -⟩, -⟩ := howned _ e he (by
    rw [show e.phase = .running from congrArg Packed.phase hphase]
    rfl)
  have hadopted := hpass.adopted.findSlot_isSome.mp (by rw [hslot]; rfl)
  rw [hxw] at hadopted
  obtain ⟨i, hi, hget⟩ := getElem_of_mem hadopted
  rw [length_take] at hi
  rw [getElem_take] at hget
  have hkeptNodup : (kept done).Nodup :=
    (nodup_suspects hm₀ hsuspects).sublist (filter_sublist.map _)
  have := (hkeptNodup.getElem_inj_iff).mp hget
  omega

theorem settled_of_room (hpass : Pass max m₀ s h done) (hroom : (kept done).length ≤ max) : Settled m₀ s h := by
  obtain ⟨m, hm, hdone, hothers⟩ := hpass.ledger
  have hadopted := hpass.adopted
  rw [take_of_length_le hroom] at hadopted
  refine ⟨⟨m, hm, ?_⟩, ?_⟩
  · intro w e he hphase
    by_cases hsuspect : ∃ x ∈ done, x.entry.worker = w
    · obtain ⟨x, hx, rfl⟩ := hsuspect
      have hstatus := hdone x hx
      rw [statusOf, he] at hstatus
      have hkept : x.kept = true := by
        by_contra hne
        rw [if_neg hne] at hstatus
        rw [show e.phase = .dead from congrArg Packed.phase (Option.some.inj hstatus)] at hphase
        cases hphase
      have hmem := mem_kept hx hkept
      obtain ⟨slot, hslot⟩ := Option.isSome_iff_exists.mp (hadopted.findSlot_isSome.mpr hmem)
      exact ⟨⟨slot, hslot, hadopted.live slot (findSlot_eq_some hslot).1⟩,
        fun _ => (hadopted.owned _).mpr hmem⟩
    · have hbefore : m₀[w]? = some e := by
        rw [← hothers w fun x hx heq => hsuspect ⟨x, hx, heq⟩, he]
      have hw := (entriesOf_worker hm₀ hbefore).1
      obtain ⟨x, hx, rfl⟩ := (mem_suspects hm₀ hsuspects).mpr ⟨by rw [hw]; exact hbefore, hphase⟩
      exact absurd ⟨x, hx, hw⟩ hsuspect
  · intro w e he hphase hnot
    have hw := (entriesOf_worker hm₀ he).1
    obtain ⟨x, hx, rfl⟩ := (mem_suspects hm₀ hsuspects).mpr ⟨by rw [hw]; exact he, hphase⟩
    subst hw
    have hkept : x.kept = false := by
      by_contra hne
      exact hnot ((hadopted.owned _).mpr (mem_kept hx (by simpa using hne)))
    obtain ⟨hreleased, hterminated⟩ := hpass.closed x hx hkept
    refine ⟨hreleased, ?_⟩
    intro liveness hprobe hliveness
    rw [hpass.probes_eq] at hprobe
    obtain ⟨y, hy, hanswer⟩ := mem_flatMap.mp hprobe
    obtain ⟨l, hl, heq⟩ := mem_map.mp hanswer
    obtain ⟨hworker, rfl⟩ := Prod.mk.inj heq
    obtain rfl := inj_on_of_nodup_map (nodup_suspects hm₀ hsuspects) hy hx hworker
    have hsome : y.liveness = some l := Option.mem_toList.mp hl
    exact hterminated (by rw [hsome]; exact hliveness.imp (congrArg some) (congrArg some))

end Pass

/-- **Nothing is left unowned** by a pass over a ledger the pool can have written, exactly when the
reopened table has room for every running worker that is alive. -/
theorem reconcile_leaves_nothing_unowned {setup₀ setup : Setup} {c : Config Answer Shared} {m₀ : Entries}
    {s s' : Shared} {h : History Answer} {findings : List ReconcileFinding}
    (hreach : Reach (machine setup₀) (anyRun setup₀) (init setup₀) c)
    (hopened : c.shared.opened setup = some s) (hm₀ : entriesOf s.records = .ok m₀)
    (hrun : Runs (machine setup) (reconcile setup) s h (.ok findings) s') :
    Settled m₀ s' h ↔ aliveRunning m₀ h ≤ setup.limits.max := by
  have hrecords : ∀ r ∈ s.records, r.Named := by
    obtain ⟨m, -, rfl⟩ := opened_eq_some hopened
    exact records_named hreach
  obtain ⟨done, hpass, hsuspects⟩ := reconcile_passes (Pass.opened hopened hm₀) hrecords hm₀ hrun
  have hcount : aliveRunning m₀ h = (kept done).length := by
    rw [aliveRunning, hpass.probes_eq]
    exact countP_answers fun x hx => ((Pass.mem_suspects hm₀ hsuspects).mp ⟨x, hx, rfl⟩).1
  rw [hcount]
  exact ⟨hpass.room_of_settled hm₀ hsuspects, hpass.settled_of_room hm₀ hsuspects⟩

/-- A pass over a reopened ledger in which everything works, when it returns: the ledger before, the
history and the state after. -/
def calmPass (setup : Setup) (s : Shared) : Option (Shared × Entries × History Answer × Shared) :=
  (s.opened setup).bind fun s₁ =>
    match entriesOf s₁.records, runWith (machine setup) (calm 9) (reconcile setup) s₁ with
    | .ok m₀, some (h, .ok _, s₂) => some (s₁, m₀, h, s₂)
    | _, _ => none

theorem calmPass_runs {s s₁ s₂ : Shared} {h : History Answer} (hpass : calmPass setup s = some (s₁, m₀, h, s₂)) :
    s.opened setup = some s₁ ∧ entriesOf s₁.records = .ok m₀ ∧
      ∃ findings, Runs (machine setup) (reconcile setup) s₁ h (.ok findings) s₂ := by
  obtain ⟨s₁, hopened, hpass⟩ := Option.bind_eq_some_iff.mp hpass
  split at hpass
  · rename_i m h₁ findings s₃ hm hrun
    cases hpass
    exact ⟨hopened, hm, findings, .of_runWith hrun⟩
  · cases hpass

/-- Two running workers before the crash. -/
def twoRunning : List (Move Answer Choice) :=
  oneRunning ++ (calls .construct 3 13 (calm 8) ++ calls (.launch ⟨6, 2, 0⟩) 4 52 (calm 9) ++
    calls (.start 8) 5 4 (calm 9))

/-- The pool reopened with room for one worker. -/
def tightPool : Setup :=
  { smallPool with limits := ⟨0, 1, 1, 1, 1, 1, .reject, 1⟩ }

example : tightPool.limits.check = .ok () := rfl

/-- A running worker that is alive is adopted by the reopened pool. -/
theorem reconcile_retains_running :
    ∃ c m₀ s s' h, Reach (machine smallPool) (anyRun smallPool) (init smallPool) c ∧
      c.shared.opened tightPool = some s ∧ aliveRunning m₀ h = 1 ∧ Settled m₀ s' h := by
  have hplay : ((play smallMachine ⟨init smallPool, []⟩ oneRunning).bind fun c =>
      (calmPass tightPool c.shared).map fun x => aliveRunning x.2.1 x.2.2.1) = some 1 := by
    decide +kernel
  obtain ⟨c, hc, hpass⟩ := Option.bind_eq_some_iff.mp hplay
  obtain ⟨⟨s, m₀, h, s'⟩, hpass, halive⟩ := Option.map_eq_some_iff.mp hpass
  obtain ⟨hopened, hm₀, findings, hrun⟩ := calmPass_runs hpass
  have hreach := oneRunning_calls.reach hc
  refine ⟨c, m₀, s, s', h, hreach, hopened, halive, ?_⟩
  exact (reconcile_leaves_nothing_unowned hreach hopened hm₀ hrun).mpr (by rw [halive]; decide)

/-- Some worker is nonterminal in the ledger and has no slot. -/
def unowned (s : Shared) : Bool :=
  match entriesOf s.records with
  | .ok m => m.values.any fun e => e.phase.isNonterminal && (s.findSlot e.worker).isNone
  | .error _ => false

/-- Two running workers are alive and the reopened table has room for one: the pass returns, and the
second one is recorded as retained without a slot. -/
theorem reconcile_keeps_without_room :
    ∃ c m₀ s s' h findings, Reach (machine smallPool) (anyRun smallPool) (init smallPool) c ∧
      c.shared.opened tightPool = some s ∧ entriesOf s.records = .ok m₀ ∧
      Runs (machine tightPool) (reconcile tightPool) s h (.ok findings) s' ∧ ¬ Settled m₀ s' h := by
  have hplay : ((play smallMachine ⟨init smallPool, []⟩ twoRunning).bind fun c =>
      (calmPass tightPool c.shared).map fun x => unowned x.2.2.2) = some true := by
    decide +kernel
  obtain ⟨c, hc, hpass⟩ := Option.bind_eq_some_iff.mp hplay
  obtain ⟨⟨s, m₀, h, s'⟩, hpass, hunowned⟩ := Option.map_eq_some_iff.mp hpass
  obtain ⟨hopened, hm₀, findings, hrun⟩ := calmPass_runs hpass
  have hmoves : OnlyCalls twoRunning := oneRunning_calls.append ((onlyCalls.append onlyCalls).append onlyCalls)
  refine ⟨c, m₀, s, s', h, findings, hmoves.reach hc, hopened, hm₀, hrun, ?_⟩
  intro hsettled
  obtain ⟨m, hm, howned⟩ := hsettled.owned
  simp only [unowned, hm, any_eq_true, Bool.and_eq_true, Option.isNone_iff_eq_none] at hunowned
  obtain ⟨e, he, hphase, hnone⟩ := hunowned
  obtain ⟨w, hw⟩ := Table.mem_values.mp he
  obtain ⟨⟨slot, hslot, -⟩, -⟩ := howned w e hw hphase
  rw [← (entriesOf_worker hm hw).1, hnone] at hslot
  cases hslot

end Soma.Host.Pool
