import Soma.Host.StateWord

/-! # Typestated worker handles on one slot

Actors hold typed handles on a shared slot; each method of a handle consumes it and is one
compare-and-swap on the slot's word. A handle is a phase (the type parameter of the source) and the
lease generation it was issued with, so a handle goes stale as soon as somebody else moves the word.

* **`Method`** lists the methods that compile, each with the phase it is typed for and the phase it
  produces; `Method.call` is its body.
* **`SlotSystem`** is the slot together with every handle any actor holds, and `step` is one atomic
  action of some actor: a load, `open`, `attach`, or one method call. `Slot::try_claim` and
  `Slot::try_evict` are the load of `attach .sterile` followed by `claim` or `evict`, with any
  actions of other actors in between.
* **`trace`** runs a list of actions. The initial handles are arbitrary, so every mixture of fresh
  and stale handles is covered.
-/

namespace Soma.Host

/-- A typed handle: the phase it is typed for and the lease generation it acts on. -/
structure Handle where
  phase : Phase
  generation : LeaseGeneration
deriving DecidableEq, Repr

namespace Handle

/-- The state of the slot this handle stands for. -/
def packed (h : Handle) : Packed :=
  ⟨h.phase, h.generation⟩

/-- Takes the constructing handle of a slot, at whatever generation the slot holds. -/
def openFresh (word : StateWord) : Handle :=
  ⟨.constructing, word.load.generation⟩

/-- Attaches a handle to a slot that is already in the phase. -/
def attach (phase : Phase) (word : StateWord) : Option Handle :=
  if word.load.phase = phase then some ⟨phase, word.load.generation⟩ else none

/-- The compare-and-swap of the slot from this handle's state to `target` at `generation`. -/
def advance (h : Handle) (target : Phase) (generation : LeaseGeneration) (word : StateWord) :
    Except StateRace Handle × StateWord :=
  match word.transition h.packed ⟨target, generation⟩ with
  | (.ok (), word') => (.ok ⟨target, generation⟩, word')
  | (.error race, word') => (.error race, word')

/-- `advance` at the handle's own generation. -/
def keep (h : Handle) (target : Phase) (word : StateWord) : Except StateRace Handle × StateWord :=
  h.advance target h.generation word

/-- Claims a sterile worker, bumping the lease generation. -/
def claim (h : Handle) (word : StateWord) : Except StateRace Handle × StateWord :=
  match h.generation.next with
  | .error _ => (.error .generationRule, word)
  | .ok next => h.advance .claiming next word

end Handle

/-- The methods the typed handles have. -/
inductive Method
  | sterilize
  | abort
  | claim
  | evict
  | assign
  | destroyClaiming
  | run
  | destroyAssigned
  | destroyRunning
  | finish
deriving DecidableEq, Repr

namespace Method

/-- The phase a method's handle is typed for. -/
def source : Method → Phase
  | sterilize | abort => .constructing
  | claim | evict => .sterile
  | assign | destroyClaiming => .claiming
  | run | destroyAssigned => .assigned
  | destroyRunning => .running
  | finish => .destroying

/-- The phase a method's result is typed for. -/
def target : Method → Phase
  | sterilize => .sterile
  | abort => .dead
  | claim => .claiming
  | evict | destroyClaiming | destroyAssigned | destroyRunning => .destroying
  | assign => .assigned
  | run => .running
  | finish => .dead

/-- The body of a method: one compare-and-swap. -/
def call : Method → Handle → StateWord → Except StateRace Handle × StateWord
  | claim => Handle.claim
  | m => fun h => h.keep m.target

end Method

/-! ### One method call -/

/-- The move from one observed state to the next: a legal phase, the generation bumped by one at
the claim and kept everywhere else. -/
def Follows (before after : Packed) : Prop :=
  before.phase.mayTransitionTo after.phase = true ∧
    after.generation.get =
      before.generation.get +
        (if before.phase = .sterile ∧ after.phase = .claiming then 1 else 0)

theorem StateWord.Allowed.follows {origin target : Packed} (h : StateWord.Allowed origin target) :
    Follows origin target := by
  obtain ⟨htable, hgen⟩ := h
  refine ⟨htable, ?_⟩
  unfold StateWord.expectedGeneration at hgen
  split_ifs at hgen with hclaim
  · cases hnext : origin.generation.next with
    | error e => simp [hnext] at hgen
    | ok g =>
      have hg : g = target.generation := by simpa [hnext] using hgen
      rw [if_pos hclaim, ← hg, LeaseGeneration.next_eq_ok hnext]
  · have hg : origin.generation = target.generation := by simpa using hgen
    rw [if_neg hclaim, ← hg, Nat.add_zero]

theorem Follows.code_lt {p q : Packed} (h : Follows p q) : p.phase.code < q.phase.code := by
  obtain ⟨htable, -⟩ := h
  revert htable
  cases p.phase <;> cases q.phase <;> simp [Phase.mayTransitionTo, Phase.code]

variable {word word' : StateWord} {g : LeaseGeneration}

theorem Handle.advance_ok {h h' : Handle} {target : Phase} (hcall : h.advance target g word = (.ok h', word')) :
    h' = ⟨target, g⟩ ∧ word.load = h.packed ∧ word'.load = h'.packed ∧
      Follows h.packed h'.packed := by
  unfold Handle.advance at hcall
  split at hcall
  · rename_i word₂ htrans
    obtain ⟨rfl, rfl⟩ : ⟨target, g⟩ = h' ∧ word₂ = word' := by simpa using hcall
    obtain ⟨hallowed, hbefore, hafter⟩ := StateWord.transition_ok_load htrans
    exact ⟨rfl, hbefore, hafter, hallowed.follows⟩
  · simp at hcall

variable {h : Handle} {race : StateRace}

theorem Handle.advance_error {target : Phase} (hcall : h.advance target g word = (.error race, word')) :
    word' = word := by
  unfold Handle.advance at hcall
  split at hcall
  · simp at hcall
  · rename_i race₂ word₂ htrans
    exact (Prod.ext_iff.mp hcall).2.symm.trans (StateWord.transition_error htrans)

variable {m : Method}

theorem Method.call_ok {h h' : Handle} (hcall : m.call h word = (.ok h', word')) :
    h'.phase = m.target ∧ word.load = h.packed ∧ word'.load = h'.packed ∧
      Follows h.packed h'.packed := by
  have hadv : ∃ g, h.advance m.target g word = (.ok h', word') := by
    cases m with
    | claim =>
      simp only [Method.call, Handle.claim] at hcall
      split at hcall
      · simp at hcall
      · exact ⟨_, hcall⟩
    | _ => exact ⟨_, hcall⟩
  obtain ⟨g, hadv⟩ := hadv
  obtain ⟨rfl, hrest⟩ := Handle.advance_ok hadv
  exact ⟨rfl, hrest⟩

theorem Method.call_error (hcall : m.call h word = (.error race, word')) : word' = word := by
  cases m with
  | claim =>
    simp only [Method.call, Handle.claim] at hcall
    split at hcall
    · exact (Prod.ext_iff.mp hcall).2.symm
    · exact Handle.advance_error hcall
  | _ => exact Handle.advance_error hcall

theorem Method.call_stale (m : Method) {word : StateWord} (hstale : word.load ≠ h.packed) :
    ∃ race, m.call h word = (.error race, word) := by
  rcases hcall : m.call h word with ⟨race | h', word'⟩
  · exact ⟨race, by rw [Method.call_error hcall]⟩
  · exact absurd (Method.call_ok hcall).2.1 hstale

/-! ### Actors on one slot -/

/-- One slot and every typed handle any actor holds on it. -/
structure SlotSystem where
  word : StateWord
  handles : List Handle
deriving DecidableEq, Repr

/-- One atomic action of some actor. -/
inductive Action
  | observe
  | openFresh
  | attach (phase : Phase)
  | call (i : ℕ) (m : Method)
deriving DecidableEq, Repr

/-- What an action answered. -/
inductive Event
  | observed (state : Packed)
  | issued (h : Handle)
  | notAttached (phase : Phase)
  | moved (m : Method) (consumed produced : Handle)
  | raced (m : Method) (consumed : Handle) (race : StateRace)
deriving DecidableEq, Repr

namespace Event

/-- A claim that won. -/
def isClaim : Event → Bool
  | moved .claim _ _ => true
  | _ => false

/-- An eviction that won. -/
def isEviction : Event → Bool
  | moved .evict _ _ => true
  | _ => false

end Event

namespace SlotSystem

/-- One action; `none` when the actor holds no such handle or the method is not typed for it. -/
def step (s : SlotSystem) : Action → Option (Event × SlotSystem)
  | .observe => some (.observed s.word.load, s)
  | .openFresh =>
    let h := Handle.openFresh s.word
    some (.issued h, { s with handles := s.handles ++ [h] })
  | .attach phase =>
    match Handle.attach phase s.word with
    | none => some (.notAttached phase, s)
    | some h => some (.issued h, { s with handles := s.handles ++ [h] })
  | .call i m =>
    match s.handles[i]? with
    | none => none
    | some h =>
      if h.phase ≠ m.source then none
      else
        match m.call h s.word with
        | (.ok h', word') => some (.moved m h h', ⟨word', s.handles.eraseIdx i ++ [h']⟩)
        | (.error race, word') => some (.raced m h race, ⟨word', s.handles.eraseIdx i⟩)

/-- Runs a list of actions, recording every event with the system after it. -/
def trace : SlotSystem → List Action → List (Event × SlotSystem)
  | _, [] => []
  | s, a :: actions =>
    match s.step a with
    | none => trace s actions
    | some (e, s') => (e, s') :: trace s' actions

def fresh (handles : List Handle) : SlotSystem :=
  ⟨StateWord.new .constructing .first, handles⟩

variable {a : Action} {e : Event} {s s' : SlotSystem}

theorem step_cases (h : s.step a = some (e, s')) :
    (s'.word = s.word ∧ e.isClaim = false ∧ e.isEviction = false) ∨
      ∃ m consumed produced, e = .moved m consumed produced ∧ consumed.phase = m.source ∧
        produced.phase = m.target ∧ s.word.load = consumed.packed ∧
        s'.word.load = produced.packed ∧ Follows s.word.load s'.word.load := by
  cases a with
  | observe =>
    obtain ⟨rfl, rfl⟩ : Event.observed s.word.load = e ∧ s = s' := by simpa [step] using h
    exact .inl ⟨rfl, rfl, rfl⟩
  | openFresh =>
    obtain ⟨rfl, rfl⟩ := Prod.ext_iff.mp (Option.some.inj h)
    exact .inl ⟨rfl, rfl, rfl⟩
  | attach phase =>
    simp only [step] at h
    split at h
    all_goals
      obtain ⟨rfl, rfl⟩ := Prod.ext_iff.mp (Option.some.inj h)
      exact .inl ⟨rfl, rfl, rfl⟩
  | call i m =>
    simp only [step] at h
    split at h
    · simp at h
    · rename_i consumed hget
      split_ifs at h with hsource
      split at h
      · rename_i produced word' hcall
        obtain ⟨rfl, rfl⟩ := Prod.ext_iff.mp (Option.some.inj h)
        obtain ⟨htarget, hbefore, hafter, hfollows⟩ := Method.call_ok hcall
        refine .inr ⟨m, consumed, produced, rfl, not_not.mp hsource, htarget, hbefore, hafter, ?_⟩
        rw [hbefore]
        exact hafter ▸ hfollows
      · rename_i race word' hcall
        obtain ⟨rfl, rfl⟩ := Prod.ext_iff.mp (Option.some.inj h)
        exact .inl ⟨Method.call_error hcall, rfl, rfl⟩

theorem step_code_le (h : s.step a = some (e, s')) : s.word.load.phase.code ≤ s'.word.load.phase.code := by
  rcases step_cases h with ⟨hword, -, -⟩ | ⟨-, -, -, -, -, -, -, -, hfollows⟩
  · rw [hword]
  · exact hfollows.code_lt.le

theorem step_won (h : s.step a = some (e, s')) (hwon : e.isClaim = true ∨ e.isEviction = true) :
    s.word.load.phase = .sterile ∧ Phase.sterile.code < s'.word.load.phase.code := by
  rcases step_cases h with ⟨-, hclaim, hevict⟩ |
    ⟨m, consumed, produced, rfl, hsource, htarget, hbefore, hafter, hfollows⟩
  · simp [hclaim, hevict] at hwon
  · have hsterile : s.word.load.phase = .sterile := by
      rw [hbefore, Handle.packed, hsource]
      cases m <;> simp_all [Event.isClaim, Event.isEviction, Method.source]
    exact ⟨hsterile, hsterile ▸ hfollows.code_lt⟩

/-! ### Whole runs -/

variable {actions : List Action} {x : Event × SlotSystem} {s : SlotSystem}

theorem code_le_of_mem_trace (hx : x ∈ s.trace actions) :
    s.word.load.phase.code ≤ x.2.word.load.phase.code := by
  induction actions generalizing s with
  | nil => simp [trace] at hx
  | cons a actions ih =>
    simp only [trace] at hx
    split at hx
    · exact ih hx
    · rename_i e s' hstep
      rcases List.mem_cons.mp hx with rfl | hx
      · exact step_code_le hstep
      · exact (step_code_le hstep).trans (ih hx)

theorem not_won_of_mem_trace (hs : Phase.sterile.code < s.word.load.phase.code)
    (hx : x ∈ s.trace actions) : x.1.isClaim = false ∧ x.1.isEviction = false := by
  induction actions generalizing s with
  | nil => simp [trace] at hx
  | cons a actions ih =>
    simp only [trace] at hx
    split at hx
    · exact ih hs hx
    · rename_i e s' hstep
      rcases List.mem_cons.mp hx with rfl | hx
      · by_contra hwon
        have hsterile := (step_won hstep (by simpa [imp_iff_not_or] using hwon)).1
        rw [hsterile] at hs
        exact lt_irrefl _ hs
      · exact ih (hs.trans_le (step_code_le hstep)) hx

theorem claims_le_one (s : SlotSystem) (actions : List Action) :
    ((s.trace actions).filter (·.1.isClaim)).length ≤ 1 := by
  induction actions generalizing s with
  | nil => simp [trace]
  | cons a actions ih =>
    simp only [trace]
    split
    · exact ih s
    · rename_i e s' hstep
      by_cases hclaim : e.isClaim = true
      · have hnone : (s'.trace actions).filter (·.1.isClaim) = [] := by
          rw [List.filter_eq_nil_iff]
          intro x hx
          simp [(not_won_of_mem_trace (step_won hstep (.inl hclaim)).2 hx).1]
        simp [hclaim, hnone]
      · simpa [List.filter_cons, hclaim] using ih s'

/-- The observed states move only along the transition table, with the generation bumped exactly at
the claim. -/
theorem trace_follows (s : SlotSystem) (actions : List Action) :
    List.IsChain (fun before after => after = before ∨ Follows before after)
      (s.word.load :: (s.trace actions).map (·.2.word.load)) := by
  induction actions generalizing s with
  | nil => simp [trace]
  | cons a actions ih =>
    simp only [trace]
    split
    · exact ih s
    · rename_i e s' hstep
      rw [List.map_cons, List.isChain_cons_cons]
      refine ⟨?_, ih s'⟩
      rcases step_cases hstep with ⟨hword, -, -⟩ | ⟨-, -, -, -, -, -, -, -, hfollows⟩
      · exact .inl (by rw [hword])
      · exact .inr hfollows

theorem not_sterile_after_won {before after : List (Event × SlotSystem)}
    (htrace : s.trace actions = before ++ x :: after) (hwon : x.1.isClaim = true ∨ x.1.isEviction = true) :
    ∀ y ∈ x :: after, y.2.word.load.phase ≠ .sterile := by
  induction actions generalizing s before with
  | nil => simp [trace] at htrace
  | cons a actions ih =>
    simp only [trace] at htrace
    split at htrace
    · exact ih htrace
    · rename_i e s' hstep
      cases before with
      | nil =>
        obtain ⟨rfl, rfl⟩ : (e, s') = x ∧ s'.trace actions = after := by simpa using htrace
        have hcode := (step_won hstep hwon).2
        intro y hy hsterile
        rcases List.mem_cons.mp hy with rfl | hy
        · exact lt_irrefl _ (hsterile ▸ hcode)
        · exact absurd (hsterile ▸ code_le_of_mem_trace hy) (by omega)
      | cons z before => exact ih (List.cons.inj htrace).2

/-- **Single use.**  From a fresh slot, whatever handles the actors hold and however their actions
interleave: at most one claim wins; from a won claim or eviction on the slot is never sterile again;
the observed states follow the transition table with the generation bumped exactly at the claim; and
in every state reached a handle that is no longer current is refused with the word unchanged. -/
theorem workers_are_single_use (handles : List Handle) (actions : List Action) :
    (((fresh handles).trace actions).filter (·.1.isClaim)).length ≤ 1 ∧
    (∀ before x after, (fresh handles).trace actions = before ++ x :: after →
      (x.1.isClaim = true ∨ x.1.isEviction = true) →
        ∀ y ∈ x :: after, y.2.word.load.phase ≠ .sterile) ∧
    List.IsChain (fun before after => after = before ∨ Follows before after)
      (⟨.constructing, .first⟩ :: ((fresh handles).trace actions).map (·.2.word.load)) ∧
    (∀ s ∈ fresh handles :: ((fresh handles).trace actions).map (·.2), ∀ (m : Method) (h : Handle),
      s.word.load ≠ h.packed → ∃ race, m.call h s.word = (.error race, s.word)) := by
  refine ⟨claims_le_one _ _, fun before x after => not_sterile_after_won, ?_, ?_⟩
  · simpa [fresh] using trace_follows (fresh handles) actions
  · intro s _ m h hstale
    exact m.call_stale hstale

end SlotSystem

end Soma.Host
