import Mathlib.Algebra.Order.Ring.Nat
import Mathlib.Data.List.Basic
import Mathlib.Tactic.Common

/-! # The worker state machine and its packed state word

Every ownership change of a pooled worker is one compare-and-swap over a 64-bit word: the phase in
the top byte, the lease generation in the 56 bits below it.

* **`Phase`** is the seven-phase state machine with its table `Phase.mayTransitionTo`.
* **`LeaseGeneration`** is a nonzero counter that fits the 56 bits.
* **`StateWord`** is the raw word. `StateWord.transition` checks the table and the generation rule
  and then performs the compare-and-swap on the *packed* values, so what a successful transition
  says about the loaded phase and generation rests on `unpack_pack`.

`StateWord.transition_ok_iff` is the specification the rest of the development uses: it never looks
at the packing again.
-/

namespace Soma.Host

inductive Phase
  | constructing
  | sterile
  | claiming
  | assigned
  | running
  | destroying
  | dead
deriving DecidableEq, Repr

namespace Phase

/-- The stable one-byte encoding. -/
def code : Phase → ℕ
  | constructing => 1
  | sterile => 2
  | claiming => 3
  | assigned => 4
  | running => 5
  | destroying => 6
  | dead => 7

def fromCode : ℕ → Option Phase
  | 1 => some constructing
  | 2 => some sterile
  | 3 => some claiming
  | 4 => some assigned
  | 5 => some running
  | 6 => some destroying
  | 7 => some dead
  | _ => none

/-- The phase can never lead back to the pool. -/
def isTerminal : Phase → Bool
  | destroying | dead => true
  | _ => false

/-- The ledger considers the phase open after a restart. -/
def isNonterminal : Phase → Bool
  | dead => false
  | _ => true

/-- The legal transition table. -/
def mayTransitionTo : Phase → Phase → Bool
  | constructing, sterile | constructing, dead => true
  | sterile, claiming | sterile, destroying => true
  | claiming, assigned | claiming, destroying => true
  | assigned, running | assigned, destroying => true
  | running, destroying => true
  | destroying, dead => true
  | _, _ => false

theorem fromCode_code (p : Phase) : fromCode p.code = some p := by
  cases p <;> rfl

theorem code_le (p : Phase) : p.code ≤ 7 := by
  cases p <;> decide

end Phase

/-- Why an identity or a generation is refused. -/
inductive IdError
  | zero (what : String)
  | generationExhausted
deriving DecidableEq, Repr

/-- The number of generation bits below the phase byte. -/
def phaseShift : ℕ := 56

/-- A lease generation: nonzero and small enough for the packed word. -/
@[ext]
structure LeaseGeneration where
  get : ℕ
  pos : 0 < get
  le : get ≤ 2 ^ phaseShift - 1
deriving DecidableEq, Repr

namespace LeaseGeneration

/-- The generation of a freshly constructed worker. -/
def first : LeaseGeneration := ⟨1, by decide, by decide⟩

/-- The largest packable generation. -/
def max : LeaseGeneration := ⟨2 ^ phaseShift - 1, by decide, Nat.le_refl _⟩

def new (value : ℕ) : Except IdError LeaseGeneration :=
  if hzero : value = 0 then .error (.zero "lease-generation")
  else if hmax : 2 ^ phaseShift - 1 < value then .error .generationExhausted
  else .ok ⟨value, Nat.pos_of_ne_zero hzero, Nat.le_of_not_lt hmax⟩

/-- The next generation, refused at the packed limit. -/
def next (g : LeaseGeneration) : Except IdError LeaseGeneration :=
  if g.get + 1 < 2 ^ 64 then new (g.get + 1) else .error .generationExhausted

theorem new_get (g : LeaseGeneration) : new g.get = .ok g := by
  have hpos := g.pos
  have hle := g.le
  rw [new, dif_neg (by omega), dif_neg (by omega)]

theorem next_eq_ok {g g' : LeaseGeneration} (h : g.next = .ok g') : g'.get = g.get + 1 := by
  unfold next new at h
  split_ifs at h
  injection h with h
  rw [← h]

end LeaseGeneration

/-- One observed phase and lease generation. -/
@[ext]
structure Packed where
  phase : Phase
  generation : LeaseGeneration
deriving DecidableEq, Repr

/-- Why a transition did not happen. -/
inductive StateRace
  | illegal (origin target : Phase)
  | generationRule
  | lost (expected observed : Packed)
deriving DecidableEq, Repr

/-- The bits of the word that hold the generation. -/
def generationMask : UInt64 := ((1 : UInt64) <<< 56) - 1

def pack (state : Packed) : UInt64 :=
  (UInt64.ofNat state.phase.code <<< 56) ||| (UInt64.ofNat state.generation.get &&& generationMask)

/-- Reads a word back; an undecodable phase reads as dead and a zero generation as the largest. -/
def unpack (word : UInt64) : Packed where
  phase := (Phase.fromCode (word >>> 56).toNat).getD .dead
  generation :=
    match LeaseGeneration.new (word &&& generationMask).toNat with
    | .ok g => g
    | .error _ => LeaseGeneration.max

theorem pack_toNat (p : Packed) : (pack p).toNat = p.phase.code * 2 ^ 56 + p.generation.get := by
  have hcode := p.phase.code_le
  have hgen : p.generation.get ≤ 2 ^ 56 - 1 := p.generation.le
  have hmask : generationMask.toNat = 2 ^ 56 - 1 := rfl
  have hlow : (UInt64.ofNat p.generation.get &&& generationMask).toNat = p.generation.get := by
    rw [UInt64.toNat_and, hmask, Nat.and_two_pow_sub_one_eq_mod, UInt64.toNat_ofNat']
    omega
  have hhigh : (UInt64.ofNat p.phase.code <<< 56).toNat = 2 ^ 56 * p.phase.code := by
    rw [UInt64.toNat_shiftLeft, UInt64.toNat_ofNat', show (56 : UInt64).toNat % 64 = 56 from rfl, Nat.shiftLeft_eq]
    omega
  rw [pack, UInt64.toNat_or, hhigh, hlow, ← Nat.two_pow_add_eq_or_of_lt (show p.generation.get < 2 ^ 56 by omega)]
  omega

/-- Packing loses nothing: the word reads back as what was packed. -/
theorem unpack_pack (p : Packed) : unpack (pack p) = p := by
  have hgen : p.generation.get ≤ 2 ^ 56 - 1 := p.generation.le
  have hphase : (pack p >>> 56).toNat = p.phase.code := by
    rw [UInt64.toNat_shiftRight, show (56 : UInt64).toNat % 64 = 56 from rfl, Nat.shiftRight_eq_div_pow, pack_toNat]
    omega
  have hlow : (pack p &&& generationMask).toNat = p.generation.get := by
    rw [UInt64.toNat_and, show generationMask.toNat = 2 ^ 56 - 1 from rfl,
      Nat.and_two_pow_sub_one_eq_mod, pack_toNat]
    omega
  ext1
  · simp [unpack, hphase, Phase.fromCode_code]
  · simp only [unpack, hlow, LeaseGeneration.new_get]

structure StateWord where
  raw : UInt64
deriving DecidableEq, Repr

namespace StateWord

def new (phase : Phase) (generation : LeaseGeneration) : StateWord :=
  ⟨pack ⟨phase, generation⟩⟩

/-- Reads the current state. -/
def load (word : StateWord) : Packed :=
  unpack word.raw

variable (origin target : Packed)

/-- The generation a move must carry: a claim takes the next one, everything else keeps it. -/
def expectedGeneration : Except StateRace LeaseGeneration :=
  if origin.phase = .sterile ∧ target.phase = .claiming then
    match origin.generation.next with
    | .ok g => .ok g
    | .error _ => .error .generationRule
  else .ok origin.generation

/-- The checks made before the word is touched. -/
def checkMove : Except StateRace Unit :=
  if origin.phase.mayTransitionTo target.phase = false then
    .error (.illegal origin.phase target.phase)
  else
    match expectedGeneration origin target with
    | .error race => .error race
    | .ok expected => if target.generation ≠ expected then .error .generationRule else .ok ()

/-- Exactly one compare-and-swap from `origin` to `target`: the answer and the word left behind. -/
def transition (word : StateWord) (origin target : Packed) : Except StateRace Unit × StateWord :=
  match checkMove origin target with
  | .error race => (.error race, word)
  | .ok () =>
    if word.raw = pack origin then (.ok (), ⟨pack target⟩)
    else (.error (.lost origin (unpack word.raw)), word)

/-- A move the table and the generation rule allow. -/
def Allowed : Prop :=
  origin.phase.mayTransitionTo target.phase = true ∧
    expectedGeneration origin target = .ok target.generation

instance (origin target : Packed) : Decidable (Allowed origin target) :=
  inferInstanceAs (Decidable (_ ∧ _))

@[simp] theorem load_new (phase : Phase) (g : LeaseGeneration) : (new phase g).load = ⟨phase, g⟩ :=
  unpack_pack _

variable {origin target : Packed}

theorem checkMove_eq_ok_iff : checkMove origin target = .ok () ↔ Allowed origin target := by
  unfold checkMove Allowed
  by_cases htable : origin.phase.mayTransitionTo target.phase = true
  · cases hgen : expectedGeneration origin target with
    | error race => simp [htable]
    | ok expected =>
      by_cases heq : target.generation = expected
      · simp [htable, heq]
      · simp [htable, heq, Ne.symm heq]
  · simp [htable]

variable {word word' : StateWord}

/-- The specification of a transition: it succeeds exactly when the move is allowed and the word
holds the packed origin, and then the word holds the packed target. -/
theorem transition_ok_iff :
    word.transition origin target = (.ok (), word') ↔
      Allowed origin target ∧ word = ⟨pack origin⟩ ∧ word' = ⟨pack target⟩ := by
  obtain ⟨raw⟩ := word
  rw [← checkMove_eq_ok_iff, transition]
  cases hcheck : checkMove origin target with
  | error race => simp
  | ok _ =>
    by_cases hraw : raw = pack origin
    · simp [hraw, eq_comm]
    · simp [hraw]

theorem transition_error {race : StateRace} (h : word.transition origin target = (.error race, word')) :
    word' = word := by
  unfold transition at h
  split at h
  · exact (Prod.ext_iff.mp h).2.symm
  · split_ifs at h
    · simp at h
    · exact (Prod.ext_iff.mp h).2.symm

theorem transition_ok_load (h : word.transition origin target = (.ok (), word')) :
    Allowed origin target ∧ word.load = origin ∧ word'.load = target := by
  obtain ⟨hallowed, rfl, rfl⟩ := transition_ok_iff.mp h
  exact ⟨hallowed, unpack_pack _, unpack_pack _⟩

end StateWord

end Soma.Host
