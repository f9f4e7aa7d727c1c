import Soma.Host.Pool.Slots

/-! # What an action leaves alone

Every part of the shared state has its own few actions; `exec_frame` says, for all actions at once,
which parts stay as they are. `opened_eq_some` is what a restart leaves.
-/

namespace Soma.Host.Pool

open Soma.Lib

namespace Act

def onLog : Act → Bool
  | .append _ => true
  | _ => false

def onOwned : Act → Bool
  | .own .. | .beginStart _ | .endStart .. | .disown _ => true
  | _ => false

def onRegistry : Act → Bool
  | .reserveBinding .. | .clearBinding _ | .finishBinding .. => true
  | _ => false

def onAdmission : Act → Bool
  | .reserveCapacity | .releaseCapacity _ | .capacityLaunched _ => true
  | _ => false

def onLive : Act → Bool
  | .unlockLive _ | .bindLive _ | .removeLive _ => true
  | _ => false

def onEvents : Act → Bool
  | .report _ => true
  | _ => false

end Act

/-- The parts of the state an action is not on. -/
structure Frame (a : Act) (s s' : Shared) : Prop where
  log : a.onLog = false → s'.log = s.log
  owned : a.onOwned = false → s'.owned = s.owned
  registry : a.onRegistry = false → s'.registry = s.registry
  admission : a.onAdmission = false → s'.admission = s.admission
  live : a.onLive = false → s'.live = s.live
  events : a.onEvents = false → s'.events = s.events

theorem Frame.refl (a : Act) (s : Shared) : Frame a s s :=
  ⟨fun _ => rfl, fun _ => rfl, fun _ => rfl, fun _ => rfl, fun _ => rfl, fun _ => rfl⟩

variable {s s' : Shared}

theorem Shared.records_of_log (h : s'.log = s.log) : s'.records = s.records := by
  rw [Shared.records, h, Shared.records]

/-- A pool that opens over a ledger. -/
theorem Shared.opened_eq_some {setup : Setup} (h : s.opened setup = some s') :
    ∃ m, entriesOf s.records = .ok m ∧
      s' = { s with
        cells := []
        table := []
        prepared := ∅
        owned := ∅
        registry := Registry.seed (claimsOf s.records) setup.limits.bindingLimit
        inFlight := 0
        reconciled := !m.values.any (·.phase.isNonterminal)
        reconcileGate := false
        admission := setup.admission.init
        live := ∅
        liveLocked := false
        events := s.events ++ [.restarted] } := by
  unfold Shared.opened at h
  split at h
  · cases h
  · rename_i m hm
    exact ⟨m, hm, (Option.some.inj h).symm⟩

theorem endStart_frame {id : WorkerId} {handle : Option LauncherHandle} {started : Except StartFault Unit}
    {answer : StartEnd} (h : s.endStart id handle started = some (answer, s')) :
    ∃ cells owned, s' = { s with cells, owned } := by
  unfold Shared.endStart at h
  split at h
  · cases h
    exact ⟨_, _, rfl⟩
  simp only at h
  split at h
  · cases h
    exact ⟨_, _, rfl⟩
  split at h
  · cases h
  split_ifs at h
  · cases h
    exact ⟨_, _, rfl⟩
  split at h
  · cases h
  all_goals
    rename_i hadvance
    obtain ⟨cell, -, ⟨-, -, -, rfl⟩ | ⟨-, rfl, -⟩⟩ := Shared.advance_eq_some hadvance
    all_goals
      cases h
      exact ⟨_, _, rfl⟩

theorem exec_frame {setup : Setup} {a : Act} {e : Choice a} {r : Answer a} (h : exec setup a e s = some (r, s')) :
    Frame a s s' := by
  cases a
  case addSlot id key phase g =>
    rcases Shared.addSlot_eq (Option.some.inj h) with ⟨-, -, rfl⟩ | ⟨-, rfl, -⟩
    all_goals exact ⟨fun _ => rfl, fun _ => rfl, fun _ => rfl, fun _ => rfl, fun _ => rfl, fun _ => rfl⟩
  case advance w target g =>
    obtain ⟨cell, -, ⟨-, -, -, rfl⟩ | ⟨-, rfl, -⟩⟩ := Shared.advance_eq_some h
    · exact ⟨fun _ => rfl, fun _ => rfl, fun _ => rfl, fun _ => rfl, fun _ => rfl, fun _ => rfl⟩
    · exact .refl _ _
  case openWorker | attach | observe =>
    obtain ⟨_, -, heq⟩ := Option.map_eq_some_iff.mp h
    cases heq
    exact .refl _ _
  case endStart id handle started =>
    obtain ⟨cells, owned, rfl⟩ := endStart_frame h
    constructor <;> intro ha <;> first | rfl | cases ha
  case append => cases e <;> cases h <;> constructor <;> intro ha <;> first | rfl | cases ha
  case beginStart | disown | reserveBinding =>
    simp only [exec, Shared.beginStart, Shared.disown, Shared.reserveBinding] at h
    repeat' split at h
    all_goals cases h
    all_goals constructor <;> intro ha <;> first | rfl | cases ha
  case reserveCapacity | beginConstruct | lockReconcile | lockLive | lookup | bindLive
      | removeLive | listLive =>
    simp only [exec] at h
    split at h
    all_goals cases h
    all_goals constructor <;> intro ha <;> first | rfl | cases ha
  all_goals
    cases h
    constructor <;> intro ha <;> first | rfl | cases ha

end Soma.Host.Pool
