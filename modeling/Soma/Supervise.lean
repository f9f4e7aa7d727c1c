import Mathlib.Data.List.Induction
import Mathlib.Tactic.Common

/-! # The signals of a supervised tool

One thread supervises the tool and another collects its output; the tool's processes exit, fork and leave the group
at any moment between. The kernel keeps the group's identifier for the tool while the leader is not reaped or a
process is in the group, and may give it to others after that.
-/

namespace Soma.Supervise

inductive Leader
  | running
  | exited
  | reaped
deriving DecidableEq

/-- The calls that signal the group: after a poll that saw the exit, politely, after the grace, before the leader is
reaped, and after an incomplete collection. -/
inductive Point
  | polled
  | terminate
  | grace
  | last
  | collected
deriving DecidableEq

/-- Where `supervise` stands; `await` polls for the exit within a grace. -/
inductive Supervising
  | polling
  | signalling (point : Point)
  | awaiting (point : Point)
  | waiting
  | ended (terminated : Bool)
deriving DecidableEq

/-- Where `run` stands, from the feed of the standard input on. -/
inductive Running
  | finishing
  | collecting
  | forcing
  | done
deriving DecidableEq

/-- A signal, with what the group was when it was sent. -/
structure Sent where
  point : Point
  leader : Leader
  members : ℕ
deriving DecidableEq

/-- The identifier is still kept for the tool. -/
def Sent.reserved (sent : Sent) : Prop := sent.leader ≠ .reaped ∨ 0 < sent.members

/-- The leader, the number of other processes in the group, both threads, and the signals so far. -/
structure State where
  leader : Leader
  members : ℕ
  supervisor : Supervising
  caller : Running
  sent : List Sent

namespace State

variable (s : State)

def signal (point : Point) : State := { s with sent := s.sent ++ [⟨point, s.leader, s.members⟩] }

/-- Polls for the exit: the leader is reaped once it has exited; `none` while it runs. -/
def tryWait : Option State :=
  if s.leader = .running then none else some { s with leader := .reaped }

/-- One step of the supervising thread. A poll may fail; `late` is a cancellation, the deadline or the end of a
grace. -/
def supervise (failed late : Bool) : State :=
  match s.supervisor with
  | .polling =>
    if failed then { s with supervisor := .signalling .terminate }
    else match s.tryWait with
      | some s => { s with supervisor := .signalling .polled }
      | none => if late then { s with supervisor := .signalling .terminate } else s
  | .signalling .polled => { s.signal .polled with supervisor := .ended false }
  | .signalling .last => { s.signal .last with supervisor := .waiting }
  | .signalling point => { s.signal point with supervisor := .awaiting point }
  | .awaiting point =>
    if failed then { s with supervisor := .signalling .last }
    else match s.tryWait with
      | some s => { s with supervisor := .signalling .last }
      | none =>
        if late then { s with supervisor := .signalling (if point = .terminate then .grace else .last) } else s
  | .waiting =>
    match s.tryWait with
    | some s => { s with supervisor := .ended true }
    | none => s
  | .ended _ => s

/-- One step of the calling thread: it waits for the outcome until it is `late`, collects, and forces the group when
the collection is not `complete`. -/
def call (late complete : Bool) : State :=
  match s.caller with
  | .finishing =>
    match s.supervisor with
    | .ended _ => { s with caller := .collecting }
    | _ => if late then { s with caller := .collecting } else s
  | .collecting => { s with caller := if complete then .done else .forcing }
  | .forcing => { s.signal .collected with caller := .done }
  | .done => s

end State

/-- What happens next: to the tool, or in one of the threads. -/
inductive Event
  | exit
  | fork
  | leave
  | supervise (failed late : Bool)
  | call (late complete : Bool)

def State.step (s : State) : Event → State
  | .exit => if s.leader = .running then { s with leader := .exited } else s
  | .fork => if s.leader = .running ∨ 0 < s.members then { s with members := s.members + 1 } else s
  | .leave => { s with members := s.members - 1 }
  | .supervise failed late => s.supervise failed late
  | .call late complete => s.call late complete

/-- A schedule, from the spawn of the tool on. -/
def run (schedule : List Event) : State :=
  schedule.foldl State.step ⟨.running, 0, .polling, .finishing, []⟩

/-! ## What the supervisor knows -/

/-- The leader is not reaped until a poll has seen its exit, and the polite signal and the one after its grace come
before that. -/
structure State.Held (s : State) : Prop where
  leader : s.leader = .reaped → s.supervisor ≠ .polling ∧
    ∀ point, point = .terminate ∨ point = .grace → s.supervisor ≠ .signalling point
  sent : ∀ sent ∈ s.sent, sent.point = .terminate ∨ sent.point = .grace → sent.leader ≠ .reaped

variable {s : State}

theorem State.Held.signal {point : Point} (h : s.Held)
    (hpoint : point = .terminate ∨ point = .grace → s.leader ≠ .reaped) :
    ∀ sent ∈ (s.signal point).sent, sent.point = .terminate ∨ sent.point = .grace → sent.leader ≠ .reaped :=
  List.forall_mem_append.mpr ⟨h.sent, List.forall_mem_singleton.mpr hpoint⟩

theorem State.Held.supervise (h : s.Held) (failed late : Bool) : (s.supervise failed late).Held := by
  have hleader := h.leader
  unfold State.supervise State.tryWait
  split
  case h_2 | h_3 => exact ⟨by simp, h.signal (by simp)⟩
  case h_4 point _ _ hpoint => exact ⟨by simp, h.signal fun hsent hreaped => (hleader hreaped).2 point hsent hpoint⟩
  case h_7 => exact h
  -- a poll that goes on to the polite signal, or to the one after its grace, did not see the exit
  all_goals split_ifs <;> refine ⟨?_, h.sent⟩ <;> grind

theorem State.Held.step (h : s.Held) (event : Event) : (s.step event).Held := by
  cases event with
  | exit =>
    rw [State.step]
    split_ifs
    · exact ⟨nofun, h.sent⟩
    · exact h
  | fork =>
    rw [State.step]
    split_ifs
    · exact ⟨h.leader, h.sent⟩
    · exact h
  | leave => exact ⟨h.leader, h.sent⟩
  | supervise failed late => exact h.supervise failed late
  | call late complete =>
    rw [State.step, State.call]
    split
    case h_3 => exact ⟨h.leader, h.signal (by simp)⟩
    case h_1 =>
      split
      · exact ⟨h.leader, h.sent⟩
      · split_ifs
        · exact ⟨h.leader, h.sent⟩
        · exact h
    all_goals exact ⟨h.leader, h.sent⟩

theorem run_held (schedule : List Event) : (run schedule).Held := by
  induction schedule using List.reverseRecOn with
  | nil => exact ⟨nofun, nofun⟩
  | append_singleton schedule event ih =>
    rw [run, List.foldl_append]
    exact ih.step event

/-! ## When the identifier is released -/

/-- The kernel may give the identifier to others. -/
def State.Released (s : State) : Prop := s.leader = .reaped ∧ s.members = 0

/-- The leader is reaped only while another process is in the group, and the last process does not leave a group whose
leader is reaped. -/
def State.Attends (s : State) : Event → Prop
  | .leave => s.leader = .reaped → 1 < s.members
  | .supervise failed late => s.leader = .exited → (s.supervise failed late).leader = .reaped → 0 < s.members
  | _ => True

/-- Every step of the schedule is attended. -/
def Attended (s : State) : List Event → Prop
  | [] => True
  | event :: schedule => s.Attends event ∧ Attended (s.step event) schedule

theorem State.supervise_frame (s : State) (failed late : Bool) :
    (s.supervise failed late).members = s.members ∧
      ((s.supervise failed late).leader = s.leader ∨
        s.leader = .exited ∧ (s.supervise failed late).leader = .reaped) := by
  unfold State.supervise State.tryWait State.signal
  cases hleader : s.leader <;> grind

theorem State.call_frame (s : State) (late complete : Bool) :
    (s.call late complete).members = s.members ∧ (s.call late complete).leader = s.leader := by
  unfold State.call State.signal
  grind

/-- A step sends at most one signal, to the group as it stands before the step. -/
theorem State.step_sent (s : State) (event : Event) :
    (s.step event).sent = s.sent ∨ ∃ point, (s.step event).sent = s.sent ++ [⟨point, s.leader, s.members⟩] := by
  cases event with
  | exit | fork | leave =>
    unfold State.step
    grind
  | supervise failed late =>
    unfold State.step State.supervise State.tryWait State.signal
    grind
  | call late complete =>
    unfold State.step State.call State.signal
    grind

theorem State.Released.step (h : s.Released) (event : Event) : (s.step event).Released := by
  obtain ⟨hleader, hmembers⟩ := h
  cases event with
  | exit | fork | leave => simp [State.step, State.Released, hleader, hmembers]
  | supervise failed late =>
    obtain ⟨hm, hl⟩ := s.supervise_frame failed late
    unfold State.Released State.step
    grind
  | call late complete =>
    obtain ⟨hm, hl⟩ := s.call_frame late complete
    exact ⟨hl.trans hleader, hm.trans hmembers⟩

/-- The step that is not attended releases the identifier, and no other does. -/
theorem State.step_released_iff (h : ¬ s.Released) (event : Event) :
    (s.step event).Released ↔ ¬ s.Attends event := by
  unfold State.Released at *
  cases event with
  | exit | fork | leave =>
    unfold State.step State.Attends
    grind
  | supervise failed late =>
    obtain ⟨hm, hl⟩ := s.supervise_frame failed late
    unfold State.step State.Attends
    grind
  | call late complete =>
    obtain ⟨hm, hl⟩ := s.call_frame late complete
    unfold State.step State.Attends
    grind

theorem reserved_iff (s : State) (point : Point) : Sent.reserved ⟨point, s.leader, s.members⟩ ↔ ¬ s.Released := by
  unfold Sent.reserved State.Released
  grind

theorem Attended.sent (h : ¬ s.Released) (hsent : ∀ sent ∈ s.sent, sent.reserved) {schedule : List Event}
    (hattended : Attended s schedule) :
    ¬ (schedule.foldl State.step s).Released ∧ ∀ sent ∈ (schedule.foldl State.step s).sent, sent.reserved := by
  induction schedule generalizing s with
  | nil => exact ⟨h, hsent⟩
  | cons event schedule ih =>
    refine ih (fun hreleased => (State.step_released_iff h event).mp hreleased hattended.1) ?_ hattended.2
    rcases s.step_sent event with heq | ⟨point, heq⟩
    · exact heq ▸ hsent
    · rw [heq]
      exact List.forall_mem_append.mpr ⟨hsent, List.forall_mem_singleton.mpr ((reserved_iff s point).mpr h)⟩

/-- No signal of a released group is reserved: nothing joins it again. -/
theorem State.Released.sent (h : s.Released) (schedule : List Event) :
    ∃ more, (schedule.foldl State.step s).sent = s.sent ++ more ∧ ∀ sent ∈ more, ¬ sent.reserved := by
  induction schedule generalizing s with
  | nil => exact ⟨[], by simp⟩
  | cons event schedule ih =>
    obtain ⟨more, hmore, hall⟩ := ih (h.step event)
    rw [List.foldl_cons, hmore]
    rcases s.step_sent event with heq | ⟨point, heq⟩
    · exact ⟨more, by rw [heq], hall⟩
    · refine ⟨⟨point, s.leader, s.members⟩ :: more, by simp [heq], List.forall_mem_cons.mpr ⟨?_, hall⟩⟩
      exact fun hreserved => (reserved_iff s point).mp hreserved h

end Soma.Supervise
