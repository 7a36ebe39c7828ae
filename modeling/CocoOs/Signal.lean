import CocoOs.Event
import Mathlib.Tactic.SplitIfs

/-!
# What a signal does

`os_signal_event` runs the same operation over every created task.  This module
states once when a signal returns and what it then leaves, so that no later
proof unfolds the loop.
-/

namespace CocoOs

open Foundation

variable {β : Type}

namespace TaskTable

/-- Rewrite every created task. -/
def mapCreated (tasks : TaskTable) (change : Tcb → Tcb) : TaskTable :=
  { tasks with
    taskList := fun tid =>
      if tid < tasks.nTasks then change (tasks.taskList tid)
      else tasks.taskList tid }

theorem mapCreated_taskList_of_lt
    (tasks : TaskTable) (change : Tcb → Tcb)
    {tid : Nat} (created : tid < tasks.nTasks) :
    (tasks.mapCreated change).taskList tid = change (tasks.taskList tid) := by
  simp [mapCreated, created]

/-- A signal reaches every created task, or stops at the first when the event
is outside the event bitmaps. -/
theorem osTaskSignalEvent_eq
    (cfg : Config) (tasks : TaskTable) (eventId : Nat) :
    tasks.osTaskSignalEvent cfg eventId =
      if tasks.nTasks = 0 ∨ eventId / 8 < cfg.eventQueueSize then
        .ok (tasks.mapCreated (Tcb.signalEvent cfg eventId))
      else .error .bounds := by
  unfold osTaskSignalEvent mapCreated
  congr 3
  funext tid
  exact forEach_update_apply tasks.nTasks
    (fun _ task => task.signalEvent cfg eventId) tasks.taskList tid

end TaskTable

namespace Kernel

/-- The kernel after `os_signal_event` has returned. -/
def signalled (cfg : Config) (k : Kernel β) (eventId : Nat) : Kernel β :=
  { k with
    tasks := k.tasks.mapCreated (Tcb.signalEvent cfg eventId)
    events := { k.events with lastSignaledEvent := eventId }
    history := k.history ++ [.signalled eventId] }

/-- No created task has an event bitmap too narrow for the event. -/
def SignalFits (cfg : Config) (k : Kernel β) (eventId : Nat) : Prop :=
  k.tasks.nTasks = 0 ∨ eventId / 8 < cfg.eventQueueSize

instance (cfg : Config) (k : Kernel β) (eventId : Nat) :
    Decidable (k.SignalFits cfg eventId) :=
  inferInstanceAs (Decidable (_ ∨ _))

theorem osSignalEvent_eq (cfg : Config) (k : Kernel β) (eventId : Nat) :
    k.osSignalEvent cfg eventId =
      if 0 < cfg.nTotalEvents then
        if k.SignalFits cfg eventId then .ok (k.signalled cfg eventId)
        else .error .bounds
      else .ok k := by
  unfold osSignalEvent
  by_cases events : 0 < cfg.nTotalEvents
  · rw [if_pos events, if_pos events]
    simp only [TaskTable.osTaskSignalEvent_eq]
    by_cases fits : k.SignalFits cfg eventId
    · rw [if_pos fits, if_pos (show _ ∨ _ from fits)]
      rfl
    · rw [if_neg fits, if_neg (show ¬ (_ ∨ _) from fits)]
      rfl
  · rw [if_neg events, if_neg events]

theorem osSignalEvent_runningTid
    {cfg : Config} {k k' : Kernel β} {eventId : Nat}
    (returns : k.osSignalEvent cfg eventId = .ok k') :
    k'.runningTid = k.runningTid := by
  rw [osSignalEvent_eq] at returns
  split_ifs at returns
  · exact Except.ok.inj returns ▸ rfl
  · exact Except.ok.inj returns ▸ rfl

/-- The kernel after `event_ISR_signal` has returned. -/
def isrSignalled (cfg : Config) (k : Kernel β) (eventId : Nat) : Kernel β :=
  { k.signalled cfg eventId with
    events := (k.signalled cfg eventId).events.setSignaledByTid eventId isrTid }

theorem eventIsrSignal_eq (cfg : Config) (k : Kernel β) (eventId : Nat) :
    k.eventIsrSignal cfg eventId =
      if 0 < cfg.nTotalEvents then
        if k.SignalFits cfg eventId ∧ eventId < cfg.nTotalEvents then
          .ok (k.isrSignalled cfg eventId)
        else .error .bounds
      else .ok k := by
  unfold eventIsrSignal osEventSetSignalingTid
  rw [osSignalEvent_eq]
  by_cases events : 0 < cfg.nTotalEvents
  · by_cases fits : k.SignalFits cfg eventId
    · by_cases created : eventId < cfg.nTotalEvents
      · simp only [events, fits, created, and_self, if_true, ok_bind]
        rfl
      · simp [events, fits, created]
    · simp [events, fits]
  · simp [events]

/-- A number of `event_ISR_signal` calls on one event. -/
def signalTimes (cfg : Config) (event : Nat) :
    Nat → Kernel β → Outcome (Kernel β)
  | 0, k => .ok k
  | times + 1, k => k.eventIsrSignal cfg event >>= signalTimes cfg event times

theorem signalTimes_add
    (cfg : Config) (event first second : Nat) (k : Kernel β) :
    signalTimes cfg event (first + second) k =
      signalTimes cfg event first k >>= signalTimes cfg event second := by
  induction first generalizing k with
  | zero => simp [signalTimes]
  | succ first inductionHypothesis =>
      rw [Nat.succ_add, signalTimes, signalTimes]
      cases k.eventIsrSignal cfg event with
      | error stopped => rfl
      | ok signalled => exact inductionHypothesis signalled

/-- Repeated signals of an event the kernel knows: they return when the bitmaps
are wide enough, and are recorded one by one. -/
theorem signalTimes_cases
    {cfg : Config} {event : Nat}
    (inside : event < cfg.nTotalEvents)
    (times : Nat)
    (k : Kernel β) :
    (∃ k', signalTimes cfg event times k = .ok k' ∧
      k'.history = k.history ++ List.replicate times (.signalled event) ∧
      k'.queues = k.queues ∧ k'.sems = k.sems ∧ k'.running = k.running ∧
      k'.runningTid = k.runningTid ∧ k'.tasks.nTasks = k.tasks.nTasks) ∨
    (signalTimes cfg event times k = .error .bounds ∧
      0 < times ∧ 0 < k.tasks.nTasks ∧ cfg.eventQueueSize ≤ event / 8) := by
  have events : 0 < cfg.nTotalEvents := Nat.zero_lt_of_lt inside
  induction times generalizing k with
  | zero => exact .inl ⟨k, rfl, by simp, rfl, rfl, rfl, rfl, rfl⟩
  | succ times inductionHypothesis =>
      rw [signalTimes, eventIsrSignal_eq, if_pos events]
      by_cases fits : k.SignalFits cfg event
      · rw [if_pos ⟨fits, inside⟩, ok_bind]
        rcases inductionHypothesis (k.isrSignalled cfg event) with
          ⟨k', returns, history, queues, sems, running, runningTid, nTasks⟩ |
          ⟨stops, _, some, narrow⟩
        · left
          refine ⟨k', returns, ?_, queues, sems, running, runningTid, nTasks⟩
          rw [history, List.replicate_succ]
          simp [isrSignalled, signalled]
        · right
          exact ⟨stops, Nat.succ_pos times, some, narrow⟩
      · right
        rw [if_neg fun both => fits both.1]
        simp only [SignalFits, not_or, Nat.not_lt] at fits
        exact ⟨rfl, Nat.succ_pos times, Nat.pos_of_ne_zero fits.1, fits.2⟩

end Kernel

end CocoOs
