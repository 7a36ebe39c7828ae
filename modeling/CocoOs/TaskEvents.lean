import CocoOs.TaskView

/-!
# The event wait queue of a task as a set

The bit operations on `eventQueue`, said of the set of events the task waits
for.
-/

namespace CocoOs

open Foundation

namespace Tcb

theorem markEvent_eventQueue
    (eventId : Nat) (waitSingleEvent : Bool) (task : Tcb) :
    (task.markEvent eventId waitSingleEvent).eventQueue =
      ByteSet.insert task.eventQueue eventId := by
  simp only [markEvent, ByteSet.and_seven]
  rfl

theorem unmarkEvent_eventQueue (eventId : Nat) (task : Tcb) :
    (task.unmarkEvent eventId).eventQueue =
      ByteSet.erase task.eventQueue eventId := by
  simp only [unmarkEvent, ByteSet.and_seven]
  rfl

@[simp] theorem pending_markEvent
    (eventId other : Nat) (waitSingleEvent : Bool) (task : Tcb) :
    (task.markEvent eventId waitSingleEvent).Pending other ↔
      other = eventId ∨ task.Pending other := by
  unfold Pending
  rw [markEvent_eventQueue, ByteSet.mem_insert_iff]

@[simp] theorem pending_unmarkEvent (eventId other : Nat) (task : Tcb) :
    (task.unmarkEvent eventId).Pending other ↔
      other ≠ eventId ∧ task.Pending other := by
  unfold Pending
  rw [unmarkEvent_eventQueue, ByteSet.mem_erase_iff]

/-- Waiting for an event adds it to what the task waits for. -/
@[simp] theorem pending_waitEvent
    (eventId other : Nat) (waitSingleEvent : Bool) (timeout : Nat) (task : Tcb) :
    (task.waitEvent eventId waitSingleEvent timeout).Pending other ↔
      other = eventId ∨ task.Pending other := by
  unfold waitEvent
  dsimp only
  split_ifs
  · exact pending_markEvent eventId other waitSingleEvent task
  · exact pending_markEvent eventId other waitSingleEvent task

theorem clearWaitQueue_eventQueue (cfg : Config) (task : Tcb) (index : Nat) :
    (task.clearWaitQueue cfg).eventQueue index =
      if index < cfg.eventQueueSize then 0 else task.eventQueue index :=
  clearEvents_apply cfg.eventQueueSize task.eventQueue index

theorem not_pending_clearWaitQueue
    (cfg : Config) (task : Tcb) {eventId : Nat}
    (fits : eventId / 8 < cfg.eventQueueSize) :
    ¬ (task.clearWaitQueue cfg).Pending eventId := by
  unfold Pending ByteSet.Mem
  rw [clearWaitQueue_eventQueue, if_pos fits]
  simp

theorem empty_clearWaitQueue (cfg : Config) (task : Tcb) :
    ByteSet.Empty cfg.eventQueueSize (task.clearWaitQueue cfg).eventQueue := by
  intro index inside
  rw [clearWaitQueue_eventQueue, if_pos inside]

theorem waitQueueEmpty_iff (cfg : Config) (task : Tcb) :
    task.waitQueueEmpty cfg = true ↔
      ByteSet.Empty cfg.eventQueueSize task.eventQueue :=
  eventsEmpty_iff cfg.eventQueueSize task.eventQueue

/-- A wait queue that holds an event is not empty. -/
theorem not_empty_of_pending
    {cfg : Config} {task : Tcb} {eventId : Nat}
    (fits : eventId / 8 < cfg.eventQueueSize)
    (pending : task.Pending eventId) :
    ¬ ByteSet.Empty cfg.eventQueueSize task.eventQueue := by
  intro empty
  exact (ByteSet.empty_iff _ _).mp empty eventId fits pending

/-- The task is blocked on events. -/
def WaitsForEvents (task : Tcb) : Prop :=
  task.state = .waitingEvent ∨ task.state = .waitingEventTimeout

instance (task : Tcb) : Decidable task.WaitsForEvents :=
  inferInstanceAs (Decidable (_ ∨ _))

/-- The signal completes what the task waits for. -/
def Completes (cfg : Config) (eventId : Nat) (task : Tcb) : Prop :=
  task.waitSingleEvent = true ∨
    ∀ other, other / 8 < cfg.eventQueueSize → task.Pending other →
      other = eventId

/-- `os_task_signal_event` on a task that does not wait for the event. -/
theorem signalEvent_of_not
    (cfg : Config) {eventId : Nat} {task : Tcb}
    (indifferent : ¬ (task.Pending eventId ∧ task.WaitsForEvents)) :
    task.signalEvent cfg eventId = task := by
  have masked := ByteSet.and_mask_ne_zero_iff task.eventQueue eventId
  unfold ByteSet.mask at masked
  unfold signalEvent
  rw [ByteSet.and_seven]
  dsimp only
  rw [if_neg]
  rintro ⟨nonzero, waits⟩
  exact indifferent ⟨masked.mp nonzero, waits⟩

theorem signalEvent_of_waits
    (cfg : Config) {eventId : Nat} {task : Tcb}
    (pending : task.Pending eventId)
    (waits : task.WaitsForEvents) :
    task.signalEvent cfg eventId =
      if (task.unmarkEvent eventId).waitSingleEvent = true ∨
          (task.unmarkEvent eventId).waitQueueEmpty cfg = true then
        ((task.unmarkEvent eventId).clearWaitQueue cfg).readySet
      else task.unmarkEvent eventId := by
  have masked := ByteSet.and_mask_ne_zero_iff task.eventQueue eventId
  unfold ByteSet.mask at masked
  unfold signalEvent
  rw [ByteSet.and_seven]
  dsimp only
  rw [if_pos ⟨masked.mpr pending, waits⟩]

theorem empty_unmarkEvent_iff (cfg : Config) (eventId : Nat) (task : Tcb) :
    (task.unmarkEvent eventId).waitQueueEmpty cfg = true ↔
      ∀ other, other / 8 < cfg.eventQueueSize → task.Pending other →
        other = eventId := by
  rw [waitQueueEmpty_iff, ByteSet.empty_iff]
  constructor
  · intro empty other fits pending
    by_contra different
    exact empty other fits
      ((pending_unmarkEvent eventId other task).mpr ⟨different, pending⟩)
  · intro only other fits pending
    obtain ⟨different, before⟩ :=
      (pending_unmarkEvent eventId other task).mp pending
    exact different (only other fits before)

/-- A signal that completes the wait clears the wait queue and makes the task
ready. -/
theorem signalEvent_of_completes
    (cfg : Config) {eventId : Nat} {task : Tcb}
    (pending : task.Pending eventId)
    (waits : task.WaitsForEvents)
    (completes : task.Completes cfg eventId) :
    task.signalEvent cfg eventId =
      ((task.unmarkEvent eventId).clearWaitQueue cfg).readySet := by
  rw [signalEvent_of_waits cfg pending waits, if_pos]
  rcases completes with single | only
  · exact .inl single
  · exact .inr ((empty_unmarkEvent_iff cfg eventId task).mpr only)

/-- A signal that does not complete the wait is crossed off. -/
theorem signalEvent_of_not_completes
    (cfg : Config) {eventId : Nat} {task : Tcb}
    (pending : task.Pending eventId)
    (waits : task.WaitsForEvents)
    (notYet : ¬ task.Completes cfg eventId) :
    task.signalEvent cfg eventId = task.unmarkEvent eventId := by
  rw [signalEvent_of_waits cfg pending waits, if_neg]
  rintro (single | empty)
  · exact notYet (.inl single)
  · exact notYet (.inr ((empty_unmarkEvent_iff cfg eventId task).mp empty))

end Tcb

end CocoOs
