import CocoOs.Defs
import CocoOs.Foundation.ByteSet
import Mathlib.Algebra.Group.Nat.Defs

/-!
# Tasks (`os_task.c`)

The functions of `os_task.c` on the task table.  A function that rewrites one
task control block is the guard of its `os_assert` followed by a `Tcb`
operation, so that what happens to a task can be read off the operation alone.
-/

namespace CocoOs

open Foundation

namespace TaskTable

/-- Rewrite one entry of `task_list`. -/
def modify (tasks : TaskTable) (tid : Nat) (change : Tcb → Tcb) : TaskTable :=
  { tasks with
    taskList :=
      Function.update tasks.taskList tid (change (tasks.taskList tid)) }

@[simp] theorem modify_nTasks
    (tasks : TaskTable) (tid : Nat) (change : Tcb → Tcb) :
    (tasks.modify tid change).nTasks = tasks.nTasks := rfl

@[simp] theorem modify_taskList_self
    (tasks : TaskTable) (tid : Nat) (change : Tcb → Tcb) :
    (tasks.modify tid change).taskList tid = change (tasks.taskList tid) := by
  simp [modify]

@[simp] theorem modify_taskList_of_ne
    (tasks : TaskTable) (change : Tcb → Tcb)
    {tid other : Nat} (different : other ≠ tid) :
    (tasks.modify tid change).taskList other = tasks.taskList other := by
  simp [modify, different]

theorem modify_taskList
    (tasks : TaskTable) (tid : Nat) (change : Tcb → Tcb) (other : Nat) :
    (tasks.modify tid change).taskList other =
      if other = tid then change (tasks.taskList other)
      else tasks.taskList other := by
  by_cases same : other = tid
  · subst same
    simp
  · simp [same]

/-- Two rewrites of the same entry are one rewrite. -/
@[simp] theorem modify_modify
    (tasks : TaskTable) (tid : Nat) (first second : Tcb → Tcb) :
    (tasks.modify tid first).modify tid second =
      tasks.modify tid fun task => second (first task) := by
  simp [modify]

end TaskTable

/-! ## The event wait queue of a task -/

/-- The clearing loop of `os_task_clear_wait_queue`, from the last byte of the
event list down to the first. -/
def clearEvents : Nat → (Nat → BitVec 8) → Nat → BitVec 8
  | 0, eventList => eventList
  | event + 1, eventList =>
      clearEvents event (Function.update eventList event 0)

/-- The scanning loop of `os_task_wait_queue_empty`. -/
def eventsEmpty : Nat → (Nat → BitVec 8) → Bool
  | 0, _ => true
  | event + 1, eventList =>
      if eventList event ≠ 0 then false else eventsEmpty event eventList

theorem clearEvents_apply
    (size : Nat)
    (eventList : Nat → BitVec 8)
    (index : Nat) :
    clearEvents size eventList index =
      if index < size then 0 else eventList index := by
  induction size generalizing eventList with
  | zero => simp [clearEvents]
  | succ prior inductionHypothesis =>
      rw [clearEvents, inductionHypothesis]
      by_cases same : index = prior
      · subst same
        simp
      · have shifted : index < prior + 1 ↔ index < prior := by omega
        simp [same, shifted]

theorem eventsEmpty_iff
    (size : Nat)
    (eventList : Nat → BitVec 8) :
    eventsEmpty size eventList = true ↔ ByteSet.Empty size eventList := by
  induction size with
  | zero => simp [eventsEmpty, ByteSet.Empty]
  | succ prior inductionHypothesis =>
      rw [eventsEmpty]
      by_cases zero : eventList prior = 0
      · rw [if_neg (by simpa using zero), inductionHypothesis]
        constructor
        · intro empty index inside
          by_cases last : index = prior
          · exact last ▸ zero
          · exact empty index (by omega)
        · intro empty index inside
          exact empty index (by omega)
      · rw [if_pos zero]
        simp only [Bool.false_eq_true, false_iff]
        intro empty
        exact zero (empty prior (Nat.lt_succ_self prior))

namespace Tcb

/-- The event is in the task's event wait queue. -/
def Pending (task : Tcb) (eventId : Nat) : Prop :=
  ByteSet.Mem task.eventQueue eventId

instance (task : Tcb) (eventId : Nat) : Decidable (task.Pending eventId) :=
  inferInstanceAs (Decidable (ByteSet.Mem _ _))

/-- `os_task_clear_wait_queue`. -/
def clearWaitQueue (cfg : Config) (task : Tcb) : Tcb :=
  { task with
    waitSingleEvent := false
    eventQueue := clearEvents cfg.eventQueueSize task.eventQueue }

/-- `os_task_wait_queue_empty`. -/
def waitQueueEmpty (cfg : Config) (task : Tcb) : Bool :=
  eventsEmpty cfg.eventQueueSize task.eventQueue

/-- `task_ready_set`. -/
def readySet (task : Tcb) : Tcb := { task with state := .ready }

/-- `os_task_kill`. -/
def kill (task : Tcb) : Tcb := { task with state := .killed }

/-- `os_task_suspend`.  A task that waits for a semaphore is reset. -/
def suspend (task : Tcb) : Tcb :=
  if task.state ≠ .killed ∧ task.state ≠ .suspended then
    if task.state = .waitingSem then
      { task with savedState := .ready, internalState := 0, state := .suspended }
    else
      { task with savedState := task.state, state := .suspended }
  else task

/-- `os_task_resume`. -/
def resume (task : Tcb) : Tcb :=
  if task.state = .suspended then { task with state := task.savedState }
  else task

/-- `os_task_wait_time_set`. -/
def waitTimeSet (id time : Nat) (task : Tcb) : Tcb :=
  { task with clockId := id, time := time, state := .waitingTime }

/-- The bit `os_task_wait_event` sets and the mode it records. -/
def markEvent (eventId : Nat) (waitSingleEvent : Bool) (task : Tcb) : Tcb :=
  let eventListIndex := eventId / 8
  let shift := eventId &&& 0x07
  { task with
    eventQueue :=
      Function.update task.eventQueue eventListIndex
        (task.eventQueue eventListIndex ||| (1#8 <<< shift))
    waitSingleEvent := waitSingleEvent }

/-- `task_wait_sem_set`. -/
def waitSemSet (sem : Int) (task : Tcb) : Tcb :=
  { task with time := 0, state := .waitingSem, semaphore := sem }

/-- The task waits for this semaphore. -/
def WaitsForSem (sem : Int) (task : Tcb) : Prop :=
  task.state = .waitingSem ∧ task.semaphore = sem

instance (sem : Int) (task : Tcb) : Decidable (task.WaitsForSem sem) :=
  inferInstanceAs (Decidable (_ ∧ _))

/-- The part of `task_tick` that concerns the task itself. -/
def tick (cfg : Config) (clockId tickSize : Nat) (task : Tcb) : Tcb :=
  let state := task.state
  if state = .waitingTime ∨ state = .waitingEventTimeout then
    if task.clockId = clockId then
      if task.time ≤ tickSize then
        let task := { task with time := 0 }
        let task :=
          if state = .waitingEventTimeout then task.clearWaitQueue cfg else task
        task.readySet
      else
        { task with time := task.time - tickSize }
    else task
  else if state = .waitingSem then
    { task with time := (task.time + 1) % 2 ^ 32 }
  else task

/-- Drop the bit of an event from the task's event wait queue. -/
def unmarkEvent (eventId : Nat) (task : Tcb) : Tcb :=
  let eventListIndex := eventId / 8
  let shift := eventId &&& 0x07
  { task with
    eventQueue :=
      Function.update task.eventQueue eventListIndex
        (task.eventQueue eventListIndex &&& ~~~ (1#8 <<< shift)) }

/-- The body of the loop of `os_task_signal_event`. -/
def signalEvent (cfg : Config) (eventId : Nat) (task : Tcb) : Tcb :=
  let eventListIndex := eventId / 8
  let shift := eventId &&& 0x07
  let state := task.state
  let taskWaitStateOk := state = .waitingEvent ∨ state = .waitingEventTimeout
  let taskWaitingForEvent :=
    task.eventQueue eventListIndex &&& (1#8 <<< shift)
  if taskWaitingForEvent ≠ 0 ∧ taskWaitStateOk then
    let task := task.unmarkEvent eventId
    if task.waitSingleEvent ∨ task.waitQueueEmpty cfg then
      (task.clearWaitQueue cfg).readySet
    else task
  else task

end Tcb

/-! ## Functions on the task table -/

namespace TaskTable

/-- An entry of `task_list` after `os_task_init`. -/
def initialTcb (stale : Tcb) : Tcb :=
  { stale with
    clockId := 0xff
    internalState := 0xff
    msgQ := 0
    waitQ := 0
    msgChangeEvent := 0
    msgResult := .undef
    prio := 0
    savedState := .suspended
    semaphore := noSem
    state := .suspended
    taskproc := 0
    tid := noTid
    time := 0
    waitSingleEvent := false
    eventQueue := fun _ => 0xff
    data := 0 }

/-- `os_task_init`. -/
def osTaskInit (cfg : Config) (tasks : TaskTable) : TaskTable where
  lastRunningTask := 0
  nTasks := 0
  taskList :=
    forEach cfg.nTasks
      (fun i taskList => Function.update taskList i (initialTcb (taskList i)))
      tasks.taskList

/-- `os_task_clear_wait_queue`. -/
def osTaskClearWaitQueue (cfg : Config) (tasks : TaskTable) (tid : Nat) :
    TaskTable :=
  tasks.modify tid (Tcb.clearWaitQueue cfg)

/-- `os_task_kill`. -/
def osTaskKill (tasks : TaskTable) (tid : Nat) : Outcome TaskTable :=
  if tid < tasks.nTasks then .ok (tasks.modify tid Tcb.kill)
  else .error .assertion

/-- `os_task_suspend`. -/
def osTaskSuspend (tasks : TaskTable) (tid : Nat) : Outcome TaskTable :=
  if tid < tasks.nTasks then .ok (tasks.modify tid Tcb.suspend)
  else .error .assertion

/-- `os_task_resume`. -/
def osTaskResume (tasks : TaskTable) (tid : Nat) : Outcome TaskTable :=
  if tid < tasks.nTasks then .ok (tasks.modify tid Tcb.resume)
  else .error .assertion

/-- `os_task_wait_time_set`. -/
def osTaskWaitTimeSet (tasks : TaskTable) (tid id time : Nat) :
    Outcome TaskTable :=
  if tid < tasks.nTasks then
    if 0 < time then .ok (tasks.modify tid (Tcb.waitTimeSet id time))
    else .error .assertion
  else .error .assertion

/-- `os_task_wait_event`. -/
def osTaskWaitEvent
    (cfg : Config) (tasks : TaskTable)
    (tid eventId : Nat) (waitSingleEvent : Bool) (timeout : Nat) :
    Outcome TaskTable :=
  if tid < tasks.nTasks then
    if eventId / 8 < cfg.eventQueueSize then
      let tasks := tasks.modify tid (Tcb.markEvent eventId waitSingleEvent)
      if timeout ≠ 0 then do
        let tasks ← tasks.osTaskWaitTimeSet tid 0 timeout
        .ok (tasks.modify tid
          fun task => { task with state := .waitingEventTimeout })
      else
        .ok (tasks.modify tid fun task => { task with state := .waitingEvent })
    else .error .bounds
  else .error .assertion

/-- `task_wait_sem_set`. -/
def taskWaitSemSet (tasks : TaskTable) (tid : Nat) (sem : Int) :
    Outcome TaskTable :=
  if tid < tasks.nTasks then .ok (tasks.modify tid (Tcb.waitSemSet sem))
  else .error .assertion

/-- `os_task_signal_event`. -/
def osTaskSignalEvent (cfg : Config) (tasks : TaskTable) (eventId : Nat) :
    Outcome TaskTable :=
  if tasks.nTasks = 0 ∨ eventId / 8 < cfg.eventQueueSize then
    .ok { tasks with
      taskList :=
        forEach tasks.nTasks
          (fun i taskList =>
            Function.update taskList i ((taskList i).signalEvent cfg eventId))
          tasks.taskList }
  else .error .bounds

/-- `os_task_timeout_get`. -/
def osTaskTimeoutGet (cfg : Config) (tasks : TaskTable) (tid : Nat) :
    Outcome Nat :=
  if tid < cfg.nTasks then .ok (tasks.taskList tid).time
  else .error .bounds

/-! ### Semaphore waiters -/

/-- One iteration of the priority scan of `os_task_release_waiting_task`, on
`highestPrio` and `foundTask`. -/
def releasePrioStep (tasks : TaskTable) (sem : Int) (tid : Nat)
    (found : Nat × Nat) : Nat × Nat :=
  let task := tasks.taskList tid
  if task.WaitsForSem sem then
    if task.prio < found.1 then (task.prio, tid) else found
  else found

/-- What the round-robin scan of `os_task_release_waiting_task` carries. -/
structure LongestWait where
  longestWaitTime : Nat
  lastCheckedTask : Nat
  foundTask : Nat

/-- One iteration of the round-robin scan of `os_task_release_waiting_task`. -/
def releaseRoundRobinStep (tasks : TaskTable) (sem : Int) (tid : Nat)
    (found : LongestWait) : LongestWait :=
  let task := tasks.taskList tid
  if task.WaitsForSem sem then
    let found := { found with lastCheckedTask := tid }
    if found.longestWaitTime < task.time then
      { found with longestWaitTime := task.time, foundTask := tid }
    else found
  else found

/-- The task `os_task_release_waiting_task` finds. -/
def findWaitingTask (cfg : Config) (tasks : TaskTable) (sem : Int) : Nat :=
  if cfg.roundRobin then
    let found := forEach tasks.nTasks (tasks.releaseRoundRobinStep sem)
      { longestWaitTime := 0, lastCheckedTask := noTid, foundTask := noTid }
    if found.longestWaitTime = 0 ∧ noTid ≠ found.lastCheckedTask then
      found.lastCheckedTask
    else found.foundTask
  else
    (forEach tasks.nTasks (tasks.releasePrioStep sem) (255, noTid)).2

/-- `os_task_release_waiting_task`. -/
def osTaskReleaseWaitingTask (cfg : Config) (tasks : TaskTable) (sem : Int) :
    TaskTable :=
  let foundTask := tasks.findWaitingTask cfg sem
  if noTid ≠ foundTask then tasks.modify foundTask Tcb.readySet else tasks

/-- The scanning loop of `os_task_waiting_this_semaphore`, which breaks at the
first waiting task, over the tasks with at least `nTasks - remaining` before
them. -/
def waitingThisSemaphoreFrom (tasks : TaskTable) (sem : Int) :
    Nat → Nat → Bool
  | 0, _ => false
  | remaining + 1, tid =>
      if (tasks.taskList tid).WaitsForSem sem then true
      else waitingThisSemaphoreFrom tasks sem remaining (tid + 1)

/-- `os_task_waiting_this_semaphore`. -/
def osTaskWaitingThisSemaphore (tasks : TaskTable) (sem : Int) : Bool :=
  tasks.waitingThisSemaphoreFrom sem tasks.nTasks 0

/-! ### Scheduling -/

/-- One iteration of `highest_prio_ready_task`, on `highest_prio` and
`highest_prio_task`. -/
def highestPrioStep (tasks : TaskTable) (i : Nat) (found : Nat × Nat) :
    Nat × Nat :=
  let task := tasks.taskList i
  if task.state = .ready then
    if task.prio < found.1 then (task.prio, i) else found
  else found

/-- `highest_prio_ready_task`. -/
def highestPrioReadyTask (tasks : TaskTable) : Nat :=
  (forEach tasks.nTasks tasks.highestPrioStep (255, noTid)).2

/-- The `do`-`while` loop of `next_ready_task`.  Its 8-bit counter meets
`nTasks` within 256 iterations. -/
def nextReadyTaskLoop (cfg : Config) (tasks : TaskTable) :
    Nat → Nat → Nat → Outcome (Option Nat)
  | 0, _, _ => .error .divergence
  | fuel + 1, index, nChecked =>
      if index < cfg.nTasks then
        if (tasks.taskList index).state = .ready then .ok (some index)
        else
          let index := index + 1
          let index := if index = tasks.nTasks then 0 else index
          let nChecked := (nChecked + 1) % 256
          if nChecked ≠ tasks.nTasks then
            nextReadyTaskLoop cfg tasks fuel index nChecked
          else .ok none
      else .error .bounds

/-- `next_ready_task`. -/
def nextReadyTask (cfg : Config) (tasks : TaskTable) :
    Outcome (Nat × TaskTable) := do
  let index :=
    if noTid = tasks.lastRunningTask then 0
    else
      let index := tasks.lastRunningTask + 1
      if tasks.nTasks ≤ index then 0 else index
  let found ← tasks.nextReadyTaskLoop cfg 256 index 0
  let lastRunningTask := found.getD noTid
  .ok (lastRunningTask % 256, { tasks with lastRunningTask := lastRunningTask })

end TaskTable

end CocoOs
