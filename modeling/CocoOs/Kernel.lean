import CocoOs.MsgQueue
import CocoOs.Sem

/-!
# Initialisation, clocks and scheduling (`os_kernel.c`)

Task creation and `task_tick`, which reach into the message queues, and the
functions of `os_kernel.c`.
-/

namespace CocoOs

open Foundation

variable {β : Type}

namespace Kernel

/-- The static variables when the program starts: zeroed memory, but for the
initialisers in the source. -/
def zeroed [Inhabited β] : Kernel β where
  tasks :=
    { taskList := fun _ =>
        { taskproc := 0, state := .suspended, savedState := .suspended
          internalState := 0, time := 0, tid := 0, prio := 0, semaphore := 0
          msgQ := 0, waitQ := 0, msgChangeEvent := 0, msgResult := .undef
          waitSingleEvent := false, clockId := 0, eventQueue := fun _ => 0
          data := 0 }
      nTasks := 0
      lastRunningTask := 0 }
  events :=
    { eventList := fun _ => { id := 0, signaledByTid := 0 }
      nEvents := 0
      lastSignaledEvent := noEvent }
  sems :=
    { semList := fun _ => { maxValue := 0, value := 0 }
      nSemaphores := 0 }
  queues :=
    { msgQList := fun _ =>
        { q :=
            { list := fun _ =>
                { signal := 0, delay := 0, reload := 0, payload := default }
              messageSize := 0, head := 0, tail := 0, size := 0 }
          taskId := 0
          change := 0 }
      nQueues := 0 }
  running := false
  runningTid := noTid
  history := []

/-- `os_init`.  The history variable starts here. -/
def osInit (cfg : Config) (k : Kernel β) : Kernel β where
  runningTid := noTid
  running := false
  sems := k.sems.osSemInit cfg
  events := k.events.osEventInit cfg
  queues := k.queues.osMsgQInit cfg
  tasks := k.tasks.osTaskInit cfg
  history := []

/-- The loop of `os_task_create` that looks for another task of the same
priority, from the last created task down to the first. -/
def prioUnused (tasks : TaskTable) (prio : Nat) : Nat → Bool
  | 0 => true
  | taskId + 1 =>
      if (tasks.taskList taskId).prio = prio then false
      else prioUnused tasks prio taskId

/-- The fields `os_task_create` sets before it creates the queue. -/
def createdTcb (taskproc prio tid : Nat) (stale : Tcb) : Tcb :=
  { stale with
    tid := tid
    prio := prio
    state := .ready
    savedState := .ready
    semaphore := 0
    internalState := 0
    taskproc := taskproc
    waitSingleEvent := false
    time := 0 }

/-- `os_task_create`. -/
def osTaskCreate
    (cfg : Config) (k : Kernel β)
    (taskproc data prio : Nat)
    (msgPool : Nat → Msg β) (poolSize msgSize : Nat) :
    Outcome (Nat × Kernel β) :=
  if k.running = false then
    if k.tasks.nTasks < cfg.nTasks then
      if taskproc ≠ 0 then
        if prioUnused k.tasks prio k.tasks.nTasks then do
          let tid := k.tasks.nTasks
          let k := { k with
            tasks := k.tasks.modify tid (createdTcb taskproc prio tid) }
          let (msgQ, k) ←
            if 0 < poolSize then
              k.osMsgQCreate cfg msgPool poolSize msgSize tid
            else .ok (noQueue, k)
          let tasks := k.tasks.modify tid
            fun task => { task with msgQ := msgQ, data := data }
          let tasks := tasks.osTaskClearWaitQueue cfg tid
          .ok (tid, { k with tasks := { tasks with nTasks := tid + 1 } })
        else .error .assertion
      else .error .assertion
    else .error .assertion
  else .error .assertion

/-! ## Clocks -/

/-- The body of the loop of `task_tick`. -/
def taskTickBody (cfg : Config) (clockId tickSize i : Nat) (k : Kernel β) :
    Outcome (Kernel β) :=
  let k := { k with tasks := k.tasks.modify i (Tcb.tick cfg clockId tickSize) }
  if clockId = 0 then
    if (k.tasks.taskList i).msgQ ≠ noQueue then
      k.osMsgQTick cfg (k.tasks.taskList i).msgQ
    else .ok k
  else .ok k

/-- `task_tick`. -/
def taskTick (cfg : Config) (k : Kernel β) (clockId tickSize : Nat) :
    Outcome (Kernel β) :=
  forRange k.tasks.nTasks (taskTickBody cfg clockId tickSize) k

/-- `os_tick`. -/
def osTick (cfg : Config) (k : Kernel β) : Outcome (Kernel β) :=
  (k.record .ticked).taskTick cfg 0 1

/-- `os_sub_tick`. -/
def osSubTick (cfg : Config) (k : Kernel β) (id : Nat) : Outcome (Kernel β) :=
  if id ≠ 0 then k.taskTick cfg id 1 else .ok k

/-- `os_sub_nTick`. -/
def osSubNTick (cfg : Config) (k : Kernel β) (id nTicks : Nat) :
    Outcome (Kernel β) :=
  if id ≠ 0 then k.taskTick cfg id nTicks else .ok k

/-! ## Scheduling -/

/-- `os_start`, up to its loop of scheduling passes. -/
def osStart (k : Kernel β) : Kernel β := { k with running := true }

/-- `os_free_tid`. -/
def osFreeTid (k : Kernel β) : Kernel β := { k with runningTid := noTid }

/-- The choice of `os_schedule`: the task that runs next, or `noTid` when the
kernel sleeps. -/
def selectTask (cfg : Config) (k : Kernel β) : Outcome (Kernel β) :=
  if cfg.roundRobin then do
    let (tid, tasks) ← k.tasks.nextReadyTask cfg
    .ok { k with tasks := tasks, runningTid := tid }
  else .ok { k with runningTid := k.tasks.highestPrioReadyTask }

end Kernel

end CocoOs
