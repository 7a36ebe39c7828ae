import CocoOs.Kernel

/-!
# The task macros

The macros a task procedure is written with, from `os_reentry.h`, `os_task.h`,
`os_event.h`, `os_sem.h` and `os_msgqueue.h`.  A macro that yields stores the
line of its `OS_YIELD` in the task's internal state and gives up the processor.
The two message macros can yield inside a loop; each is split at that point
into what runs before the yield and what runs after the task resumes there.
-/

namespace CocoOs

open Foundation

variable {β : Type}

namespace Kernel

/-- Rewrite the task control block of the running task. -/
def modifyRunning (k : Kernel β) (change : Tcb → Tcb) : Kernel β :=
  { k with tasks := k.tasks.modify k.osGetRunningTid change }

/-- Replace the task table by the result of one of its functions. -/
def onTasks (k : Kernel β) (tasks : Outcome TaskTable) : Outcome (Kernel β) :=
  tasks.map fun tasks => { k with tasks := tasks }

/-! ## Coroutines (`os_reentry.h`) -/

/-- `OS_YIELD` on the given line. -/
def osYield (k : Kernel β) (line : Nat) : Kernel β :=
  (k.modifyRunning fun task => { task with internalState := line }).osFreeTid

/-- `OS_END`. -/
def osEnd (k : Kernel β) : Outcome (Kernel β) := do
  let k ← k.onTasks (k.tasks.osTaskKill k.osGetRunningTid)
  .ok k.osFreeTid

/-- `OS_WAIT_TICKS`. -/
def osWaitTicks (k : Kernel β) (ticks id line : Nat) : Outcome (Kernel β) := do
  let k ← k.onTasks (k.tasks.osTaskWaitTimeSet k.osGetRunningTid id ticks)
  .ok (k.osYield line)

/-! ## Tasks (`os_task.h`) -/

/-- Yield when the running task named itself. -/
def yieldIfSelf (k : Kernel β) (id line : Nat) : Kernel β :=
  if id = k.osGetRunningTid then k.osYield line else k

/-- `OS_SUSPEND_TASK`. -/
def osSuspendTask (k : Kernel β) (id line : Nat) : Outcome (Kernel β) := do
  let k ← k.onTasks (k.tasks.osTaskSuspend id)
  .ok (k.yieldIfSelf id line)

/-- `OS_RESUME_TASK`. -/
def osResumeTask (k : Kernel β) (id line : Nat) : Outcome (Kernel β) := do
  let k ← k.onTasks (k.tasks.osTaskResume id)
  .ok (k.yieldIfSelf id line)

/-! ## Events (`os_event.h`) -/

/-- `OS_WAIT_SINGLE_EVENT` without a callback. -/
def osWaitSingleEvent (cfg : Config) (k : Kernel β) (x timeout line : Nat) :
    Outcome (Kernel β) := do
  let k ← k.osWaitEvent cfg k.osGetRunningTid x true timeout none
  .ok (k.osYield line)

/-- `OS_WAIT_MULTIPLE_EVENTS`. -/
def osWaitMultipleEvents
    (cfg : Config) (k : Kernel β) (waitAll : Bool) (args : List Nat)
    (line : Nat) : Outcome (Kernel β) := do
  let k ← k.osWaitMultiple cfg waitAll (args ++ [noEvent])
  .ok (k.osYield line)

/-- `OS_SIGNAL_EVENT`. -/
def osSignalEventMacro (cfg : Config) (k : Kernel β) (event line : Nat) :
    Outcome (Kernel β) := do
  let k ← k.osSignalEvent cfg event
  let k ← k.osEventSetSignalingTid cfg event k.osGetRunningTid
  .ok (k.osYield line)

/-- `OS_WAIT_SEM`. -/
def osWaitSem (cfg : Config) (k : Kernel β) (sem : Int) (line : Nat) :
    Outcome (Kernel β) :=
  if k.sems.osSemLargerThanZero cfg sem then
    .ok { k with sems := k.sems.osSemDecrement cfg sem }
  else do
    let k ← k.onTasks (k.tasks.taskWaitSemSet k.osGetRunningTid sem)
    .ok (k.osYield line)

/-- `OS_SIGNAL_SEM_NO_SCHEDULE`. -/
def osSignalSemNoSchedule (cfg : Config) (k : Kernel β) (sem : Int) :
    Kernel β :=
  if k.tasks.osTaskWaitingThisSemaphore sem then
    { k with tasks := k.tasks.osTaskReleaseWaitingTask cfg sem }
  else { k with sems := k.sems.osSemIncrement cfg sem }

/-- `OS_SIGNAL_SEM`. -/
def osSignalSem (cfg : Config) (k : Kernel β) (sem : Int) (line : Nat) :
    Kernel β :=
  if k.tasks.osTaskWaitingThisSemaphore sem then
    { k with
      tasks := k.tasks.osTaskReleaseWaitingTask cfg sem }.osYield line
  else { k with sems := k.sems.osSemIncrement cfg sem }

/-! ## Messages (`os_msgqueue.h`) -/

/-- The end of `OS_MSG_Q_POST` and `OS_MSG_Q_RECEIVE`: signal the change event
when the queue did what the macro asked for. -/
def signalChange (cfg : Config) (k : Kernel β) (done : Bool) (event : Nat) :
    Outcome (Kernel β) :=
  if done then do
    let k ← k.osSignalEvent cfg event
    k.osEventSetSignalingTid cfg event k.osGetRunningTid
  else .ok k

/-- Block inside a message macro: remember the result and wait for the change
event. -/
def blockOnChange
    (cfg : Config) (k : Kernel β) (result : MsgResult) (event line : Nat) :
    Outcome (Kernel β) :=
  (k.modifyRunning fun task =>
    { task with msgResult := result }).osWaitSingleEvent cfg event 0 line

/-- One turn of the loop of `OS_MSG_Q_POST`, up to the yield or the end of the
macro.  The first result tells whether the task blocked. -/
def msgPostTurn
    (cfg : Config) (k : Kernel β)
    (taskId : Nat) (msg : Msg β) (delay period : Nat) (async : Bool)
    (event line : Nat) : Outcome (Bool × Kernel β) := do
  let (osPosted, _, k) ←
    k.osMsgPost cfg msg (k.queues.osMsgQFind cfg taskId) delay period
  if osPosted = .full ∧ async = false then do
    let k ← k.blockOnChange cfg osPosted event line
    .ok (true, k)
  else do
    let k ← k.signalChange cfg (osPosted = .posted) event
    .ok (false, k)

/-- Note in the task control block which queue and change event the task is
about to wait for. -/
def setWaitQueue (cfg : Config) (k : Kernel β) (taskId : Nat) : Kernel β :=
  let queue := k.queues.osMsgQFind cfg taskId
  k.modifyRunning fun task =>
    { task with
      waitQ := queue
      msgChangeEvent := k.queues.osMsgQEventGet cfg queue }

/-- `OS_MSG_Q_POST` up to its yield or its end. -/
def osMsgQPost
    (cfg : Config) (k : Kernel β)
    (taskId : Nat) (msg : Msg β) (delay period : Nat) (async : Bool)
    (line : Nat) : Outcome (Bool × Kernel β) :=
  let event :=
    k.queues.osMsgQEventGet cfg (k.queues.osMsgQFind cfg taskId)
  (k.setWaitQueue cfg taskId).msgPostTurn cfg taskId msg delay period async
    event line

/-- `OS_MSG_Q_POST` with `async = 0` from its yield: the loop reads its result
and its event back from the task control block. -/
def osMsgQPostResume
    (cfg : Config) (k : Kernel β)
    (taskId : Nat) (msg : Msg β) (delay period line : Nat) :
    Outcome (Bool × Kernel β) :=
  let task := k.tasks.taskList k.osGetRunningTid
  if task.msgResult = .full then
    k.msgPostTurn cfg taskId msg delay period false task.msgChangeEvent line
  else do
    let k ← k.signalChange cfg (task.msgResult = .posted) task.msgChangeEvent
    .ok (false, k)

/-- One turn of the loop of `OS_MSG_Q_RECEIVE` without a callback.  The results
are whether the task blocked and the destination buffer. -/
def msgReceiveTurn
    (cfg : Config) (k : Kernel β)
    (taskId : Nat) (pMsg : Msg β) (async : Bool) (event line : Nat) :
    Outcome (Bool × Msg β × Kernel β) := do
  let (osReceived, pMsg, k) ←
    k.osMsgReceive cfg pMsg (k.queues.osMsgQFind cfg taskId)
  if osReceived = .empty ∧ async = false then do
    let k ← k.blockOnChange cfg osReceived event line
    .ok (true, pMsg, k)
  else do
    let pMsg :=
      if osReceived = .empty then { pMsg with signal := noMsgId } else pMsg
    let k ← k.signalChange cfg (osReceived = .received) event
    .ok (false, pMsg, k)

/-- `OS_MSG_Q_RECEIVE` up to its yield or its end. -/
def osMsgQReceive
    (cfg : Config) (k : Kernel β)
    (taskId : Nat) (pMsg : Msg β) (async : Bool) (line : Nat) :
    Outcome (Bool × Msg β × Kernel β) :=
  let event :=
    k.queues.osMsgQEventGet cfg (k.queues.osMsgQFind cfg taskId)
  (k.setWaitQueue cfg taskId).msgReceiveTurn cfg taskId pMsg async event line

/-- `OS_MSG_Q_RECEIVE` with `async = 0` from its yield. -/
def osMsgQReceiveResume
    (cfg : Config) (k : Kernel β)
    (taskId : Nat) (pMsg : Msg β) (line : Nat) :
    Outcome (Bool × Msg β × Kernel β) :=
  let task := k.tasks.taskList k.osGetRunningTid
  if task.msgResult = .empty then
    k.msgReceiveTurn cfg taskId pMsg false task.msgChangeEvent line
  else do
    let k ←
      k.signalChange cfg (task.msgResult = .received) task.msgChangeEvent
    .ok (false, pMsg, k)

end Kernel

end CocoOs
