import CocoOs.System
import CocoOs.QueueRefinement
import CocoOs.SemWaiters
import CocoOs.Foundation.Trace

/-!
# The actions a step is made of

Every step of the system is a short list of actions: the clock of one task
advances, an event is signalled, the running task blocks and so on.  `Micro`
says when an action can happen and what it leaves; what holds of every action
then holds of every step.
-/

namespace CocoOs

open Foundation

variable {β : Type}

/-! ## What a task waits for -/

/-- `os_task_wait_event` on the task that waits. -/
def Tcb.waitEvent (eventId : Nat) (waitSingleEvent : Bool) (timeout : Nat)
    (task : Tcb) : Tcb :=
  let task := task.markEvent eventId waitSingleEvent
  if timeout ≠ 0 then
    { task.waitTimeSet 0 timeout with state := .waitingEventTimeout }
  else { task with state := .waitingEvent }

/-- What a running task can block on.  The last two are the waits inside the
message macros, for room in a queue and for a deliverable message. -/
inductive Wait
  | time (id ticks : Nat)
  | event (eventId timeout : Nat)
  | multiple (waitAll : Bool) (events : List Nat)
  | sem (sem : Int)
  | room (queue eventId : Nat)
  | message (queue eventId : Nat)
  deriving DecidableEq, Repr

namespace Wait

/-- The task control block of a task that starts to wait. -/
def apply (cfg : Config) : Wait → Tcb → Tcb
  | .time id ticks, task => task.waitTimeSet id ticks
  | .event eventId timeout, task => task.waitEvent eventId true timeout
  | .multiple waitAll events, task =>
      events.foldl
        (fun task eventId => task.waitEvent eventId (!waitAll) 0)
        (task.clearWaitQueue cfg)
  | .sem semId, task => task.waitSemSet semId
  | .room _ eventId, task => task.waitEvent eventId true 0
  | .message _ eventId, task => task.waitEvent eventId true 0

/-- The event was created and its byte is inside the event bitmaps. -/
def EventFits (cfg : Config) (k : Kernel β) (eventId : Nat) : Prop :=
  eventId < k.events.nEvents ∧ eventId / 8 < cfg.eventQueueSize

/-- What the code has checked when a task starts to wait. -/
def Enabled (cfg : Config) (k : Kernel β) : Wait → Prop
  | .time _ ticks => 0 < ticks
  | .event eventId _ => EventFits cfg k eventId
  | .multiple _ events =>
      events ≠ [] ∧ ∀ eventId ∈ events, eventId / 8 < cfg.eventQueueSize
  | .sem semId => k.sems.osSemLargerThanZero cfg semId = false
  | .room queue eventId => EventFits cfg k eventId ∧ k.PostRefused cfg queue
  | .message queue eventId => EventFits cfg k eventId ∧ k.NothingReady cfg queue

end Wait

/-- What a message macro notes in the task control block of its task. -/
inductive Note
  | waitQueue (queue event : Nat)
  | msgResult (result : MsgResult)
  deriving DecidableEq, Repr

def Note.apply : Note → Tcb → Tcb
  | .waitQueue queue event, task =>
      { task with waitQ := queue, msgChangeEvent := event }
  | .msgResult result, task => { task with msgResult := result }

/-! ## Actions -/

/-- The actions of the kernel. -/
inductive Act (β : Type)
  | create (creation : Creation β)
  | start
  | select (tid : Nat)
  | free
  | yield (tid line : Nat)
  | block (tid : Nat) (wait : Wait) (line : Nat)
  | note (tid : Nat) (note : Note)
  | suspend (tid : Nat)
  | resume (tid : Nat)
  | kill (tid : Nat)
  | clock
  | tick (tid clockId tickSize : Nat)
  | age (queue : Nat)
  | signal (eventId : Nat)
  | signaller (eventId tid : Nat)
  | release (tid : Nat) (sem : Int)
  | decrement (sem : Int)
  | increment (sem : Int)
  | post (queue : Nat) (msg : Msg β)
  | receive (queue : Nat) (msg : Msg β)

namespace Kernel

/-- Rewrite the task control block of one task. -/
def modifyTask (k : Kernel β) (tid : Nat) (change : Tcb → Tcb) : Kernel β :=
  { k with tasks := k.tasks.modify tid change }

/-- The running task starts to wait and yields. -/
def blocked (cfg : Config) (k : Kernel β) (wait : Wait) (line : Nat) :
    Kernel β :=
  (k.modifyTask k.runningTid (wait.apply cfg)).osYield line

end Kernel

/-- An action takes a kernel to the next.  The premises are what the code has
checked by then. -/
inductive Micro (cfg : Config) : Kernel β → Act β → Kernel β → Prop
  | create {k k' : Kernel β} (creation : Creation β)
      (creates : creationStep cfg k creation = .ok k') :
      Micro cfg k (.create creation) k'
  | start (k : Kernel β) : Micro cfg k .start k.osStart
  | select {k k' : Kernel β}
      (idle : k.runningTid = noTid)
      (selects : k.selectTask cfg = .ok k')
      (inside : k'.runningTid ≠ noTid → k'.runningTid < k'.tasks.nTasks) :
      Micro cfg k (.select k'.runningTid) k'
  | free (k : Kernel β) : Micro cfg k .free k.osFreeTid
  | yield (k : Kernel β) (line : Nat) :
      Micro cfg k (.yield k.runningTid line) (k.osYield line)
  | block (k : Kernel β) (wait : Wait) (line : Nat)
      (inside : k.runningTid < k.tasks.nTasks)
      (enabled : wait.Enabled cfg k) :
      Micro cfg k (.block k.runningTid wait line) (k.blocked cfg wait line)
  | note (k : Kernel β) (note : Note) :
      Micro cfg k (.note k.runningTid note)
        (k.modifyTask k.runningTid note.apply)
  | suspend (k : Kernel β) {tid : Nat} (inside : tid < k.tasks.nTasks) :
      Micro cfg k (.suspend tid) (k.modifyTask tid Tcb.suspend)
  | resume (k : Kernel β) {tid : Nat} (inside : tid < k.tasks.nTasks) :
      Micro cfg k (.resume tid) (k.modifyTask tid Tcb.resume)
  | kill (k : Kernel β) {tid : Nat} (inside : tid < k.tasks.nTasks) :
      Micro cfg k (.kill tid) (k.modifyTask tid Tcb.kill)
  | clock (k : Kernel β) : Micro cfg k .clock (k.record .ticked)
  | tick (k : Kernel β) (tid clockId tickSize : Nat)
      (inside : tid < k.tasks.nTasks) :
      Micro cfg k (.tick tid clockId tickSize)
        (k.modifyTask tid (Tcb.tick cfg clockId tickSize))
  | age {k : Kernel β} {queue : Nat} {q : OSQueue β}
      (ready : k.QueueReady cfg queue)
      (aged : Kernel.AgedRing (k.queues.msgQList queue).q q (k.contents queue)) :
      Micro cfg k (.age queue) (k.setRing queue q)
  | signal (k : Kernel β) {eventId : Nat}
      (events : 0 < cfg.nTotalEvents)
      (fits : k.SignalFits cfg eventId) :
      Micro cfg k (.signal eventId) (k.signalled cfg eventId)
  | signaller (k : Kernel β) (eventId tid : Nat) :
      Micro cfg k (.signaller eventId tid)
        { k with events := k.events.setSignaledByTid eventId tid }
  | release (k : Kernel β) {tid : Nat} {sem : Int}
      (inside : tid < k.tasks.nTasks)
      (waits : (k.tasks.taskList tid).WaitsForSem sem)
      (found : k.tasks.findWaitingTask cfg sem = tid) :
      Micro cfg k (.release tid sem) (k.modifyTask tid Tcb.readySet)
  | decrement (k : Kernel β) {sem : Int}
      (positive : k.sems.osSemLargerThanZero cfg sem = true) :
      Micro cfg k (.decrement sem)
        { k with sems := k.sems.osSemDecrement cfg sem }
  | increment (k : Kernel β) {sem : Int}
      (noWaiter : ¬ k.tasks.SomeWaiter sem) :
      Micro cfg k (.increment sem)
        { k with sems := k.sems.osSemIncrement cfg sem }
  | post {k k' : Kernel β} {queue : Nat} {msg armed : Msg β} {delay period : Nat}
      (returns :
        k.osMsgPost cfg msg queue delay period = .ok (.posted, armed, k')) :
      Micro cfg k (.post queue armed) k'
  | receive {k k' : Kernel β} {queue : Nat} {pMsg buffer msg : Msg β}
      (returns : k.osMsgReceive cfg pMsg queue = .ok (.received, buffer, k'))
      (recorded : k'.history = k.history ++ [.received queue msg]) :
      Micro cfg k (.receive queue msg) k'

/-- What is known of an action that blocks. -/
theorem Micro.of_block
    {cfg : Config} {k k' : Kernel β} {tid line : Nat} {wait : Wait}
    (acts : Micro cfg k (.block tid wait line) k') :
    tid = k.runningTid ∧ tid < k.tasks.nTasks ∧ wait.Enabled cfg k ∧
      k' = k.blocked cfg wait line := by
  cases acts with
  | block _ _ inside enabled => exact ⟨rfl, inside, enabled, rfl⟩

/-- A choice of the scheduler is what `selectTask` returns. -/
theorem Micro.of_select
    {cfg : Config} {k k' : Kernel β} {act : Act β} {tid : Nat}
    (acts : Micro cfg k act k')
    (same : act = .select tid) :
    k.selectTask cfg = .ok k' := by
  cases acts with
  | select idle selects inside => exact selects
  | _ => cases same

end CocoOs
