import CocoOs.Foundation.Outcome

/-!
# Data model of the kernel

The static variables of the five kernel modules, one structure a source file,
over the compile-time configuration.  Arrays are total functions of their
index: entries at and past a counter are the stale memory the C arrays keep,
and accesses outside an array stop the program with `Stop.bounds`.
-/

namespace CocoOs

/-- Compile-time configuration of `user_os_config.h`, with the bounds the
static assertions of `os_defines.h` impose. -/
structure Config where
  nTasks : Nat
  nQueues : Nat
  nSemaphores : Nat
  nEvents : Nat
  roundRobin : Bool
  nTasks_lt : nTasks < 255
  nQueues_lt : nQueues < 255
  nSemaphores_lt : nSemaphores < 255
  nEvents_lt : nEvents < 255

namespace Config

/-- `N_TOTAL_SEMAPHORES`. -/
def nTotalSemaphores (cfg : Config) : Nat := cfg.nSemaphores + cfg.nQueues

/-- `N_TOTAL_EVENTS`. -/
def nTotalEvents (cfg : Config) : Nat := cfg.nEvents + cfg.nQueues

/-- The id is inside the semaphore array. -/
def HasSem (cfg : Config) (sem : Int) : Prop :=
  0 ≤ sem ∧ sem < cfg.nTotalSemaphores

instance (cfg : Config) (sem : Int) : Decidable (cfg.HasSem sem) :=
  inferInstanceAs (Decidable (_ ∧ _))

/-- `EVENT_QUEUE_SIZE`. -/
def eventQueueSize (cfg : Config) : Nat := cfg.nTotalEvents / 9 + 1

/-- A small configuration, for worked runs. -/
def small (roundRobin : Bool) : Config where
  nTasks := 3
  nQueues := 1
  nSemaphores := 1
  nEvents := 2
  roundRobin := roundRobin
  nTasks_lt := by decide
  nQueues_lt := by decide
  nSemaphores_lt := by decide
  nEvents_lt := by decide

/-- One task and seventeen events. -/
def seventeenEvents : Config where
  nTasks := 1
  nQueues := 0
  nSemaphores := 0
  nEvents := 17
  roundRobin := false
  nTasks_lt := by decide
  nQueues_lt := by decide
  nSemaphores_lt := by decide
  nEvents_lt := by decide

/-- A configuration within the static assertions with 256 events. -/
def wrappingEvents : Config where
  nTasks := 3
  nQueues := 2
  nSemaphores := 1
  nEvents := 254
  roundRobin := false
  nTasks_lt := by decide
  nQueues_lt := by decide
  nSemaphores_lt := by decide
  nEvents_lt := by decide

end Config

/-! ## Sentinels of `os_defines.h` -/

def noMsgId : Nat := 0xff
def isrTid : Nat := 0xfe
def noTid : Nat := 255
def noEvent : Nat := 255
def noQueue : Nat := 255
def noSem : Int := 255

/-- Why a computation does not return.  A failed `os_assert` ends in the
endless loop of `os_on_assert`. -/
inductive Stop
  | assertion
  | bounds
  | divergence
  | disabled
  deriving DecidableEq, Repr

/-- A computation of the kernel, which may never return. -/
abbrev Outcome := Except Stop

/-! ## Tasks -/

/-- `TaskState_t`. -/
inductive TaskState
  | suspended
  | waitingSem
  | waitingTime
  | waitingEvent
  | waitingEventTimeout
  | ready
  | running
  | killed
  deriving DecidableEq, Repr

/-- Result codes of the message queue functions. -/
inductive MsgResult
  | undef
  | defined
  | empty
  | full
  | received
  | posted
  deriving DecidableEq, Repr

/-- Task control block.  Pointers are addresses, with zero for `NULL`. -/
structure Tcb where
  taskproc : Nat
  state : TaskState
  savedState : TaskState
  internalState : Nat
  time : Nat
  tid : Nat
  prio : Nat
  semaphore : Int
  msgQ : Nat
  waitQ : Nat
  msgChangeEvent : Nat
  msgResult : MsgResult
  waitSingleEvent : Bool
  clockId : Nat
  eventQueue : Nat → BitVec 8
  data : Nat

/-- Static variables of `os_task.c`. -/
structure TaskTable where
  taskList : Nat → Tcb
  nTasks : Nat
  lastRunningTask : Nat

/-! ## Events and semaphores -/

/-- `Event_t`. -/
structure Event where
  id : Nat
  signaledByTid : Nat
  deriving DecidableEq, Repr

/-- Static variables of `os_event.c`. -/
structure EventTable where
  eventList : Nat → Event
  nEvents : Nat
  lastSignaledEvent : Nat

/-- `SemValue_t`. -/
structure SemValue where
  maxValue : Nat
  value : Nat
  deriving DecidableEq, Repr

/-- Static variables of `os_sem.c`. -/
structure SemTable where
  semList : Int → SemValue
  nSemaphores : Nat

/-! ## Message queues -/

/-- A message of `msgSize` bytes.  The payload stands for every byte the
queue copies and never inspects: the reserved and padding bytes of the header
and what the application puts after it. -/
structure Msg (β : Type) where
  signal : Nat
  delay : Nat
  reload : Nat
  payload : β
  deriving DecidableEq, Repr

/-- `OSQueue_t`, with the message slots its `list` points to. -/
structure OSQueue (β : Type) where
  list : Nat → Msg β
  messageSize : Nat
  head : Nat
  tail : Nat
  size : Nat

/-- `OSMsgQ_t`. -/
structure OSMsgQ (β : Type) where
  q : OSQueue β
  taskId : Nat
  change : Nat

/-- Static variables of `os_msgqueue.c`. -/
structure QueueTable (β : Type) where
  msgQList : Nat → OSMsgQ β
  nQueues : Nat

/-! ## The kernel -/

/-- What the history variable of a kernel records. -/
inductive Entry (β : Type)
  | signalled (event : Nat)
  | posted (queue : Nat) (msg : Msg β)
  | received (queue : Nat) (msg : Msg β)
  | ticked
  deriving DecidableEq, Repr

/-- The whole kernel state: the static variables of each source file, and a
history variable that no function reads.  The history lists, oldest first, the
events signalled, the messages a queue accepted, the messages a queue
delivered (as they stood in their slot) and the master clock ticks. -/
structure Kernel (β : Type) where
  tasks : TaskTable
  events : EventTable
  sems : SemTable
  queues : QueueTable β
  running : Bool
  runningTid : Nat
  history : List (Entry β)

/-- Append an entry to the history variable. -/
def Kernel.record (k : Kernel β) (entry : Entry β) : Kernel β :=
  { k with history := k.history ++ [entry] }

end CocoOs
