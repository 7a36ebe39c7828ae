import CocoOs.Macros
import CocoOs.Foundation.Transition

/-!
# The system

The kernel together with the coroutines of the tasks, as a transition function
over labels.  A label is one macro of the running task, one call that an
interrupt handler or any task code can make, one object creation or one pass
of the scheduler, each taken atomically.  The program of a task is left open:
the running task may take any macro next, except that a task that yielded
inside a message macro resumes inside it.
-/

namespace CocoOs

open Foundation

/-- Where a task is while another runs: between macros, or at the yield inside
the loop of a message macro, whose arguments live in the task's own memory. -/
inductive Frame (β : Type)
  | between
  | post (taskId : Nat) (msg : Msg β) (delay period : Nat)
  | receive (taskId : Nat) (pMsg : Msg β)
  deriving DecidableEq, Repr

/-- The kernel and the suspended coroutines. -/
structure Sys (β : Type) where
  kernel : Kernel β
  frame : Nat → Frame β

/-- Macros of the running task. -/
inductive TaskOp (β : Type)
  | taskWaitId (id : UInt8) (ticks : UInt32)
  | taskSuspend (id : UInt8)
  | taskResume (id : UInt8)
  | eventWaitTimeout (event : UInt8) (timeout : UInt32)
  | eventWaitMultiple (waitAll : Bool) (args : List UInt8)
  | eventSignal (event : UInt8)
  | semWait (sem : Int)
  | semSignal (sem : Int)
  | msgPost (taskId : UInt8) (msg : Msg β) (delay period : UInt32)
      (async : Bool)
  | msgReceive (taskId : UInt8) (pMsg : Msg β) (async : Bool)
  | taskClose

/-- Calls open to interrupt handlers as well as to task code. -/
inductive Call
  | osTick
  | osSubTick (id : UInt8)
  | osSubNTick (id : UInt8) (nTicks : UInt32)
  | eventIsrSignal (event : UInt8)
  | semIsrSignal (sem : Int)
  | osTaskSuspend (tid : UInt8)
  | osTaskResume (tid : UInt8)
  | osTaskKill (tid : UInt8)
  deriving DecidableEq, Repr

/-- Object creation. -/
inductive Creation (β : Type)
  | osTaskCreate (taskproc data : Nat) (prio : UInt8)
      (msgPool : Nat → Msg β) (poolSize : UInt8) (msgSize : UInt16)
  | eventCreate
  | semBinCreate (initial : Bool)
  | semCountingCreate (max initial : UInt8)

/-- The steps of the system. -/
inductive Label (β : Type)
  | create (creation : Creation β)
  | osStart
  | osSchedule
  | call (call : Call)
  | task (op : TaskOp β) (line : UInt16)

variable {β : Type}

/-! ## One step -/

/-- A call that does not depend on which task runs. -/
def callStep (cfg : Config) (k : Kernel β) : Call → Outcome (Kernel β)
  | .osTick => k.osTick cfg
  | .osSubTick id => k.osSubTick cfg id.toNat
  | .osSubNTick id nTicks => k.osSubNTick cfg id.toNat nTicks.toNat
  | .eventIsrSignal event => k.eventIsrSignal cfg event.toNat
  | .semIsrSignal sem =>
      if cfg.HasSem sem then .ok (k.osSignalSemNoSchedule cfg sem)
      else .error .bounds
  | .osTaskSuspend tid => k.onTasks (k.tasks.osTaskSuspend tid.toNat)
  | .osTaskResume tid => k.onTasks (k.tasks.osTaskResume tid.toNat)
  | .osTaskKill tid => k.onTasks (k.tasks.osTaskKill tid.toNat)

/-- Create an object. -/
def creationStep (cfg : Config) (k : Kernel β) :
    Creation β → Outcome (Kernel β)
  | .osTaskCreate taskproc data prio msgPool poolSize msgSize =>
      (k.osTaskCreate cfg taskproc data prio.toNat msgPool poolSize.toNat
        msgSize.toNat).map Prod.snd
  | .eventCreate =>
      (k.events.eventCreate cfg).map
        fun created => { k with events := created.2 }
  | .semBinCreate initial =>
      (k.sems.semBinCreate cfg initial).map
        fun created => { k with sems := created.2 }
  | .semCountingCreate max initial =>
      (k.sems.semCountingCreate cfg max.toNat initial.toNat).map
        fun created => { k with sems := created.2 }

/-- Set the frame of a task. -/
def Sys.setFrame (s : Sys β) (tid : Nat) (frame : Frame β) : Sys β :=
  { s with frame := Function.update s.frame tid frame }

/-- The running task leaves a message macro: it is blocked in the given frame,
or goes on with its code. -/
def Sys.leaveMacro (s : Sys β) (tid : Nat) (frame : Frame β)
    (left : Bool × Kernel β) : Sys β :=
  if left.1 then { s with kernel := left.2 }.setFrame tid frame
  else { s with kernel := left.2 }.setFrame tid .between

/-- A macro of the running task. -/
def taskStep (cfg : Config) (s : Sys β) (line : Nat) :
    TaskOp β → Outcome (Sys β)
  | .taskWaitId id ticks =>
      (s.kernel.osWaitTicks ticks.toNat id.toNat line).map
        fun k => { s with kernel := k }
  | .taskSuspend id =>
      (s.kernel.osSuspendTask id.toNat line).map fun k => { s with kernel := k }
  | .taskResume id =>
      (s.kernel.osResumeTask id.toNat line).map fun k => { s with kernel := k }
  | .eventWaitTimeout event timeout =>
      (s.kernel.osWaitSingleEvent cfg event.toNat timeout.toNat line).map
        fun k => { s with kernel := k }
  | .eventWaitMultiple waitAll args =>
      (s.kernel.osWaitMultipleEvents cfg waitAll (args.map UInt8.toNat)
        line).map fun k => { s with kernel := k }
  | .eventSignal event =>
      (s.kernel.osSignalEventMacro cfg event.toNat line).map
        fun k => { s with kernel := k }
  | .semWait sem =>
      if cfg.HasSem sem then
        (s.kernel.osWaitSem cfg sem line).map fun k => { s with kernel := k }
      else .error .bounds
  | .semSignal sem =>
      if cfg.HasSem sem then
        .ok { s with kernel := s.kernel.osSignalSem cfg sem line }
      else .error .bounds
  | .msgPost taskId msg delay period async =>
      (s.kernel.osMsgQPost cfg taskId.toNat msg delay.toNat period.toNat async
        line).map fun left =>
          s.leaveMacro s.kernel.osGetRunningTid
            (.post taskId.toNat msg delay.toNat period.toNat) left
  | .msgReceive taskId pMsg async =>
      (s.kernel.osMsgQReceive cfg taskId.toNat pMsg async line).map
        fun (blocked, pMsg, k) =>
          s.leaveMacro s.kernel.osGetRunningTid
            (.receive taskId.toNat pMsg) (blocked, k)
  | .taskClose => s.kernel.osEnd.map fun k => { s with kernel := k }

/-- `OS_BEGIN` of the task the scheduler just selected: start at the top when
the internal state is zero, else go on after the yield it names. -/
def resumeStep (cfg : Config) (s : Sys β) : Outcome (Sys β) :=
  let tid := s.kernel.osGetRunningTid
  let task := s.kernel.tasks.taskList tid
  if task.internalState = 0 then .ok (s.setFrame tid .between)
  else
    match s.frame tid with
    | .between => .ok s
    | .post taskId msg delay period =>
        (s.kernel.osMsgQPostResume cfg taskId msg delay period
          task.internalState).map
            fun left => s.leaveMacro tid (.post taskId msg delay period) left
    | .receive taskId pMsg =>
        (s.kernel.osMsgQReceiveResume cfg taskId pMsg task.internalState).map
          fun (blocked, pMsg, k) =>
            s.leaveMacro tid (.receive taskId pMsg) (blocked, k)

/-- `os_schedule`: select a task and call its procedure, or sleep. -/
def scheduleStep (cfg : Config) (s : Sys β) : Outcome (Sys β) := do
  let k ← s.kernel.selectTask cfg
  let s := { s with kernel := k }
  if k.runningTid ≠ noTid then
    if k.runningTid < k.tasks.nTasks then resumeStep cfg s
    else .error .assertion
  else .ok s

/-- The step function of the system.  The scheduler runs when no task does,
and macros run when a task does. -/
def step (cfg : Config) (s : Sys β) : Label β → Outcome (Sys β)
  | .create creation =>
      (creationStep cfg s.kernel creation).map fun k => { s with kernel := k }
  | .osStart => .ok { s with kernel := s.kernel.osStart }
  | .osSchedule =>
      if s.kernel.runningTid = noTid then scheduleStep cfg s
      else .error .disabled
  | .call call =>
      (callStep cfg s.kernel call).map fun k => { s with kernel := k }
  | .task op line =>
      if s.kernel.runningTid ≠ noTid then taskStep cfg s line.toNat op
      else .error .disabled

/-- The states `os_init` leaves, whatever the static variables held before.  No
task has yielded yet. -/
def Initial (cfg : Config) (s : Sys β) : Prop :=
  (∃ k, s.kernel = Kernel.osInit cfg k) ∧ s.frame = fun _ => .between

/-- The state `os_init` leaves when the program starts. -/
def Sys.boot [Inhabited β] (cfg : Config) : Sys β where
  kernel := Kernel.osInit cfg Kernel.zeroed
  frame := fun _ => .between

/-- The reachable states of the system. -/
def ReachableSys (cfg : Config) : Sys β → Prop :=
  Reachable (step cfg) (Initial cfg)

/-- What a run of the program from its start reaches is reachable. -/
theorem reachable_of_run [Inhabited β]
    {cfg : Config} {labels : List (Label β)} {s : Sys β}
    (runs : run (step cfg) (Sys.boot cfg) labels = .ok s) :
    ReachableSys cfg s :=
  ⟨Sys.boot cfg, labels, ⟨⟨_, rfl⟩, rfl⟩, runs⟩

/-- The set-up of the worked runs: three tasks of the given priorities, of
which the first has a message queue of two slots, an event, a binary semaphore
that is available, and the start of the kernel. -/
def setUp (first second third : UInt8) : List (Label Nat) :=
  [.create (.osTaskCreate 1 0 first (fun _ => ⟨0, 0, 0, 0⟩) 2 20),
    .create (.osTaskCreate 1 0 second (fun _ => ⟨0, 0, 0, 0⟩) 0 0),
    .create (.osTaskCreate 1 0 third (fun _ => ⟨0, 0, 0, 0⟩) 0 0),
    .create .eventCreate, .create (.semBinCreate true), .osStart]

end CocoOs
