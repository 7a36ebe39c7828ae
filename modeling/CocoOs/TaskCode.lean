import CocoOs.System
import CocoOs.Foundation.Coroutine

/-!
# Task procedures (`os_reentry.h`)

A task procedure is code over the macros, read between `task_open` and
`task_close`.  `Coroutines` is what the macros make of it: the scheduler calls
the procedure, `OS_BEGIN` jumps to the line in the internal state, and a macro
that yields returns from the procedure, so that only the internal state is left
of where the task was.  `Threads` is what the author of a task has in mind:
each task keeps what it still has to do for itself.
-/

namespace CocoOs

open Foundation

variable {μ β : Type}

/-- A statement that does not yield.  The application's own code reads the
kernel and rewrites the static variables of the application. -/
inductive Plain (μ β : Type)
  | assign (change : Kernel β → μ → μ)
  | call (call : Kernel β → μ → Call)

/-- The code of a task procedure, whose macros are marked with the line they
stand on.  Arguments and tests read the kernel and the static variables. -/
abbrev TaskCode (μ β : Type) :=
  Code UInt16 (Plain μ β) (Kernel β → μ → TaskOp β) (Kernel β → μ → Bool)

namespace TaskCode

/-- The procedure compiles: no two of its macros make the same `case` label,
and line zero is the one of `OS_BEGIN`. -/
def Compiles (code : TaskCode μ β) : Prop :=
  code.marks.Nodup ∧ 0 ∉ code.marks

/-- `OS_BEGIN`: the jump to the line in the internal state.  Without a `case`
for it the procedure falls out of its `switch`. -/
def osBegin (code : TaskCode μ β) (internalState : Nat) :
    Option (List (TaskCode μ β)) :=
  if internalState = 0 then some [code]
  else code.enter (UInt16.ofNat internalState) []

/-- The running task takes its next step.  The last result is what is left of
its procedure, whose end is `OS_END`. -/
def advance (cfg : Config) (s : Sys β) (memory : μ) :
    List (TaskCode μ β) → Outcome (Sys β × μ × List (TaskCode μ β))
  | [] => (step cfg s (.task .taskClose 0)).map fun s => (s, memory, [])
  | .plain (.assign change) :: rest => .ok (s, change s.kernel memory, rest)
  | .plain (.call call) :: rest =>
      (step cfg s (.call (call s.kernel memory))).map
        fun s => (s, memory, rest)
  | .marked line op :: rest =>
      (step cfg s (.task (op s.kernel memory) line)).map
        fun s => (s, memory, rest)
  | code :: rest =>
      .ok (s, memory, code.control (fun test => test s.kernel memory) rest)

end TaskCode

/-- What can happen next: an object is created, the kernel starts, the
scheduler makes a pass, an interrupt makes a call, or the running task takes a
step of its procedure. -/
inductive Move (β : Type)
  | create (creation : Creation β)
  | osStart
  | osSchedule
  | interrupt (call : Call)
  | advance

/-! ## The macros -/

/-- The kernel, the static variables, and what is left of the activation of the
procedure of the running task. -/
structure Coroutines (μ β : Type) where
  sys : Sys β
  memory : μ
  active : List (TaskCode μ β)

namespace Coroutines

/-- A pass of the scheduler that calls the procedure of the task it chose.  A
procedure that falls out of its `switch` returns at once. -/
def osSchedule (cfg : Config) (procs : Nat → TaskCode μ β)
    (c : Coroutines μ β) : Outcome (Coroutines μ β) := do
  let s ← step cfg c.sys .osSchedule
  let task := s.kernel.tasks.taskList s.kernel.runningTid
  if s.kernel.runningTid = noTid then .ok { c with sys := s, active := [] }
  else
    match (procs task.taskproc).osBegin task.internalState with
    | some active => .ok { c with sys := s, active := active }
    | none =>
        .ok { c with sys := { s with kernel := s.kernel.osFreeTid }, active := [] }

/-- A step of the running procedure.  A macro that yields returns from the
procedure. -/
def advance (cfg : Config) (c : Coroutines μ β) : Outcome (Coroutines μ β) :=
  if c.sys.kernel.runningTid ≠ noTid then do
    let (s, memory, active) ← TaskCode.advance cfg c.sys c.memory c.active
    if s.kernel.runningTid = noTid then .ok ⟨s, memory, []⟩
    else .ok ⟨s, memory, active⟩
  else .error .disabled

/-- The step function of the program as the macros run it, over the procedures
by their addresses. -/
def step (cfg : Config) (procs : Nat → TaskCode μ β) (c : Coroutines μ β) :
    Move β → Outcome (Coroutines μ β)
  | .create creation =>
      (CocoOs.step cfg c.sys (.create creation)).map fun s => { c with sys := s }
  | .osStart => (CocoOs.step cfg c.sys .osStart).map fun s => { c with sys := s }
  | .osSchedule => c.osSchedule cfg procs
  | .interrupt call =>
      (CocoOs.step cfg c.sys (.call call)).map fun s => { c with sys := s }
  | .advance => c.advance cfg

end Coroutines

/-! ## The threads the macros stand for -/

/-- The kernel, the static variables, and what each task has left to do. -/
structure Threads (μ β : Type) where
  sys : Sys β
  memory : μ
  left : Nat → List (TaskCode μ β)

namespace Threads

/-- The tasks that start at their top: a new task, and a task that is suspended
while it waits for a semaphore. -/
def restart (procs : Nat → TaskCode μ β) (k k' : Kernel β)
    (left : Nat → List (TaskCode μ β)) (tid : Nat) : List (TaskCode μ β) :=
  if k.tasks.nTasks ≤ tid ∨
      ((k.tasks.taskList tid).state = .waitingSem ∧
        (k'.tasks.taskList tid).state = .suspended) then
    [procs (k'.tasks.taskList tid).taskproc]
  else left tid

/-- A step of the thread of the running task. -/
def advance (cfg : Config) (procs : Nat → TaskCode μ β) (t : Threads μ β) :
    Outcome (Threads μ β) :=
  let tid := t.sys.kernel.runningTid
  if tid ≠ noTid then do
    let (s, memory, left) ← TaskCode.advance cfg t.sys t.memory (t.left tid)
    .ok ⟨s, memory, restart procs t.sys.kernel s.kernel
      (Function.update t.left tid left)⟩
  else .error .disabled

/-- The step function of the program with a thread for each task. -/
def step (cfg : Config) (procs : Nat → TaskCode μ β) (t : Threads μ β) :
    Move β → Outcome (Threads μ β)
  | .create creation =>
      (CocoOs.step cfg t.sys (.create creation)).map fun s =>
        { t with
          sys := s
          left := restart procs t.sys.kernel s.kernel t.left }
  | .osStart => (CocoOs.step cfg t.sys .osStart).map fun s => { t with sys := s }
  | .osSchedule =>
      (CocoOs.step cfg t.sys .osSchedule).map fun s => { t with sys := s }
  | .interrupt call =>
      (CocoOs.step cfg t.sys (.call call)).map fun s =>
        { t with
          sys := s
          left := restart procs t.sys.kernel s.kernel t.left }
  | .advance => t.advance cfg procs

end Threads

end CocoOs
