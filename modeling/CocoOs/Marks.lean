import CocoOs.ClockOrder
import CocoOs.ResumePoints
import CocoOs.SemGrants

/-!
# What interrupt handlers do not see

An interrupt handler may come between two calls that a task makes.  The functions
it may call neither read nor write the fields in which a task keeps its line and
its notes, nor the number of the running task; there is one exception, the line
of a task that is suspended while it is queued at a semaphore.  So what a task
writes there it may as well have written before the handler came.
-/

namespace CocoOs

open Foundation

variable {β : Type}

/-! ## Marks on a task -/

/-- New values of the fields that are not seen. -/
structure Mark where
  internalState : Option Nat
  waitQ : Option Nat
  msgChangeEvent : Option Nat
  msgResult : Option MsgResult

namespace Mark

/-- A task with the new values. -/
def apply (mark : Mark) (task : Tcb) : Tcb :=
  { task with
    internalState := mark.internalState.getD task.internalState
    waitQ := mark.waitQ.getD task.waitQ
    msgChangeEvent := mark.msgChangeEvent.getD task.msgChangeEvent
    msgResult := mark.msgResult.getD task.msgResult }

/-- Nothing is marked. -/
def none : Mark := ⟨.none, .none, .none, .none⟩

/-- The line of a yield. -/
def atLine (line : Nat) : Mark := ⟨some line, .none, .none, .none⟩

/-- The notes of a message macro that is about to wait. -/
def waiting (queue event : Nat) (result : MsgResult) : Mark :=
  ⟨.none, some queue, some event, some result⟩

end Mark

namespace Tcb

variable {mark : Mark} {task : Tcb}

theorem tick_mark (cfg : Config) (clockId tickSize : Nat) (mark : Mark) (task : Tcb) :
    (mark.apply task).tick cfg clockId tickSize =
      mark.apply (task.tick cfg clockId tickSize) := by
  unfold tick Mark.apply
  dsimp only
  split_ifs <;> rfl

theorem signalEvent_mark (cfg : Config) (eventId : Nat) (mark : Mark) (task : Tcb) :
    (mark.apply task).signalEvent cfg eventId =
      mark.apply (task.signalEvent cfg eventId) := by
  by_cases hears : task.Pending eventId ∧ task.WaitsForEvents
  · have pending : (mark.apply task).Pending eventId := hears.1
    have waits : (mark.apply task).WaitsForEvents := hears.2
    by_cases completes : task.Completes cfg eventId
    · rw [signalEvent_of_completes cfg hears.1 hears.2 completes,
        signalEvent_of_completes cfg pending waits completes]
      rfl
    · rw [signalEvent_of_not_completes cfg hears.1 hears.2 completes,
        signalEvent_of_not_completes cfg pending waits completes]
      rfl
  · rw [signalEvent_of_not cfg hears,
      show (mark.apply task).signalEvent cfg eventId = mark.apply task from
        signalEvent_of_not cfg hears]

theorem resume_mark (mark : Mark) (task : Tcb) :
    (mark.apply task).resume = mark.apply task.resume := by
  unfold resume Mark.apply
  dsimp only
  split_ifs <;> rfl

/-- Only a suspended waiter for a semaphore is made to start again. -/
theorem suspend_mark (notSem : task.state ≠ .waitingSem) (mark : Mark) :
    (mark.apply task).suspend = mark.apply task.suspend := by
  have same : (mark.apply task).state ≠ .waitingSem := notSem
  unfold suspend
  rw [if_neg notSem, if_neg same]
  unfold Mark.apply
  dsimp only
  split_ifs <;> rfl

end Tcb

namespace TaskTable

/-- A rewriting of one entry and of another, or of the same in either order. -/
theorem modify_comm
    (tasks : TaskTable) (tid other : Nat) {first second : Tcb → Tcb}
    (commute : other = tid → second (first (tasks.taskList tid)) =
      first (second (tasks.taskList tid))) :
    (tasks.modify tid first).modify other second =
      (tasks.modify other second).modify tid first := by
  unfold modify
  dsimp only
  congr 1
  funext index
  by_cases same : other = tid
  · subst same
    by_cases here : index = other
    · subst here
      simp [commute rfl]
    · simp [here]
  · by_cases here : index = tid
    · subst here
      simp [Ne.symm same]
    · by_cases there : index = other
      · subst there
        simp [here]
      · simp [here, there]

variable {tasks tasks' : TaskTable}

/-- The scans for a waiter read the state, the semaphore, the priority and the
time of a task only. -/
theorem findWaitingTask_congr
    (cfg : Config) (sem : Int)
    (nTasks : tasks'.nTasks = tasks.nTasks)
    (state : ∀ tid, (tasks'.taskList tid).state = (tasks.taskList tid).state)
    (semaphore : ∀ tid,
      (tasks'.taskList tid).semaphore = (tasks.taskList tid).semaphore)
    (prio : ∀ tid, (tasks'.taskList tid).prio = (tasks.taskList tid).prio)
    (time : ∀ tid, (tasks'.taskList tid).time = (tasks.taskList tid).time) :
    tasks'.findWaitingTask cfg sem = tasks.findWaitingTask cfg sem := by
  have waits : ∀ tid, (tasks'.taskList tid).WaitsForSem sem ↔
      (tasks.taskList tid).WaitsForSem sem := by
    intro tid
    unfold Tcb.WaitsForSem
    rw [state, semaphore]
  have roundRobin : tasks'.releaseRoundRobinStep sem =
      tasks.releaseRoundRobinStep sem := by
    funext tid found
    unfold releaseRoundRobinStep
    dsimp only
    rw [time]
    exact if_congr (waits tid) rfl rfl
  have highest : tasks'.releasePrioStep sem = tasks.releasePrioStep sem := by
    funext tid found
    unfold releasePrioStep
    dsimp only
    rw [prio]
    exact if_congr (waits tid) rfl rfl
  unfold findWaitingTask
  rw [nTasks, roundRobin, highest]

end TaskTable

/-- The call suspends the task. -/
def Call.Suspends (tid : Nat) : Call → Prop
  | .osTaskSuspend id => id.toNat = tid
  | _ => False

/-! ## Calls of a handler -/

/-- Calls are steps of the kernel. -/
theorem run_calls (cfg : Config) (s : Sys β) (calls : List Call) :
    run (step cfg) s (calls.map Label.call) =
      (run (callStep cfg) s.kernel calls).map
        fun k => { s with kernel := k } := by
  induction calls generalizing s with
  | nil => rfl
  | cons call calls inductionHypothesis =>
      rw [List.map_cons, run_cons, run_cons]
      unfold step
      dsimp only
      cases callStep cfg s.kernel call with
      | error stopped => rfl
      | ok k => exact inductionHypothesis { s with kernel := k }

section

variable {cfg : Config} {s s' : Sys β} {tid : Nat}

/-- A call that any code can make leaves the processor where it is. -/
theorem step_call_runningTid
    {call : Call}
    (reachable : ReachableSys cfg s)
    (steps : step cfg s (.call call) = .ok s') :
    s'.kernel.runningTid = s.kernel.runningTid := by
  obtain ⟨acts, shape, trace⟩ := step_trace (reachable_sound reachable) steps
  rw [Micro.runningTid_of_trace trace]
  generalize s'.frame = frame at shape
  cases shape with
  | call calls => exact foldl_onRunning_of_steady _ calls.steady

/-- Only its own wait makes a task queue at a semaphore. -/
theorem step_not_queued
    {label : Label β}
    (reachable : ReachableSys cfg s)
    (created : tid < s.kernel.tasks.nTasks)
    (notQueued : (s.kernel.tasks.taskList tid).state ≠ .waitingSem)
    (other : ∀ sem, ¬ label.WaitsSem sem)
    (steps : step cfg s label = .ok s') :
    (s'.kernel.tasks.taskList tid).state ≠ .waitingSem := by
  obtain ⟨acts, shape, trace⟩ := step_trace (reachable_sound reachable) steps
  have kept := trace.invariant
    (fun act => ∀ tid sem line, act ≠ .block tid (.sem sem) line)
    (fun k => k.Sound cfg ∧ k.TasksSound cfg ∧ tid < k.tasks.nTasks ∧
      (k.tasks.taskList tid).state ≠ .waitingSem)
    ?_ ?_ ⟨reachable_sound reachable, reachable_tasksSound reachable, created,
      notQueued⟩
  · exact kept.2.2.2
  · rintro k act k' noWait ⟨sound, tasks, inside, before⟩ acts
    refine ⟨sound.of_micro acts, tasks.of_micro sound acts,
      inside.trans_le acts.nTasks_le, fun queued => ?_⟩
    rcases acts.waitsForSem tasks inside ⟨queued, rfl⟩ with waited | ⟨line, wait⟩
    · exact before waited.1
    · exact noWait tid _ line wait
  · rintro act inside tid sem line rfl
    exact other sem (shape.waitsSem_of_block inside)

/-- The task that runs is not queued at a semaphore when it has given up the
processor, unless it waits for one. -/
theorem step_running_not_queued
    {label : Label β}
    (reachable : ReachableSys cfg s)
    (runs : s.kernel.runningTid ≠ noTid)
    (other : ∀ sem, ¬ label.WaitsSem sem)
    (steps : step cfg s label = .ok s') :
    (s'.kernel.tasks.taskList s.kernel.runningTid).state ≠ .waitingSem := by
  have tasks := reachable_tasksSound reachable
  exact step_not_queued reachable (tasks.runs runs).1 (tasks.running_state runs)
    other steps

/-- A task that is not queued at a semaphore is not queued there when a handler
suspends it. -/
theorem meets_not_queued
    (reachable : ReachableSys cfg s)
    (created : tid < s.kernel.tasks.nTasks)
    (notQueued : (s.kernel.tasks.taskList tid).state ≠ .waitingSem)
    (calls : List Call) :
    Meets (callStep cfg) (fun k call => call.Suspends tid →
      (k.tasks.taskList tid).state ≠ .waitingSem) s.kernel calls := by
  induction calls generalizing s with
  | nil => trivial
  | cons call calls inductionHypothesis =>
      refine ⟨fun _ => notQueued, fun k returns => ?_⟩
      let next : Sys β := { s with kernel := k }
      have steps : step cfg s (.call call) = .ok next :=
        map_eq_ok_iff.mpr ⟨k, returns, rfl⟩
      have reachable' : ReachableSys cfg next := reachable.step steps
      exact inductionHypothesis reachable'
        (created.trans_le (step_nTasks_le (reachable_sound reachable) steps))
        (step_not_queued reachable created notQueued (fun _ => id) steps)

end

/-! ## Relations that calls keep -/

/-- What the functions that handlers call read of the task control blocks. -/
structure Tcb.SeenAs (task task' : Tcb) : Prop where
  state : task'.state = task.state
  semaphore : task'.semaphore = task.semaphore
  prio : task'.prio = task.prio
  time : task'.time = task.time
  msgQ : task'.msgQ = task.msgQ

namespace Kernel

/-- Related kernels look the same to the calls of handlers, and all that an
allowed call does to them leaves them related. -/
structure Blind (cfg : Config) (allowed : Kernel β → Call → Prop)
    (relation : Kernel β → Kernel β → Prop) : Prop where
  nTasks : ∀ {k k'}, relation k k' → k'.tasks.nTasks = k.tasks.nTasks
  queues : ∀ {k k'}, relation k k' → k'.queues = k.queues
  seen : ∀ {k k'}, relation k k' → ∀ tid,
    (k.tasks.taskList tid).SeenAs (k'.tasks.taskList tid)
  record : ∀ {k k'}, relation k k' → ∀ entry,
    relation (k.record entry) (k'.record entry)
  setQueue : ∀ {k k'}, relation k k' → ∀ queue q,
    relation { k with queues := k.queues.setQueue queue q }
      { k' with queues := k'.queues.setQueue queue q }
  isrSignalled : ∀ {k k'}, relation k k' → ∀ eventId,
    relation (k.isrSignalled cfg eventId) (k'.isrSignalled cfg eventId)
  increment : ∀ {k k'}, relation k k' → ∀ sem,
    relation { k with sems := k.sems.osSemIncrement cfg sem }
      { k' with sems := k'.sems.osSemIncrement cfg sem }
  tick : ∀ {k k'}, relation k k' → ∀ tid clockId tickSize,
    relation (k.modifyTask tid (Tcb.tick cfg clockId tickSize))
      (k'.modifyTask tid (Tcb.tick cfg clockId tickSize))
  release : ∀ {k k'}, relation k k' → ∀ tid,
    relation (k.modifyTask tid Tcb.readySet) (k'.modifyTask tid Tcb.readySet)
  suspend : ∀ {k k'}, relation k k' → ∀ tid : UInt8,
    allowed k' (.osTaskSuspend tid) →
    relation (k.modifyTask tid.toNat Tcb.suspend)
      (k'.modifyTask tid.toNat Tcb.suspend)
  resume : ∀ {k k'}, relation k k' → ∀ tid,
    relation (k.modifyTask tid Tcb.resume) (k'.modifyTask tid Tcb.resume)
  kill : ∀ {k k'}, relation k k' → ∀ tid,
    relation (k.modifyTask tid Tcb.kill) (k'.modifyTask tid Tcb.kill)

namespace Blind

variable {cfg : Config} {allowed : Kernel β → Call → Prop}
variable {relation : Kernel β → Kernel β → Prop} {k k' : Kernel β}

theorem eventIsrSignal
    (blind : Blind cfg allowed relation)
    (related : relation k k') (eventId : Nat) :
    Related relation (k.eventIsrSignal cfg eventId)
      (k'.eventIsrSignal cfg eventId) := by
  have fits : k'.SignalFits cfg eventId ↔ k.SignalFits cfg eventId := by
    unfold SignalFits
    rw [blind.nTasks related]
  rw [eventIsrSignal_eq, eventIsrSignal_eq]
  refine .ite Iff.rfl (fun _ => .guard (and_congr_left' fits.symm) fun _ => ?_)
    fun _ => .value related
  exact .value (blind.isrSignalled related eventId)

theorem msgQTickBody
    (blind : Blind cfg allowed relation)
    (related : relation k k') (queue index : Nat) :
    Related relation (k.msgQTickBody cfg queue index)
      (k'.msgQTickBody cfg queue index) := by
  have rings := blind.setQueue related queue
  unfold Kernel.msgQTickBody
  rw [blind.queues related] at rings ⊢
  dsimp only
  refine .ite Iff.rfl (fun _ => ?_) fun _ => .value related
  cases (k.queues.msgQList queue).q.write index _ with
  | error stopped => exact .stop stopped
  | ok q =>
      refine .ite Iff.rfl (fun _ => ?_) fun _ => .value (rings q)
      exact blind.eventIsrSignal (rings q) _

theorem msgQTickLoop
    (blind : Blind cfg allowed relation)
    (related : relation k k') (queue head fuel index : Nat) :
    Related relation (k.msgQTickLoop cfg queue head fuel index)
      (k'.msgQTickLoop cfg queue head fuel index) := by
  induction fuel generalizing k k' index with
  | zero =>
      unfold Kernel.msgQTickLoop
      refine .ite Iff.rfl (fun _ => .value related) fun _ => ?_
      exact .bind (blind.msgQTickBody related queue index) fun _ _ _ => .stop _
  | succ fuel inductionHypothesis =>
      unfold Kernel.msgQTickLoop
      refine .ite Iff.rfl (fun _ => .value related) fun _ => ?_
      refine .bind (blind.msgQTickBody related queue index) ?_
      intro next next' later
      rw [blind.queues later]
      exact inductionHypothesis later _

theorem osMsgQTick
    (blind : Blind cfg allowed relation)
    (related : relation k k') (queue : Nat) :
    Related relation (k.osMsgQTick cfg queue) (k'.osMsgQTick cfg queue) := by
  unfold Kernel.osMsgQTick
  rw [blind.queues related]
  refine .ite Iff.rfl (fun _ => ?_) fun _ => .value related
  exact blind.msgQTickLoop related queue _ _ _

theorem taskTick
    (blind : Blind cfg allowed relation)
    (related : relation k k') (clockId tickSize : Nat) :
    Related relation (k.taskTick cfg clockId tickSize)
      (k'.taskTick cfg clockId tickSize) := by
  unfold Kernel.taskTick
  rw [blind.nTasks related]
  refine .forRange related ?_
  intro tid k₁ k₁' _ here
  have ticked := blind.tick here tid clockId tickSize
  have sameQueue := (blind.seen ticked tid).msgQ
  unfold Kernel.taskTickBody
  unfold Kernel.modifyTask at ticked sameQueue
  dsimp only at ticked sameQueue ⊢
  rw [sameQueue]
  refine .ite Iff.rfl (fun _ => ?_) fun _ => .value ticked
  exact .ite Iff.rfl (fun _ => blind.osMsgQTick ticked _) fun _ => .value ticked

/-- A guarded rewriting of one task. -/
theorem onTasks
    (blind : Blind cfg allowed relation)
    (related : relation k k')
    {tid : Nat} {change : Tcb → Tcb}
    (changed : relation (k.modifyTask tid change) (k'.modifyTask tid change)) :
    Related relation
      (k.onTasks (if tid < k.tasks.nTasks then .ok (k.tasks.modify tid change)
        else .error .assertion))
      (k'.onTasks (if tid < k'.tasks.nTasks then
        .ok (k'.tasks.modify tid change) else .error .assertion)) := by
  rw [blind.nTasks related]
  by_cases inside : tid < k.tasks.nTasks
  · rw [if_pos inside, if_pos inside]
    exact .value changed
  · rw [if_neg inside, if_neg inside]
    exact .stop _

theorem osTaskWaitingThisSemaphore
    (blind : Blind cfg allowed relation)
    (related : relation k k') (sem : Int) :
    k'.tasks.osTaskWaitingThisSemaphore sem = true ↔
      k.tasks.osTaskWaitingThisSemaphore sem = true := by
  rw [TaskTable.osTaskWaitingThisSemaphore_iff,
    TaskTable.osTaskWaitingThisSemaphore_iff]
  unfold TaskTable.SomeWaiter
  rw [blind.nTasks related]
  refine exists_congr fun tid => and_congr_right fun _ => ?_
  unfold Tcb.WaitsForSem
  rw [(blind.seen related tid).state, (blind.seen related tid).semaphore]

theorem osSignalSemNoSchedule
    (blind : Blind cfg allowed relation)
    (related : relation k k') (sem : Int) :
    relation (k.osSignalSemNoSchedule cfg sem)
      (k'.osSignalSemNoSchedule cfg sem) := by
  have found : k'.tasks.findWaitingTask cfg sem =
      k.tasks.findWaitingTask cfg sem :=
    TaskTable.findWaitingTask_congr cfg sem (blind.nTasks related)
      (fun tid => (blind.seen related tid).state)
      (fun tid => (blind.seen related tid).semaphore)
      (fun tid => (blind.seen related tid).prio)
      fun tid => (blind.seen related tid).time
  have waiting := blind.osTaskWaitingThisSemaphore related sem
  unfold Kernel.osSignalSemNoSchedule
  by_cases someone : k.tasks.osTaskWaitingThisSemaphore sem = true
  · rw [if_pos someone, if_pos (waiting.mpr someone)]
    unfold TaskTable.osTaskReleaseWaitingTask
    dsimp only
    rw [found]
    split_ifs
    · exact blind.release related _
    · exact related
  · rw [if_neg someone, if_neg fun wrong => someone (waiting.mp wrong)]
    exact blind.increment related sem

/-- An allowed call keeps the relation. -/
theorem callStep
    (blind : Blind cfg allowed relation)
    (related : relation k k') (call : Call)
    (allows : allowed k' call) :
    Related relation (CocoOs.callStep cfg k call)
      (CocoOs.callStep cfg k' call) := by
  cases call with
  | osTick => exact blind.taskTick (blind.record related .ticked) 0 1
  | osSubTick id =>
      exact .ite Iff.rfl (fun _ => blind.taskTick related _ 1)
        fun _ => .value related
  | osSubNTick id nTicks =>
      exact .ite Iff.rfl (fun _ => blind.taskTick related _ _)
        fun _ => .value related
  | eventIsrSignal event => exact blind.eventIsrSignal related _
  | semIsrSignal sem =>
      exact .guard Iff.rfl fun _ =>
        .value (blind.osSignalSemNoSchedule related sem)
  | osTaskSuspend tid =>
      exact blind.onTasks related (blind.suspend related tid allows)
  | osTaskResume tid => exact blind.onTasks related (blind.resume related _)
  | osTaskKill tid => exact blind.onTasks related (blind.kill related _)

/-- Run rule: allowed calls keep the relation. -/
theorem run_callStep
    (blind : Blind cfg allowed relation)
    (related : relation k k') {calls : List Call}
    (allows : Meets (CocoOs.callStep cfg) allowed k' calls) :
    Related relation (run (CocoOs.callStep cfg) k calls)
      (run (CocoOs.callStep cfg) k' calls) :=
  Related.run_of_meets
    (fun _ _ call here allows => blind.callStep here call allows) related allows

/-- Run rule from a reachable state: the calls keep the relation when the task
whose suspension they may see is not queued at a semaphore. -/
theorem run_of_not_queued
    {s : Sys β} {tid : Nat}
    (blind : Blind cfg
      (fun k call => call.Suspends tid →
        (k.tasks.taskList tid).state ≠ .waitingSem) relation)
    (related : relation s.kernel k')
    (reachable : ReachableSys cfg s)
    (created : tid < s.kernel.tasks.nTasks)
    (notQueued : (s.kernel.tasks.taskList tid).state ≠ .waitingSem)
    (calls : List Call) :
    Related relation (run (CocoOs.callStep cfg) s.kernel calls)
      (run (CocoOs.callStep cfg) k' calls) := by
  induction calls generalizing s k' with
  | nil => exact .value related
  | cons call calls inductionHypothesis =>
      have allows : call.Suspends tid →
          (k'.tasks.taskList tid).state ≠ .waitingSem := by
        rw [(blind.seen related tid).state]
        exact fun _ => notQueued
      have stepped : Related
          (fun next next' => relation next next' ∧
            CocoOs.callStep cfg s.kernel call = .ok next)
          (CocoOs.callStep cfg s.kernel call) (CocoOs.callStep cfg k' call) :=
        (blind.callStep related call allows).strengthen
          fun _ _ returns _ later => ⟨later, returns⟩
      refine stepped.bind fun next next' both => ?_
      let t : Sys β := { s with kernel := next }
      have steps : step cfg s (.call call) = .ok t :=
        map_eq_ok_iff.mpr ⟨next, both.2, rfl⟩
      exact inductionHypothesis (s := t) both.1 (reachable.step steps)
        (created.trans_le (step_nTasks_le (reachable_sound reachable) steps))
        (step_not_queued reachable created notQueued (fun _ => id) steps)

end Blind

end Kernel

/-! ## Marks on a kernel -/

namespace Kernel

/-- A kernel with a mark on a task, and another task or none that runs. -/
def marked (k : Kernel β) (tid : Nat) (mark : Mark) (runningTid : Nat) :
    Kernel β :=
  { k with tasks := k.tasks.modify tid mark.apply, runningTid := runningTid }

/-- The second kernel is the first with a mark on a task. -/
structure Marked (tid : Nat) (mark : Mark) (runningTid : Nat)
    (k k' : Kernel β) : Prop where
  marked : k' = k.marked tid mark runningTid
  runs : k.runningTid = tid
  created : tid < k.tasks.nTasks

namespace Marked

variable {cfg : Config} {tid runningTid : Nat} {mark : Mark} {k k' : Kernel β}

theorem nTasks (marked : Marked tid mark runningTid k k') :
    k'.tasks.nTasks = k.tasks.nTasks := by
  rw [marked.marked]
  rfl

theorem queues (marked : Marked tid mark runningTid k k') :
    k'.queues = k.queues := by
  rw [marked.marked]
  rfl

theorem taskList (marked : Marked tid mark runningTid k k') (other : Nat) :
    k'.tasks.taskList other =
      if other = tid then mark.apply (k.tasks.taskList other)
      else k.tasks.taskList other := by
  rw [marked.marked]
  exact k.tasks.modify_taskList tid mark.apply other

/-- What is not a mark is the same. -/
theorem field
    (marked : Marked tid mark runningTid k k')
    {γ : Type} (read : Tcb → γ)
    (same : ∀ task : Tcb, read (mark.apply task) = read task) (other : Nat) :
    read (k'.tasks.taskList other) = read (k.tasks.taskList other) := by
  rw [marked.taskList]
  split_ifs
  · exact same _
  · rfl

/-- A rewriting of one task that does not see the mark. -/
theorem modifyTask
    (marked : Marked tid mark runningTid k k')
    (other : Nat) {change : Tcb → Tcb}
    (commute : other = tid → change (mark.apply (k.tasks.taskList tid)) =
      mark.apply (change (k.tasks.taskList tid))) :
    Marked tid mark runningTid (k.modifyTask other change)
      (k'.modifyTask other change) := by
  obtain ⟨rfl, runs, created⟩ := marked
  refine ⟨?_, runs, created⟩
  unfold Kernel.modifyTask Kernel.marked
  dsimp only
  rw [k.tasks.modify_comm tid other commute]

/-- A rewriting of the task that changes the mark. -/
theorem modifyTask_self
    {mark' : Mark} {change : Tcb → Tcb}
    (marked : Marked tid mark runningTid k k')
    (commute : change (mark.apply (k.tasks.taskList tid)) =
      mark'.apply (change (k.tasks.taskList tid))) :
    Marked tid mark' runningTid (k.modifyTask tid change)
      (k'.modifyTask tid change) := by
  obtain ⟨rfl, runs, created⟩ := marked
  refine ⟨?_, runs, created⟩
  unfold Kernel.modifyTask Kernel.marked TaskTable.modify
  simp [commute]

/-- A rewriting of all tasks. -/
theorem mapCreated
    (marked : Marked tid mark runningTid k k')
    {change : Tcb → Tcb}
    (commute : ∀ task, change (mark.apply task) = mark.apply (change task)) :
    Marked tid mark runningTid { k with tasks := k.tasks.mapCreated change }
      { k' with tasks := k'.tasks.mapCreated change } := by
  obtain ⟨rfl, runs, created⟩ := marked
  refine ⟨?_, runs, created⟩
  unfold Kernel.marked
  dsimp only
  rw [k.tasks.modify_mapCreated created (commute _)]

theorem setQueue
    (marked : Marked tid mark runningTid k k') (queue : Nat) (q : OSQueue β) :
    Marked tid mark runningTid { k with queues := k.queues.setQueue queue q }
      { k' with queues := k'.queues.setQueue queue q } := by
  obtain ⟨rfl, runs, created⟩ := marked
  exact ⟨rfl, runs, created⟩

theorem record (marked : Marked tid mark runningTid k k') (entry : Entry β) :
    Marked tid mark runningTid (k.record entry) (k'.record entry) := by
  obtain ⟨rfl, runs, created⟩ := marked
  exact ⟨rfl, runs, created⟩

theorem isrSignalled
    (marked : Marked tid mark runningTid k k') (eventId : Nat) :
    Marked tid mark runningTid (k.isrSignalled cfg eventId)
      (k'.isrSignalled cfg eventId) := by
  have mapped := marked.mapCreated (Tcb.signalEvent_mark cfg eventId mark)
  obtain ⟨rfl, runs, created⟩ := marked
  refine ⟨?_, runs, created⟩
  have tables : (k.tasks.modify tid mark.apply).mapCreated
        (Tcb.signalEvent cfg eventId) =
      (k.tasks.mapCreated (Tcb.signalEvent cfg eventId)).modify tid
        mark.apply := congrArg Kernel.tasks mapped.marked
  unfold Kernel.isrSignalled signalled Kernel.marked
  dsimp only
  rw [tables]

theorem increment
    (marked : Marked tid mark runningTid k k') (sem : Int) :
    Marked tid mark runningTid
      { k with sems := k.sems.osSemIncrement cfg sem }
      { k' with sems := k'.sems.osSemIncrement cfg sem } := by
  obtain ⟨rfl, runs, created⟩ := marked
  exact ⟨rfl, runs, created⟩

theorem suspend
    (marked : Marked tid mark runningTid k k')
    (other : UInt8)
    (queued : (Call.osTaskSuspend other).Suspends tid →
      (k'.tasks.taskList tid).state ≠ .waitingSem) :
    Marked tid mark runningTid (k.modifyTask other.toNat Tcb.suspend)
      (k'.modifyTask other.toNat Tcb.suspend) := by
  refine marked.modifyTask other.toNat fun same => Tcb.suspend_mark ?_ mark
  rw [← marked.field Tcb.state fun _ => rfl]
  exact queued same

/-- A call sees a mark only when it suspends a task that is queued at a
semaphore. -/
theorem blind (cfg : Config) (tid : Nat) (mark : Mark) (runningTid : Nat) :
    Blind (β := β) cfg
      (fun k call => call.Suspends tid →
        (k.tasks.taskList tid).state ≠ .waitingSem)
      (Marked tid mark runningTid) where
  nTasks := nTasks
  queues := queues
  seen marked other :=
    ⟨marked.field Tcb.state (fun _ => rfl) other,
      marked.field Tcb.semaphore (fun _ => rfl) other,
      marked.field Tcb.prio (fun _ => rfl) other,
      marked.field Tcb.time (fun _ => rfl) other,
      marked.field Tcb.msgQ (fun _ => rfl) other⟩
  record := record
  setQueue := setQueue
  isrSignalled := isrSignalled
  increment := increment
  tick marked other clockId tickSize :=
    marked.modifyTask other fun _ => Tcb.tick_mark cfg clockId tickSize mark _
  release marked other := marked.modifyTask other fun _ => rfl
  suspend := suspend
  resume marked other := marked.modifyTask other fun _ => Tcb.resume_mark mark _
  kill marked other := marked.modifyTask other fun _ => rfl

/-- Whatever a call is, it sees no more than the line of a task. -/
theorem suspend_atLine
    {line : Nat}
    (marked : Marked tid (.atLine line) runningTid k k')
    (other : UInt8) :
    ∃ line, Marked tid (.atLine line) runningTid
      (k.modifyTask other.toNat Tcb.suspend)
      (k'.modifyTask other.toNat Tcb.suspend) := by
  by_cases queued : (Call.osTaskSuspend other).Suspends tid →
      (k'.tasks.taskList tid).state ≠ .waitingSem
  · exact ⟨line, marked.suspend other queued⟩
  · rw [Classical.not_imp, not_not] at queued
    obtain ⟨same, waits⟩ := queued
    have waitsHere : (k.tasks.taskList tid).state = .waitingSem := by
      rw [← marked.field Tcb.state fun _ => rfl]
      exact waits
    subst same
    have reset : ((Mark.atLine line).apply
        (k.tasks.taskList other.toNat)).suspend =
          (Mark.atLine 0).apply (k.tasks.taskList other.toNat).suspend := by
      simp [Tcb.suspend, Mark.apply, Mark.atLine, waitsHere]
    exact ⟨0, marked.modifyTask_self reset⟩

theorem blind_atLine (cfg : Config) (tid runningTid : Nat) :
    Blind (β := β) cfg (fun _ _ => True)
      (fun k k' => ∃ line, Marked tid (.atLine line) runningTid k k') where
  nTasks := fun ⟨_, marked⟩ => marked.nTasks
  queues := fun ⟨_, marked⟩ => marked.queues
  seen := fun ⟨_, marked⟩ => (blind cfg tid _ runningTid).seen marked
  record := fun ⟨line, marked⟩ entry => ⟨line, marked.record entry⟩
  setQueue := fun ⟨line, marked⟩ queue q => ⟨line, marked.setQueue queue q⟩
  isrSignalled := fun ⟨line, marked⟩ eventId =>
    ⟨line, marked.isrSignalled eventId⟩
  increment := fun ⟨line, marked⟩ sem => ⟨line, marked.increment sem⟩
  tick := fun ⟨line, marked⟩ other clockId tickSize =>
    ⟨line, (blind cfg tid _ runningTid).tick marked other clockId tickSize⟩
  release := fun ⟨line, marked⟩ other =>
    ⟨line, (blind cfg tid _ runningTid).release marked other⟩
  suspend := fun ⟨_, marked⟩ other _ => marked.suspend_atLine other
  resume := fun ⟨line, marked⟩ other =>
    ⟨line, (blind cfg tid _ runningTid).resume marked other⟩
  kill := fun ⟨line, marked⟩ other =>
    ⟨line, (blind cfg tid _ runningTid).kill marked other⟩

/-- Calls that suspend the task at most while it is not queued at a semaphore
do not see the mark. -/
theorem run_callStep
    (marked : Marked tid mark runningTid k k')
    {calls : List Call}
    (queued : Meets (CocoOs.callStep cfg) (fun k call => call.Suspends tid →
      (k.tasks.taskList tid).state ≠ .waitingSem) k' calls) :
    Related (Marked tid mark runningTid) (run (CocoOs.callStep cfg) k calls)
      (run (CocoOs.callStep cfg) k' calls) :=
  (blind cfg tid mark runningTid).run_callStep marked queued

theorem run_callStep_atLine
    {line : Nat}
    (marked : Marked tid (.atLine line) runningTid k k')
    (calls : List Call) :
    Related (fun k k' => ∃ line, Marked tid (.atLine line) runningTid k k')
      (run (CocoOs.callStep cfg) k calls) (run (CocoOs.callStep cfg) k' calls) :=
  (blind_atLine cfg tid runningTid).run_callStep ⟨line, marked⟩
    (.of_forall (fun _ _ _ => trivial) k')

end Marked

/-- The last line counts. -/
theorem marked_atLine_atLine
    (k : Kernel β) (tid line line' runningTid runningTid' : Nat) :
    (k.marked tid (.atLine line) runningTid).marked tid (.atLine line')
        runningTid' =
      k.marked tid (.atLine line') runningTid' := by
  unfold marked
  dsimp only
  rw [TaskTable.modify_modify]
  rfl

/-- A kernel with the line that the task has. -/
theorem marked_atLine_eq_self_iff
    {k : Kernel β} {tid line : Nat} :
    k.marked tid (.atLine line) k.runningTid = k ↔
      (k.tasks.taskList tid).internalState = line := by
  constructor
  · intro same
    rw [← same]
    unfold marked
    dsimp only
    rw [TaskTable.modify_taskList_self]
    rfl
  · rintro rfl
    have same : k.tasks.modify tid
        (Mark.atLine (k.tasks.taskList tid).internalState).apply = k.tasks := by
      unfold TaskTable.modify
      congr 1
      exact Function.update_eq_self tid k.tasks.taskList
    unfold marked
    rw [same]

/-- What gives up the processor marks the running task. -/
theorem osYield_eq (k : Kernel β) (line : Nat) :
    k.osYield line = k.marked k.runningTid (.atLine line) noTid := rfl

theorem osFreeTid_eq (k : Kernel β) :
    k.osFreeTid = k.marked k.runningTid .none noTid := by
  have same : k.tasks.modify k.runningTid Mark.none.apply = k.tasks := by
    unfold TaskTable.modify
    congr 1
    exact Function.update_eq_self k.runningTid k.tasks.taskList
  unfold marked osFreeTid
  rw [same]

/-- Calls before the running task is marked and calls after it. -/
theorem map_marked_run
    {cfg : Config} {k : Kernel β} {calls : List Call}
    (mark : Mark) (runningTid : Nat)
    (created : k.runningTid < k.tasks.nTasks)
    (queued : Meets (callStep cfg)
      (fun k' call => call.Suspends k.runningTid →
        (k'.tasks.taskList k.runningTid).state ≠ .waitingSem)
      (k.marked k.runningTid mark runningTid) calls) :
    (run (callStep cfg) k calls).map
        (fun k' => k'.marked k'.runningTid mark runningTid) =
      run (callStep cfg) (k.marked k.runningTid mark runningTid) calls := by
  have here : Marked k.runningTid mark runningTid k
      (k.marked k.runningTid mark runningTid) := ⟨rfl, rfl, created⟩
  have related := here.run_callStep queued
  generalize run (callStep cfg) k calls = first at related
  generalize run (callStep cfg) (k.marked k.runningTid mark runningTid) calls =
    second at related
  cases related with
  | stop stopped => rfl
  | value marked =>
      rw [marked.marked, ← marked.runs]
      rfl

/-- Calls before a yield and calls after it. -/
theorem map_osYield_run
    {cfg : Config} {k : Kernel β} {line : Nat} {calls : List Call}
    (created : k.runningTid < k.tasks.nTasks)
    (queued : Meets (callStep cfg)
      (fun k' call => call.Suspends k.runningTid →
        (k'.tasks.taskList k.runningTid).state ≠ .waitingSem)
      (k.osYield line) calls) :
    (run (callStep cfg) k calls).map (fun k' => k'.osYield line) =
      run (callStep cfg) (k.osYield line) calls :=
  map_marked_run (.atLine line) noTid created queued

/-- Calls before `OS_END` frees the processor and calls after it. -/
theorem map_osFreeTid_run
    {cfg : Config} {k : Kernel β} {calls : List Call}
    (created : k.runningTid < k.tasks.nTasks)
    (queued : Meets (callStep cfg)
      (fun k' call => call.Suspends k.runningTid →
        (k'.tasks.taskList k.runningTid).state ≠ .waitingSem)
      k.osFreeTid calls) :
    (run (callStep cfg) k calls).map osFreeTid =
      run (callStep cfg) k.osFreeTid calls := by
  rw [osFreeTid_eq] at queued ⊢
  rw [← map_marked_run .none noTid created queued, funext osFreeTid_eq]

end Kernel

end CocoOs
