import CocoOs.StepTrace
import CocoOs.Handles
import CocoOs.Foundation.TwoRuns

/-!
# Kernels that agree on what is live

Two kernels agree when they hold the same in every variable that is written
before it is read: the tables up to their counters, the records of the objects
whose ids were returned, and the scheduler's variables.  Every function of the
kernel takes agreeing kernels to agreeing kernels, and stops on both or on
neither.  The stale entries past the counters may differ.
-/

namespace CocoOs

open Foundation

variable {β : Type}

/-! ## Tasks -/

/-- The task tables agree on every entry of the array. -/
structure TaskTable.Agrees (cfg : Config) (tasks tasks' : TaskTable) :
    Prop where
  nTasks : tasks.nTasks = tasks'.nTasks
  lastRunningTask : tasks.lastRunningTask = tasks'.lastRunningTask
  within : tasks.nTasks ≤ cfg.nTasks
  entry : ∀ tid, tid < cfg.nTasks → tasks.taskList tid = tasks'.taskList tid

namespace TaskTable.Agrees

variable {cfg : Config} {tasks tasks' : TaskTable}

theorem created (agrees : tasks.Agrees cfg tasks') {tid : Nat}
    (inside : tid < tasks.nTasks) :
    tasks.taskList tid = tasks'.taskList tid :=
  agrees.entry tid (inside.trans_le agrees.within)

/-- Every rewrite of an entry keeps the tables in agreement. -/
theorem modify (agrees : tasks.Agrees cfg tasks') (tid : Nat)
    (change : Tcb → Tcb) :
    (tasks.modify tid change).Agrees cfg (tasks'.modify tid change) := by
  refine ⟨agrees.nTasks, agrees.lastRunningTask, agrees.within, ?_⟩
  intro other inside
  rw [modify_taskList, modify_taskList, agrees.entry other inside]

/-- A rewrite behind the assertion that the task exists. -/
theorem guarded (agrees : tasks.Agrees cfg tasks') (tid : Nat)
    (change : Tcb → Tcb) :
    Related (TaskTable.Agrees cfg)
      (if tid < tasks.nTasks then .ok (tasks.modify tid change)
        else .error Stop.assertion)
      (if tid < tasks'.nTasks then .ok (tasks'.modify tid change)
        else .error Stop.assertion) :=
  .guard (by rw [agrees.nTasks]) fun _ => .value (agrees.modify tid change)

theorem osTaskWaitTimeSet (agrees : tasks.Agrees cfg tasks') (tid id time : Nat) :
    Related (TaskTable.Agrees cfg) (tasks.osTaskWaitTimeSet tid id time)
      (tasks'.osTaskWaitTimeSet tid id time) := by
  apply Related.guard (by rw [agrees.nTasks])
  intro _
  exact .guard Iff.rfl fun _ => .value (agrees.modify tid _)

theorem osTaskWaitEvent (agrees : tasks.Agrees cfg tasks') (tid eventId : Nat)
    (waitSingleEvent : Bool) (timeout : Nat) :
    Related (TaskTable.Agrees cfg)
      (tasks.osTaskWaitEvent cfg tid eventId waitSingleEvent timeout)
      (tasks'.osTaskWaitEvent cfg tid eventId waitSingleEvent timeout) := by
  apply Related.guard (by rw [agrees.nTasks])
  intro _
  apply Related.guard Iff.rfl
  intro _
  have marked :=
    agrees.modify tid (Tcb.markEvent eventId waitSingleEvent)
  refine .ite Iff.rfl (fun _ => ?_) fun _ => .value (marked.modify tid _)
  exact (marked.osTaskWaitTimeSet tid 0 timeout).bind
    fun _ _ timed => .value (timed.modify tid _)

theorem osTaskSignalEvent (agrees : tasks.Agrees cfg tasks') (eventId : Nat) :
    Related (TaskTable.Agrees cfg) (tasks.osTaskSignalEvent cfg eventId)
      (tasks'.osTaskSignalEvent cfg eventId) := by
  apply Related.guard (by rw [agrees.nTasks])
  refine fun _ => .value ⟨agrees.nTasks, agrees.lastRunningTask, agrees.within, ?_⟩
  intro tid inside
  dsimp only
  rw [forEach_update_apply _ fun _ => Tcb.signalEvent cfg eventId,
    forEach_update_apply _ fun _ => Tcb.signalEvent cfg eventId,
    agrees.nTasks, agrees.entry tid inside]

/-! ### Scans -/

theorem findWaitingTask (agrees : tasks.Agrees cfg tasks') (sem : Int) :
    tasks.findWaitingTask cfg sem = tasks'.findWaitingTask cfg sem := by
  unfold TaskTable.findWaitingTask
  rw [← agrees.nTasks]
  rw [forEach_congr _ fun tid inside =>
      show tasks.releaseRoundRobinStep sem tid = tasks'.releaseRoundRobinStep sem tid by
        unfold releaseRoundRobinStep
        rw [agrees.created inside],
    forEach_congr _ fun tid inside =>
      show tasks.releasePrioStep sem tid = tasks'.releasePrioStep sem tid by
        unfold releasePrioStep
        rw [agrees.created inside]]

theorem waitingThisSemaphoreFrom (agrees : tasks.Agrees cfg tasks') (sem : Int)
    (remaining tid : Nat) (inside : tid + remaining ≤ tasks.nTasks) :
    tasks.waitingThisSemaphoreFrom sem remaining tid =
      tasks'.waitingThisSemaphoreFrom sem remaining tid := by
  induction remaining generalizing tid with
  | zero => rfl
  | succ remaining inductionHypothesis =>
      rw [TaskTable.waitingThisSemaphoreFrom, TaskTable.waitingThisSemaphoreFrom,
        agrees.created (by omega), inductionHypothesis (tid + 1) (by omega)]

theorem osTaskWaitingThisSemaphore (agrees : tasks.Agrees cfg tasks')
    (sem : Int) :
    tasks.osTaskWaitingThisSemaphore sem =
      tasks'.osTaskWaitingThisSemaphore sem := by
  unfold TaskTable.osTaskWaitingThisSemaphore
  rw [agrees.waitingThisSemaphoreFrom sem _ 0 (by omega), agrees.nTasks]

theorem osTaskReleaseWaitingTask (agrees : tasks.Agrees cfg tasks')
    (sem : Int) :
    (tasks.osTaskReleaseWaitingTask cfg sem).Agrees cfg
      (tasks'.osTaskReleaseWaitingTask cfg sem) := by
  unfold TaskTable.osTaskReleaseWaitingTask
  simp only [agrees.findWaitingTask sem]
  by_cases found : noTid ≠ tasks'.findWaitingTask cfg sem
  · rw [if_pos found, if_pos found]
    exact agrees.modify _ _
  · rw [if_neg found, if_neg found]
    exact agrees

theorem highestPrioReadyTask (agrees : tasks.Agrees cfg tasks') :
    tasks.highestPrioReadyTask = tasks'.highestPrioReadyTask := by
  unfold TaskTable.highestPrioReadyTask
  rw [← agrees.nTasks, forEach_congr _ fun tid inside =>
    show tasks.highestPrioStep tid = tasks'.highestPrioStep tid by
      unfold highestPrioStep
      rw [agrees.created inside]]

theorem nextReadyTaskLoop (agrees : tasks.Agrees cfg tasks')
    (fuel index nChecked : Nat) :
    tasks.nextReadyTaskLoop cfg fuel index nChecked =
      tasks'.nextReadyTaskLoop cfg fuel index nChecked := by
  induction fuel generalizing index nChecked with
  | zero => rfl
  | succ fuel inductionHypothesis =>
      rw [TaskTable.nextReadyTaskLoop, TaskTable.nextReadyTaskLoop]
      by_cases inside : index < cfg.nTasks
      · simp only [inside, if_true, agrees.entry index inside, agrees.nTasks,
          inductionHypothesis]
      · simp only [inside, if_false]

/-- The next task in turn is the same, and so is the variable that remembers
it. -/
theorem nextReadyTask (agrees : tasks.Agrees cfg tasks') :
    Related (Alike (TaskTable.Agrees cfg)) (tasks.nextReadyTask cfg)
      (tasks'.nextReadyTask cfg) := by
  unfold TaskTable.nextReadyTask
  rw [← agrees.lastRunningTask, ← agrees.nTasks]
  apply Related.bind
    (Related.of_eq (fun _ => rfl) (agrees.nextReadyTaskLoop 256 _ 0))
  rintro found _ rfl
  exact .value ⟨rfl, rfl, rfl, agrees.within, agrees.entry⟩

theorem prioUnused (agrees : tasks.Agrees cfg tasks') (prio count : Nat)
    (inside : count ≤ tasks.nTasks) :
    Kernel.prioUnused tasks prio count = Kernel.prioUnused tasks' prio count := by
  induction count with
  | zero => rfl
  | succ count inductionHypothesis =>
      rw [Kernel.prioUnused, Kernel.prioUnused, agrees.created (by omega),
        inductionHypothesis (by omega)]

/-- `os_task_init` writes every field of every entry. -/
theorem osTaskInit (cfg : Config) (tasks tasks' : TaskTable) :
    (tasks.osTaskInit cfg).Agrees cfg (tasks'.osTaskInit cfg) := by
  refine ⟨rfl, rfl, Nat.zero_le _, ?_⟩
  intro tid inside
  unfold TaskTable.osTaskInit
  dsimp only
  rw [forEach_update_apply _ fun _ => initialTcb,
    forEach_update_apply _ fun _ => initialTcb, if_pos inside, if_pos inside]
  rfl

end TaskTable.Agrees

/-! ## Events, semaphores and queues -/

/-- The event tables agree on the counter and on who signalled the events of
the given ids. -/
structure EventTable.Agrees (ids : List Nat) (events events' : EventTable) :
    Prop where
  nEvents : events.nEvents = events'.nEvents
  small : events.nEvents < 256
  signaledByTid : ∀ id ∈ ids,
    (events.eventList id).signaledByTid = (events'.eventList id).signaledByTid

/-- The semaphore tables agree on the counter and on the semaphores of the given
ids. -/
structure SemTable.Agrees (cfg : Config) (ids : List Int)
    (sems sems' : SemTable) : Prop where
  nSemaphores : sems.nSemaphores = sems'.nSemaphores
  small : sems.nSemaphores < 256
  value : ∀ id ∈ ids, cfg.HasSem id → sems.semList id = sems'.semList id

/-- The queue tables agree on the counter and below it. -/
structure QueueTable.Agrees (queues queues' : QueueTable β) : Prop where
  nQueues : queues.nQueues = queues'.nQueues
  entry : ∀ queue, queue < queues.nQueues →
    queues.msgQList queue = queues'.msgQList queue

namespace EventTable.Agrees

variable {cfg : Config} {ids : List Nat} {events events' : EventTable}

theorem setSignaledByTid (agrees : events.Agrees ids events')
    (eventId tid : Nat) :
    (events.setSignaledByTid eventId tid).Agrees ids
      (events'.setSignaledByTid eventId tid) := by
  refine ⟨agrees.nEvents, agrees.small, fun id member => ?_⟩
  unfold EventTable.setSignaledByTid
  by_cases same : id = eventId
  · subst same
    simp
  · simp [same, agrees.signaledByTid id member]

/-- Both tables create the same event, and agree on it afterwards. -/
theorem eventCreate (agrees : events.Agrees ids events')
    (available : 0 < cfg.nTotalEvents) :
    Related (fun made made' =>
        made.1 = made'.1 ∧ made.2.Agrees (ids ++ [made.1]) made'.2)
      (events.eventCreate cfg) (events'.eventCreate cfg) := by
  obtain ⟨nEvents, small, signaledByTid⟩ := agrees
  unfold EventTable.eventCreate
  rw [if_pos available, if_pos available, ← nEvents]
  refine .guard Iff.rfl fun _ => .value ⟨rfl, rfl, Nat.mod_lt _ (by omega), ?_⟩
  have slot : ((events.nEvents + 1) % 256 + 255) % 256 = events.nEvents := by
    omega
  intro id member
  rw [List.mem_append, List.mem_singleton] at member
  dsimp only
  by_cases same : id = events.nEvents
  · subst same
    simp
  · rw [Function.update_of_ne same, Function.update_of_ne same]
    exact signaledByTid id (member.resolve_right fun new => same (new.trans slot))

end EventTable.Agrees

namespace SemTable.Agrees

variable {cfg : Config} {ids : List Int} {sems sems' : SemTable}

/-- A rewrite of the counter of a semaphore that the tables agree on. -/
theorem setValue (agrees : sems.Agrees cfg ids sems') (sem : Int)
    (counter : SemValue) :
    { sems with semList := Function.update sems.semList sem counter }.Agrees cfg
      ids { sems' with semList := Function.update sems'.semList sem counter } := by
  refine ⟨agrees.nSemaphores, agrees.small, fun id member inside => ?_⟩
  by_cases same : id = sem
  · subst same
    simp
  · simp [same, agrees.value id member inside]

theorem osSemDecrement (agrees : sems.Agrees cfg ids sems') {sem : Int}
    (member : sem ∈ ids) (inside : cfg.HasSem sem) :
    (sems.osSemDecrement cfg sem).Agrees cfg ids
      (sems'.osSemDecrement cfg sem) := by
  unfold SemTable.osSemDecrement
  rw [← agrees.value sem member inside]
  by_cases positive : 0 < cfg.nTotalSemaphores ∧ 0 < (sems.semList sem).value
  · rw [if_pos positive, if_pos positive]
    exact agrees.setValue sem _
  · rw [if_neg positive, if_neg positive]
    exact agrees

theorem osSemIncrement (agrees : sems.Agrees cfg ids sems') {sem : Int}
    (member : sem ∈ ids) (inside : cfg.HasSem sem) :
    (sems.osSemIncrement cfg sem).Agrees cfg ids
      (sems'.osSemIncrement cfg sem) := by
  unfold SemTable.osSemIncrement
  rw [← agrees.value sem member inside]
  by_cases below : 0 < cfg.nTotalSemaphores ∧
      (sems.semList sem).value < (sems.semList sem).maxValue
  · rw [if_pos below, if_pos below]
    exact agrees.setValue sem _
  · rw [if_neg below, if_neg below]
    exact agrees

/-- Both tables create the same semaphore, and agree on it afterwards. -/
theorem osSemCreate (agrees : sems.Agrees cfg ids sems')
    (available : 0 < cfg.nTotalSemaphores) (max initial : Nat) :
    Related (fun made made' =>
        made.1 = made'.1 ∧ made.2.Agrees cfg (ids ++ [made.1]) made'.2)
      (sems.osSemCreate cfg max initial) (sems'.osSemCreate cfg max initial) := by
  obtain ⟨nSemaphores, small, value⟩ := agrees
  unfold SemTable.osSemCreate
  rw [if_pos available, if_pos available, ← nSemaphores]
  refine .guard Iff.rfl fun _ => .value ⟨rfl, rfl, Nat.mod_lt _ (by omega), ?_⟩
  intro id member inside
  rw [List.mem_append, List.mem_singleton] at member
  dsimp only at member ⊢
  by_cases same : id = sems.nSemaphores
  · subst same
    simp
  · rw [Function.update_of_ne same, Function.update_of_ne same]
    refine value id (member.resolve_right fun new => ?_) inside
    -- past the last id the counter wraps, and the id returned is negative
    have nonnegative := inside.1
    omega

end SemTable.Agrees

namespace QueueTable.Agrees

variable {cfg : Config} {queues queues' : QueueTable β}

theorem setQueue (agrees : queues.Agrees queues') (queue : Nat)
    (q : OSQueue β) :
    (queues.setQueue queue q).Agrees (queues'.setQueue queue q) := by
  refine ⟨agrees.nQueues, fun other inside => ?_⟩
  unfold QueueTable.setQueue
  by_cases same : other = queue
  · subst same
    simp [agrees.entry other inside]
  · simp [same, agrees.entry other inside]

theorem osMsgQFindFrom (agrees : queues.Agrees queues')
    (taskId remaining queue : Nat)
    (inside : queue + remaining ≤ queues.nQueues) :
    queues.osMsgQFindFrom taskId remaining queue =
      queues'.osMsgQFindFrom taskId remaining queue := by
  induction remaining generalizing queue with
  | zero => rfl
  | succ remaining inductionHypothesis =>
      rw [QueueTable.osMsgQFindFrom, QueueTable.osMsgQFindFrom,
        agrees.entry queue (by omega), inductionHypothesis (queue + 1) (by omega)]

end QueueTable.Agrees

/-! ## Kernels -/

namespace Handles

/-- A further event was created. -/
def withEvent (live : Handles) (id : Nat) : Handles :=
  { live with events := live.events ++ [id] }

/-- A further semaphore was created. -/
def withSem (live : Handles) (id : Int) : Handles :=
  { live with sems := live.sems ++ [id] }

/-- A queue of the table was created, with its event. -/
def withQueue (cfg : Config) (live : Handles) (queue : Nat)
    (queues : QueueTable β) : Handles :=
  if 0 < cfg.nQueues then live.withEvent (queues.msgQList queue).change
  else live

/-- A task was created in the kernel, with a queue when it has a message
pool. -/
def withTask (cfg : Config) (live : Handles) (poolSize tid : Nat)
    (k : Kernel β) : Handles :=
  if 0 < poolSize then live.withQueue cfg (k.tasks.taskList tid).msgQ k.queues
  else live

end Handles

namespace Kernel

/-- The kernels agree on what is live: a table without entries is never read. -/
structure Agrees (cfg : Config) (live : Handles) (k k' : Kernel β) : Prop where
  tasks : k.tasks.Agrees cfg k'.tasks
  events : 0 < cfg.nTotalEvents → k.events.Agrees live.events k'.events
  sems : 0 < cfg.nTotalSemaphores → k.sems.Agrees cfg live.sems k'.sems
  queues : 0 < cfg.nQueues → k.queues.Agrees k'.queues
  running : k.running = k'.running
  runningTid : k.runningTid = k'.runningTid
  history : k.history = k'.history

/-- After `os_init` two kernels agree, whatever they were before. -/
theorem agrees_osInit (cfg : Config) (k k' : Kernel β) :
    (k.osInit cfg).Agrees cfg ⟨[], []⟩ (k'.osInit cfg) where
  tasks := .osTaskInit cfg k.tasks k'.tasks
  events available := by
    unfold osInit EventTable.osEventInit
    rw [if_pos available, if_pos available]
    exact ⟨rfl, Nat.zero_lt_succ 255, fun id member => absurd member List.not_mem_nil⟩
  sems available := by
    unfold osInit SemTable.osSemInit
    rw [if_pos available, if_pos available]
    exact ⟨rfl, Nat.zero_lt_succ 255, fun id member => absurd member List.not_mem_nil⟩
  queues available := by
    unfold osInit QueueTable.osMsgQInit
    rw [if_pos available, if_pos available]
    exact ⟨rfl, fun queue inside => absurd inside (Nat.not_lt_zero queue)⟩
  running := rfl
  runningTid := rfl
  history := rfl

/-- An iteration of the queue tick creates no queue. -/
theorem msgQTickBody_nQueues
    {cfg : Config} {k k' : Kernel β} {queue nextMessage : Nat}
    (returns : k.msgQTickBody cfg queue nextMessage = .ok k') :
    k'.queues.nQueues = k.queues.nQueues := by
  unfold msgQTickBody at returns
  dsimp only at returns
  split_ifs at returns with delayed expires
  · obtain ⟨q, _, last⟩ := bind_eq_ok_iff.mp returns
    rw [eventIsrSignal_eq] at last
    split_ifs at last <;> exact Except.ok.inj last ▸ rfl
  · obtain ⟨q, _, last⟩ := bind_eq_ok_iff.mp returns
    exact Except.ok.inj last ▸ rfl
  · exact Except.ok.inj returns ▸ rfl

namespace Agrees

variable {cfg : Config} {live : Handles} {k k' : Kernel β}

theorem osGetRunningTid (agrees : k.Agrees cfg live k') :
    k'.osGetRunningTid = k.osGetRunningTid :=
  agrees.runningTid.symm

/-! ### Updates -/

theorem withTasks (agrees : k.Agrees cfg live k') {tasks tasks' : TaskTable}
    (same : tasks.Agrees cfg tasks') :
    { k with tasks := tasks }.Agrees cfg live { k' with tasks := tasks' } :=
  { agrees with tasks := same }

theorem withQueue (agrees : k.Agrees cfg live k') (queue : Nat)
    (q : OSQueue β) :
    { k with queues := k.queues.setQueue queue q }.Agrees cfg live
      { k' with queues := k'.queues.setQueue queue q } :=
  { agrees with queues := fun available =>
      (agrees.queues available).setQueue queue q }

theorem withSignaller (agrees : k.Agrees cfg live k') (eventId tid : Nat) :
    { k with events := k.events.setSignaledByTid eventId tid }.Agrees cfg live
      { k' with events := k'.events.setSignaledByTid eventId tid } :=
  { agrees with events := fun available =>
      (agrees.events available).setSignaledByTid eventId tid }

theorem record (agrees : k.Agrees cfg live k') (entry : Entry β) :
    (k.record entry).Agrees cfg live (k'.record entry) :=
  { agrees with history := by rw [Kernel.record, Kernel.record, agrees.history] }

theorem modifyRunning (agrees : k.Agrees cfg live k') (change : Tcb → Tcb) :
    (k.modifyRunning change).Agrees cfg live (k'.modifyRunning change) := by
  unfold Kernel.modifyRunning
  rw [agrees.osGetRunningTid]
  exact agrees.withTasks (agrees.tasks.modify _ change)

theorem osYield (agrees : k.Agrees cfg live k') (line : Nat) :
    (k.osYield line).Agrees cfg live (k'.osYield line) :=
  { agrees.modifyRunning fun task => { task with internalState := line } with
    runningTid := rfl }

theorem osFreeTid (agrees : k.Agrees cfg live k') :
    k.osFreeTid.Agrees cfg live k'.osFreeTid :=
  { agrees with runningTid := rfl }

theorem osStart (agrees : k.Agrees cfg live k') :
    k.osStart.Agrees cfg live k'.osStart :=
  { agrees with running := rfl }

/-- Related functions of the task table are related functions of the kernel. -/
theorem onTasks (agrees : k.Agrees cfg live k') {tasks tasks' : Outcome TaskTable}
    (related : Related (TaskTable.Agrees cfg) tasks tasks') :
    Related (Agrees cfg live) (k.onTasks tasks) (k'.onTasks tasks') :=
  related.map fun _ _ same => agrees.withTasks same

/-! ### Events -/

theorem osSignalEvent (agrees : k.Agrees cfg live k') (eventId : Nat) :
    Related (Agrees cfg live) (k.osSignalEvent cfg eventId)
      (k'.osSignalEvent cfg eventId) := by
  refine .ite Iff.rfl (fun available => ?_) fun _ => .value agrees
  have noted : { k with
        events := { k.events with lastSignaledEvent := eventId } }.Agrees cfg live
      { k' with events := { k'.events with lastSignaledEvent := eventId } } := by
    obtain ⟨nEvents, small, signaledByTid⟩ := agrees.events available
    exact { agrees with events := fun _ => ⟨nEvents, small, signaledByTid⟩ }
  exact (agrees.tasks.osTaskSignalEvent eventId).bind
    fun _ _ same => .value ((noted.withTasks same).record _)

theorem osEventSetSignalingTid (agrees : k.Agrees cfg live k')
    (eventId tid : Nat) :
    Related (Agrees cfg live) (k.osEventSetSignalingTid cfg eventId tid)
      (k'.osEventSetSignalingTid cfg eventId tid) := by
  refine .ite Iff.rfl (fun _ => ?_) fun _ => .value agrees
  exact .guard Iff.rfl fun _ => .value (agrees.withSignaller eventId tid)

theorem eventIsrSignal (agrees : k.Agrees cfg live k') (eventId : Nat) :
    Related (Agrees cfg live) (k.eventIsrSignal cfg eventId)
      (k'.eventIsrSignal cfg eventId) :=
  (agrees.osSignalEvent eventId).bind
    fun _ _ signalled => signalled.osEventSetSignalingTid eventId isrTid

theorem osSignalEventMacro (agrees : k.Agrees cfg live k')
    (event line : Nat) :
    Related (Agrees cfg live) (k.osSignalEventMacro cfg event line)
      (k'.osSignalEventMacro cfg event line) := by
  apply (agrees.osSignalEvent event).bind
  intro signalled signalled' same
  rw [same.osGetRunningTid]
  exact (same.osEventSetSignalingTid event _).bind
    fun _ _ named => .value (named.osYield line)

theorem osWaitSingleEvent (agrees : k.Agrees cfg live k')
    (event timeout line : Nat) :
    Related (Agrees cfg live) (k.osWaitSingleEvent cfg event timeout line)
      (k'.osWaitSingleEvent cfg event timeout line) := by
  have known : (0 < cfg.nTotalEvents ∧ event < k.events.nEvents) ↔
      (0 < cfg.nTotalEvents ∧ event < k'.events.nEvents) :=
    and_congr_right fun available => by rw [(agrees.events available).nEvents]
  have waits : Related (Agrees cfg live)
      (k.osWaitEvent cfg k.osGetRunningTid event true timeout none)
      (k'.osWaitEvent cfg k'.osGetRunningTid event true timeout none) := by
    rw [agrees.osGetRunningTid]
    refine .ite known (fun _ => ?_) fun _ => .value agrees
    exact (agrees.tasks.osTaskWaitEvent _ event true timeout).bind
      fun _ _ same => .value ((agrees.withSignaller event noTid).withTasks same)
  exact waits.bind fun _ _ waiting => .value (waiting.osYield line)

theorem waitMultipleMark {tasks tasks' : TaskTable}
    (agrees : tasks.Agrees cfg tasks') (runningTid : Nat) (waitForAll : Bool)
    (args : List Nat) :
    Related (TaskTable.Agrees cfg)
      (Kernel.waitMultipleMark cfg runningTid waitForAll args tasks)
      (Kernel.waitMultipleMark cfg runningTid waitForAll args tasks') := by
  induction args generalizing tasks tasks' with
  | nil => exact .stop _
  | cons event rest inductionHypothesis =>
      apply (agrees.osTaskWaitEvent runningTid (event % 256) (!waitForAll) 0).bind
      intro marked marked' same
      cases rest with
      | nil => exact .stop _
      | cons next others =>
          exact .ite Iff.rfl (fun _ => inductionHypothesis same)
            fun _ => .value same

theorem osWaitMultipleEvents (agrees : k.Agrees cfg live k') (waitAll : Bool)
    (args : List Nat) (line : Nat) :
    Related (Agrees cfg live) (k.osWaitMultipleEvents cfg waitAll args line)
      (k'.osWaitMultipleEvents cfg waitAll args line) := by
  have waits : Related (Agrees cfg live)
      (k.osWaitMultiple cfg waitAll (args ++ [noEvent]))
      (k'.osWaitMultiple cfg waitAll (args ++ [noEvent])) := by
    refine .ite Iff.rfl (fun _ => ?_) fun _ => .value agrees
    cases args ++ [noEvent] with
    | nil => exact .stop _
    | cons first unread =>
        apply Related.bind (Related.of_eq (fun _ => rfl) rfl)
        rintro event _ rfl
        apply Related.guard Iff.rfl
        intro _
        rw [agrees.osGetRunningTid]
        exact (waitMultipleMark (agrees.tasks.modify _ _) _ waitAll _).bind
          fun _ _ same => .value (agrees.withTasks same)
  exact waits.bind fun _ _ waiting => .value (waiting.osYield line)

/-! ### Semaphores -/

theorem osSemLargerThanZero (agrees : k.Agrees cfg live k') {sem : Int}
    (member : sem ∈ live.sems) (inside : cfg.HasSem sem) :
    k'.sems.osSemLargerThanZero cfg sem = k.sems.osSemLargerThanZero cfg sem := by
  unfold SemTable.osSemLargerThanZero
  by_cases available : 0 < cfg.nTotalSemaphores
  · rw [(agrees.sems available).value sem member inside]
  · rw [if_neg available, if_neg available]

theorem osWaitSem (agrees : k.Agrees cfg live k') {sem : Int}
    (member : sem ∈ live.sems) (inside : cfg.HasSem sem) (line : Nat) :
    Related (Agrees cfg live) (k.osWaitSem cfg sem line)
      (k'.osWaitSem cfg sem line) := by
  refine .ite (by rw [agrees.osSemLargerThanZero member inside]) ?_ ?_
  · exact fun _ => .value { agrees with sems := fun available =>
      (agrees.sems available).osSemDecrement member inside }
  · intro _
    rw [agrees.osGetRunningTid]
    exact (agrees.onTasks (agrees.tasks.guarded _ _)).bind
      fun _ _ waiting => .value (waiting.osYield line)

theorem semIncrement (agrees : k.Agrees cfg live k') {sem : Int}
    (member : sem ∈ live.sems) (inside : cfg.HasSem sem) :
    { k with sems := k.sems.osSemIncrement cfg sem }.Agrees cfg live
      { k' with sems := k'.sems.osSemIncrement cfg sem } :=
  { agrees with sems := fun available =>
      (agrees.sems available).osSemIncrement member inside }

theorem osSignalSemNoSchedule (agrees : k.Agrees cfg live k') {sem : Int}
    (member : sem ∈ live.sems) (inside : cfg.HasSem sem) :
    (k.osSignalSemNoSchedule cfg sem).Agrees cfg live
      (k'.osSignalSemNoSchedule cfg sem) := by
  unfold Kernel.osSignalSemNoSchedule
  rw [← agrees.tasks.osTaskWaitingThisSemaphore sem]
  by_cases waiting : k.tasks.osTaskWaitingThisSemaphore sem = true
  · rw [if_pos waiting, if_pos waiting]
    exact agrees.withTasks (agrees.tasks.osTaskReleaseWaitingTask sem)
  · rw [if_neg waiting, if_neg waiting]
    exact agrees.semIncrement member inside

theorem osSignalSem (agrees : k.Agrees cfg live k') {sem : Int}
    (member : sem ∈ live.sems) (inside : cfg.HasSem sem) (line : Nat) :
    (k.osSignalSem cfg sem line).Agrees cfg live
      (k'.osSignalSem cfg sem line) := by
  unfold Kernel.osSignalSem
  rw [← agrees.tasks.osTaskWaitingThisSemaphore sem]
  by_cases waiting : k.tasks.osTaskWaitingThisSemaphore sem = true
  · rw [if_pos waiting, if_pos waiting]
    exact (agrees.withTasks
      (agrees.tasks.osTaskReleaseWaitingTask sem)).osYield line
  · rw [if_neg waiting, if_neg waiting]
    exact agrees.semIncrement member inside

/-! ### Queues -/

theorem osMsgQFind (agrees : k.Agrees cfg live k') (taskId : Nat) :
    k'.queues.osMsgQFind cfg taskId = k.queues.osMsgQFind cfg taskId := by
  unfold QueueTable.osMsgQFind
  by_cases available : 0 < cfg.nQueues
  · have same := agrees.queues available
    rw [if_pos available, if_pos available, ← same.nQueues,
      same.osMsgQFindFrom taskId _ 0 (by omega)]
  · rw [if_neg available, if_neg available]

theorem osMsgQEventGet (agrees : k.Agrees cfg live k') (queue : Nat) :
    k'.queues.osMsgQEventGet cfg queue = k.queues.osMsgQEventGet cfg queue := by
  unfold QueueTable.osMsgQEventGet
  by_cases available : 0 < cfg.nQueues
  · have same := agrees.queues available
    rw [if_pos available, if_pos available, ← same.nQueues]
    by_cases outside : k.queues.nQueues ≤ queue
    · rw [if_pos outside, if_pos outside]
    · rw [if_neg outside, if_neg outside, same.entry queue (by omega)]
  · rw [if_neg available, if_neg available]

theorem osMsgPost (agrees : k.Agrees cfg live k') (msg : Msg β)
    (queue delay period : Nat) :
    Related (Alike (Alike (Agrees cfg live)))
      (k.osMsgPost cfg msg queue delay period)
      (k'.osMsgPost cfg msg queue delay period) := by
  refine .ite Iff.rfl (fun available => ?_) fun _ => .value ⟨rfl, rfl, agrees⟩
  have same := agrees.queues available
  refine .ite (by rw [same.nQueues]) (fun _ => .value ⟨rfl, rfl, agrees⟩) ?_
  intro inside
  rw [← same.entry queue (by omega)]
  apply Related.bind (Related.of_eq (fun _ => rfl) rfl)
  rintro ⟨result, q⟩ _ rfl
  have kept := agrees.withQueue queue q
  exact .ite Iff.rfl (fun _ => .value ⟨rfl, rfl, kept.record _⟩)
    fun _ => .value ⟨rfl, rfl, kept⟩

theorem osMsgReceive (agrees : k.Agrees cfg live k') (msg : Msg β)
    (queue : Nat) :
    Related (Alike (Alike (Agrees cfg live))) (k.osMsgReceive cfg msg queue)
      (k'.osMsgReceive cfg msg queue) := by
  refine .ite Iff.rfl (fun available => ?_) fun _ => .value ⟨rfl, rfl, agrees⟩
  have same := agrees.queues available
  refine .ite (by rw [same.nQueues]) (fun _ => .value ⟨rfl, rfl, agrees⟩) ?_
  intro inside
  rw [← same.entry queue (by omega)]
  refine .ite Iff.rfl (fun _ => .value ⟨rfl, rfl, agrees⟩) fun _ => ?_
  apply Related.bind (Related.of_eq (fun _ => rfl) rfl)
  rintro allDelayed _ rfl
  refine .ite Iff.rfl (fun _ => .value ⟨rfl, rfl, agrees⟩) fun _ => ?_
  apply Related.bind (Related.of_eq (fun _ => rfl) rfl)
  rintro delivery _ rfl
  exact .value ⟨rfl, rfl, (agrees.withQueue queue _).record _⟩

/-! ### Clocks -/

theorem msgQTickBody (agrees : k.Agrees cfg live k') {queue : Nat}
    (available : 0 < cfg.nQueues) (created : queue < k.queues.nQueues)
    (nextMessage : Nat) :
    Related (fun k₁ k₁' => k₁.Agrees cfg live k₁' ∧
        k₁.queues.nQueues = k.queues.nQueues)
      (k.msgQTickBody cfg queue nextMessage)
      (k'.msgQTickBody cfg queue nextMessage) := by
  have same := (agrees.queues available).entry queue created
  refine .strengthen ?_ fun _ _ returns _ (related : Agrees cfg live _ _) =>
    ⟨related, msgQTickBody_nQueues returns⟩
  unfold Kernel.msgQTickBody
  rw [← same]
  refine .ite Iff.rfl (fun _ => ?_) fun _ => .value agrees
  apply Related.bind (Related.of_eq (fun _ => rfl) rfl)
  rintro q _ rfl
  have kept := agrees.withQueue queue q
  refine .ite Iff.rfl (fun _ => ?_) fun _ => .value kept
  have change : ((k.queues.setQueue queue q).msgQList queue).change =
      ((k'.queues.setQueue queue q).msgQList queue).change := by
    simp [QueueTable.setQueue, same]
  dsimp only
  rw [change]
  exact kept.eventIsrSignal _

theorem msgQTickLoop (agrees : k.Agrees cfg live k') {queue : Nat}
    (available : 0 < cfg.nQueues) (created : queue < k.queues.nQueues)
    (head fuel nextMessage : Nat) :
    Related (Agrees cfg live)
      (Kernel.msgQTickLoop cfg queue head fuel nextMessage k)
      (Kernel.msgQTickLoop cfg queue head fuel nextMessage k') := by
  induction fuel generalizing k k' nextMessage with
  | zero =>
      unfold Kernel.msgQTickLoop
      refine .ite Iff.rfl (fun _ => .value agrees) fun _ => ?_
      exact (agrees.msgQTickBody available created nextMessage).bind
        fun _ _ _ => .stop _
  | succ fuel inductionHypothesis =>
      unfold Kernel.msgQTickLoop
      refine .ite Iff.rfl (fun _ => .value agrees) fun _ => ?_
      apply (agrees.msgQTickBody available created nextMessage).bind
      rintro k₁ k₁' ⟨same, nQueues⟩
      rw [← nQueues] at created
      dsimp only
      rw [← (same.queues available).entry queue created]
      exact inductionHypothesis same created _

theorem osMsgQTick (agrees : k.Agrees cfg live k') {queue : Nat}
    (created : 0 < cfg.nQueues → queue < k.queues.nQueues) :
    Related (Agrees cfg live) (k.osMsgQTick cfg queue)
      (k'.osMsgQTick cfg queue) := by
  refine .ite Iff.rfl (fun available => ?_) fun _ => .value agrees
  rw [← (agrees.queues available).entry queue (created available)]
  exact agrees.msgQTickLoop available (created available) _ _ _

theorem taskTickBody (agrees : k.Agrees cfg live k') (sound : k.Sound cfg)
    (clockId tickSize : Nat) {tid : Nat} (created : tid < k.tasks.nTasks) :
    Related (Agrees cfg live) (k.taskTickBody cfg clockId tickSize tid)
      (k'.taskTickBody cfg clockId tickSize tid) := by
  have ticked := agrees.withTasks
    (agrees.tasks.modify tid (Tcb.tick cfg clockId tickSize))
  have soundTicked := sound.of_micro (.tick k tid clockId tickSize created)
  have msgQ := congrArg Tcb.msgQ (ticked.tasks.created created)
  unfold Kernel.taskTickBody
  refine .ite Iff.rfl (fun _ => ?_) fun _ => .value ticked
  refine .ite (by rw [msgQ]) (fun owns => ?_) fun _ => .value ticked
  dsimp only at owns ⊢
  rw [← msgQ]
  exact ticked.osMsgQTick fun available =>
    (soundTicked.queues.owned available tid created owns).1

theorem taskTick (agrees : k.Agrees cfg live k') (sound : k.Sound cfg)
    (clockId tickSize : Nat) :
    Related (Agrees cfg live) (k.taskTick cfg clockId tickSize)
      (k'.taskTick cfg clockId tickSize) := by
  have loops : Related
      (fun k₁ k₁' => k₁.Agrees cfg live k₁' ∧ k₁.Sound cfg ∧
        k₁.tasks.nTasks = k.tasks.nTasks)
      (k.taskTick cfg clockId tickSize) (k'.taskTick cfg clockId tickSize) := by
    unfold Kernel.taskTick
    rw [← agrees.tasks.nTasks]
    refine .forRange ⟨agrees, sound, rfl⟩ ?_
    rintro tid k₁ k₁' created ⟨same, soundHere, nTasks⟩
    rw [← nTasks] at created
    apply (same.taskTickBody soundHere clockId tickSize created).strengthen
    intro k₂ k₂' body _ next
    have trace := taskTickBody_trace soundHere created body
    have objects := SameObjects.of_trace trace
      (k₁.quiet_taskTickActs cfg clockId tickSize tid _)
    exact ⟨next, soundHere.of_trace trace, objects.nTasks.trans nTasks⟩
  exact loops.mono fun _ _ related => related.1

theorem osTick (agrees : k.Agrees cfg live k') (sound : k.Sound cfg) :
    Related (Agrees cfg live) (k.osTick cfg) (k'.osTick cfg) :=
  (agrees.record .ticked).taskTick (sound.of_micro (.clock k)) 0 1

theorem osSubTick (agrees : k.Agrees cfg live k') (sound : k.Sound cfg)
    (id : Nat) :
    Related (Agrees cfg live) (k.osSubTick cfg id) (k'.osSubTick cfg id) :=
  .ite Iff.rfl (fun _ => agrees.taskTick sound id 1) fun _ => .value agrees

theorem osSubNTick (agrees : k.Agrees cfg live k') (sound : k.Sound cfg)
    (id nTicks : Nat) :
    Related (Agrees cfg live) (k.osSubNTick cfg id nTicks)
      (k'.osSubNTick cfg id nTicks) :=
  .ite Iff.rfl (fun _ => agrees.taskTick sound id nTicks)
    fun _ => .value agrees

/-! ### Scheduling and tasks -/

theorem selectTask (agrees : k.Agrees cfg live k') :
    Related (Agrees cfg live) (k.selectTask cfg) (k'.selectTask cfg) := by
  refine .ite Iff.rfl (fun _ => ?_) fun _ => ?_
  · apply agrees.tasks.nextReadyTask.bind
    rintro ⟨tid, tasks⟩ ⟨_, tasks'⟩ ⟨rfl, same⟩
    exact .value { agrees.withTasks same with runningTid := rfl }
  · exact .value { agrees with
      runningTid := agrees.tasks.highestPrioReadyTask }

theorem osEnd (agrees : k.Agrees cfg live k') :
    Related (Agrees cfg live) k.osEnd k'.osEnd := by
  unfold Kernel.osEnd
  rw [agrees.osGetRunningTid]
  exact (agrees.onTasks (agrees.tasks.guarded _ _)).bind
    fun _ _ killed => .value killed.osFreeTid

theorem osWaitTicks (agrees : k.Agrees cfg live k') (ticks id line : Nat) :
    Related (Agrees cfg live) (k.osWaitTicks ticks id line)
      (k'.osWaitTicks ticks id line) := by
  unfold Kernel.osWaitTicks
  rw [agrees.osGetRunningTid]
  exact (agrees.onTasks (agrees.tasks.osTaskWaitTimeSet _ id ticks)).bind
    fun _ _ waiting => .value (waiting.osYield line)

theorem yieldIfSelf (agrees : k.Agrees cfg live k') (id line : Nat) :
    (k.yieldIfSelf id line).Agrees cfg live (k'.yieldIfSelf id line) := by
  unfold Kernel.yieldIfSelf
  rw [agrees.osGetRunningTid]
  by_cases self : id = k.osGetRunningTid
  · rw [if_pos self, if_pos self]
    exact agrees.osYield line
  · rw [if_neg self, if_neg self]
    exact agrees

theorem osSuspendTask (agrees : k.Agrees cfg live k') (id line : Nat) :
    Related (Agrees cfg live) (k.osSuspendTask id line)
      (k'.osSuspendTask id line) :=
  (agrees.onTasks (agrees.tasks.guarded id Tcb.suspend)).bind
    fun _ _ suspended => .value (suspended.yieldIfSelf id line)

theorem osResumeTask (agrees : k.Agrees cfg live k') (id line : Nat) :
    Related (Agrees cfg live) (k.osResumeTask id line)
      (k'.osResumeTask id line) :=
  (agrees.onTasks (agrees.tasks.guarded id Tcb.resume)).bind
    fun _ _ resumed => .value (resumed.yieldIfSelf id line)

/-- The task control block of the running task, when a task runs. -/
theorem runningTcb (agrees : k.Agrees cfg live k')
    (inside : k.runningTid < k.tasks.nTasks) :
    k'.tasks.taskList k'.osGetRunningTid = k.tasks.taskList k.osGetRunningTid := by
  rw [agrees.osGetRunningTid]
  exact (agrees.tasks.created inside).symm

/-! ### Message macros -/

theorem signalChange (agrees : k.Agrees cfg live k') (done : Bool)
    (event : Nat) :
    Related (Agrees cfg live) (k.signalChange cfg done event)
      (k'.signalChange cfg done event) := by
  refine .ite Iff.rfl (fun _ => ?_) fun _ => .value agrees
  apply (agrees.osSignalEvent event).bind
  intro signalled signalled' same
  rw [same.osGetRunningTid]
  exact same.osEventSetSignalingTid event _

theorem msgPostTurn (agrees : k.Agrees cfg live k') (taskId : Nat)
    (msg : Msg β) (delay period : Nat) (async : Bool) (event line : Nat) :
    Related (Alike (Agrees cfg live))
      (k.msgPostTurn cfg taskId msg delay period async event line)
      (k'.msgPostTurn cfg taskId msg delay period async event line) := by
  unfold Kernel.msgPostTurn
  rw [agrees.osMsgQFind]
  apply (agrees.osMsgPost msg _ delay period).bind
  rintro ⟨result, armed, k₁⟩ ⟨_, _, k₁'⟩ ⟨rfl, rfl, same⟩
  refine .ite Iff.rfl (fun _ => ?_) fun _ => ?_
  · exact ((same.modifyRunning _).osWaitSingleEvent event 0 line).bind
      fun _ _ blocked => .value ⟨rfl, blocked⟩
  · exact (same.signalChange _ event).bind fun _ _ done => .value ⟨rfl, done⟩

theorem msgReceiveTurn (agrees : k.Agrees cfg live k') (taskId : Nat)
    (pMsg : Msg β) (async : Bool) (event line : Nat) :
    Related (Alike (Alike (Agrees cfg live)))
      (k.msgReceiveTurn cfg taskId pMsg async event line)
      (k'.msgReceiveTurn cfg taskId pMsg async event line) := by
  unfold Kernel.msgReceiveTurn
  rw [agrees.osMsgQFind]
  apply (agrees.osMsgReceive pMsg _).bind
  rintro ⟨result, buffer, k₁⟩ ⟨_, _, k₁'⟩ ⟨rfl, rfl, same⟩
  refine .ite Iff.rfl (fun _ => ?_) fun _ => ?_
  · exact ((same.modifyRunning _).osWaitSingleEvent event 0 line).bind
      fun _ _ blocked => .value ⟨rfl, rfl, blocked⟩
  · exact (same.signalChange _ event).bind
      fun _ _ done => .value ⟨rfl, rfl, done⟩

theorem setWaitQueue (agrees : k.Agrees cfg live k') (taskId : Nat) :
    (k.setWaitQueue cfg taskId).Agrees cfg live
      (k'.setWaitQueue cfg taskId) := by
  unfold Kernel.setWaitQueue
  simp only [agrees.osMsgQFind, agrees.osMsgQEventGet]
  exact agrees.modifyRunning _

theorem osMsgQPost (agrees : k.Agrees cfg live k') (taskId : Nat)
    (msg : Msg β) (delay period : Nat) (async : Bool) (line : Nat) :
    Related (Alike (Agrees cfg live))
      (k.osMsgQPost cfg taskId msg delay period async line)
      (k'.osMsgQPost cfg taskId msg delay period async line) := by
  unfold Kernel.osMsgQPost
  rw [agrees.osMsgQFind, agrees.osMsgQEventGet]
  exact (agrees.setWaitQueue taskId).msgPostTurn taskId msg delay period async
    _ line

theorem osMsgQReceive (agrees : k.Agrees cfg live k') (taskId : Nat)
    (pMsg : Msg β) (async : Bool) (line : Nat) :
    Related (Alike (Alike (Agrees cfg live)))
      (k.osMsgQReceive cfg taskId pMsg async line)
      (k'.osMsgQReceive cfg taskId pMsg async line) := by
  unfold Kernel.osMsgQReceive
  rw [agrees.osMsgQFind, agrees.osMsgQEventGet]
  exact (agrees.setWaitQueue taskId).msgReceiveTurn taskId pMsg async _ line

theorem osMsgQPostResume (agrees : k.Agrees cfg live k')
    (inside : k.runningTid < k.tasks.nTasks) (taskId : Nat) (msg : Msg β)
    (delay period line : Nat) :
    Related (Alike (Agrees cfg live))
      (k.osMsgQPostResume cfg taskId msg delay period line)
      (k'.osMsgQPostResume cfg taskId msg delay period line) := by
  unfold Kernel.osMsgQPostResume
  rw [agrees.runningTcb inside]
  refine .ite Iff.rfl (fun _ => ?_) fun _ => ?_
  · exact agrees.msgPostTurn taskId msg delay period false _ line
  · exact (agrees.signalChange _ _).bind fun _ _ done => .value ⟨rfl, done⟩

theorem osMsgQReceiveResume (agrees : k.Agrees cfg live k')
    (inside : k.runningTid < k.tasks.nTasks) (taskId : Nat) (pMsg : Msg β)
    (line : Nat) :
    Related (Alike (Alike (Agrees cfg live)))
      (k.osMsgQReceiveResume cfg taskId pMsg line)
      (k'.osMsgQReceiveResume cfg taskId pMsg line) := by
  unfold Kernel.osMsgQReceiveResume
  rw [agrees.runningTcb inside]
  refine .ite Iff.rfl (fun _ => ?_) fun _ => ?_
  · exact agrees.msgReceiveTurn taskId pMsg false _ line
  · exact (agrees.signalChange _ _).bind
      fun _ _ done => .value ⟨rfl, rfl, done⟩

/-! ### Creation -/

/-- Both kernels create the same event, and agree on it afterwards. -/
theorem eventCreate (agrees : k.Agrees cfg live k') :
    Related (fun made made' => made.1 = made'.1 ∧
        { k with events := made.2 }.Agrees cfg (live.withEvent made.1)
          { k' with events := made'.2 })
      (k.events.eventCreate cfg) (k'.events.eventCreate cfg) := by
  by_cases available : 0 < cfg.nTotalEvents
  · apply ((agrees.events available).eventCreate available).mono
    rintro made made' ⟨same, events⟩
    exact ⟨same, { agrees with events := fun _ => events }⟩
  · unfold EventTable.eventCreate
    rw [if_neg available, if_neg available]
    exact .value ⟨rfl, { agrees with
      events := fun some => absurd some available }⟩

/-- Both kernels create the same semaphore, and agree on it afterwards. -/
theorem osSemCreate (agrees : k.Agrees cfg live k') (max initial : Nat) :
    Related (fun made made' => made.1 = made'.1 ∧
        { k with sems := made.2 }.Agrees cfg (live.withSem made.1)
          { k' with sems := made'.2 })
      (k.sems.osSemCreate cfg max initial)
      (k'.sems.osSemCreate cfg max initial) := by
  by_cases available : 0 < cfg.nTotalSemaphores
  · apply ((agrees.sems available).osSemCreate available max initial).mono
    rintro made made' ⟨same, sems⟩
    exact ⟨same, { agrees with sems := fun _ => sems }⟩
  · unfold SemTable.osSemCreate
    rw [if_neg available, if_neg available]
    exact .value ⟨rfl, { agrees with
      sems := fun some => absurd some available }⟩

/-- Both kernels create the same queue, and agree on its event as well. -/
theorem osMsgQCreate (agrees : k.Agrees cfg live k')
    (buffer : Nat → Msg β) (nMessages msgSize taskId : Nat) :
    Related (fun made made' => made.1 = made'.1 ∧
        live.withQueue cfg made.1 made.2.queues =
          live.withQueue cfg made'.1 made'.2.queues ∧
        made.2.Agrees cfg (live.withQueue cfg made.1 made.2.queues) made'.2)
      (k.osMsgQCreate cfg buffer nMessages msgSize taskId)
      (k'.osMsgQCreate cfg buffer nMessages msgSize taskId) := by
  unfold Handles.withQueue
  refine .ite Iff.rfl (fun available => ?_) fun none => .value ⟨rfl, ?_⟩
  · have same := agrees.queues available
    have someEvent : 0 < cfg.nTotalEvents := by
      unfold Config.nTotalEvents
      omega
    refine .guard (by rw [same.nQueues]) fun _ => ?_
    apply ((agrees.events someEvent).eventCreate someEvent).bind
    rintro ⟨change, events⟩ ⟨_, events'⟩ ⟨rfl, sameEvents⟩
    refine .value ⟨same.nQueues, ?_⟩
    dsimp only
    rw [if_pos available, if_pos available, Function.update_self,
      Function.update_self, ← same.nQueues]
    refine ⟨rfl, ?_⟩
    refine { agrees with events := fun _ => sameEvents, queues := fun _ => ?_ }
    refine ⟨rfl, fun queue inside => ?_⟩
    dsimp only at inside ⊢
    by_cases new : queue = k.queues.nQueues
    · subst new
      rw [Function.update_self, Function.update_self]
    · rw [Function.update_of_ne new, Function.update_of_ne new]
      exact same.entry queue (by omega)
  · rw [if_neg none, if_neg none]
    exact ⟨rfl, agrees⟩

/-- The end of `os_task_create`. -/
theorem newTask (agrees : k.Agrees cfg live k') {tid : Nat}
    (room : tid < cfg.nTasks) (change : Tcb → Tcb) :
    { k with tasks := { (k.tasks.modify tid change).osTaskClearWaitQueue cfg tid
        with nTasks := tid + 1 } }.Agrees cfg live
      { k' with tasks := { (k'.tasks.modify tid change).osTaskClearWaitQueue cfg
        tid with nTasks := tid + 1 } } := by
  have entry := (agrees.tasks.modify tid change).modify tid
    (Tcb.clearWaitQueue cfg)
  exact agrees.withTasks ⟨rfl, entry.lastRunningTask, room, entry.entry⟩

/-- Both kernels create the same task, and agree on it and on the event of its
queue. -/
theorem osTaskCreate (agrees : k.Agrees cfg live k')
    (taskproc data prio : Nat) (msgPool : Nat → Msg β)
    (poolSize msgSize : Nat) :
    Related (fun made made' => made.1 = made'.1 ∧
        live.withTask cfg poolSize made.1 made.2 =
          live.withTask cfg poolSize made'.1 made'.2 ∧
        made.2.Agrees cfg (live.withTask cfg poolSize made.1 made.2) made'.2)
      (k.osTaskCreate cfg taskproc data prio msgPool poolSize msgSize)
      (k'.osTaskCreate cfg taskproc data prio msgPool poolSize msgSize) := by
  have tasks := agrees.tasks
  unfold Kernel.osTaskCreate Handles.withTask
  rw [← tasks.nTasks, ← tasks.prioUnused prio _ (Nat.le_refl _)]
  refine .guard (by rw [agrees.running]) fun _ => .guard Iff.rfl fun room => ?_
  refine .guard Iff.rfl fun _ => .guard Iff.rfl fun _ => ?_
  have started := agrees.withTasks
    (tasks.modify k.tasks.nTasks (createdTcb taskproc prio k.tasks.nTasks))
  refine .ite Iff.rfl (fun pool => ?_) fun noPool => ?_
  · apply (started.osMsgQCreate msgPool poolSize msgSize k.tasks.nTasks).bind
    rintro ⟨msgQ, k₁⟩ ⟨_, k₁'⟩ ⟨rfl, event, same⟩
    refine .value ⟨rfl, ?_⟩
    rw [if_pos pool, if_pos pool]
    refine ⟨?_, ?_⟩
    · simpa [TaskTable.osTaskClearWaitQueue, Tcb.clearWaitQueue] using event
    · simpa [TaskTable.osTaskClearWaitQueue, Tcb.clearWaitQueue] using
        same.newTask room fun task => { task with msgQ := msgQ, data := data }
  · refine .value ⟨rfl, ?_⟩
    rw [if_neg noPool, if_neg noPool]
    exact ⟨rfl, started.newTask room _⟩

end Agrees

end Kernel

end CocoOs
