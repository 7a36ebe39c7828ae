import CocoOs.Actions
import CocoOs.Creation

/-!
# One task under the actions

What an action does to the task control block of one task, as a function of
that block alone.  The fields `os_task_create` fills in are never rewritten.
-/

namespace CocoOs

open Foundation

variable {β : Type}

/-! ## Fields that creation fixes -/

namespace Tcb

/-- The fields of a task control block that only `os_task_create` sets:
procedure, id, priority, message queue and data. -/
def static (task : Tcb) : Nat × Nat × Nat × Nat × Nat :=
  (task.taskproc, task.tid, task.prio, task.msgQ, task.data)

@[simp] theorem static_waitTimeSet (id time : Nat) (task : Tcb) :
    (task.waitTimeSet id time).static = task.static := rfl

@[simp] theorem static_waitSemSet (sem : Int) (task : Tcb) :
    (task.waitSemSet sem).static = task.static := rfl

@[simp] theorem static_suspend (task : Tcb) :
    task.suspend.static = task.static := by
  unfold suspend
  split_ifs <;> rfl

@[simp] theorem static_resume (task : Tcb) :
    task.resume.static = task.static := by
  unfold resume
  split_ifs <;> rfl

@[simp] theorem static_tick (cfg : Config) (clockId tickSize : Nat)
    (task : Tcb) : (task.tick cfg clockId tickSize).static = task.static := by
  unfold tick
  dsimp only
  split_ifs <;> rfl

@[simp] theorem static_signalEvent (cfg : Config) (eventId : Nat) (task : Tcb) :
    (task.signalEvent cfg eventId).static = task.static := by
  unfold signalEvent
  dsimp only
  split_ifs <;> rfl

@[simp] theorem static_waitEvent
    (eventId : Nat) (waitSingleEvent : Bool) (timeout : Nat) (task : Tcb) :
    (task.waitEvent eventId waitSingleEvent timeout).static = task.static := by
  unfold waitEvent
  dsimp only
  split_ifs <;> rfl

@[simp] theorem static_wait (cfg : Config) (wait : Wait) (task : Tcb) :
    (wait.apply cfg task).static = task.static := by
  have folded : ∀ (events : List Nat) (single : Bool) (task : Tcb),
      (events.foldl (fun task eventId => task.waitEvent eventId single 0)
        task).static = task.static := by
    intro events single
    induction events with
    | nil => exact fun _ => rfl
    | cons eventId events inductionHypothesis =>
        intro task
        rw [List.foldl_cons, inductionHypothesis, static_waitEvent]
  cases wait with
  | multiple waitAll events => exact (folded events _ _).trans rfl
  | _ => simp [Wait.apply]

@[simp] theorem static_note (note : Note) (task : Tcb) :
    (note.apply task).static = task.static := by
  cases note <;> rfl

end Tcb

/-! ## The state of a task that waits -/

/-- The state in which a task waits. -/
def Wait.state : Wait → TaskState
  | .time _ _ => .waitingTime
  | .event _ timeout => if timeout ≠ 0 then .waitingEventTimeout else .waitingEvent
  | .multiple _ _ => .waitingEvent
  | .sem _ => .waitingSem
  | .room _ _ => .waitingEvent
  | .message _ _ => .waitingEvent

/-- A task that starts to wait gets the state of its wait, whatever it was in. -/
theorem Wait.state_apply
    {cfg : Config} {k : Kernel β} {wait : Wait}
    (enabled : wait.Enabled cfg k) (task : Tcb) :
    (wait.apply cfg task).state = wait.state := by
  cases wait with
  | event eventId timeout =>
      by_cases timed : timeout ≠ 0 <;>
        simp [Wait.apply, Wait.state, Tcb.waitEvent, timed]
  | multiple waitAll events =>
      obtain ⟨earlier, last, rfl⟩ :=
        (List.eq_nil_or_concat events).resolve_left enabled.1
      simp [Wait.apply, Wait.state, Tcb.waitEvent]
  | _ => rfl

/-! ## The view of one task -/

/-- What an action does to the task control block of a created task. -/
def Act.onTask (cfg : Config) (tid : Nat) : Act β → Tcb → Tcb
  | .yield actor line, task =>
      if tid = actor then { task with internalState := line } else task
  | .block actor wait line, task =>
      if tid = actor then { wait.apply cfg task with internalState := line }
      else task
  | .note actor noted, task => if tid = actor then noted.apply task else task
  | .suspend other, task => if tid = other then task.suspend else task
  | .resume other, task => if tid = other then task.resume else task
  | .kill other, task => if tid = other then task.kill else task
  | .tick other clockId tickSize, task =>
      if tid = other then task.tick cfg clockId tickSize else task
  | .signal eventId, task => task.signalEvent cfg eventId
  | .release other _, task => if tid = other then task.readySet else task
  | .create _, task => task
  | .start, task => task
  | .select _, task => task
  | .free, task => task
  | .clock, task => task
  | .age _, task => task
  | .signaller _ _, task => task
  | .decrement _, task => task
  | .increment _, task => task
  | .post _ _, task => task
  | .receive _ _, task => task

/-- No action rewrites the fields that creation fixes. -/
@[simp] theorem Act.static_onTask
    (cfg : Config) (tid : Nat) (act : Act β) (task : Tcb) :
    (act.onTask cfg tid task).static = task.static := by
  cases act <;> simp only [onTask] <;> try split_ifs
  all_goals first
    | rfl
    | simp only [Tcb.static_note, Tcb.static_suspend, Tcb.static_resume,
        Tcb.static_tick, Tcb.static_signalEvent]
    | exact Tcb.static_wait cfg _ task

/-! ## The task table under the actions -/

namespace Kernel

theorem modifyTask_taskList
    (k : Kernel β) (tid : Nat) (change : Tcb → Tcb) (other : Nat) :
    (k.modifyTask tid change).tasks.taskList other =
      if other = tid then change (k.tasks.taskList other)
      else k.tasks.taskList other :=
  k.tasks.modify_taskList tid change other

theorem osYield_taskList (k : Kernel β) (line other : Nat) :
    (k.osYield line).tasks.taskList other =
      if other = k.runningTid then
        { k.tasks.taskList other with internalState := line }
      else k.tasks.taskList other :=
  k.tasks.modify_taskList k.runningTid
    (fun task => { task with internalState := line }) other

theorem blocked_taskList
    (cfg : Config) (k : Kernel β) (wait : Wait) (line other : Nat) :
    (k.blocked cfg wait line).tasks.taskList other =
      if other = k.runningTid then
        { wait.apply cfg (k.tasks.taskList other) with internalState := line }
      else k.tasks.taskList other := by
  have rewritten : (k.blocked cfg wait line).tasks =
      k.tasks.modify k.runningTid fun task =>
        { wait.apply cfg task with internalState := line } :=
    k.tasks.modify_modify k.runningTid (wait.apply cfg)
      fun task => { task with internalState := line }
  rw [rewritten]
  exact k.tasks.modify_taskList k.runningTid _ other

end Kernel

theorem TaskTable.nextReadyTask_frame
    {cfg : Config} {tasks tasks' : TaskTable} {tid : Nat}
    (returns : tasks.nextReadyTask cfg = .ok (tid, tasks')) :
    tasks'.nTasks = tasks.nTasks ∧ tasks'.taskList = tasks.taskList := by
  unfold nextReadyTask at returns
  simp only [bind_eq_ok_iff, Except.ok.injEq, Prod.mk.injEq] at returns
  obtain ⟨found, _, _, rfl⟩ := returns
  exact ⟨rfl, rfl⟩

/-- The scheduler's choice changes which task runs and where the next scan
starts. -/
theorem Kernel.selectTask_frame
    {cfg : Config} {k k' : Kernel β}
    (selects : k.selectTask cfg = .ok k') :
    k'.tasks.nTasks = k.tasks.nTasks ∧ k'.tasks.taskList = k.tasks.taskList ∧
      k'.history = k.history ∧ k'.events = k.events ∧ k'.sems = k.sems ∧
      k'.queues = k.queues ∧ k'.running = k.running := by
  unfold selectTask at selects
  by_cases roundRobin : cfg.roundRobin = true
  · rw [if_pos roundRobin, bind_eq_ok_iff] at selects
    obtain ⟨⟨tid, tasks⟩, returns, result⟩ := selects
    obtain ⟨nTasks, taskList⟩ := TaskTable.nextReadyTask_frame returns
    rw [← Except.ok.inj result]
    exact ⟨nTasks, taskList, rfl, rfl, rfl, rfl, rfl⟩
  · rw [if_neg roundRobin] at selects
    rw [← Except.ok.inj selects]
    exact ⟨rfl, rfl, rfl, rfl, rfl, rfl, rfl⟩

namespace Micro

variable {cfg : Config} {k k' : Kernel β} {act : Act β}

/-- Tasks are never removed. -/
theorem nTasks_le (acts : Micro cfg k act k') :
    k.tasks.nTasks ≤ k'.tasks.nTasks := by
  cases acts with
  | create creation creates => exact (creationStep_frame creates).nTasks
  | select _ selects _ => exact (Kernel.selectTask_frame selects).1.ge
  | post returns =>
      rcases Kernel.osMsgPost_cases returns with
        ⟨_, rfl⟩ | ⟨_, _, _, _, q, rfl⟩ <;> exact le_rfl
  | receive returns _ =>
      rcases Kernel.osMsgReceive_cases returns with
        ⟨_, _, rfl⟩ | ⟨_, _, _, q, msg, rfl⟩ <;> exact le_rfl
  | _ => exact le_rfl

/-- A task that an action adds is ready. -/
theorem ready_of_new (acts : Micro cfg k act k')
    {tid : Nat}
    (new : k.tasks.nTasks ≤ tid)
    (created : tid < k'.tasks.nTasks) :
    (k'.tasks.taskList tid).state = .ready := by
  cases acts with
  | create creation creates =>
      cases creation with
      | osTaskCreate taskproc data prio msgPool poolSize msgSize =>
          obtain ⟨⟨newTid, made⟩, returns, rfl⟩ := map_eq_ok_iff.mp creates
          obtain ⟨_, _, _, _, msgQ, kq, _, rfl⟩ :=
            Kernel.osTaskCreate_cases returns
          have last : tid = k.tasks.nTasks :=
            Nat.le_antisymm (Nat.le_of_lt_succ created) new
          subst last
          simp only [TaskTable.modify_taskList_self]
          rfl
      | eventCreate | semBinCreate | semCountingCreate =>
          obtain ⟨made, _, rfl⟩ := map_eq_ok_iff.mp creates
          exact absurd created (Nat.not_lt.mpr new)
  | select _ selects _ =>
      rw [(Kernel.selectTask_frame selects).1] at created
      exact absurd created (Nat.not_lt.mpr new)
  | post returns =>
      rcases Kernel.osMsgPost_cases returns with
        ⟨_, rfl⟩ | ⟨_, _, _, _, q, rfl⟩ <;>
        exact absurd created (Nat.not_lt.mpr new)
  | receive returns _ =>
      rcases Kernel.osMsgReceive_cases returns with
        ⟨_, _, rfl⟩ | ⟨_, _, _, q, msg, rfl⟩ <;>
        exact absurd created (Nat.not_lt.mpr new)
  | _ => exact absurd created (Nat.not_lt.mpr new)

/-- The task control block of a created task after an action is that of the
action's effect on this task alone. -/
theorem taskList (acts : Micro cfg k act k')
    {tid : Nat} (created : tid < k.tasks.nTasks) :
    k'.tasks.taskList tid = act.onTask cfg tid (k.tasks.taskList tid) := by
  cases acts with
  | create creation creates =>
      exact (creationStep_frame creates).taskList tid created
  | start | free | clock | age | signaller | decrement | increment => rfl
  | select _ selects _ =>
      rw [(Kernel.selectTask_frame selects).2.1]
      rfl
  | yield line => exact k.osYield_taskList line tid
  | block wait line _ _ => exact k.blocked_taskList cfg wait line tid
  | note | suspend | resume | kill | tick | release =>
      exact Kernel.modifyTask_taskList ..
  | signal _ _ => exact k.tasks.mapCreated_taskList_of_lt _ created
  | post returns =>
      rcases Kernel.osMsgPost_cases returns with
        ⟨_, rfl⟩ | ⟨_, _, _, _, q, rfl⟩ <;> rfl
  | receive returns _ =>
      rcases Kernel.osMsgReceive_cases returns with
        ⟨_, _, rfl⟩ | ⟨_, _, _, q, msg, rfl⟩ <;> rfl

end Micro

/-- What an action adds to the history. -/
def Act.entries : Act β → List (Entry β)
  | .clock => [.ticked]
  | .signal eventId => [.signalled eventId]
  | .post queue msg => [.posted queue msg]
  | .receive queue msg => [.received queue msg]
  | _ => []

/-- The task that runs after an action, from the one that ran before. -/
def Act.onRunning (running : Nat) : Act β → Nat
  | .select tid => tid
  | .free | .yield _ _ | .block _ _ _ => noTid
  | _ => running

namespace Micro

variable {cfg : Config} {k k' : Kernel β} {act : Act β}

theorem history (acts : Micro cfg k act k') :
    k'.history = k.history ++ act.entries := by
  cases acts with
  | create creation creates =>
      simp [Act.entries, (creationStep_frame creates).history]
  | select _ selects _ =>
      simp [Act.entries, (Kernel.selectTask_frame selects).2.2.1]
  | post returns =>
      rcases Kernel.osMsgPost_cases returns with
        ⟨refused, rfl⟩ | ⟨_, _, _, _, q, rfl⟩
      · exact absurd rfl refused
      · rfl
  | receive _ recorded => exact recorded
  | clock | signal => rfl
  | _ => exact (List.append_nil _).symm

theorem runningTid (acts : Micro cfg k act k') :
    k'.runningTid = act.onRunning k.runningTid := by
  cases acts with
  | create creation creates => exact (creationStep_frame creates).runningTid
  | post returns =>
      rcases Kernel.osMsgPost_cases returns with
        ⟨_, rfl⟩ | ⟨_, _, _, _, q, rfl⟩ <;> rfl
  | receive returns _ =>
      rcases Kernel.osMsgReceive_cases returns with
        ⟨_, _, rfl⟩ | ⟨_, _, _, q, msg, rfl⟩ <;> rfl
  | _ => rfl

end Micro

/-- The history after a trace records its actions. -/
theorem Micro.history_of_trace
    {cfg : Config} {k k' : Kernel β} {acts : List (Act β)}
    (trace : Trace (Micro cfg) k acts k') :
    k'.history = k.history ++ acts.flatMap Act.entries := by
  induction trace with
  | nil k => simp
  | cons first rest inductionHypothesis =>
      rw [inductionHypothesis, first.history, List.flatMap_cons,
        List.append_assoc]

/-- The signals of a trace are those it records. -/
theorem signalled_mem_entries_iff {acts : List (Act β)} {eventId : Nat} :
    .signalled eventId ∈ acts.flatMap Act.entries ↔ .signal eventId ∈ acts := by
  constructor
  · intro member
    obtain ⟨act, inside, entry⟩ := List.mem_flatMap.mp member
    cases act with
    | signal other =>
        simp only [Act.entries, List.mem_singleton, Entry.signalled.injEq] at entry
        exact entry ▸ inside
    | _ => simp [Act.entries] at entry
  · intro member
    exact List.mem_flatMap.mpr ⟨_, member, List.mem_singleton_self _⟩

/-! ## What only creation changes -/

/-- The action creates no object. -/
def Act.Quiet : Act β → Prop
  | .create _ => False
  | _ => True

namespace Kernel

/-- Two kernels with the same objects: the same number of tasks and queues, the
same fixed fields of tasks, the same owner and change event of every queue. -/
structure SameObjects (k k' : Kernel β) : Prop where
  nTasks : k'.tasks.nTasks = k.tasks.nTasks
  static : ∀ tid, tid < k.tasks.nTasks →
    (k'.tasks.taskList tid).static = (k.tasks.taskList tid).static
  nQueues : k'.queues.nQueues = k.queues.nQueues
  change : ∀ queue,
    (k'.queues.msgQList queue).change = (k.queues.msgQList queue).change
  taskId : ∀ queue,
    (k'.queues.msgQList queue).taskId = (k.queues.msgQList queue).taskId

theorem SameObjects.refl (k : Kernel β) : SameObjects k k :=
  ⟨rfl, fun _ _ => rfl, rfl, fun _ => rfl, fun _ => rfl⟩

theorem SameObjects.trans
    {k₁ k₂ k₃ : Kernel β}
    (first : SameObjects k₁ k₂)
    (second : SameObjects k₂ k₃) :
    SameObjects k₁ k₃ where
  nTasks := second.nTasks.trans first.nTasks
  static := fun tid created =>
    (second.static tid (first.nTasks ▸ created)).trans (first.static tid created)
  nQueues := second.nQueues.trans first.nQueues
  change := fun queue => (second.change queue).trans (first.change queue)
  taskId := fun queue => (second.taskId queue).trans (first.taskId queue)

end Kernel

/-- Only creation adds objects. -/
theorem Micro.sameObjects
    {cfg : Config} {k k' : Kernel β} {act : Act β}
    (acts : Micro cfg k act k')
    (quiet : act.Quiet) :
    Kernel.SameObjects k k' := by
  have static : ∀ tid, tid < k.tasks.nTasks →
      (k'.tasks.taskList tid).static = (k.tasks.taskList tid).static := by
    intro tid created
    rw [acts.taskList created]
    exact act.static_onTask cfg tid _
  cases acts with
  | create => exact quiet.elim
  | select _ selects _ =>
      obtain ⟨nTasks, _, _, _, _, queues, _⟩ := Kernel.selectTask_frame selects
      exact ⟨nTasks, static, by rw [queues], fun _ => by rw [queues],
        fun _ => by rw [queues]⟩
  | age ready aged =>
      exact ⟨rfl, static, rfl, fun _ => QueueTable.setQueue_change ..,
        fun _ => QueueTable.setQueue_taskId ..⟩
  | post returns =>
      rcases Kernel.osMsgPost_cases returns with
        ⟨_, rfl⟩ | ⟨_, _, _, _, q, rfl⟩
      · exact .refl _
      · exact ⟨rfl, static, rfl, fun _ => QueueTable.setQueue_change ..,
          fun _ => QueueTable.setQueue_taskId ..⟩
  | receive returns _ =>
      rcases Kernel.osMsgReceive_cases returns with
        ⟨_, _, rfl⟩ | ⟨_, _, _, q, msg, rfl⟩
      · exact .refl _
      · exact ⟨rfl, static, rfl, fun _ => QueueTable.setQueue_change ..,
          fun _ => QueueTable.setQueue_taskId ..⟩
  | _ => exact ⟨rfl, static, rfl, fun _ => rfl, fun _ => rfl⟩

/-- A trace without creation keeps the objects. -/
theorem Kernel.SameObjects.of_trace
    {cfg : Config} {k k' : Kernel β} {acts : List (Act β)}
    (trace : Trace (Micro cfg) k acts k')
    (quiet : ∀ act ∈ acts, act.Quiet) :
    Kernel.SameObjects k k' :=
  trace.invariant Act.Quiet (Kernel.SameObjects k)
    (fun _ _ _ allowed holds acts => holds.trans (acts.sameObjects allowed))
    quiet (.refl k)

end CocoOs
