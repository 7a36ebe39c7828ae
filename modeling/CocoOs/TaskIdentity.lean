import CocoOs.Frames
import CocoOs.RunTrace

/-!
# What a task is created with

Procedure, id, priority, data and message queue of a task are set by
`os_task_create` and never again, so that the getters answer the same all
through a run.  The kernel gets from a task to its queue in two ways: `task_tick`
by the handle in the task control block, the message macros by the owner in the
queue table.  They lead to the same queue.
-/

namespace CocoOs

open Foundation

variable {β : Type}

/-! ## Getters -/

/-- `os_task_prio_get`. -/
def TaskTable.osTaskPrioGet (tasks : TaskTable) (tid : Nat) : Outcome Nat :=
  if tid < tasks.nTasks then .ok (tasks.taskList tid).prio
  else .error .assertion

/-- `os_task_msgQ_get`. -/
def TaskTable.osTaskMsgQGet (cfg : Config) (tasks : TaskTable) (tid : Nat) :
    Outcome Nat :=
  if tid < cfg.nTasks then .ok (tasks.taskList tid).msgQ
  else .error .bounds

/-- `task_get_data`. -/
def Kernel.taskGetData (cfg : Config) (k : Kernel β) : Outcome Nat :=
  if k.osGetRunningTid < cfg.nTasks then
    .ok (k.tasks.taskList k.osGetRunningTid).data
  else .error .bounds

/-! ## Steps and runs -/

section

variable {cfg : Config} {s s' : Sys β} {label : Label β} {tid : Nat}

/-- Every other step keeps the objects there are. -/
theorem step_sameObjects
    (sound : s.kernel.Sound cfg)
    (steps : step cfg s label = .ok s')
    (notCreation : ∀ creation, label ≠ .create creation) :
    Kernel.SameObjects s.kernel s'.kernel := by
  obtain ⟨acts, shape, trace⟩ := step_trace sound steps
  exact .of_trace trace (shape.quiet notCreation)

/-- No step rewrites what a task was created with. -/
theorem step_static
    (sound : s.kernel.Sound cfg)
    (steps : step cfg s label = .ok s')
    (created : tid < s.kernel.tasks.nTasks) :
    (s'.kernel.tasks.taskList tid).static =
      (s.kernel.tasks.taskList tid).static := by
  obtain ⟨acts, _, trace⟩ := step_trace sound steps
  have after := trace.invariant (fun _ => True)
    (fun k => tid < k.tasks.nTasks ∧
      (k.tasks.taskList tid).static = (s.kernel.tasks.taskList tid).static)
    ?_ (fun _ _ => trivial) ⟨created, rfl⟩
  · exact after.2
  · rintro k act k' - ⟨createdHere, same⟩ acts
    refine ⟨createdHere.trans_le acts.nTasks_le, ?_⟩
    rw [acts.taskList createdHere, Act.static_onTask, same]

theorem run_static
    {labels : List (Label β)}
    (sound : s.kernel.Sound cfg)
    (runs : run (step cfg) s labels = .ok s')
    (created : tid < s.kernel.tasks.nTasks) :
    (s'.kernel.tasks.taskList tid).static =
      (s.kernel.tasks.taskList tid).static := by
  refine (run_invariant
    (fun t => t.kernel.Sound cfg ∧ tid < t.kernel.tasks.nTasks ∧
      (t.kernel.tasks.taskList tid).static =
        (s.kernel.tasks.taskList tid).static)
    ?_ ⟨sound, created, rfl⟩ runs).2.2
  rintro t label t' ⟨soundHere, createdHere, same⟩ steps
  exact ⟨step_sound soundHere steps,
    createdHere.trans_le (step_nTasks_le soundHere steps),
    (step_static soundHere steps createdHere).trans same⟩

/-- What `os_task_create` puts in the fields it fixes. -/
theorem static_of_osTaskCreate
    {taskproc data : Nat} {prio poolSize : UInt8} {msgSize : UInt16}
    {msgPool : Nat → Msg β}
    (steps : step cfg s
      (.create (.osTaskCreate taskproc data prio msgPool poolSize msgSize)) =
        .ok s') :
    s'.kernel.tasks.nTasks = s.kernel.tasks.nTasks + 1 ∧
    (poolSize = 0 →
      (s'.kernel.tasks.taskList s.kernel.tasks.nTasks).msgQ = noQueue) ∧
    (s'.kernel.tasks.taskList s.kernel.tasks.nTasks).internalState = 0 ∧
    ∃ msgQ, (s'.kernel.tasks.taskList s.kernel.tasks.nTasks).static =
      (taskproc, s.kernel.tasks.nTasks, prio.toNat, msgQ, data) := by
  obtain ⟨k', creates, rfl⟩ := map_eq_ok_iff.mp steps
  obtain ⟨⟨newTid, made⟩, returns, rfl⟩ := map_eq_ok_iff.mp creates
  obtain ⟨_, _, _, _, msgQ, kq, queue, rfl⟩ := Kernel.osTaskCreate_cases returns
  refine ⟨rfl, fun none => ?_, ?_, msgQ, ?_⟩
  · rcases queue with ⟨_, noneFound, _⟩ | ⟨some, _⟩
    · simp only [TaskTable.modify_taskList_self]
      exact noneFound
    · subst none
      exact absurd some (Nat.lt_irrefl 0)
  · simp only [TaskTable.modify_taskList_self]
    rfl
  · simp only [TaskTable.modify_taskList_self]
    rfl

/-- The priority and the data of a task are in every later state the ones it
was created with, and a task created without a message pool has no queue. -/
theorem created_task_keeps_identity
    {taskproc data : Nat} {prio poolSize : UInt8} {msgSize : UInt16}
    {msgPool : Nat → Msg β} {s'' : Sys β} {labels : List (Label β)}
    (reachable : ReachableSys cfg s)
    (creates : step cfg s
      (.create (.osTaskCreate taskproc data prio msgPool poolSize msgSize)) =
        .ok s')
    (runs : run (step cfg) s' labels = .ok s'') :
    s''.kernel.tasks.osTaskPrioGet s.kernel.tasks.nTasks = .ok prio.toNat ∧
    (s''.kernel.runningTid = s.kernel.tasks.nTasks →
      s''.kernel.taskGetData cfg = .ok data ∧
      (s''.kernel.tasks.taskList s''.kernel.runningTid).taskproc = taskproc) ∧
    s''.kernel.tasks.osTaskMsgQGet cfg s.kernel.tasks.nTasks =
      s'.kernel.tasks.osTaskMsgQGet cfg s.kernel.tasks.nTasks ∧
    (poolSize = 0 →
      s''.kernel.tasks.osTaskMsgQGet cfg s.kernel.tasks.nTasks = .ok noQueue) := by
  have reachable' := reachable.step creates
  have sound' := reachable_sound reachable'
  have sound'' := run_sound sound' runs
  obtain ⟨nTasks, noPool, _, msgQ, static⟩ := static_of_osTaskCreate creates
  have created : s.kernel.tasks.nTasks < s'.kernel.tasks.nTasks := by omega
  have created'' := created.trans_le (run_nTasks_le sound' runs)
  have same := run_static sound' runs created
  have inside : s.kernel.tasks.nTasks < cfg.nTasks :=
    created''.trans_le sound''.tasks
  simp only [Tcb.static, Prod.mk.injEq] at static same
  obtain ⟨taskprocHere, _, prioHere, _, dataHere⟩ := static
  obtain ⟨taskprocSame, _, prioSame, msgQSame, dataSame⟩ := same
  refine ⟨?_, fun runsNow => ⟨?_, ?_⟩, ?_, fun none => ?_⟩
  · rw [TaskTable.osTaskPrioGet, if_pos created'', prioSame, prioHere]
  · rw [Kernel.taskGetData, Kernel.osGetRunningTid, runsNow, if_pos inside,
      dataSame, dataHere]
  · rw [runsNow, taskprocSame, taskprocHere]
  · rw [TaskTable.osTaskMsgQGet, TaskTable.osTaskMsgQGet, if_pos inside,
      if_pos inside, msgQSame]
  · rw [TaskTable.osTaskMsgQGet, if_pos inside, msgQSame, noPool none]

end

/-- The second task created, while the first runs and waits. -/
theorem created_task_keeps_identity_setUp :
    ∃ s s' s'' : Sys Nat,
      run (step (Config.small false)) (Sys.boot (Config.small false))
        [.create (.osTaskCreate 1 0 1 (fun _ => ⟨0, 0, 0, 0⟩) 2 20)] = .ok s ∧
      step (Config.small false) s
        (.create (.osTaskCreate 5 8 2 (fun _ => ⟨0, 0, 0, 0⟩) 0 0)) = .ok s' ∧
      run (step (Config.small false)) s'
        [.osStart, .osSchedule, .task (.taskWaitId 0 5) 2, .osSchedule] =
          .ok s'' ∧
      s''.kernel.runningTid = 1 ∧
      s''.kernel.taskGetData (Config.small false) = .ok 8 := by
  obtain ⟨s, s'', before, after, checked⟩ := exists_runs_of_returnsWith
    (step (Config.small false)) (Sys.boot (Config.small false))
    [.create (.osTaskCreate 1 0 1 (fun _ => ⟨0, 0, 0, 0⟩) 2 20)]
    [.create (.osTaskCreate 5 8 2 (fun _ => ⟨0, 0, 0, 0⟩) 0 0), .osStart,
      .osSchedule, .task (.taskWaitId 0 5) 2, .osSchedule]
    (fun states : Sys Nat × Sys Nat =>
      decide (states.1.kernel.tasks.nTasks = 1 ∧ states.2.kernel.runningTid = 1))
    (by decide +kernel)
  obtain ⟨one, runsNow⟩ := of_decide_eq_true checked
  obtain ⟨s', creates, rest⟩ := run_cons_eq_ok_iff.mp after
  have keeps := created_task_keeps_identity (reachable_of_run before) creates rest
  exact ⟨s, s', s'', before, creates, rest, runsNow,
    (keeps.2.1 (runsNow.trans one.symm)).1⟩

/-! ## The two ways to a queue -/

namespace QueueTable

variable {queues : QueueTable β} {taskId : Nat}

/-- The scan of `os_msgQ_find` finds no queue when none has this owner. -/
theorem osMsgQFindFrom_eq_noQueue
    {remaining queue : Nat}
    (absent : ∀ other, queue ≤ other → other < queue + remaining →
      (queues.msgQList other).taskId ≠ taskId) :
    queues.osMsgQFindFrom taskId remaining queue = noQueue := by
  induction remaining generalizing queue with
  | zero => rfl
  | succ remaining inductionHypothesis =>
      rw [osMsgQFindFrom, if_neg (absent queue le_rfl (by omega))]
      apply inductionHypothesis
      exact fun other from_ before => absent other (by omega) (by omega)

/-- The scan of `os_msgQ_find` finds the only queue of this owner. -/
theorem osMsgQFindFrom_eq
    {remaining queue owned : Nat}
    (start : queue ≤ owned)
    (inside : owned < queue + remaining)
    (owner : (queues.msgQList owned).taskId = taskId)
    (only : ∀ other, queue ≤ other → other < queue + remaining →
      (queues.msgQList other).taskId = taskId → other = owned) :
    queues.osMsgQFindFrom taskId remaining queue = owned := by
  induction remaining generalizing queue with
  | zero => omega
  | succ remaining inductionHypothesis =>
      rw [osMsgQFindFrom]
      by_cases here : (queues.msgQList queue).taskId = taskId
      · rw [if_pos here]
        exact only queue le_rfl (by omega) here
      · rw [if_neg here]
        have different : queue ≠ owned := by
          rintro rfl
          exact here owner
        apply inductionHypothesis (by omega) (by omega)
        exact fun other from_ before => only other (by omega) (by omega)

end QueueTable

/-- `os_msgQ_find` finds the queue in the task control block of a created task,
and no queue for any other id. -/
theorem Kernel.QueuesSound.osMsgQFind
    {cfg : Config} {k : Kernel β}
    (sound : k.QueuesSound cfg)
    (queues : 0 < cfg.nQueues)
    (tid : Nat) :
    k.queues.osMsgQFind cfg tid =
      if tid < k.tasks.nTasks then (k.tasks.taskList tid).msgQ else noQueue := by
  rw [QueueTable.osMsgQFind, if_pos queues]
  -- a queue of this owner is the queue the owner's control block names
  have only : ∀ other, other < k.queues.nQueues →
      (k.queues.msgQList other).taskId = tid →
        tid < k.tasks.nTasks ∧ (k.tasks.taskList tid).msgQ = other := by
    rintro other inside rfl
    exact sound.owner other ⟨queues, inside⟩
  by_cases created : tid < k.tasks.nTasks
  · rw [if_pos created]
    by_cases none : (k.tasks.taskList tid).msgQ = noQueue
    · rw [none]
      apply QueueTable.osMsgQFindFrom_eq_noQueue
      intro other _ before owner
      rw [Nat.zero_add] at before
      have named := (only other before owner).2
      exact sound.ne_noQueue ⟨queues, before⟩ (named.symm.trans none)
    · obtain ⟨inside, owner⟩ := sound.owned queues tid created none
      apply QueueTable.osMsgQFindFrom_eq (Nat.zero_le _) (by omega) owner
      intro other _ before owner'
      exact (only other (by omega) owner').2.symm
  · rw [if_neg created]
    apply QueueTable.osMsgQFindFrom_eq_noQueue
    intro other _ before owner
    exact created (only other (by omega) owner).1

/-- In every reachable state the queue that messages to a task go to is the
queue that is ticked for the task, and every queue is that of exactly one
task. -/
theorem queue_routes_agree
    {cfg : Config} {s : Sys β}
    (reachable : ReachableSys cfg s)
    (queues : 0 < cfg.nQueues) :
    (∀ tid, tid < s.kernel.tasks.nTasks →
      s.kernel.tasks.osTaskMsgQGet cfg tid =
        .ok (s.kernel.queues.osMsgQFind cfg tid)) ∧
    (∀ tid, s.kernel.tasks.nTasks ≤ tid →
      s.kernel.queues.osMsgQFind cfg tid = noQueue) ∧
    ∀ queue, queue < s.kernel.queues.nQueues →
      ∃ tid, tid < s.kernel.tasks.nTasks ∧
        s.kernel.queues.osMsgQFind cfg tid = queue ∧
        ∀ other, s.kernel.queues.osMsgQFind cfg other = queue → other = tid := by
  have sound := reachable_sound reachable
  have finds := sound.queues.osMsgQFind queues
  refine ⟨fun tid created => ?_, fun tid uncreated => ?_, fun queue inside => ?_⟩
  · rw [TaskTable.osTaskMsgQGet, if_pos (created.trans_le sound.tasks),
      finds tid, if_pos created]
  · rw [finds tid, if_neg (Nat.not_lt.mpr uncreated)]
  · have exists_ : s.kernel.HasQueue cfg queue := ⟨queues, inside⟩
    have isQueue := sound.queues.ne_noQueue exists_
    obtain ⟨created, names⟩ := sound.queues.owner queue exists_
    refine ⟨_, created, ?_, fun other found => ?_⟩
    · rw [finds, if_pos created, names]
    · rw [finds] at found
      split_ifs at found with otherCreated
      · have owner := (sound.queues.owned queues other otherCreated
          (by rwa [found])).2
        rw [← owner, found]
      · exact absurd found.symm isQueue

/-- Three tasks, of which the first owns the only queue. -/
theorem queue_routes_agree_setUp :
    ∃ s : Sys Nat,
      run (step (Config.small false)) (Sys.boot (Config.small false))
        (setUp 1 2 3) = .ok s ∧
      s.kernel.tasks.osTaskMsgQGet (Config.small false) 0 =
        .ok (s.kernel.queues.osMsgQFind (Config.small false) 0) := by
  obtain ⟨s, runs, checked⟩ := exists_of_returnsWith
    (fun s : Sys Nat => decide (0 < s.kernel.tasks.nTasks))
    (run (step (Config.small false)) (Sys.boot (Config.small false))
      (setUp 1 2 3)) (by decide +kernel)
  exact ⟨s, runs, (queue_routes_agree (reachable_of_run runs) (by decide)).1 0
    (of_decide_eq_true checked)⟩

end CocoOs
