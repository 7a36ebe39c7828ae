import CocoOs.System

/-!
# Object creation

Inversion of the creation functions: what they have checked when they return,
and what they then leave.
-/

namespace CocoOs

open Foundation

variable {β : Type}

namespace EventTable

theorem eventCreate_cases
    {cfg : Config} {events events' : EventTable} {id : Nat}
    (returns : events.eventCreate cfg = .ok (id, events')) :
    (cfg.nTotalEvents = 0 ∧ id = 0 ∧ events' = events) ∨
    (events.nEvents < cfg.nTotalEvents ∧ id = events.nEvents % 256 ∧
      events' =
        { events with
          eventList :=
            Function.update events.eventList events.nEvents
              { id := events.nEvents, signaledByTid := noTid }
          nEvents := (events.nEvents + 1) % 256 }) := by
  unfold eventCreate at returns
  by_cases some : 0 < cfg.nTotalEvents
  · right
    rw [if_pos some, guard_eq_ok_iff] at returns
    obtain ⟨room, result⟩ := returns
    simp only [Except.ok.injEq, Prod.mk.injEq] at result
    exact ⟨room, by omega, result.2.symm⟩
  · left
    rw [if_neg some] at returns
    simp only [Except.ok.injEq, Prod.mk.injEq] at returns
    exact ⟨by omega, returns.1.symm, returns.2.symm⟩

end EventTable

namespace Kernel

theorem osMsgQCreate_cases
    {cfg : Config} {k k' : Kernel β}
    {buffer : Nat → Msg β} {nMessages msgSize taskId queue : Nat}
    (returns : k.osMsgQCreate cfg buffer nMessages msgSize taskId =
      .ok (queue, k')) :
    (cfg.nQueues = 0 ∧ queue = 0 ∧ k' = k) ∨
    (k.queues.nQueues < cfg.nQueues ∧ queue = k.queues.nQueues ∧
      ∃ change events, change < cfg.nTotalEvents ∧
        k.events.eventCreate cfg = .ok (change, events) ∧
        k' = { k with
          events := events
          queues :=
            { msgQList :=
                Function.update k.queues.msgQList k.queues.nQueues
                  { q :=
                      { list := buffer, head := 1, tail := 0, size := nMessages
                        messageSize := msgSize }
                    taskId := taskId
                    change := change }
              nQueues := k.queues.nQueues + 1 } }) := by
  unfold osMsgQCreate at returns
  by_cases some : 0 < cfg.nQueues
  · right
    rw [if_pos some, guard_eq_ok_iff, bind_eq_ok_iff] at returns
    obtain ⟨room, ⟨change, events⟩, creates, result⟩ := returns
    simp only [Except.ok.injEq, Prod.mk.injEq] at result
    refine ⟨room, result.1.symm, change, events, ?_, creates, result.2.symm⟩
    rcases EventTable.eventCreate_cases creates with
      ⟨none, _⟩ | ⟨before, changeEq, _⟩
    · unfold Config.nTotalEvents at none
      omega
    · have atMost : k.events.nEvents % 256 ≤ k.events.nEvents :=
        Nat.mod_le _ _
      omega
  · left
    rw [if_neg some] at returns
    simp only [Except.ok.injEq, Prod.mk.injEq] at returns
    exact ⟨by omega, returns.1.symm, returns.2.symm⟩

/-- `os_msgQ_create` does not look at the task table. -/
theorem osMsgQCreate_tasks
    (cfg : Config) (k : Kernel β) (tasks : TaskTable)
    (buffer : Nat → Msg β) (nMessages msgSize taskId : Nat) :
    { k with tasks := tasks }.osMsgQCreate cfg buffer nMessages msgSize taskId =
      (k.osMsgQCreate cfg buffer nMessages msgSize taskId).map
        fun (queue, k') => (queue, { k' with tasks := tasks }) := by
  unfold osMsgQCreate
  by_cases queues : 0 < cfg.nQueues
  · by_cases room : k.queues.nQueues < cfg.nQueues
    · simp only [queues, room, if_true]
      cases k.events.eventCreate cfg with
      | error stopped => rfl
      | ok created => rfl
    · simp [queues, room]
  · simp [queues]

/-- The loop of `os_task_create` finds every created task of the same
priority. -/
theorem prioUnused_iff (tasks : TaskTable) (prio count : Nat) :
    prioUnused tasks prio count = true ↔
      ∀ tid, tid < count → (tasks.taskList tid).prio ≠ prio := by
  induction count with
  | zero => simp [prioUnused]
  | succ count inductionHypothesis =>
      rw [prioUnused]
      by_cases same : (tasks.taskList count).prio = prio
      · rw [if_pos same]
        simp only [Bool.false_eq_true, false_iff]
        intro unused
        exact unused count (Nat.lt_succ_self count) same
      · rw [if_neg same, inductionHypothesis]
        constructor
        · intro unused tid inside
          rcases Nat.lt_succ_iff_lt_or_eq.mp inside with before | last
          · exact unused tid before
          · exact last ▸ same
        · intro unused tid inside
          exact unused tid (Nat.lt_succ_of_lt inside)

/-- The task control block of a new task. -/
def newTcb (cfg : Config) (taskproc data prio tid msgQ : Nat) (stale : Tcb) :
    Tcb :=
  { createdTcb taskproc prio tid stale with
    msgQ := msgQ, data := data }.clearWaitQueue cfg

/-- What `os_task_create` has checked, and what it leaves. -/
theorem osTaskCreate_cases
    {cfg : Config} {k k' : Kernel β}
    {taskproc data prio : Nat} {msgPool : Nat → Msg β}
    {poolSize msgSize tid : Nat}
    (returns : k.osTaskCreate cfg taskproc data prio msgPool poolSize msgSize =
      .ok (tid, k')) :
    k.running = false ∧ k.tasks.nTasks < cfg.nTasks ∧
    (∀ other, other < k.tasks.nTasks →
      (k.tasks.taskList other).prio ≠ prio) ∧
    tid = k.tasks.nTasks ∧
    ∃ msgQ kq,
      ((poolSize = 0 ∧ msgQ = noQueue ∧ kq = k) ∨
        (0 < poolSize ∧
          k.osMsgQCreate cfg msgPool poolSize msgSize k.tasks.nTasks =
            .ok (msgQ, kq))) ∧
      k' = { kq with
        tasks :=
          { k.tasks.modify k.tasks.nTasks
              (newTcb cfg taskproc data prio k.tasks.nTasks msgQ) with
            nTasks := k.tasks.nTasks + 1 } } := by
  unfold osTaskCreate at returns
  simp only [guard_eq_ok_iff] at returns
  obtain ⟨notRunning, room, _, unused, body⟩ := returns
  refine ⟨notRunning, room, (prioUnused_iff _ _ _).mp unused, ?_⟩
  by_cases pool : 0 < poolSize
  · rw [if_pos pool, osMsgQCreate_tasks, bind_eq_ok_iff] at body
    obtain ⟨⟨msgQ, mapped⟩, creates, result⟩ := body
    cases created : k.osMsgQCreate cfg msgPool poolSize msgSize
        k.tasks.nTasks with
    | error stopped => simp [created] at creates
    | ok made =>
        obtain ⟨queue, kq⟩ := made
        simp only [created, ok_map, Except.ok.injEq, Prod.mk.injEq] at creates
        obtain ⟨rfl, rfl⟩ := creates
        simp only [Except.ok.injEq, Prod.mk.injEq] at result
        refine ⟨result.1.symm, queue, kq, .inr ⟨pool, rfl⟩, ?_⟩
        rw [← result.2]
        simp only [TaskTable.osTaskClearWaitQueue, TaskTable.modify_modify]
        rfl
  · rw [if_neg pool, ok_bind] at body
    simp only [Except.ok.injEq, Prod.mk.injEq] at body
    refine ⟨body.1.symm, noQueue, k, .inl ⟨by omega, rfl, rfl⟩, ?_⟩
    rw [← body.2]
    simp only [TaskTable.osTaskClearWaitQueue, TaskTable.modify_modify]
    rfl

/-- What no creation touches, and what only grows. -/
structure CreationFrame (k k' : Kernel β) : Prop where
  running : k'.running = k.running
  runningTid : k'.runningTid = k.runningTid
  history : k'.history = k.history
  nTasks : k.tasks.nTasks ≤ k'.tasks.nTasks
  lastRunningTask : k'.tasks.lastRunningTask = k.tasks.lastRunningTask
  taskList : ∀ tid, tid < k.tasks.nTasks →
    k'.tasks.taskList tid = k.tasks.taskList tid

theorem osMsgQCreate_frame
    {cfg : Config} {k k' : Kernel β}
    {buffer : Nat → Msg β} {nMessages msgSize taskId queue : Nat}
    (returns : k.osMsgQCreate cfg buffer nMessages msgSize taskId =
      .ok (queue, k')) :
    k'.running = k.running ∧ k'.runningTid = k.runningTid ∧
      k'.history = k.history ∧ k'.sems = k.sems ∧ k'.tasks = k.tasks := by
  rcases osMsgQCreate_cases returns with
    ⟨_, _, rfl⟩ | ⟨_, _, change, events, _, _, rfl⟩
  · exact ⟨rfl, rfl, rfl, rfl, rfl⟩
  · exact ⟨rfl, rfl, rfl, rfl, rfl⟩

theorem osTaskCreate_frame
    {cfg : Config} {k k' : Kernel β}
    {taskproc data prio : Nat} {msgPool : Nat → Msg β}
    {poolSize msgSize tid : Nat}
    (returns : k.osTaskCreate cfg taskproc data prio msgPool poolSize msgSize =
      .ok (tid, k')) :
    CreationFrame k k' ∧ k'.sems = k.sems := by
  obtain ⟨_, _, _, _, msgQ, kq, source, rfl⟩ := osTaskCreate_cases returns
  have frame : kq.running = k.running ∧ kq.runningTid = k.runningTid ∧
      kq.history = k.history ∧ kq.sems = k.sems ∧ kq.tasks = k.tasks := by
    rcases source with ⟨_, _, rfl⟩ | ⟨_, creates⟩
    · exact ⟨rfl, rfl, rfl, rfl, rfl⟩
    · exact osMsgQCreate_frame creates
  obtain ⟨running, runningTid, history, sems, _⟩ := frame
  refine ⟨⟨running, runningTid, history, Nat.le_succ _, rfl, ?_⟩, sems⟩
  intro other inside
  exact k.tasks.modify_taskList_of_ne _ (Nat.ne_of_lt inside)

end Kernel

/-! ## Events and semaphores -/

/-- A creation creates at most one event. -/
theorem creationStep_events
    {cfg : Config} {k k' : Kernel β} {creation : Creation β}
    (creates : creationStep cfg k creation = .ok k') :
    k'.events = k.events ∨
      ∃ event, k.events.eventCreate cfg = .ok (event, k'.events) := by
  cases creation with
  | osTaskCreate taskproc data prio msgPool poolSize msgSize =>
      obtain ⟨⟨tid, made⟩, returns, rfl⟩ := map_eq_ok_iff.mp creates
      obtain ⟨_, _, _, _, msgQ, kq, source, rfl⟩ :=
        Kernel.osTaskCreate_cases returns
      rcases source with ⟨_, _, rfl⟩ | ⟨_, queue⟩
      · exact .inl rfl
      · rcases Kernel.osMsgQCreate_cases queue with
          ⟨_, _, rfl⟩ | ⟨_, _, change, events, _, event, rfl⟩
        · exact .inl rfl
        · exact .inr ⟨change, event⟩
  | eventCreate =>
      obtain ⟨made, event, rfl⟩ := map_eq_ok_iff.mp creates
      exact .inr ⟨made.1, event⟩
  | semBinCreate initial | semCountingCreate max initial =>
      obtain ⟨made, _, rfl⟩ := map_eq_ok_iff.mp creates
      exact .inl rfl

/-- `os_sem_create` fills in the next entry of the table. -/
theorem SemTable.osSemCreate_cases
    {cfg : Config} {sems sems' : SemTable} {max initial : Nat} {sem : Int}
    (returns : sems.osSemCreate cfg max initial = .ok (sem, sems')) :
    (cfg.nTotalSemaphores = 0 ∧ sems' = sems) ∨
    (sems.nSemaphores < cfg.nTotalSemaphores ∧
      sems' =
        { semList :=
            Function.update sems.semList sems.nSemaphores
              { maxValue := max, value := initial }
          nSemaphores := (sems.nSemaphores + 1) % 256 }) := by
  unfold osSemCreate at returns
  by_cases some : 0 < cfg.nTotalSemaphores
  · rw [if_pos some] at returns
    obtain ⟨room, result⟩ := guard_eq_ok_iff.mp returns
    simp only [Except.ok.injEq, Prod.mk.injEq] at result
    exact .inr ⟨room, result.2.symm⟩
  · rw [if_neg some] at returns
    simp only [Except.ok.injEq, Prod.mk.injEq] at returns
    exact .inl ⟨by omega, returns.2.symm⟩

/-- The counter a creation sets up. -/
def Creation.semValue : Creation β → Option SemValue
  | .semBinCreate initial => some { maxValue := 1, value := initial.toNat }
  | .semCountingCreate max initial =>
      some { maxValue := max.toNat, value := initial.toNat }
  | _ => none

/-- The semaphores after a creation. -/
theorem creationStep_sems
    {cfg : Config} {k k' : Kernel β} {creation : Creation β}
    (creates : creationStep cfg k creation = .ok k') :
    (creation.semValue = none ∧ k'.sems = k.sems) ∨
    ∃ counter sem, creation.semValue = some counter ∧
      k.sems.osSemCreate cfg counter.maxValue counter.value =
        .ok (sem, k'.sems) ∧
      k'.tasks = k.tasks := by
  cases creation with
  | osTaskCreate taskproc data prio msgPool poolSize msgSize =>
      obtain ⟨⟨tid, made⟩, returns, rfl⟩ := map_eq_ok_iff.mp creates
      exact .inl ⟨rfl, (Kernel.osTaskCreate_frame returns).2⟩
  | eventCreate =>
      obtain ⟨made, _, rfl⟩ := map_eq_ok_iff.mp creates
      exact .inl ⟨rfl, rfl⟩
  | semBinCreate initial =>
      obtain ⟨made, returns, rfl⟩ := map_eq_ok_iff.mp creates
      exact .inr ⟨_, made.1, rfl, returns, rfl⟩
  | semCountingCreate max initial =>
      obtain ⟨made, returns, rfl⟩ := map_eq_ok_iff.mp creates
      exact .inr ⟨_, made.1, rfl, returns, rfl⟩

/-- Every creation keeps the tasks there are, and what the scheduler and the
history hold. -/
theorem creationStep_frame
    {cfg : Config} {k k' : Kernel β} {creation : Creation β}
    (creates : creationStep cfg k creation = .ok k') :
    Kernel.CreationFrame k k' := by
  cases creation with
  | osTaskCreate taskproc data prio msgPool poolSize msgSize =>
      obtain ⟨⟨tid, made⟩, returns, rfl⟩ := map_eq_ok_iff.mp creates
      exact (Kernel.osTaskCreate_frame returns).1
  | eventCreate =>
      obtain ⟨made, _, rfl⟩ := map_eq_ok_iff.mp creates
      exact ⟨rfl, rfl, rfl, Nat.le_refl _, rfl, fun _ _ => rfl⟩
  | semBinCreate initial =>
      obtain ⟨made, _, rfl⟩ := map_eq_ok_iff.mp creates
      exact ⟨rfl, rfl, rfl, Nat.le_refl _, rfl, fun _ _ => rfl⟩
  | semCountingCreate max initial =>
      obtain ⟨made, _, rfl⟩ := map_eq_ok_iff.mp creates
      exact ⟨rfl, rfl, rfl, Nat.le_refl _, rfl, fun _ _ => rfl⟩

end CocoOs
