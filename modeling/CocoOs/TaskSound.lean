import CocoOs.StepTrace
import CocoOs.TaskEvents
import CocoOs.Scheduling

/-!
# Consistency of the task table

The invariant of a task control block relates its state, its remaining time,
its clock and its event wait queue.  A task starts to wait only while it runs,
and the wait queue of the running task is empty, so that nothing is left over
from an earlier wait.
-/

namespace CocoOs

open Foundation

variable {β : Type}

namespace Tcb

/-- The state of a task, or the state it goes back to when it is suspended. -/
def effectiveState (task : Tcb) : TaskState :=
  if task.state = .suspended then task.savedState else task.state

/-- The wait queue holds no event. -/
def NoEvents (cfg : Config) (task : Tcb) : Prop :=
  ByteSet.Empty cfg.eventQueueSize task.eventQueue

/-- The invariant of a task that has not been killed. -/
structure Consistent (cfg : Config) (task : Tcb) : Prop where
  events : ¬ task.NoEvents cfg ↔
    task.effectiveState = .waitingEvent ∨
      task.effectiveState = .waitingEventTimeout
  time : task.effectiveState = .waitingTime ∨
    task.effectiveState = .waitingEventTimeout → 0 < task.time
  clock : task.effectiveState = .waitingEventTimeout → task.clockId = 0
  notSuspended : task.effectiveState ≠ .suspended
  notRunning : task.effectiveState ≠ .running
  notKilled : task.effectiveState ≠ .killed
  semReset : task.state = .suspended → task.savedState ≠ .waitingSem

/-- The invariant of the running task: it waits for nothing. -/
structure Idle (cfg : Config) (task : Tcb) : Prop where
  events : task.NoEvents cfg
  state : task.state = .killed ∨ task.effectiveState = .ready

theorem effectiveState_of_ne {task : Tcb} (active : task.state ≠ .suspended) :
    task.effectiveState = task.state := by
  rw [effectiveState, if_neg active]

/-- A suspended task goes back to what it did, unless it waited for a
semaphore. -/
theorem effectiveState_suspend
    {task : Tcb} (notSem : task.effectiveState ≠ .waitingSem) :
    task.suspend.effectiveState = task.effectiveState := by
  unfold suspend
  split_ifs with active sem
  · rw [effectiveState_of_ne active.2] at notSem
    exact absurd sem notSem
  · simp [effectiveState, active.2]
  · rfl

theorem effectiveState_resume
    {task : Tcb} (notSuspended : task.effectiveState ≠ .suspended) :
    task.resume.effectiveState = task.effectiveState := by
  unfold resume
  split_ifs with suspended
  · have active : task.savedState ≠ .suspended := by
      rwa [effectiveState, if_pos suspended] at notSuspended
    simp [effectiveState, suspended, active]
  · rfl

/-- The invariant reads only these fields. -/
theorem Consistent.of_eq
    {cfg : Config} {task task' : Tcb}
    (consistent : task.Consistent cfg)
    (state : task'.state = task.state)
    (savedState : task'.savedState = task.savedState)
    (time : task'.time = task.time)
    (clockId : task'.clockId = task.clockId)
    (eventQueue : task'.eventQueue = task.eventQueue) :
    task'.Consistent cfg := by
  obtain ⟨events, positive, clock, notSuspended, notRunning, notKilled,
    semReset⟩ := consistent
  have effective : task'.effectiveState = task.effectiveState := by
    rw [effectiveState, state, savedState]
    rfl
  refine ⟨?_, ?_, ?_, ?_, ?_, ?_, ?_⟩
  · rw [effective]
    unfold NoEvents
    rw [eventQueue]
    exact events
  · rw [effective, time]
    exact positive
  · rw [effective, clockId]
    exact clock
  · rw [effective]
    exact notSuspended
  · rw [effective]
    exact notRunning
  · rw [effective]
    exact notKilled
  · rw [state, savedState]
    exact semReset

/-- A ready task with no events is consistent. -/
theorem Consistent.of_ready
    {cfg : Config} {task : Tcb}
    (ready : task.state = .ready)
    (empty : task.NoEvents cfg) :
    task.Consistent cfg := by
  have effective : task.effectiveState = .ready := by
    rw [effectiveState_of_ne (by rw [ready]; decide), ready]
  refine ⟨?_, ?_, ?_, ?_, ?_, ?_, ?_⟩ <;> simp [effective, empty, ready]

/-- A consistent task that waits for no event has an empty wait queue. -/
theorem Consistent.noEvents
    {cfg : Config} {task : Tcb}
    (consistent : task.Consistent cfg)
    (notEvent : task.effectiveState ≠ .waitingEvent)
    (notTimeout : task.effectiveState ≠ .waitingEventTimeout) :
    task.NoEvents cfg := by
  by_contra some
  rcases consistent.events.mp some with event | timeout
  · exact notEvent event
  · exact notTimeout timeout

/-! ## Operations on a task that need not run -/

theorem Consistent.suspend
    {cfg : Config} {task : Tcb} (consistent : task.Consistent cfg) :
    task.suspend.Consistent cfg := by
  unfold Tcb.suspend
  by_cases active : task.state ≠ .killed ∧ task.state ≠ .suspended
  · rw [if_pos active]
    have effective := effectiveState_of_ne active.2
    by_cases sem : task.state = .waitingSem
    · rw [if_pos sem]
      rw [sem] at effective
      have empty := consistent.noEvents (by rw [effective]; decide)
        (by rw [effective]; decide)
      refine ⟨?_, ?_, ?_, ?_, ?_, ?_, ?_⟩ <;> simp [effectiveState]
      exact empty
    · rw [if_neg sem]
      obtain ⟨events, positive, clock, notSuspended, notRunning, notKilled,
        semReset⟩ := consistent
      rw [effective] at events positive clock notSuspended notRunning notKilled
      refine ⟨?_, ?_, ?_, ?_, ?_, ?_, ?_⟩ <;> simp only [effectiveState, if_true]
      · exact events
      · exact positive
      · exact clock
      · exact notSuspended
      · exact notRunning
      · exact notKilled
      · exact fun _ => sem
  · rw [if_neg active]
    exact consistent

theorem Consistent.resume
    {cfg : Config} {task : Tcb} (consistent : task.Consistent cfg) :
    task.resume.Consistent cfg := by
  unfold Tcb.resume
  by_cases suspended : task.state = .suspended
  · rw [if_pos suspended]
    have effective : task.effectiveState = task.savedState := by
      rw [effectiveState, if_pos suspended]
    obtain ⟨events, positive, clock, notSuspended, notRunning, notKilled,
      semReset⟩ := consistent
    rw [effective] at events positive clock notSuspended notRunning notKilled
    have after : { task with state := task.savedState }.effectiveState =
        task.savedState := effectiveState_of_ne notSuspended
    refine ⟨?_, ?_, ?_, ?_, ?_, ?_, fun wrong => absurd wrong notSuspended⟩ <;>
      rw [after]
    · exact events
    · exact positive
    · exact clock
    · exact notSuspended
    · exact notRunning
    · exact notKilled
  · rw [if_neg suspended]
    exact consistent

theorem Consistent.tick
    {cfg : Config} {task : Tcb} (consistent : task.Consistent cfg)
    (clockId tickSize : Nat) :
    (task.tick cfg clockId tickSize).Consistent cfg := by
  unfold Tcb.tick
  dsimp only
  by_cases timed : task.state = .waitingTime ∨ task.state = .waitingEventTimeout
  · rw [if_pos timed]
    have effective : task.effectiveState = task.state := by
      apply effectiveState_of_ne
      rcases timed with state | state <;> rw [state] <;> decide
    by_cases mine : task.clockId = clockId
    · rw [if_pos mine]
      by_cases expires : task.time ≤ tickSize
      · rw [if_pos expires]
        by_cases timeout : task.state = .waitingEventTimeout
        · rw [if_pos timeout]
          exact .of_ready rfl (empty_clearWaitQueue cfg _)
        · rw [if_neg timeout]
          have state := timed.resolve_right timeout
          rw [state] at effective
          have empty := consistent.noEvents (by rw [effective]; decide)
            (by rw [effective]; decide)
          exact .of_ready rfl empty
      · rw [if_neg expires]
        obtain ⟨events, positive, clock, notSuspended, notRunning, notKilled,
          semReset⟩ := consistent
        exact ⟨events, fun _ => Nat.sub_pos_of_lt (Nat.not_le.mp expires), clock,
          notSuspended, notRunning, notKilled, semReset⟩
    · rw [if_neg mine]
      exact consistent
  · rw [if_neg timed]
    by_cases sem : task.state = .waitingSem
    · rw [if_pos sem]
      have effective : task.effectiveState = .waitingSem := by
        rw [effectiveState_of_ne (by rw [sem]; decide), sem]
      obtain ⟨events, _, clock, notSuspended, notRunning, notKilled,
        semReset⟩ := consistent
      refine ⟨events, fun wrong => ?_, clock, notSuspended, notRunning, notKilled,
        semReset⟩
      change task.effectiveState = _ ∨ task.effectiveState = _ at wrong
      rw [effective] at wrong
      rcases wrong with wrong | wrong <;> cases wrong
    · rw [if_neg sem]
      exact consistent

theorem Consistent.signalEvent
    {cfg : Config} {task : Tcb} (consistent : task.Consistent cfg)
    (eventId : Nat) :
    (task.signalEvent cfg eventId).Consistent cfg := by
  by_cases concerned : task.Pending eventId ∧ task.WaitsForEvents
  · obtain ⟨pending, waits⟩ := concerned
    by_cases completes : task.Completes cfg eventId
    · rw [signalEvent_of_completes cfg pending waits completes]
      exact .of_ready rfl (empty_clearWaitQueue cfg _)
    · rw [signalEvent_of_not_completes cfg pending waits completes]
      -- another event of the wait is still pending
      obtain ⟨other, fits, otherPending, different⟩ :
          ∃ other, other / 8 < cfg.eventQueueSize ∧ task.Pending other ∧
            other ≠ eventId := by
        by_contra none
        apply completes
        right
        intro other fits otherPending
        by_contra different
        exact none ⟨other, fits, otherPending, different⟩
      have some : ¬ (task.unmarkEvent eventId).NoEvents cfg :=
        not_empty_of_pending fits
          ((pending_unmarkEvent eventId other task).mpr ⟨different, otherPending⟩)
      have effective : task.effectiveState = task.state := by
        apply effectiveState_of_ne
        rcases waits with state | state <;> rw [state] <;> decide
      obtain ⟨_, positive, clock, notSuspended, notRunning, notKilled,
        semReset⟩ := consistent
      refine ⟨?_, positive, clock, notSuspended, notRunning, notKilled, semReset⟩
      change _ ↔ task.effectiveState = _ ∨ task.effectiveState = _
      rw [effective]
      exact ⟨fun _ => waits, fun _ => some⟩
  · rw [signalEvent_of_not cfg concerned]
    exact consistent

/-! ## Starting to wait -/

/-- Nothing is pending in an empty wait queue; marking an event makes it
pending. -/
theorem not_noEvents_waitEvent
    {cfg : Config} {eventId : Nat} (waitSingleEvent : Bool) (timeout : Nat)
    (task : Tcb) (fits : eventId / 8 < cfg.eventQueueSize) :
    ¬ (task.waitEvent eventId waitSingleEvent timeout).NoEvents cfg := by
  apply not_empty_of_pending fits
  exact (pending_waitEvent eventId eventId waitSingleEvent timeout task).mpr
    (.inl rfl)

/-- A task that starts to wait for an event is consistent. -/
theorem consistent_waitEvent
    {cfg : Config} {eventId : Nat} (waitSingleEvent : Bool) (timeout : Nat)
    (task : Tcb) (fits : eventId / 8 < cfg.eventQueueSize) :
    (task.waitEvent eventId waitSingleEvent timeout).Consistent cfg := by
  have some := not_noEvents_waitEvent waitSingleEvent timeout task fits
  unfold waitEvent at some ⊢
  dsimp only at some ⊢
  by_cases timed : timeout ≠ 0
  · rw [if_pos timed] at some ⊢
    refine ⟨?_, fun _ => Nat.pos_of_ne_zero timed, fun _ => rfl, ?_, ?_, ?_, ?_⟩
    · exact ⟨fun _ => .inr rfl, fun _ => some⟩
    all_goals simp [effectiveState]
  · rw [if_neg timed] at some ⊢
    refine ⟨?_, ?_, ?_, ?_, ?_, ?_, ?_⟩
    · exact ⟨fun _ => .inl rfl, fun _ => some⟩
    all_goals simp [effectiveState]

/-- A running task that starts to wait is consistent. -/
theorem Idle.wait
    {cfg : Config} {k : Kernel β} {task : Tcb} {wait : Wait}
    (idle : task.Idle cfg)
    (enabled : wait.Enabled cfg k) :
    (wait.apply cfg task).Consistent cfg := by
  cases wait with
  | time id ticks =>
      have empty : (task.waitTimeSet id ticks).NoEvents cfg := idle.events
      refine ⟨iff_of_false (not_not.mpr empty) ?_, fun _ => enabled,
        ?_, ?_, ?_, ?_, ?_⟩
      all_goals simp [Wait.apply, effectiveState, waitTimeSet]
  | event eventId timeout =>
      exact consistent_waitEvent true timeout task enabled.2
  | multiple waitAll events =>
      obtain ⟨some, fits⟩ := enabled
      obtain ⟨earlier, last, rfl⟩ :=
        (List.eq_nil_or_concat events).resolve_left some
      simp only [Wait.apply, List.concat_eq_append, List.foldl_append,
        List.foldl_cons, List.foldl_nil]
      exact consistent_waitEvent _ 0 _ (fits last (by simp))
  | sem semId =>
      have empty : (task.waitSemSet semId).NoEvents cfg := idle.events
      refine ⟨iff_of_false (not_not.mpr empty) ?_, ?_, ?_, ?_, ?_, ?_, ?_⟩
      all_goals simp [Wait.apply, effectiveState, waitSemSet]
  | room queue eventId => exact consistent_waitEvent true 0 task enabled.1.2
  | message queue eventId => exact consistent_waitEvent true 0 task enabled.1.2

/-! ## What the running task keeps -/

theorem Idle.of_eq
    {cfg : Config} {task task' : Tcb}
    (idle : task.Idle cfg)
    (state : task'.state = task.state)
    (savedState : task'.savedState = task.savedState)
    (eventQueue : task'.eventQueue = task.eventQueue) :
    task'.Idle cfg := by
  obtain ⟨events, killedOrReady⟩ := idle
  refine ⟨?_, ?_⟩
  · unfold NoEvents
    rw [eventQueue]
    exact events
  · unfold effectiveState
    rw [state, savedState]
    exact killedOrReady

/-- The states in which a task can be while it runs. -/
theorem Idle.state_cases {cfg : Config} {task : Tcb} (idle : task.Idle cfg) :
    task.state = .killed ∨ task.state = .ready ∨
      (task.state = .suspended ∧ task.savedState = .ready) := by
  rcases idle.state with killed | effective
  · exact .inl killed
  · right
    unfold effectiveState at effective
    split_ifs at effective with suspended
    · exact .inr ⟨suspended, effective⟩
    · exact .inl effective

theorem Idle.suspend
    {cfg : Config} {task : Tcb} (idle : task.Idle cfg) :
    task.suspend.Idle cfg := by
  unfold Tcb.suspend
  rcases idle.state_cases with killed | ready | ⟨suspended, _⟩
  · simpa [killed] using idle
  · simp only [ready, ne_eq, reduceCtorEq, not_false_eq_true, and_self, if_true,
      if_false]
    exact ⟨idle.events, .inr rfl⟩
  · simpa [suspended] using idle

theorem Idle.resume
    {cfg : Config} {task : Tcb} (idle : task.Idle cfg) :
    task.resume.Idle cfg := by
  unfold Tcb.resume
  rcases idle.state_cases with killed | ready | ⟨suspended, saved⟩
  · simpa [killed] using idle
  · simpa [ready] using idle
  · rw [if_pos suspended]
    refine ⟨idle.events, .inr ?_⟩
    simp [effectiveState, saved]

theorem Idle.kill
    {cfg : Config} {task : Tcb} (idle : task.Idle cfg) : task.kill.Idle cfg :=
  ⟨idle.events, .inl rfl⟩

/-- A clock leaves the running task alone. -/
theorem Idle.tick
    {cfg : Config} {task : Tcb} (idle : task.Idle cfg)
    (clockId tickSize : Nat) :
    task.tick cfg clockId tickSize = task := by
  unfold Tcb.tick
  rcases idle.state_cases with state | state | ⟨state, _⟩ <;> simp [state]

/-- A signal leaves the running task alone. -/
theorem Idle.signalEvent
    {cfg : Config} {task : Tcb} (idle : task.Idle cfg)
    {eventId : Nat} (fits : eventId / 8 < cfg.eventQueueSize) :
    task.signalEvent cfg eventId = task := by
  apply signalEvent_of_not
  rintro ⟨pending, _⟩
  exact not_empty_of_pending fits pending idle.events

end Tcb

/-! ## The task table -/

namespace Kernel

/-- The invariant of the task table. -/
structure TasksSound (cfg : Config) (k : Kernel β) : Prop where
  consistent : ∀ tid, tid < k.tasks.nTasks →
    (k.tasks.taskList tid).state ≠ .killed →
    (k.tasks.taskList tid).Consistent cfg
  tids : ∀ tid, tid < k.tasks.nTasks → (k.tasks.taskList tid).tid = tid
  prios : ∀ tid other, tid < k.tasks.nTasks → other < k.tasks.nTasks →
    tid ≠ other → (k.tasks.taskList tid).prio ≠ (k.tasks.taskList other).prio
  runs : k.runningTid ≠ noTid →
    k.runningTid < k.tasks.nTasks ∧
    (k.tasks.taskList k.runningTid).Idle cfg

end Kernel

/-- The action makes the task wait. -/
def Act.Blocks (tid : Nat) : Act β → Prop
  | .block actor _ _ => actor = tid
  | _ => False

/-- A killed task stays killed unless it starts to wait. -/
theorem Micro.killed
    {cfg : Config} {k k' : Kernel β} {act : Act β}
    (acts : Micro cfg k act k')
    {tid : Nat}
    (created : tid < k.tasks.nTasks)
    (notBlocked : ¬ act.Blocks tid)
    (killed : (k.tasks.taskList tid).state = .killed) :
    (k'.tasks.taskList tid).state = .killed := by
  rw [acts.taskList created]
  cases acts with
  | yield line =>
      simp only [Act.onTask]
      split_ifs <;> exact killed
  | block wait line _ _ =>
      simp only [Act.onTask]
      rw [if_neg fun same => notBlocked same.symm]
      exact killed
  | note note =>
      simp only [Act.onTask]
      split_ifs
      · cases note <;> exact killed
      · exact killed
  | suspend inside =>
      simp only [Act.onTask]
      split_ifs
      · simp [Tcb.suspend, killed]
      · exact killed
  | resume inside =>
      simp only [Act.onTask]
      split_ifs
      · simp [Tcb.resume, killed]
      · exact killed
  | kill inside =>
      simp only [Act.onTask]
      split_ifs
      · rfl
      · exact killed
  | tick other clockId tickSize inside =>
      simp only [Act.onTask]
      split_ifs
      · simp [Tcb.tick, killed]
      · exact killed
  | signal events fits =>
      simp only [Act.onTask]
      rw [Tcb.signalEvent_of_not]
      · exact killed
      · rintro ⟨_, state | state⟩ <;> rw [killed] at state <;> cases state
  | release inside waits found =>
      simp only [Act.onTask]
      rw [if_neg]
      · exact killed
      · rintro rfl
        rw [waits.1] at killed
        cases killed
  | _ => exact killed

/-- An action keeps a task consistent unless it kills the task. -/
theorem Micro.consistent
    {cfg : Config} {k k' : Kernel β} {act : Act β}
    (sound : k.Sound cfg)
    (tasks : k.TasksSound cfg)
    (acts : Micro cfg k act k')
    {tid : Nat}
    (created : tid < k.tasks.nTasks)
    (alive : (k'.tasks.taskList tid).state ≠ .killed) :
    (k'.tasks.taskList tid).Consistent cfg := by
  by_cases blocks : act.Blocks tid
  · rw [acts.taskList created]
    cases acts with
    | block wait line inside enabled =>
        have same : tid = k.runningTid := Eq.symm blocks
        have runs : k.runningTid ≠ noTid :=
          Nat.ne_of_lt (inside.trans sound.nTasks_lt)
        simp only [Act.onTask]
        rw [if_pos same, same]
        exact ((tasks.runs runs).2.wait enabled).of_eq rfl rfl rfl rfl rfl
    | _ => exact blocks.elim
  · have before := tasks.consistent tid created fun killed =>
      alive (acts.killed created blocks killed)
    rw [acts.taskList created] at alive ⊢
    cases acts with
    | yield line =>
        simp only [Act.onTask]
        split_ifs
        · exact before.of_eq rfl rfl rfl rfl rfl
        · exact before
    | block wait line _ _ =>
        simp only [Act.onTask]
        rw [if_neg fun same => blocks same.symm]
        exact before
    | note note =>
        simp only [Act.onTask]
        split_ifs
        · cases note <;> exact before.of_eq rfl rfl rfl rfl rfl
        · exact before
    | suspend inside =>
        simp only [Act.onTask]
        split_ifs
        · exact before.suspend
        · exact before
    | resume inside =>
        simp only [Act.onTask]
        split_ifs
        · exact before.resume
        · exact before
    | kill inside =>
        simp only [Act.onTask] at alive ⊢
        split_ifs at alive ⊢
        · exact absurd rfl alive
        · exact before
    | tick other clockId tickSize inside =>
        simp only [Act.onTask]
        split_ifs
        · exact before.tick clockId tickSize
        · exact before
    | signal events fits => exact before.signalEvent _
    | release inside waits found =>
        simp only [Act.onTask]
        split_ifs with same
        · subst same
          have active : (k.tasks.taskList tid).state ≠ .suspended := by
            rw [waits.1]
            decide
          have effective := Tcb.effectiveState_of_ne active
          rw [waits.1] at effective
          exact .of_ready rfl (before.noEvents (by rw [effective]; decide)
            (by rw [effective]; decide))
        · exact before
    | _ => exact before

/-- An action leaves the task that runs after it waiting for nothing. -/
theorem Micro.idle
    {cfg : Config} {k k' : Kernel β} {act : Act β}
    (tasks : k.TasksSound cfg)
    (acts : Micro cfg k act k')
    (runs : k'.runningTid ≠ noTid) :
    k'.runningTid < k'.tasks.nTasks ∧
      (k'.tasks.taskList k'.runningTid).Idle cfg := by
  have running := acts.runningTid
  have grows := acts.nTasks_le
  -- but for the scheduler's choice, the task ran before the action too
  by_cases selected : ∃ tid, act = .select tid
  · obtain ⟨tid, rfl⟩ := selected
    cases acts with
    | select idle selects inside =>
        have ready := Kernel.selectTask_ready selects runs
        obtain ⟨nTasks, taskList, _⟩ := Kernel.selectTask_frame selects
        have created := inside runs
        refine ⟨created, ?_⟩
        rw [nTasks] at created
        rw [taskList]
        have consistent := tasks.consistent _ created (by rw [ready]; decide)
        have active : (k.tasks.taskList k'.runningTid).state ≠ .suspended := by
          rw [ready]
          decide
        have effective := Tcb.effectiveState_of_ne active
        rw [ready] at effective
        exact ⟨consistent.noEvents (by rw [effective]; decide)
          (by rw [effective]; decide), .inr effective⟩
  · have sameRunning : k'.runningTid = k.runningTid := by
      rw [running]
      cases act with
      | select tid => exact absurd ⟨tid, rfl⟩ selected
      | free | yield | block => exact absurd running runs
      | _ => rfl
    rw [sameRunning] at runs ⊢
    obtain ⟨created, idle⟩ := tasks.runs runs
    refine ⟨created.trans_le grows, ?_⟩
    rw [acts.taskList created]
    cases acts with
    | yield line => exact absurd running (sameRunning ▸ runs)
    | block wait line _ _ => exact absurd running (sameRunning ▸ runs)
    | note note =>
        simp only [Act.onTask, if_true]
        cases note <;> exact idle.of_eq rfl rfl rfl
    | suspend inside =>
        simp only [Act.onTask]
        split_ifs
        · exact idle.suspend
        · exact idle
    | resume inside =>
        simp only [Act.onTask]
        split_ifs
        · exact idle.resume
        · exact idle
    | kill inside =>
        simp only [Act.onTask]
        split_ifs
        · exact idle.kill
        · exact idle
    | tick other clockId tickSize inside =>
        simp only [Act.onTask]
        rw [idle.tick, ite_self]
        exact idle
    | signal events fits =>
        simp only [Act.onTask]
        have wide := fits.resolve_left (Nat.ne_zero_of_lt created)
        rw [idle.signalEvent wide]
        exact idle
    | release inside waits found =>
        simp only [Act.onTask]
        rw [if_neg]
        · exact idle
        · rintro rfl
          rcases idle.state_cases with state | state | ⟨state, _⟩ <;>
            rw [waits.1] at state <;> cases state
    | _ => exact idle

/-! ## Reachable states -/

namespace Kernel

theorem prio_of_static {task task' : Tcb} (same : task'.static = task.static) :
    task'.prio = task.prio := by
  unfold Tcb.static at same
  simp only [Prod.mk.injEq] at same
  exact same.2.2.1

theorem tid_of_static {task task' : Tcb} (same : task'.static = task.static) :
    task'.tid = task.tid := by
  unfold Tcb.static at same
  simp only [Prod.mk.injEq] at same
  exact same.2.1

/-- A new task is ready, waits for nothing, and has the next id and a priority
of its own. -/
theorem TasksSound.of_osTaskCreate
    {cfg : Config} {k k' : Kernel β} (tasks : k.TasksSound cfg)
    {taskproc data prio : Nat} {msgPool : Nat → Msg β}
    {poolSize msgSize tid : Nat}
    (returns : k.osTaskCreate cfg taskproc data prio msgPool poolSize msgSize =
      .ok (tid, k')) :
    k'.TasksSound cfg := by
  have frame := (osTaskCreate_frame returns).1
  obtain ⟨_, _, unused, _, msgQ, kq, source, rfl⟩ := osTaskCreate_cases returns
  have new := k.tasks.modify_taskList_self k.tasks.nTasks
    (newTcb cfg taskproc data prio k.tasks.nTasks msgQ)
  have old := frame.taskList
  dsimp only at old
  have split : ∀ tid, tid < k.tasks.nTasks + 1 →
      tid = k.tasks.nTasks ∨ tid < k.tasks.nTasks := by
    intro tid created
    omega
  refine ⟨fun tid created alive => ?_, fun tid created => ?_,
    fun tid other created otherCreated different => ?_, fun runs => ?_⟩
  · rcases split tid created with rfl | before
    · simp only [new]
      exact .of_ready rfl (Tcb.empty_clearWaitQueue cfg _)
    · simp only [old tid before] at alive ⊢
      exact tasks.consistent tid before alive
  · rcases split tid created with rfl | before
    · simp only [new]
      rfl
    · simp only [old tid before]
      exact tasks.tids tid before
  · rcases split tid created with rfl | before
    · rcases split other otherCreated with rfl | otherBefore
      · exact absurd rfl different
      · simp only [new, old other otherBefore]
        exact (unused other otherBefore).symm
    · rcases split other otherCreated with rfl | otherBefore
      · simp only [new, old tid before]
        exact unused tid before
      · simp only [old tid before, old other otherBefore]
        exact tasks.prios tid other before otherBefore different
  · have sameRunning := frame.runningTid
    dsimp only at runs sameRunning ⊢
    rw [sameRunning] at runs ⊢
    obtain ⟨created, idle⟩ := tasks.runs runs
    simp only [old _ created]
    exact ⟨Nat.lt_succ_of_lt created, idle⟩

/-- Every action keeps the task table consistent. -/
theorem TasksSound.of_micro
    {cfg : Config} {k k' : Kernel β} {act : Act β}
    (sound : k.Sound cfg)
    (tasks : k.TasksSound cfg)
    (acts : Micro cfg k act k') :
    k'.TasksSound cfg := by
  by_cases quiet : act.Quiet
  · have same := acts.sameObjects quiet
    refine ⟨fun tid created alive => ?_, fun tid created => ?_,
      fun tid other created otherCreated different => ?_,
      fun runs => acts.idle tasks runs⟩
    · rw [same.nTasks] at created
      exact acts.consistent sound tasks created alive
    · rw [same.nTasks] at created
      rw [tid_of_static (same.static tid created)]
      exact tasks.tids tid created
    · rw [same.nTasks] at created otherCreated
      rw [prio_of_static (same.static tid created),
        prio_of_static (same.static other otherCreated)]
      exact tasks.prios tid other created otherCreated different
  · cases acts with
    | create creation creates =>
        cases creation with
        | osTaskCreate taskproc data prio msgPool poolSize msgSize =>
            obtain ⟨⟨tid, made⟩, returns, rfl⟩ := map_eq_ok_iff.mp creates
            exact tasks.of_osTaskCreate returns
        | eventCreate | semBinCreate | semCountingCreate =>
            obtain ⟨made, _, rfl⟩ := map_eq_ok_iff.mp creates
            exact ⟨tasks.consistent, tasks.tids, tasks.prios, tasks.runs⟩
    | _ => exact absurd trivial quiet

theorem tasksSound_osInit (cfg : Config) (k : Kernel β) :
    (osInit cfg k).TasksSound cfg :=
  ⟨fun tid created => absurd created (Nat.not_lt_zero tid),
    fun tid created => absurd created (Nat.not_lt_zero tid),
    fun tid _ created => absurd created (Nat.not_lt_zero tid),
    fun runs => absurd rfl runs⟩

end Kernel

theorem reachable_tasksSound
    {cfg : Config} {s : Sys β}
    (reachable : ReachableSys cfg s) :
    s.kernel.TasksSound cfg :=
  reachable_invariant (fun k => k.TasksSound cfg)
    (Kernel.tasksSound_osInit cfg)
    (fun _ _ _ sound tasks acts => tasks.of_micro sound acts) reachable

/-- In every reachable state every task that is not killed is consistent, task
ids are table indices and priorities are distinct. -/
theorem reachable_task_table_consistent
    {cfg : Config} {s : Sys β}
    (reachable : ReachableSys cfg s) :
    (∀ tid, tid < s.kernel.tasks.nTasks →
      (s.kernel.tasks.taskList tid).state ≠ .killed →
      (s.kernel.tasks.taskList tid).Consistent cfg) ∧
    (∀ tid, tid < s.kernel.tasks.nTasks →
      (s.kernel.tasks.taskList tid).tid = tid) ∧
    (∀ tid other, tid < s.kernel.tasks.nTasks →
      other < s.kernel.tasks.nTasks → tid ≠ other →
      (s.kernel.tasks.taskList tid).prio ≠
        (s.kernel.tasks.taskList other).prio) := by
  have tasks := reachable_tasksSound reachable
  exact ⟨tasks.consistent, tasks.tids, tasks.prios⟩

/-- A run in which one task waits for an event and another is suspended. -/
theorem reachable_task_table_consistent_setUp :
    ∃ s, run (step (Config.small true)) (Sys.boot (Config.small true))
        (setUp 1 2 3 ++ [.osSchedule, .task (.eventWaitTimeout 1 5) 7,
          .osSchedule, .task (.semWait 0) 8, .call (.osTaskSuspend 0)]) = .ok s ∧
      ∀ tid, tid < s.kernel.tasks.nTasks →
        (s.kernel.tasks.taskList tid).state ≠ .killed →
        (s.kernel.tasks.taskList tid).Consistent (Config.small true) := by
  obtain ⟨s, runs⟩ := exists_of_isOk
    (run (step (Config.small true)) (Sys.boot (Config.small true))
      (setUp 1 2 3 ++ [.osSchedule, .task (.eventWaitTimeout 1 5) 7,
        .osSchedule, .task (.semWait 0) 8, .call (.osTaskSuspend 0)]))
    (by decide +kernel)
  exact ⟨s, runs, (reachable_task_table_consistent (reachable_of_run runs)).1⟩

end CocoOs
