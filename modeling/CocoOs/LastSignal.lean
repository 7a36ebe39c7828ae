import CocoOs.RunTrace

/-!
# The last signal

A task that waits for any of several events asks for the last signalled event
when it goes on.  The answer is the event that woke it exactly when no other
event is the last one signalled between the waking signal and the task's
resumption.
-/

namespace CocoOs

open Foundation

variable {β : Type}

/-! ## The last signal of a trace -/

/-- The event an action signals. -/
def Act.signalled : Act β → Option Nat
  | .signal eventId => some eventId
  | _ => none

/-- The event that a list of actions signals last. -/
def lastSignal (acts : List (Act β)) : Option Nat :=
  lastOf Act.signalled acts

theorem EventTable.eventCreate_lastSignaledEvent
    {cfg : Config} {events events' : EventTable} {id : Nat}
    (returns : events.eventCreate cfg = .ok (id, events')) :
    events'.lastSignaledEvent = events.lastSignaledEvent := by
  rcases eventCreate_cases returns with ⟨_, _, rfl⟩ | ⟨_, _, rfl⟩ <;> rfl

/-- Only a signal writes the last signalled event. -/
theorem Micro.lastSignaledEvent
    {cfg : Config} {k k' : Kernel β} {act : Act β}
    (acts : Micro cfg k act k') :
    k'.events.lastSignaledEvent =
      act.signalled.getD k.events.lastSignaledEvent := by
  cases acts with
  | create creation creates =>
      rcases creationStep_events creates with same | ⟨event, returns⟩
      · rw [same]
        rfl
      · exact EventTable.eventCreate_lastSignaledEvent returns
  | select idle selects inside =>
      rw [(Kernel.selectTask_frame selects).2.2.2.1]
      rfl
  | post returns =>
      rcases Kernel.osMsgPost_cases returns with
        ⟨_, rfl⟩ | ⟨_, _, _, _, q, rfl⟩ <;> rfl
  | receive returns _ =>
      rcases Kernel.osMsgReceive_cases returns with
        ⟨_, _, rfl⟩ | ⟨_, _, _, q, msg, rfl⟩ <;> rfl
  | _ => rfl

theorem lastSignaledEvent_of_trace
    {cfg : Config} {k k' : Kernel β} {acts : List (Act β)}
    (trace : Trace (Micro cfg) k acts k') :
    k'.events.lastSignaledEvent =
      (lastSignal acts).getD k.events.lastSignaledEvent :=
  trace.observe_last (fun _ => True)
    (fun k : Kernel β => k.events.lastSignaledEvent) Act.signalled
    (fun _ _ _ _ acts => acts.lastSignaledEvent) (fun _ _ => trivial)

/-! ## A wait for any of several events -/

/-- What a wait for events reads of a task, up to suspension. -/
def Tcb.eventPart (task : Tcb) : TaskState × Bool × (Nat → BitVec 8) :=
  (task.effectiveState, task.waitSingleEvent, task.eventQueue)

theorem Tcb.eventPart_of_waitPart
    {task task' : Tcb} (same : task'.waitPart = task.waitPart) :
    task'.eventPart = task.eventPart := by
  unfold waitPart at same
  simp only [Prod.mk.injEq] at same
  obtain ⟨state, savedState, _, _, _, mode, eventQueue⟩ := same
  unfold eventPart effectiveState
  rw [state, savedState, mode, eventQueue]

theorem Tcb.eventPart_suspend
    {task : Tcb} (notSem : task.effectiveState ≠ .waitingSem) :
    task.suspend.eventPart = task.eventPart := by
  unfold eventPart
  rw [effectiveState_suspend notSem]
  unfold suspend
  split_ifs <;> rfl

theorem Tcb.eventPart_resume
    {task : Tcb} (notSuspended : task.effectiveState ≠ .suspended) :
    task.resume.eventPart = task.eventPart := by
  unfold eventPart
  rw [effectiveState_resume notSuspended]
  unfold resume
  split_ifs <;> rfl

/-- The task waits for any of the events.  It may be suspended meanwhile. -/
structure AnyWait (cfg : Config) (events : List Nat) (task : Tcb) : Prop where
  state : task.effectiveState = .waitingEvent
  mode : task.waitSingleEvent = true
  pending : ∀ event, event / 8 < cfg.eventQueueSize →
    (task.Pending event ↔ event ∈ events)

theorem AnyWait.of_eventPart
    {cfg : Config} {events : List Nat} {task task' : Tcb}
    (wait : AnyWait cfg events task)
    (same : task'.eventPart = task.eventPart) :
    AnyWait cfg events task' := by
  unfold Tcb.eventPart at same
  simp only [Prod.mk.injEq] at same
  obtain ⟨state, mode, eventQueue⟩ := same
  refine ⟨state.trans wait.state, mode.trans wait.mode, fun event fits => ?_⟩
  unfold Tcb.Pending
  rw [eventQueue]
  exact wait.pending event fits

section

variable {cfg : Config} {k k' : Kernel β} {act : Act β} {acts : List (Act β)}
variable {tid : Nat} {events : List Nat}

/-- A task that waits for events or is ready, suspended or not, stays so under
every action but a signal it listens to, its own next wait and its end. -/
theorem Micro.eventPart
    (acts : Micro cfg k act k')
    (created : tid < k.tasks.nTasks)
    (notBlocked : ¬ act.Blocks tid)
    (notKilled : act ≠ .kill tid)
    (uncalled : ¬ act.Calls (k.tasks.taskList tid))
    (state : (k.tasks.taskList tid).effectiveState = .waitingEvent ∨
      (k.tasks.taskList tid).effectiveState = .ready) :
    (k'.tasks.taskList tid).eventPart = (k.tasks.taskList tid).eventPart := by
  rw [acts.taskList created]
  by_cases moves : act.Moves tid
  · cases acts with
    | block wait line inside enabled => exact absurd moves notBlocked
    | suspend inside =>
        simp only [Act.onTask]
        rw [if_pos (Eq.symm moves)]
        apply Tcb.eventPart_suspend
        rcases state with state | state <;> rw [state] <;> decide
    | resume inside =>
        simp only [Act.onTask]
        rw [if_pos (Eq.symm moves)]
        apply Tcb.eventPart_resume
        rcases state with state | state <;> rw [state] <;> decide
    | kill inside => exact absurd (congrArg Act.kill moves) notKilled
    | tick other clockId tickSize inside =>
        have still : (k.tasks.taskList tid).tick cfg clockId tickSize =
            k.tasks.taskList tid := by
          by_cases suspended : (k.tasks.taskList tid).state = .suspended
          · simp [Tcb.tick, suspended]
          · rw [Tcb.effectiveState_of_ne suspended] at state
            rcases state with state | state <;> simp [Tcb.tick, state]
        simp only [Act.onTask]
        rw [still, ite_self]
    | @release other sem inside waits found =>
        have same : other = tid := moves
        subst same
        rw [Tcb.effectiveState_of_ne (by rw [waits.1]; decide), waits.1] at state
        rcases state with state | state <;> cases state
    | _ => exact moves.elim
  · exact Tcb.eventPart_of_waitPart (Act.waitPart_onTask moves uncalled)

/-- A wait for any of the events ends with the first signal of one of them that
finds the task not suspended. -/
theorem AnyWait.of_micro
    (wait : AnyWait cfg events (k.tasks.taskList tid))
    (acts : Micro cfg k act k')
    (created : tid < k.tasks.nTasks)
    (notBlocked : ¬ act.Blocks tid)
    (notKilled : act ≠ .kill tid) :
    AnyWait cfg events (k'.tasks.taskList tid) ∨
    ∃ event ∈ events, act = .signal event ∧
      (k.tasks.taskList tid).state = .waitingEvent ∧
      (k'.tasks.taskList tid).state = .ready := by
  by_cases calls : act.Calls (k.tasks.taskList tid)
  · cases acts with
    | @signal event available fits =>
        obtain ⟨pending, listens⟩ := calls
        have inside : event / 8 < cfg.eventQueueSize :=
          fits.resolve_left (Nat.ne_zero_of_lt created)
        have active : (k.tasks.taskList tid).state ≠ .suspended := by
          rcases listens with state | state <;> rw [state] <;> decide
        refine .inr ⟨event, (wait.pending event inside).mp pending, rfl, ?_, ?_⟩
        · rw [← Tcb.effectiveState_of_ne active]
          exact wait.state
        · change ((k.tasks.mapCreated (Tcb.signalEvent cfg event)).taskList
            tid).state = .ready
          rw [TaskTable.mapCreated_taskList_of_lt _ _ created,
            Tcb.signalEvent_of_completes cfg pending listens (.inl wait.mode)]
          rfl
    | _ => exact calls.elim
  · exact .inl (wait.of_eventPart
      (acts.eventPart created notBlocked notKilled calls (.inl wait.state)))

/-! ## The waking signal -/

/-- The signal of the event between two lists of actions makes the task ready.
Until then the task waits for events, and since then it is ready, but for the
times at which it is suspended. -/
structure WokenBy (cfg : Config) (tid : Nat) (k : Kernel β)
    (earlier : List (Act β)) (waking : Nat) (later : List (Act β)) : Prop where
  waits : ∀ front k', front <+: earlier → Trace (Micro cfg) k front k' →
    (k'.tasks.taskList tid).effectiveState = .waitingEvent
  active : ∀ k', Trace (Micro cfg) k earlier k' →
    (k'.tasks.taskList tid).state = .waitingEvent
  wakes : ∀ k', Trace (Micro cfg) k (earlier ++ [.signal waking]) k' →
    (k'.tasks.taskList tid).state = .ready
  ready : ∀ front k', front <+: later →
    Trace (Micro cfg) k (earlier ++ .signal waking :: front) k' →
    (k'.tasks.taskList tid).effectiveState = .ready

/-- The task control block of a created task after a trace is that of the
actions' effects on this task alone. -/
theorem Micro.taskList_of_trace
    (trace : Trace (Micro cfg) k acts k')
    (created : tid < k.tasks.nTasks) :
    k'.tasks.taskList tid =
      acts.foldl (fun task act => act.onTask cfg tid task)
        (k.tasks.taskList tid) :=
  trace.observe (fun k => tid < k.tasks.nTasks)
    (fun _ _ _ created acts => created.trans_le acts.nTasks_le)
    (fun k : Kernel β => k.tasks.taskList tid)
    (fun task act => act.onTask cfg tid task)
    (fun _ _ _ created acts => acts.taskList created) created

/-- Two traces of the same actions leave a created task alike. -/
theorem Micro.taskList_eq_of_traces
    {k₁ k₂ : Kernel β}
    (first : Trace (Micro cfg) k acts k₁)
    (second : Trace (Micro cfg) k acts k₂)
    (created : tid < k.tasks.nTasks) :
    k₁.tasks.taskList tid = k₂.tasks.taskList tid :=
  (Micro.taskList_of_trace first created).trans
    (Micro.taskList_of_trace second created).symm

/-- A task that is ready at the end of a trace in which it does not start to
wait is not killed on the way. -/
theorem Micro.not_kills_of_ready
    (trace : Trace (Micro cfg) k acts k')
    (created : tid < k.tasks.nTasks)
    (notBlocked : ∀ act ∈ acts, ¬ act.Blocks tid)
    (ready : (k'.tasks.taskList tid).state = .ready) :
    ∀ act ∈ acts, act ≠ .kill tid := by
  rintro act inside rfl
  obtain ⟨earlier, later, rfl⟩ := List.append_of_mem inside
  obtain ⟨k₁, before, after⟩ := trace.exists_middle
  have created₁ := created.trans_le (Micro.nTasks_le_of_trace before)
  cases after with
  | @cons _ k₂ _ _ _ kills rest =>
      have killed : (k₂.tasks.taskList tid).state = .killed := by
        rw [kills.taskList created₁]
        simp only [Act.onTask, if_true]
        rfl
      have both := rest.invariant (fun act => ¬ act.Blocks tid)
        (fun k => tid < k.tasks.nTasks ∧ (k.tasks.taskList tid).state = .killed)
        (fun _ _ _ still holds acts => ⟨holds.1.trans_le acts.nTasks_le,
          acts.killed holds.1 still holds.2⟩)
        (fun act member => notBlocked act
          (List.mem_append_right _ (List.mem_cons_of_mem _ member)))
        ⟨created₁.trans_le kills.nTasks_le, killed⟩
      rw [ready] at both
      cases both.2

/-- A ready task stays ready or is suspended while it is not run. -/
theorem Micro.effectiveState_ready_of_trace
    (trace : Trace (Micro cfg) k acts k')
    (created : tid < k.tasks.nTasks)
    (notBlocked : ∀ act ∈ acts, ¬ act.Blocks tid)
    (notKilled : ∀ act ∈ acts, act ≠ .kill tid)
    (ready : (k.tasks.taskList tid).effectiveState = .ready) :
    (k'.tasks.taskList tid).effectiveState = .ready := by
  have both := trace.invariant
    (fun act => ¬ act.Blocks tid ∧ act ≠ .kill tid)
    (fun k => tid < k.tasks.nTasks ∧
      (k.tasks.taskList tid).effectiveState = .ready)
    ?_ (fun act inside => ⟨notBlocked act inside, notKilled act inside⟩)
    ⟨created, ready⟩
  · exact both.2
  · rintro k act k' ⟨still, alive⟩ ⟨created, ready⟩ acts
    refine ⟨created.trans_le acts.nTasks_le, ?_⟩
    have deaf : ¬ act.Calls (k.tasks.taskList tid) := by
      intro calls
      cases act with
      | signal event =>
          rcases calls.2 with state | state <;>
            rw [Tcb.effectiveState_of_ne (by rw [state]; decide), state]
              at ready <;>
            cases ready
      | _ => exact calls
    have same := acts.eventPart created still alive deaf (.inr ready)
    exact (congrArg Prod.fst same).trans ready

/-- A task that waits for any of the events and is ready in the end was woken
by one signal. -/
theorem AnyWait.exists_wokenBy
    (wait : AnyWait cfg events (k.tasks.taskList tid))
    (trace : Trace (Micro cfg) k acts k')
    (created : tid < k.tasks.nTasks)
    (notBlocked : ∀ act ∈ acts, ¬ act.Blocks tid)
    (notKilled : ∀ act ∈ acts, act ≠ .kill tid)
    (ready : (k'.tasks.taskList tid).effectiveState = .ready) :
    ∃ earlier waking later, acts = earlier ++ .signal waking :: later ∧
      waking ∈ events ∧ WokenBy cfg tid k earlier waking later := by
  have ends : ¬ AnyWait cfg events (k'.tasks.taskList tid) := by
    intro still
    rw [still.state] at ready
    cases ready
  obtain ⟨earlier, act, later, k₁, k₂, rfl, before, acts, after, here, gone,
    stays⟩ := trace.exists_exit (fun k : Kernel β =>
      AnyWait cfg events (k.tasks.taskList tid)) wait ends
  have created₁ := created.trans_le (Micro.nTasks_le_of_trace before)
  have now : act ∈ earlier ++ act :: later :=
    List.mem_append_right _ (List.mem_cons_self ..)
  obtain ⟨waking, inside, rfl, active, woken⟩ := (here.of_micro acts created₁
    (notBlocked act now) (notKilled act now)).resolve_left gone
  have wakes : ∀ k', Trace (Micro cfg) k (earlier ++ [.signal waking]) k' →
      (k'.tasks.taskList tid).state = .ready := by
    intro k' there
    rw [Micro.taskList_eq_of_traces there (before.snoc acts) created]
    exact woken
  refine ⟨earlier, waking, later, rfl, inside, ?_, ?_, wakes, ?_⟩
  · intro front k' isPrefix there
    obtain ⟨state, along, holds⟩ := stays front isPrefix
    rw [Micro.taskList_eq_of_traces there along created]
    exact holds.state
  · intro k' there
    rw [Micro.taskList_eq_of_traces there before created]
    exact active
  · intro front k' isPrefix there
    rw [List.append_cons] at there
    obtain ⟨k₂', first, rest⟩ := there.exists_middle
    have readyThere := wakes k₂' first
    have members : ∀ act ∈ front, act ∈ earlier ++ .signal waking :: later :=
      fun act member => List.mem_append_right _
        (List.mem_cons_of_mem _ (isPrefix.subset member))
    apply Micro.effectiveState_ready_of_trace rest
      (created.trans_le (Micro.nTasks_le_of_trace first))
      (fun act member => notBlocked act (members act member))
      (fun act member => notKilled act (members act member))
    rw [Tcb.effectiveState_of_ne (by rw [readyThere]; decide)]
    exact readyThere

end


/-! ## What the task reads -/

/-- A task that neither runs nor is chosen starts no wait. -/
theorem RunActs.not_blocks
    {cfg : Config} {s s' : Sys β} {labels : List (Label β)}
    {acts : List (Act β)} {tid : Nat}
    (runActs : RunActs cfg s labels acts s')
    (sound : s.kernel.Sound cfg)
    (isTask : tid ≠ noTid)
    (notRunning : s.kernel.runningTid ≠ tid)
    (notChosen : Meets (step cfg)
      (fun s label => scheduled cfg s label ≠ some tid) s labels) :
    ∀ act ∈ acts, ¬ act.Blocks tid := by
  induction runActs with
  | nil s => simp
  | cons steps shape trace rest inductionHypothesis =>
      have later := inductionHypothesis (step_sound sound steps)
        (step_notRunning sound steps isTask notRunning notChosen.1)
        (notChosen.2 _ steps)
      intro act inside
      rcases List.mem_append.mp inside with now | after
      · exact shape.not_blocks notRunning notChosen.1 act now
      · exact later act after

/-- A task that waits for any of several created events gives up the processor
between macros. -/
theorem step_eventWaitAny
    {cfg : Config} {s s' : Sys β} {args : List UInt8} {line : UInt16}
    (reachable : ReachableSys cfg s)
    (nonempty : args ≠ [])
    (known : ∀ event ∈ args, s.kernel.HasEvent cfg event.toNat)
    (starts : step cfg s (.task (.eventWaitMultiple false args) line) =
      .ok s') :
    s.kernel.runningTid < s.kernel.tasks.nTasks ∧
      s'.frame s.kernel.runningTid = .between ∧
      s'.kernel.runningTid ≠ s.kernel.runningTid ∧
      AnyWait cfg (args.map UInt8.toNat)
        (s'.kernel.tasks.taskList s.kernel.runningTid) := by
  have sound := reachable_sound reachable
  have knownNat : ∀ event ∈ args.map UInt8.toNat,
      s.kernel.HasEvent cfg event := by
    intro event inside
    obtain ⟨arg, member, rfl⟩ := List.mem_map.mp inside
    exact known arg member
  obtain ⟨created, between, wait, _⟩ :=
    exists_eventWait reachable rfl (by simpa using nonempty) knownNat starts
  refine ⟨created, between, ?_, ?_⟩
  · obtain ⟨acts, shape, trace⟩ := step_trace sound starts
    rw [Micro.runningTid_of_trace trace]
    have isTask := Nat.ne_of_gt (created.trans sound.nTasks_lt)
    generalize s'.frame = frame at shape
    cases shape with
    | task runs takes => cases takes <;> exact isTask
  · cases wait with
    | waiting _ state mode pending =>
        refine ⟨?_, mode, fun event fits => ?_⟩
        · rw [Tcb.effectiveState_of_ne (by rw [state]; decide)]
          exact state
        · simpa using pending event fits
    | woken woken =>
        obtain ⟨_, _, wrong⟩ := woken
        exact absurd wrong List.not_mem_nil

/-- A task that waits for any of several created events and goes on when the
scheduler next chooses it was made ready by one signal.  It reads the event of
that signal as the last signalled event if and only if the last signal since
then, when there is one, was of the same event. -/
theorem reads_waking_event_iff
    {cfg : Config} {s s₁ s₂ s₃ : Sys β}
    {args : List UInt8} {line : UInt16} {labels : List (Label β)}
    (reachable : ReachableSys cfg s)
    (nonempty : args ≠ [])
    (known : ∀ event ∈ args, s.kernel.HasEvent cfg event.toNat)
    (starts : step cfg s (.task (.eventWaitMultiple false args) line) = .ok s₁)
    (away : Meets (step cfg)
      (fun s' label => scheduled cfg s' label ≠ some s.kernel.runningTid) s₁
      labels)
    (runs : run (step cfg) s₁ labels = .ok s₂)
    (resumes : step cfg s₂ .osSchedule = .ok s₃)
    (chosen : scheduled cfg s₂ .osSchedule = some s.kernel.runningTid) :
    ∃ earlier waking later,
      RunActs cfg s₁ labels (earlier ++ .signal waking :: later) s₂ ∧
      waking ∈ args.map UInt8.toNat ∧
      WokenBy cfg s.kernel.runningTid s₁.kernel earlier waking later ∧
      (s₃.kernel.events.eventLastSignaledGet cfg = waking ↔
        ∀ event, lastSignal later = some event → event = waking) := by
  have sound := reachable_sound reachable
  have available : 0 < cfg.nTotalEvents := by
    obtain ⟨first, rest, split⟩ := List.exists_cons_of_ne_nil nonempty
    exact (known first (by simp [split])).1
  obtain ⟨created, between, notRunning, wait⟩ :=
    step_eventWaitAny reachable nonempty known starts
  have isTask : s.kernel.runningTid ≠ noTid :=
    Nat.ne_of_lt (created.trans sound.nTasks_lt)
  have sound₁ := step_sound sound starts
  have created₁ := created.trans_le (step_nTasks_le sound starts)
  obtain ⟨acts, runActs⟩ := exists_runActs sound₁ runs
  have notBlocked := runActs.not_blocks sound₁ isTask notRunning away
  -- the task is ready when the scheduler chooses it, so a signal woke it
  have ready := scheduled_ready chosen isTask
  have notKilled :=
    Micro.not_kills_of_ready runActs.trace created₁ notBlocked ready
  obtain ⟨earlier, waking, later, rfl, inside, wokenBy⟩ :=
    wait.exists_wokenBy runActs.trace created₁ notBlocked notKilled (by
      rw [Tcb.effectiveState_of_ne (by rw [ready]; decide)]
      exact ready)
  refine ⟨earlier, waking, later, runActs, inside, wokenBy, ?_⟩
  have between₂ : s₂.frame s.kernel.runningTid = .between := by
    rw [runActs.keeps_frame sound₁ isTask notRunning away]
    exact between
  obtain ⟨k, selects, kernel, running⟩ :=
    step_resumes resumes chosen isTask between₂
  obtain ⟨k₁, _, trace⟩ := runActs.trace.exists_middle
  cases trace with
  | cons waked rest =>
      have last := lastSignaledEvent_of_trace rest
      rw [waked.lastSignaledEvent] at last
      unfold EventTable.eventLastSignaledGet
      rw [if_pos available, kernel,
        (Kernel.selectTask_frame selects).2.2.2.1, last]
      cases lastSignal later <;> simp [Act.signalled]

/-- The first of three tasks waits for any of two events.  Interrupts suspend
it, signal one of the events in vain, resume it and signal the other one. -/
theorem reads_waking_event_iff_setUp :
    ∃ s s₁ s₂ s₃ : Sys Nat,
      run (step (Config.small false)) (Sys.boot (Config.small false))
        (setUp 1 2 3 ++ [.osSchedule]) = .ok s ∧
      step (Config.small false) s (.task (.eventWaitMultiple false [0, 1]) 4) =
        .ok s₁ ∧
      run (step (Config.small false)) s₁
        [.call (.osTaskSuspend 0), .call (.eventIsrSignal 0),
          .call (.osTaskResume 0), .call (.eventIsrSignal 1)] = .ok s₂ ∧
      step (Config.small false) s₂ .osSchedule = .ok s₃ ∧
      ∃ earlier waking later,
        RunActs (Config.small false) s₁
          [.call (.osTaskSuspend 0), .call (.eventIsrSignal 0),
            .call (.osTaskResume 0), .call (.eventIsrSignal 1)]
          (earlier ++ .signal waking :: later) s₂ ∧
        (s₃.kernel.events.eventLastSignaledGet (Config.small false) = waking ↔
          ∀ event, lastSignal later = some event → event = waking) := by
  obtain ⟨s, s₂, before, after, checked⟩ := exists_runs_of_returnsWith
    (step (Config.small false)) (Sys.boot (Config.small false))
    (setUp 1 2 3 ++ [.osSchedule])
    [.task (.eventWaitMultiple false [0, 1]) 4, .call (.osTaskSuspend 0),
      .call (.eventIsrSignal 0), .call (.osTaskResume 0),
      .call (.eventIsrSignal 1)]
    (fun states : Sys Nat × Sys Nat =>
      decide (states.1.kernel.runningTid = 0 ∧
        states.1.kernel.events.nEvents = 2 ∧
        scheduled (Config.small false) states.2 .osSchedule = some 0) &&
      (step (Config.small false) states.2 .osSchedule).isOk)
    (by decide +kernel)
  rw [Bool.and_eq_true] at checked
  obtain ⟨runsNow, counted, chosen⟩ := of_decide_eq_true checked.1
  obtain ⟨s₃, resumes⟩ := exists_of_isOk _ checked.2
  obtain ⟨s₁, starts, runs⟩ := run_cons_eq_ok_iff.mp after
  have known : ∀ event ∈ [(0 : UInt8), 1],
      s.kernel.HasEvent (Config.small false) event.toNat := by
    intro event inside
    refine ⟨by decide, ?_⟩
    rw [counted]
    simp only [List.mem_cons, List.not_mem_nil, or_false] at inside
    rcases inside with rfl | rfl <;> decide
  have away : Meets (step (Config.small false))
      (fun s' label => scheduled (Config.small false) s' label ≠
        some s.kernel.runningTid) s₁
      [.call (.osTaskSuspend 0), .call (.eventIsrSignal 0),
        .call (.osTaskResume 0), .call (.eventIsrSignal 1)] :=
    .of_forall (by simp [scheduled]) s₁
  obtain ⟨earlier, waking, later, runActs, _, _, reads⟩ :=
    reads_waking_event_iff (reachable_of_run before) (by simp) known starts away
      runs resumes (by rw [runsNow]; exact chosen)
  exact ⟨s, s₁, s₂, s₃, before, starts, runs, resumes, earlier, waking, later,
    runActs, reads⟩

/-- A task waits for one event, which wakes it; another event is signalled
before the task runs, and the task reads that one. -/
theorem woken_task_reads_other_event :
    ∃ s s₁ s₂ s₃ : Sys Nat,
      run (step (Config.small false)) (Sys.boot (Config.small false))
        (setUp 1 2 3 ++ [.osSchedule]) = .ok s ∧
      run (step (Config.small false)) s
        [.task (.eventWaitMultiple false [1]) 4] = .ok s₁ ∧
      run (step (Config.small false)) s₁ [.call (.eventIsrSignal 1)] = .ok s₂ ∧
      run (step (Config.small false)) s₂
        [.call (.eventIsrSignal 0), .osSchedule] = .ok s₃ ∧
      s.kernel.runningTid = 0 ∧
      (s₁.kernel.tasks.taskList 0).state = .waitingEvent ∧
      (s₂.kernel.tasks.taskList 0).state = .ready ∧
      s₃.kernel.runningTid = 0 ∧
      s₃.kernel.events.eventLastSignaledGet (Config.small false) ≠ 1 := by
  obtain ⟨s, before, checked⟩ := exists_of_returnsWith
    (fun s : Sys Nat => decide (s.kernel.runningTid = 0) &&
      returnsWith (fun s₁ : Sys Nat =>
        decide ((s₁.kernel.tasks.taskList 0).state = .waitingEvent) &&
        returnsWith (fun s₂ : Sys Nat =>
          decide ((s₂.kernel.tasks.taskList 0).state = .ready) &&
          returnsWith (fun s₃ : Sys Nat =>
            decide (s₃.kernel.runningTid = 0 ∧
              s₃.kernel.events.eventLastSignaledGet (Config.small false) ≠ 1))
            (run (step (Config.small false)) s₂
              [.call (.eventIsrSignal 0), .osSchedule]))
          (run (step (Config.small false)) s₁ [.call (.eventIsrSignal 1)]))
        (run (step (Config.small false)) s
          [.task (.eventWaitMultiple false [1]) 4]))
    (run (step (Config.small false)) (Sys.boot (Config.small false))
      (setUp 1 2 3 ++ [.osSchedule])) (by decide +kernel)
  rw [Bool.and_eq_true] at checked
  obtain ⟨s₁, waits, checked₁⟩ := exists_of_returnsWith _ _ checked.2
  rw [Bool.and_eq_true] at checked₁
  obtain ⟨s₂, signals, checked₂⟩ := exists_of_returnsWith _ _ checked₁.2
  rw [Bool.and_eq_true] at checked₂
  obtain ⟨s₃, resumes, checked₃⟩ := exists_of_returnsWith _ _ checked₂.2
  obtain ⟨runsAgain, reads⟩ := of_decide_eq_true checked₃
  exact ⟨s, s₁, s₂, s₃, before, waits, signals, resumes,
    of_decide_eq_true checked.1, of_decide_eq_true checked₁.1,
    of_decide_eq_true checked₂.1, runsAgain, reads⟩

end CocoOs
