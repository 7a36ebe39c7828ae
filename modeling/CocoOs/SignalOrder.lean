import CocoOs.TaskEvents
import CocoOs.Foundation.Folds

/-!
# The order of signals

Signals that interrupts raise in a row commute, and raising one twice is
raising it once: which tasks wake, and everything else but the answer of
`event_last_signaled_get`, depends only on which events were signalled.
-/

namespace CocoOs

open Foundation

variable {β : Type}

/-! ## One task -/

namespace Tcb

variable {cfg : Config} {task : Tcb} {eventId other : Nat}

theorem unmarkEvent_comm (eventId other : Nat) (task : Tcb) :
    (task.unmarkEvent eventId).unmarkEvent other =
      (task.unmarkEvent other).unmarkEvent eventId := by
  have queues := ByteSet.erase_comm task.eventQueue eventId other
  rw [← unmarkEvent_eventQueue eventId task, ← unmarkEvent_eventQueue,
    ← unmarkEvent_eventQueue other task, ← unmarkEvent_eventQueue] at queues
  exact congrArg (fun queue => { task with eventQueue := queue }) queues

/-- A wait queue is cleared whether or not an event was crossed off before. -/
theorem clearWaitQueue_unmarkEvent
    (fits : eventId / 8 < cfg.eventQueueSize) (task : Tcb) :
    (task.unmarkEvent eventId).clearWaitQueue cfg = task.clearWaitQueue cfg := by
  have queues : ((task.unmarkEvent eventId).clearWaitQueue cfg).eventQueue =
      (task.clearWaitQueue cfg).eventQueue := by
    funext index
    rw [clearWaitQueue_eventQueue, clearWaitQueue_eventQueue]
    split_ifs with inside
    · rfl
    · rw [unmarkEvent_eventQueue, ByteSet.erase, Function.update_of_ne]
      rintro rfl
      exact inside fits
  exact congrArg (fun queue => { task.clearWaitQueue cfg with eventQueue := queue })
    queues

/-- A signal calls no task that it did not call before. -/
theorem Listens.of_signalEvent
    (listens : (task.signalEvent cfg eventId).Pending other ∧
      (task.signalEvent cfg eventId).WaitsForEvents) :
    task.Pending other ∧ task.WaitsForEvents := by
  by_cases called : task.Pending eventId ∧ task.WaitsForEvents
  · obtain ⟨pending, waits⟩ := called
    by_cases completes : task.Completes cfg eventId
    · rw [signalEvent_of_completes cfg pending waits completes] at listens
      rcases listens.2 with wrong | wrong <;> cases wrong
    · rw [signalEvent_of_not_completes cfg pending waits completes,
        pending_unmarkEvent] at listens
      exact ⟨listens.1.2, waits⟩
  · rwa [signalEvent_of_not cfg called] at listens

/-- The second of two signals completes the wait when it crosses off the last
event. -/
theorem completes_unmarkEvent_iff
    (all : task.waitSingleEvent = false) :
    (task.unmarkEvent eventId).Completes cfg other ↔
      ∀ pending, pending / 8 < cfg.eventQueueSize → task.Pending pending →
        pending = eventId ∨ pending = other := by
  have notSingle : ¬ (task.unmarkEvent eventId).waitSingleEvent = true :=
    fun single => Bool.false_ne_true (all.symm.trans single)
  unfold Completes
  rw [or_iff_right notSingle]
  constructor
  · intro only pending fits isPending
    by_cases first : pending = eventId
    · exact .inl first
    · exact .inr (only pending fits
        ((pending_unmarkEvent eventId pending task).mpr ⟨first, isPending⟩))
  · intro only pending fits isPending
    obtain ⟨notFirst, before⟩ :=
      (pending_unmarkEvent eventId pending task).mp isPending
    exact (only pending fits before).resolve_left notFirst

/-- A task that waits for all of several events and listens to two signals. -/
theorem signalEvent_comm_of_all
    (fits : eventId / 8 < cfg.eventQueueSize)
    (fitsOther : other / 8 < cfg.eventQueueSize)
    (different : eventId ≠ other)
    (all : task.waitSingleEvent = false)
    (pending : task.Pending eventId)
    (pendingOther : task.Pending other)
    (waits : task.WaitsForEvents) :
    (task.signalEvent cfg eventId).signalEvent cfg other =
      (task.signalEvent cfg other).signalEvent cfg eventId := by
  have notSingle : ¬ task.waitSingleEvent = true := by rw [all]; decide
  have notFirst : ¬ task.Completes cfg eventId := by
    rintro (single | only)
    · exact notSingle single
    · exact different (only other fitsOther pendingOther).symm
  have notSecond : ¬ task.Completes cfg other := by
    rintro (single | only)
    · exact notSingle single
    · exact different (only eventId fits pending)
  rw [signalEvent_of_not_completes cfg pending waits notFirst,
    signalEvent_of_not_completes cfg pendingOther waits notSecond]
  have stillOther : (task.unmarkEvent eventId).Pending other :=
    (pending_unmarkEvent eventId other task).mpr ⟨different.symm, pendingOther⟩
  have still : (task.unmarkEvent other).Pending eventId :=
    (pending_unmarkEvent other eventId task).mpr ⟨different, pending⟩
  have both : (task.unmarkEvent eventId).Completes cfg other ↔
      (task.unmarkEvent other).Completes cfg eventId := by
    rw [completes_unmarkEvent_iff all, completes_unmarkEvent_iff all]
    simp only [or_comm]
  by_cases last : (task.unmarkEvent eventId).Completes cfg other
  · rw [signalEvent_of_completes cfg stillOther waits last,
      signalEvent_of_completes cfg still waits (both.mp last),
      unmarkEvent_comm eventId other]
  · rw [signalEvent_of_not_completes cfg stillOther waits last,
      signalEvent_of_not_completes cfg still waits fun wrong =>
        last (both.mpr wrong),
      unmarkEvent_comm eventId other]

/-- Two signals have the same effect on a task in either order. -/
theorem signalEvent_comm
    (fits : eventId / 8 < cfg.eventQueueSize)
    (fitsOther : other / 8 < cfg.eventQueueSize)
    (task : Tcb) :
    (task.signalEvent cfg eventId).signalEvent cfg other =
      (task.signalEvent cfg other).signalEvent cfg eventId := by
  by_cases different : eventId = other
  · rw [different]
  by_cases called : task.Pending eventId ∧ task.WaitsForEvents
  · by_cases calledOther : task.Pending other ∧ task.WaitsForEvents
    · obtain ⟨pending, waits⟩ := called
      by_cases single : task.waitSingleEvent = true
      · -- the first signal wakes the task, and the second finds it ready
        rw [signalEvent_of_completes cfg pending waits (.inl single),
          signalEvent_of_completes cfg calledOther.1 waits (.inl single),
          clearWaitQueue_unmarkEvent fits, clearWaitQueue_unmarkEvent fitsOther]
        have awake : ∀ id, ¬ ((task.clearWaitQueue cfg).readySet.Pending id ∧
            (task.clearWaitQueue cfg).readySet.WaitsForEvents) := by
          rintro id ⟨_, wrong | wrong⟩ <;> cases wrong
        rw [signalEvent_of_not cfg (awake other),
          signalEvent_of_not cfg (awake eventId)]
      · exact signalEvent_comm_of_all fits fitsOther different
          (Bool.eq_false_iff.mpr single) pending calledOther.1 waits
    · rw [signalEvent_of_not cfg calledOther]
      exact signalEvent_of_not cfg fun listens =>
        calledOther (Listens.of_signalEvent listens)
  · rw [signalEvent_of_not cfg called]
    exact (signalEvent_of_not cfg fun listens =>
      called (Listens.of_signalEvent listens)).symm

/-- A signal that is repeated adds nothing. -/
theorem signalEvent_signalEvent (cfg : Config) (eventId : Nat) (task : Tcb) :
    (task.signalEvent cfg eventId).signalEvent cfg eventId =
      task.signalEvent cfg eventId := by
  apply signalEvent_of_not
  by_cases called : task.Pending eventId ∧ task.WaitsForEvents
  · obtain ⟨pending, waits⟩ := called
    by_cases completes : task.Completes cfg eventId
    · rw [signalEvent_of_completes cfg pending waits completes]
      rintro ⟨_, wrong | wrong⟩ <;> cases wrong
    · rw [signalEvent_of_not_completes cfg pending waits completes,
        pending_unmarkEvent]
      exact fun listens => listens.1.1 rfl
  · rwa [signalEvent_of_not cfg called]

end Tcb

/-! ## The kernel -/

namespace Kernel

/-- The kernel after interrupts have signalled these events in a row. -/
def isrSignalledAll (cfg : Config) (k : Kernel β) (events : List UInt8) :
    Kernel β :=
  events.foldl (fun k event => k.isrSignalled cfg event.toNat) k

variable {cfg : Config} {k : Kernel β} {events events' : List UInt8}

theorem isrSignalledAll_nTasks (cfg : Config) (k : Kernel β)
    (events : List UInt8) :
    (k.isrSignalledAll cfg events).tasks.nTasks = k.tasks.nTasks := by
  induction events generalizing k with
  | nil => rfl
  | cons event events inductionHypothesis =>
      exact inductionHypothesis (k.isrSignalled cfg event.toNat)

theorem isrSignalledAll_taskList (cfg : Config) (k : Kernel β)
    (events : List UInt8) (tid : Nat) :
    (k.isrSignalledAll cfg events).tasks.taskList tid =
      if tid < k.tasks.nTasks then
        events.foldl (fun task event => task.signalEvent cfg event.toNat)
          (k.tasks.taskList tid)
      else k.tasks.taskList tid := by
  induction events generalizing k with
  | nil => exact (ite_self _).symm
  | cons event events inductionHypothesis =>
      rw [isrSignalledAll, List.foldl_cons]
      refine (inductionHypothesis (k.isrSignalled cfg event.toNat)).trans ?_
      have nTasks : (k.isrSignalled cfg event.toNat).tasks.nTasks =
          k.tasks.nTasks := rfl
      rw [nTasks]
      by_cases created : tid < k.tasks.nTasks
      · rw [if_pos created, if_pos created, List.foldl_cons]
        congr 1
        exact k.tasks.mapCreated_taskList_of_lt _ created
      · rw [if_neg created, if_neg created]
        exact if_neg created

theorem isrSignalledAll_eventList (cfg : Config) (k : Kernel β)
    (events : List UInt8) :
    (k.isrSignalledAll cfg events).events.eventList =
      events.foldl
        (fun list event =>
          Function.update list event.toNat
            { list event.toNat with signaledByTid := isrTid })
        k.events.eventList := by
  induction events generalizing k with
  | nil => rfl
  | cons event events inductionHypothesis =>
      exact inductionHypothesis (k.isrSignalled cfg event.toNat)

/-- What signals leave alone. -/
theorem isrSignalledAll_frame (cfg : Config) (k : Kernel β)
    (events : List UInt8) :
    (k.isrSignalledAll cfg events).sems = k.sems ∧
    (k.isrSignalledAll cfg events).queues = k.queues ∧
    (k.isrSignalledAll cfg events).running = k.running ∧
    (k.isrSignalledAll cfg events).runningTid = k.runningTid ∧
    (k.isrSignalledAll cfg events).events.nEvents = k.events.nEvents ∧
    (k.isrSignalledAll cfg events).tasks.lastRunningTask =
      k.tasks.lastRunningTask := by
  induction events generalizing k with
  | nil => exact ⟨rfl, rfl, rfl, rfl, rfl, rfl⟩
  | cons event events inductionHypothesis =>
      exact inductionHypothesis (k.isrSignalled cfg event.toNat)

/-- Lists of the same events leave the same tasks and the same signallers. -/
theorem isrSignalledAll_congr
    (fits : ∀ event ∈ events, k.SignalFits cfg event.toNat)
    (same : ∀ event, event ∈ events ↔ event ∈ events') :
    (k.isrSignalledAll cfg events).tasks.taskList =
        (k.isrSignalledAll cfg events').tasks.taskList ∧
      (k.isrSignalledAll cfg events).events.eventList =
        (k.isrSignalledAll cfg events').events.eventList := by
  constructor
  · funext tid
    rw [isrSignalledAll_taskList, isrSignalledAll_taskList]
    by_cases created : tid < k.tasks.nTasks
    · have inside : ∀ event ∈ events, event.toNat / 8 < cfg.eventQueueSize :=
        fun event member => (fits event member).resolve_left
          (Nat.ne_of_gt (Nat.zero_lt_of_lt created))
      rw [if_pos created, if_pos created]
      apply foldl_eq_of_mem_iff _ _ same
      · intro task first firstInside second secondInside
        exact Tcb.signalEvent_comm (inside first firstInside)
          (inside second secondInside) task
      · exact fun task event _ => Tcb.signalEvent_signalEvent cfg _ task
    · rw [if_neg created, if_neg created]
  · rw [isrSignalledAll_eventList, isrSignalledAll_eventList]
    apply foldl_eq_of_mem_iff _ _ same
    · intro list first _ second _
      by_cases equal : first.toNat = second.toNat
      · rw [equal]
      · rw [Function.update_of_ne (Ne.symm equal), Function.update_of_ne equal,
          Function.update_comm equal]
    · intro list event _
      simp

/-- Two kernels that agree but for the event signalled last and the history. -/
theorem eq_but_last
    {k k' : Kernel β}
    (taskList : k'.tasks.taskList = k.tasks.taskList)
    (nTasks : k'.tasks.nTasks = k.tasks.nTasks)
    (lastRunningTask : k'.tasks.lastRunningTask = k.tasks.lastRunningTask)
    (eventList : k'.events.eventList = k.events.eventList)
    (nEvents : k'.events.nEvents = k.events.nEvents)
    (sems : k'.sems = k.sems)
    (queues : k'.queues = k.queues)
    (running : k'.running = k.running)
    (runningTid : k'.runningTid = k.runningTid) :
    { k' with
      events :=
        { k'.events with lastSignaledEvent := k.events.lastSignaledEvent }
      history := k.history } = k := by
  obtain ⟨⟨_, _, _⟩, ⟨_, _, _⟩, _, _, _, _, _⟩ := k
  obtain ⟨⟨_, _, _⟩, ⟨_, _, _⟩, _, _, _, _, _⟩ := k'
  dsimp only at *
  subst taskList nTasks lastRunningTask eventList nEvents sems queues running
    runningTid
  rfl

end Kernel

/-! ## Runs -/

/-- A signal from an interrupt, as a step. -/
def isrSignal (event : UInt8) : Label β := .call (.eventIsrSignal event)

section

variable {cfg : Config} {s t : Sys β} {events events' : List UInt8}

/-- Signals in a row return when every event is inside the event bitmaps and
the event list. -/
theorem run_isrSignals_eq_ok_iff
    (some : 0 < cfg.nTotalEvents) :
    run (step cfg) s (events.map isrSignal) = .ok t ↔
      (∀ event ∈ events, s.kernel.SignalFits cfg event.toNat ∧
        event.toNat < cfg.nTotalEvents) ∧
      t = { s with kernel := s.kernel.isrSignalledAll cfg events } := by
  induction events generalizing s with
  | nil =>
      rw [List.map_nil, run_nil, Except.ok.injEq]
      exact ⟨fun same => ⟨by simp, same.symm⟩, fun both => both.2.symm⟩
  | cons event events inductionHypothesis =>
      rw [List.map_cons, run_cons_eq_ok_iff, List.forall_mem_cons]
      have one : step cfg s (isrSignal event) =
          if s.kernel.SignalFits cfg event.toNat ∧
              event.toNat < cfg.nTotalEvents then
            .ok { s with kernel := s.kernel.isrSignalled cfg event.toNat }
          else .error .bounds := by
        simp only [isrSignal, step, callStep]
        rw [Kernel.eventIsrSignal_eq, if_pos some]
        split_ifs <;> rfl
      rw [one]
      constructor
      · rintro ⟨next, steps, rest⟩
        obtain ⟨fits, result⟩ := guard_eq_ok_iff.mp steps
        have next_eq := Except.ok.inj result
        subst next_eq
        obtain ⟨later, final⟩ := inductionHypothesis.mp rest
        exact ⟨⟨fits, later⟩, final⟩
      · rintro ⟨⟨fits, later⟩, final⟩
        exact ⟨_, if_pos fits, inductionHypothesis.mpr ⟨later, final⟩⟩

/-- Events signalled in a row by interrupts: neither their order nor how often
each is signalled matters to anything but which was signalled last. -/
theorem signals_commute
    (same : ∀ event, event ∈ events ↔ event ∈ events')
    (runs : run (step cfg) s (events.map isrSignal) = .ok t) :
    ∃ t', run (step cfg) s (events'.map isrSignal) = .ok t' ∧
      t'.frame = t.frame ∧
      { t'.kernel with
        events :=
          { t'.kernel.events with
            lastSignaledEvent := t.kernel.events.lastSignaledEvent }
        history := t.kernel.history } = t.kernel := by
  by_cases some : 0 < cfg.nTotalEvents
  · obtain ⟨fits, rfl⟩ := (run_isrSignals_eq_ok_iff some).mp runs
    have fits' : ∀ event ∈ events', s.kernel.SignalFits cfg event.toNat ∧
        event.toNat < cfg.nTotalEvents :=
      fun event inside => fits event ((same event).mpr inside)
    obtain ⟨tasks, eventList⟩ := Kernel.isrSignalledAll_congr
      (fun event inside => (fits event inside).1) same
    obtain ⟨sems, queues, running, runningTid, nEvents, lastRunningTask⟩ :=
      Kernel.isrSignalledAll_frame cfg s.kernel events
    obtain ⟨sems', queues', running', runningTid', nEvents', lastRunningTask'⟩ :=
      Kernel.isrSignalledAll_frame cfg s.kernel events'
    have nTasks := s.kernel.isrSignalledAll_nTasks cfg events
    have nTasks' := s.kernel.isrSignalledAll_nTasks cfg events'
    exact ⟨_, (run_isrSignals_eq_ok_iff some).mpr ⟨fits', rfl⟩, rfl,
      Kernel.eq_but_last tasks.symm (nTasks'.trans nTasks.symm)
        (lastRunningTask'.trans lastRunningTask.symm) eventList.symm
        (nEvents'.trans nEvents.symm) (sems'.trans sems.symm)
        (queues'.trans queues.symm) (running'.trans running.symm)
        (runningTid'.trans runningTid.symm)⟩
  · have nothing : ∀ events : List UInt8,
        run (step cfg) s (events.map isrSignal) = .ok s := by
      intro events
      induction events with
      | nil => rfl
      | cons event events inductionHypothesis =>
          rw [List.map_cons, run_cons_eq_ok_iff]
          refine ⟨s, ?_, inductionHypothesis⟩
          simp only [isrSignal, step, callStep]
          rw [Kernel.eventIsrSignal_eq, if_neg some]
          rfl
    rw [nothing events] at runs
    rw [← Except.ok.inj runs]
    exact ⟨s, nothing events', rfl, rfl⟩

end

/-- A task waits for two events, which interrupts signal in either order and
more than once: it is ready. -/
theorem signals_commute_setUp :
    ∃ s t t' : Sys Nat,
      run (step (Config.small false)) (Sys.boot (Config.small false))
        (setUp 1 2 3 ++ [.create .eventCreate, .osSchedule,
          .task (.eventWaitMultiple true [1, 2]) 2]) = .ok s ∧
      run (step (Config.small false)) s ([1, 2].map isrSignal) = .ok t ∧
      run (step (Config.small false)) s ([2, 1, 2].map isrSignal) = .ok t' ∧
      (t'.kernel.tasks.taskList 0).state = .ready := by
  obtain ⟨s, t, before, after, checked⟩ := exists_runs_of_returnsWith
    (step (Config.small false)) (Sys.boot (Config.small false))
    (setUp 1 2 3 ++ [.create .eventCreate, .osSchedule,
      .task (.eventWaitMultiple true [1, 2]) 2])
    ([1, 2].map isrSignal)
    (fun states : Sys Nat × Sys Nat =>
      decide ((states.2.kernel.tasks.taskList 0).state = .ready))
    (by decide +kernel)
  have same : ∀ event : UInt8, event ∈ [1, 2] ↔ event ∈ [2, 1, 2] := by
    intro event
    simp only [List.mem_cons, List.not_mem_nil, or_false]
    grind
  obtain ⟨t', runs, _, kernel⟩ := signals_commute same after
  have tasks := congrArg (fun k => (k.tasks.taskList 0).state) kernel
  exact ⟨s, t, t', before, after, runs, tasks.trans (of_decide_eq_true checked)⟩

end CocoOs
