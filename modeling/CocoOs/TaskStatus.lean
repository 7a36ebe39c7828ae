import CocoOs.RunTrace
import CocoOs.Foundation.SetWaits

/-!
# What a task is doing

The control block of a task spreads what the task is doing over two states, a
clock, a time, a flag and a bitmap, of which most mean something in some states
only.  `Status` says it in one value, with the awaited events as a set.  The
actions of the kernel are functions of this value, and what they do to the
control block is exactly that.
-/

namespace CocoOs

open Foundation

variable {β : Type}

/-! ## The abstract task -/

/-- What a task is doing when nobody has stopped it. -/
inductive Doing
  | ready
  | sleeping (clockId left : Nat)
  | awaiting (events : Set Nat) (all : Bool) (left : Option Nat)
  | queued (sem : Int) (waited : Nat)

/-- The status of a task.  A suspended task will go on with what it was
doing. -/
inductive Status
  | active (doing : Doing)
  | suspended (doing : Doing)
  | killed

namespace Doing

open Classical in
/-- The events of a set are signalled. -/
noncomputable def signal (signalled : Set Nat) : Doing → Doing
  | .awaiting events all left =>
      if SetWaits.Ends signalled events all then .ready
      else .awaiting (events \ signalled) all left
  | doing => doing

theorem signal_of_ends
    {signalled events : Set Nat} {all : Bool}
    (ends : SetWaits.Ends signalled events all) (left : Option Nat) :
    (awaiting events all left).signal signalled = .ready :=
  if_pos ends

theorem signal_of_not_ends
    {signalled events : Set Nat} {all : Bool}
    (notYet : ¬ SetWaits.Ends signalled events all) (left : Option Nat) :
    (awaiting events all left).signal signalled =
      .awaiting (events \ signalled) all left :=
  if_neg notYet

/-- A clock advances.  A timeout is on the master clock; a task that is queued
at a semaphore counts the calls of every clock. -/
def tick (clockId tickSize : Nat) : Doing → Doing
  | .sleeping clock left =>
      if clock = clockId then
        if left ≤ tickSize then .ready else .sleeping clock (left - tickSize)
      else .sleeping clock left
  | .awaiting events all (some left) =>
      if 0 = clockId then
        if left ≤ tickSize then .ready
        else .awaiting events all (some (left - tickSize))
      else .awaiting events all (some left)
  | .queued sem waited => .queued sem ((waited + 1) % 2 ^ 32)
  | doing => doing

/-- Signalling no event does nothing. -/
theorem signal_empty (doing : Doing) : doing.signal ∅ = doing := by
  cases doing with
  | awaiting events all left =>
      rw [signal_of_not_ends, Set.sdiff_empty]
      rintro ⟨⟨_, _, wrong⟩, _⟩
      exact wrong
  | _ => rfl

/-- Signalling two sets of events one after the other is signalling their
union. -/
theorem signal_signal (first second : Set Nat) (doing : Doing) :
    (doing.signal first).signal second = doing.signal (first ∪ second) := by
  cases doing with
  | awaiting events all left =>
      by_cases ends : SetWaits.Ends first events all
      · obtain ⟨some, whole⟩ := ends
        have both : SetWaits.Ends (first ∪ second) events all :=
          ⟨some.mono (Set.inter_subset_inter_right _ Set.subset_union_left),
            fun isAll => (whole isAll).trans Set.subset_union_left⟩
        rw [signal_of_ends ⟨some, whole⟩, signal_of_ends both]
        rfl
      · rw [signal_of_not_ends ends]
        by_cases both : SetWaits.Ends (first ∪ second) events all
        · rw [signal_of_ends both, signal_of_ends ((SetWaits.ends_sdiff_iff ends).mpr both)]
        · rw [signal_of_not_ends both,
            signal_of_not_ends fun wrong => both ((SetWaits.ends_sdiff_iff ends).mp wrong),
            Set.sdiff_sdiff]
  | _ => rfl

/-- A tick and signals may change places: a wait that both would end is ended by
either. -/
theorem tick_signal
    (clockId tickSize : Nat) (signalled : Set Nat) (doing : Doing) :
    (doing.signal signalled).tick clockId tickSize =
      (doing.tick clockId tickSize).signal signalled := by
  cases doing with
  | awaiting events all left =>
      by_cases ends : SetWaits.Ends signalled events all
      · rw [signal_of_ends ends]
        cases left with
        | none => exact (signal_of_ends ends none).symm
        | some left =>
            simp only [tick]
            split_ifs
            · rfl
            · exact (signal_of_ends ends _).symm
            · exact (signal_of_ends ends _).symm
      · rw [signal_of_not_ends ends]
        cases left with
        | none => exact (signal_of_not_ends ends none).symm
        | some left =>
            simp only [tick]
            split_ifs
            · rfl
            · exact (signal_of_not_ends ends _).symm
            · exact (signal_of_not_ends ends _).symm
  | sleeping clock left =>
      simp only [signal, tick]
      split_ifs <;> rfl
  | _ => rfl

end Doing

namespace Status

/-- The clock of a task advances, unless it is stopped. -/
def tick (clockId tickSize : Nat) : Status → Status
  | .active doing => .active (doing.tick clockId tickSize)
  | status => status

/-- Events are signalled to a task, unless it is stopped. -/
noncomputable def signal (signalled : Set Nat) : Status → Status
  | .active doing => .active (doing.signal signalled)
  | status => status

/-- The task is suspended.  It loses its place at a semaphore. -/
def suspend : Status → Status
  | .active (.queued _ _) => .suspended .ready
  | .active doing => .suspended doing
  | status => status

/-- The task is resumed. -/
def resume : Status → Status
  | .suspended doing => .active doing
  | status => status

theorem signal_empty (status : Status) : status.signal ∅ = status := by
  cases status with
  | active doing => exact congrArg active doing.signal_empty
  | _ => rfl

theorem signal_signal (first second : Set Nat) (status : Status) :
    (status.signal first).signal second = status.signal (first ∪ second) := by
  cases status with
  | active doing => exact congrArg active (doing.signal_signal first second)
  | _ => rfl

theorem tick_signal
    (clockId tickSize : Nat) (signalled : Set Nat) (status : Status) :
    (status.signal signalled).tick clockId tickSize =
      (status.tick clockId tickSize).signal signalled := by
  cases status with
  | active doing =>
      exact congrArg active (doing.tick_signal clockId tickSize signalled)
  | _ => rfl

end Status

/-! ## The status of a control block -/

namespace Tcb

variable {cfg : Config} {task : Tcb}

/-- The events in the wait queue of a task. -/
def awaited (cfg : Config) (task : Tcb) : Set Nat :=
  { event | event / 8 < cfg.eventQueueSize ∧ task.Pending event }

/-- What the fields of a control block mean in a state. -/
def doing (cfg : Config) (task : Tcb) : TaskState → Doing
  | .waitingTime => .sleeping task.clockId task.time
  | .waitingEvent => .awaiting (task.awaited cfg) (!task.waitSingleEvent) none
  | .waitingEventTimeout =>
      .awaiting (task.awaited cfg) (!task.waitSingleEvent) (some task.time)
  | .waitingSem => .queued task.semaphore task.time
  | _ => .ready

/-- The status of a task. -/
def status (cfg : Config) (task : Tcb) : Status :=
  if task.state = .killed then .killed
  else if task.state = .suspended then
    .suspended (task.doing cfg task.savedState)
  else .active (task.doing cfg task.state)

theorem status_of_active
    (notKilled : task.state ≠ .killed)
    (notSuspended : task.state ≠ .suspended) :
    task.status cfg = .active (task.doing cfg task.state) := by
  rw [status, if_neg notKilled, if_neg notSuspended]

theorem status_of_suspended (suspended : task.state = .suspended) :
    task.status cfg = .suspended (task.doing cfg task.savedState) := by
  rw [status, if_neg (by rw [suspended]; decide), if_pos suspended]

theorem status_of_killed (killed : task.state = .killed) :
    task.status cfg = .killed := by
  rw [status, if_pos killed]

theorem status_of_ready (ready : task.state = .ready) :
    task.status cfg = .active .ready := by
  rw [status_of_active (by rw [ready]; decide) (by rw [ready]; decide), ready]
  rfl

/-- The status reads only these fields. -/
theorem status_of_eq
    {task' : Tcb}
    (state : task'.state = task.state)
    (savedState : task'.savedState = task.savedState)
    (time : task'.time = task.time)
    (clockId : task'.clockId = task.clockId)
    (semaphore : task'.semaphore = task.semaphore)
    (single : task'.waitSingleEvent = task.waitSingleEvent)
    (eventQueue : task'.eventQueue = task.eventQueue) :
    task'.status cfg = task.status cfg := by
  have awaited : task'.awaited cfg = task.awaited cfg := by
    unfold Tcb.awaited Pending
    rw [eventQueue]
  have doing : task'.doing cfg = task.doing cfg := by
    funext state
    cases state <;> simp only [Tcb.doing, time, clockId, semaphore, single, awaited]
  rw [status, status, state, savedState, doing]

/-! ### Operations -/

theorem status_suspend (cfg : Config) (task : Tcb) :
    task.suspend.status cfg = (task.status cfg).suspend := by
  unfold suspend
  by_cases active : task.state ≠ .killed ∧ task.state ≠ .suspended
  · rw [if_pos active, status_of_active active.1 active.2]
    split_ifs with sem
    · rw [sem]
      exact status_of_suspended rfl
    · rw [status_of_suspended rfl]
      cases state : task.state with
      | waitingSem => exact absurd state sem
      | _ => rfl
  · rw [if_neg active]
    rw [not_and_or, not_not, not_not] at active
    rcases active with killed | suspended
    · rw [status_of_killed killed]
      rfl
    · rw [status_of_suspended suspended]
      rfl

/-- A task goes on with what it was doing. -/
theorem status_resume
    (saved : task.state = .suspended →
      task.savedState ≠ .killed ∧ task.savedState ≠ .suspended) :
    task.resume.status cfg = (task.status cfg).resume := by
  unfold resume
  by_cases suspended : task.state = .suspended
  · obtain ⟨notKilled, notSuspended⟩ := saved suspended
    rw [if_pos suspended, status_of_suspended suspended]
    exact status_of_active notKilled notSuspended
  · rw [if_neg suspended]
    by_cases killed : task.state = .killed
    · rw [status_of_killed killed]
      rfl
    · rw [status_of_active killed suspended]
      rfl

theorem status_tick
    (onMaster : task.state = .waitingEventTimeout → task.clockId = 0)
    (clockId tickSize : Nat) :
    (task.tick cfg clockId tickSize).status cfg =
      (task.status cfg).tick clockId tickSize := by
  have active : ∀ state, task.state = state → state ≠ .killed →
      state ≠ .suspended → task.status cfg = .active (task.doing cfg state) := by
    rintro state rfl notKilled notSuspended
    exact status_of_active notKilled notSuspended
  rcases state : task.state with _ | _ | _ | _ | _ | _ | _ | _
  case waitingTime =>
    rw [active _ state (by decide) (by decide)]
    simp only [Tcb.tick, state, doing, Status.tick, Doing.tick, true_or, if_true,
      reduceCtorEq, if_false]
    split_ifs
    · exact status_of_ready rfl
    · simp [status, doing]
    · simp [status, state, doing]
  case waitingEventTimeout =>
    rw [active _ state (by decide) (by decide)]
    simp only [Tcb.tick, state, doing, Status.tick, Doing.tick, or_true, if_true,
      onMaster state]
    split_ifs
    · exact status_of_ready rfl
    · simp [status, doing, awaited, Pending]
    · simp [status, state, doing]
  case waitingSem =>
    rw [active _ state (by decide) (by decide)]
    simp [Tcb.tick, status, state, doing, Status.tick, Doing.tick]
  all_goals
    simp [Tcb.tick, status, state, doing, Status.tick, Doing.tick]

theorem awaited_unmarkEvent (cfg : Config) (eventId : Nat) (task : Tcb) :
    (task.unmarkEvent eventId).awaited cfg = task.awaited cfg \ {eventId} := by
  ext event
  simp only [awaited, Set.mem_ofPred_eq, pending_unmarkEvent, Set.mem_sdiff,
    Set.mem_singleton_iff]
  tauto

theorem status_signalEvent
    {eventId : Nat} (fits : eventId / 8 < cfg.eventQueueSize) (task : Tcb) :
    (task.signalEvent cfg eventId).status cfg =
      (task.status cfg).signal {eventId} := by
  by_cases waits : task.WaitsForEvents
  · have notKilled : task.state ≠ .killed := by
      rcases waits with state | state <;> rw [state] <;> decide
    have notSuspended : task.state ≠ .suspended := by
      rcases waits with state | state <;> rw [state] <;> decide
    have shape : ∃ left, ∀ task' : Tcb, task'.state = task.state →
        task'.time = task.time →
        task'.doing cfg task.state =
          .awaiting (task'.awaited cfg) (!task'.waitSingleEvent) left := by
      rcases waits with state | state
      · exact ⟨none, fun task' _ _ => by rw [state]; rfl⟩
      · exact ⟨some task.time, fun task' _ time => by rw [state, ← time]; rfl⟩
    obtain ⟨left, shape⟩ := shape
    rw [status_of_active notKilled notSuspended, shape task rfl rfl]
    have ends : SetWaits.Ends {eventId} (task.awaited cfg)
          (!task.waitSingleEvent) ↔
        task.Pending eventId ∧ task.Completes cfg eventId := by
      unfold SetWaits.Ends Completes
      rw [Set.inter_singleton_nonempty, Set.subset_singleton_iff]
      constructor
      · rintro ⟨inside, whole⟩
        refine ⟨inside.2, ?_⟩
        cases single : task.waitSingleEvent with
        | true => exact .inl rfl
        | false =>
            exact .inr fun other fitsOther pending =>
              whole (by simp [single]) other ⟨fitsOther, pending⟩
      · rintro ⟨pending, completes⟩
        refine ⟨⟨fits, pending⟩, fun all other inside => ?_⟩
        rcases completes with single | only
        · simp [single] at all
        · exact only other inside.1 inside.2
    by_cases pending : task.Pending eventId
    · by_cases completes : task.Completes cfg eventId
      · rw [signalEvent_of_completes cfg pending waits completes,
          status_of_ready rfl]
        exact congrArg Status.active
          (Doing.signal_of_ends (ends.mpr ⟨pending, completes⟩) left).symm
      · have unmarked : (task.unmarkEvent eventId).status cfg =
            .active ((task.unmarkEvent eventId).doing cfg task.state) :=
          status_of_active notKilled notSuspended
        rw [signalEvent_of_not_completes cfg pending waits completes, unmarked,
          shape (task.unmarkEvent eventId) rfl rfl]
        refine congrArg Status.active ?_
        rw [awaited_unmarkEvent]
        exact (Doing.signal_of_not_ends
          (fun wrong => completes (ends.mp wrong).2) left).symm
    · rw [signalEvent_of_not cfg fun both => pending both.1,
        status_of_active notKilled notSuspended, shape task rfl rfl]
      refine congrArg Status.active (Eq.symm ?_)
      rw [Doing.signal_of_not_ends fun wrong => pending (ends.mp wrong).1]
      congr 1
      apply Set.sdiff_singleton_eq_self
      exact fun inside => pending inside.2
  · rw [signalEvent_of_not cfg fun both => waits both.2]
    cases state : task.state with
    | waitingEvent => exact absurd (.inl state) waits
    | waitingEventTimeout => exact absurd (.inr state) waits
    | _ => simp [status, state, doing, Status.signal, Doing.signal]

end Tcb

/-! ## Waits and actions -/

/-- What a task is doing that starts to wait. -/
def Wait.doing : Wait → Doing
  | .time id ticks => .sleeping id ticks
  | .event eventId timeout =>
      .awaiting {eventId} false (if timeout ≠ 0 then some timeout else none)
  | .multiple waitAll events =>
      .awaiting { event | event ∈ events } waitAll none
  | .sem semId => .queued semId 0
  | .room _ eventId => .awaiting {eventId} false none
  | .message _ eventId => .awaiting {eventId} false none

namespace Tcb

variable {cfg : Config} {task : Tcb}

theorem not_pending_of_noEvents
    {eventId : Nat}
    (empty : task.NoEvents cfg) (fits : eventId / 8 < cfg.eventQueueSize) :
    ¬ task.Pending eventId :=
  (ByteSet.empty_iff _ _).mp empty eventId fits

theorem awaited_waitEvent
    {eventId : Nat}
    (empty : task.NoEvents cfg) (fits : eventId / 8 < cfg.eventQueueSize)
    (single : Bool) (timeout : Nat) :
    (task.waitEvent eventId single timeout).awaited cfg = {eventId} := by
  ext event
  simp only [awaited, Set.mem_ofPred_eq, pending_waitEvent,
    Set.mem_singleton_iff]
  constructor
  · rintro ⟨inside, same | pending⟩
    · exact same
    · exact absurd pending (not_pending_of_noEvents empty inside)
  · rintro rfl
    exact ⟨fits, .inl rfl⟩

theorem status_waitEvent
    {eventId : Nat}
    (empty : task.NoEvents cfg) (fits : eventId / 8 < cfg.eventQueueSize)
    (timeout : Nat) :
    (task.waitEvent eventId true timeout).status cfg =
      .active (Wait.event eventId timeout).doing := by
  have awaited := awaited_waitEvent empty fits true timeout
  unfold waitEvent at awaited ⊢
  dsimp only [Wait.doing] at awaited ⊢
  by_cases timed : timeout ≠ 0
  · rw [if_pos timed] at awaited ⊢
    rw [if_pos timed, ← awaited]
    rfl
  · rw [if_neg timed] at awaited ⊢
    rw [if_neg timed, ← awaited]
    rfl

theorem status_waitMultiple
    {events : List Nat}
    (some : events ≠ [])
    (fits : ∀ event ∈ events, event / 8 < cfg.eventQueueSize)
    (waitAll : Bool) (task : Tcb) :
    (Wait.apply cfg (.multiple waitAll events) task).status cfg =
      .active (Wait.multiple waitAll events).doing := by
  have awaited : (Wait.apply cfg (.multiple waitAll events) task).awaited cfg =
      { event | event ∈ events } := by
    ext event
    simp only [Tcb.awaited, Set.mem_ofPred_eq, Wait.apply]
    rw [pending_foldl_waitEvent]
    constructor
    · rintro ⟨inside, member | pending⟩
      · exact member
      · exact absurd pending (not_pending_clearWaitQueue cfg task inside)
    · exact fun member => ⟨fits event member, .inl member⟩
  obtain ⟨earlier, last, rfl⟩ := (List.eq_nil_or_concat events).resolve_left some
  have state : (Wait.apply cfg (.multiple waitAll (earlier.concat last))
      task).state = .waitingEvent := by
    simp [Wait.apply, waitEvent]
  have single : (Wait.apply cfg (.multiple waitAll (earlier.concat last))
      task).waitSingleEvent = !waitAll := by
    simp [Wait.apply, waitEvent, markEvent]
  rw [status_of_active (by rw [state]; decide) (by rw [state]; decide), state,
    doing, awaited, single, Bool.not_not]
  rfl

/-- A task that waits for nothing starts to wait. -/
theorem status_wait
    {k : Kernel β} {wait : Wait}
    (empty : task.NoEvents cfg) (enabled : wait.Enabled cfg k) :
    (wait.apply cfg task).status cfg = .active wait.doing := by
  cases wait with
  | time id ticks => rfl
  | event eventId timeout => exact status_waitEvent empty enabled.2 timeout
  | multiple waitAll events =>
      exact status_waitMultiple enabled.1 enabled.2 waitAll task
  | sem sem => rfl
  | room queue eventId => exact status_waitEvent empty enabled.1.2 0
  | message queue eventId => exact status_waitEvent empty enabled.1.2 0

end Tcb

/-- What an action of the kernel makes of the status of a task. -/
noncomputable def Act.onStatus (tid : Nat) : Act β → Status → Status
  | .block actor wait _, status => if tid = actor then .active wait.doing else status
  | .suspend other, status => if tid = other then status.suspend else status
  | .resume other, status => if tid = other then status.resume else status
  | .kill other, status => if tid = other then .killed else status
  | .tick other clockId tickSize, status =>
      if tid = other then status.tick clockId tickSize else status
  | .signal eventId, status => status.signal {eventId}
  | .release other _, status => if tid = other then .active .ready else status
  | _, status => status

/-- An action does to the control block of a task what it does to its status. -/
theorem Micro.status
    {cfg : Config} {k k' : Kernel β} {act : Act β} {tid : Nat}
    (acts : Micro cfg k act k')
    (tasks : k.TasksSound cfg)
    (nTasks : k.tasks.nTasks < noTid)
    (created : tid < k.tasks.nTasks) :
    (k'.tasks.taskList tid).status cfg =
      act.onStatus tid ((k.tasks.taskList tid).status cfg) := by
  have consistent := tasks.consistent tid created
  rw [acts.taskList created]
  cases acts with
  | yield line =>
      simp only [Act.onTask, Act.onStatus]
      split_ifs
      · exact Tcb.status_of_eq rfl rfl rfl rfl rfl rfl rfl
      · rfl
  | block wait line inside enabled =>
      simp only [Act.onTask, Act.onStatus]
      split_ifs with same
      · have runs : k.runningTid ≠ noTid := Nat.ne_of_lt (inside.trans nTasks)
        have idle := (tasks.runs runs).2
        rw [← same] at idle
        exact (Tcb.status_of_eq rfl rfl rfl rfl rfl rfl rfl).trans
          (Tcb.status_wait idle.events enabled)
      · rfl
  | note noted =>
      simp only [Act.onTask, Act.onStatus]
      split_ifs
      · cases noted <;> exact Tcb.status_of_eq rfl rfl rfl rfl rfl rfl rfl
      · rfl
  | suspend inside =>
      simp only [Act.onTask, Act.onStatus]
      split_ifs
      · exact Tcb.status_suspend cfg _
      · rfl
  | resume inside =>
      simp only [Act.onTask, Act.onStatus]
      split_ifs
      · apply Tcb.status_resume
        intro suspended
        have sound := consistent (by rw [suspended]; decide)
        have effective : (k.tasks.taskList tid).effectiveState =
            (k.tasks.taskList tid).savedState := if_pos suspended
        rw [← effective]
        exact ⟨sound.notKilled, sound.notSuspended⟩
      · rfl
  | kill inside =>
      simp only [Act.onTask, Act.onStatus]
      split_ifs
      · exact Tcb.status_of_killed rfl
      · rfl
  | tick other clockId tickSize inside =>
      simp only [Act.onTask, Act.onStatus]
      split_ifs
      · apply Tcb.status_tick
        intro timeout
        apply (consistent (by rw [timeout]; decide)).clock
        rw [Tcb.effectiveState_of_ne (by rw [timeout]; decide)]
        exact timeout
      · rfl
  | signal events fits =>
      exact Tcb.status_signalEvent
        (fits.resolve_left (Nat.ne_zero_of_lt created)) _
  | release inside waits found =>
      simp only [Act.onTask, Act.onStatus]
      split_ifs
      · exact Tcb.status_of_ready rfl
      · rfl
  | _ => rfl

/-! ## The tasks of the system -/

/-- The abstract tasks: the status of each task, in the order of creation, and
the task that runs. -/
structure Tasks where
  statuses : List Status
  running : Option Nat

namespace Tasks

/-- No task is queued at the semaphore. -/
def NoneQueued (tasks : Tasks) (sem : Int) : Prop :=
  ∀ waited, Status.active (.queued sem waited) ∉ tasks.statuses

/-- The actions that the abstract tasks can take.  Only a ready task is chosen,
only the running task yields or starts to wait, and a semaphore is given to a
task that is queued at it or, when there is none, counted up. -/
def Enabled (tasks : Tasks) : Act β → Prop
  | .select tid =>
      tasks.running = none ∧
        (tid ≠ noTid → tasks.statuses[tid]? = some (.active .ready))
  | .block actor _ _ => tasks.running = some actor
  | .release tid sem =>
      ∃ waited, tasks.statuses[tid]? = some (.active (.queued sem waited))
  | .increment sem => tasks.NoneQueued sem
  | _ => True

/-- The abstract tasks after an action. -/
noncomputable def after (tasks : Tasks) (act : Act β) : Tasks where
  statuses :=
    match act with
    | .create (.osTaskCreate _ _ _ _ _ _) => tasks.statuses ++ [.active .ready]
    | _ => tasks.statuses.mapIdx fun tid status => act.onStatus tid status
  running :=
    match act with
    | .select tid => if tid = noTid then none else some tid
    | .free => none
    | .yield _ _ => none
    | .block _ _ _ => none
    | _ => tasks.running

/-- An action takes the abstract tasks to the next. -/
def Takes (tasks : Tasks) (act : Act β) (tasks' : Tasks) : Prop :=
  tasks.Enabled act ∧ tasks' = tasks.after act

end Tasks

/-- The abstract tasks of a kernel. -/
def Kernel.taskView (cfg : Config) (k : Kernel β) : Tasks where
  statuses := (List.range k.tasks.nTasks).map fun tid =>
    (k.tasks.taskList tid).status cfg
  running := if k.runningTid = noTid then none else some k.runningTid

namespace Kernel

variable {cfg : Config} {k k' : Kernel β} {tid : Nat}

theorem taskView_statuses_of_lt (created : tid < k.tasks.nTasks) :
    (k.taskView cfg).statuses[tid]? =
      some ((k.tasks.taskList tid).status cfg) := by
  simp [taskView, created]

theorem taskView_running_of_ne (runs : k.runningTid ≠ noTid) :
    (k.taskView cfg).running = some k.runningTid :=
  if_neg runs

end Kernel

/-- A task that waits for a semaphore is queued at it. -/
theorem Tcb.status_of_waitsForSem
    {cfg : Config} {task : Tcb} {sem : Int}
    (waits : task.WaitsForSem sem) :
    task.status cfg = .active (.queued sem task.time) := by
  obtain ⟨state, rfl⟩ := waits
  rw [status_of_active (by rw [state]; decide) (by rw [state]; decide), state]
  rfl

theorem Tcb.waitsForSem_of_status
    {cfg : Config} {task : Tcb} {sem : Int} {waited : Nat}
    (queued : task.status cfg = .active (.queued sem waited)) :
    task.WaitsForSem sem := by
  unfold Tcb.status at queued
  split_ifs at queued
  cases state : task.state with
  | waitingSem =>
      simp only [state, doing, Status.active.injEq, Doing.queued.injEq] at queued
      exact ⟨state, queued.1⟩
  | _ => simp [state, doing] at queued

section

variable {cfg : Config} {k k' : Kernel β} {act : Act β}

theorem Micro.enabled_taskView
    (acts : Micro cfg k act k')
    (sound : k.Sound cfg) :
    (k.taskView cfg).Enabled act := by
  cases acts with
  | select idle selects inside =>
      refine ⟨if_pos idle, fun runs => ?_⟩
      have created := inside runs
      rw [(Kernel.selectTask_frame selects).1] at created
      rw [Kernel.taskView_statuses_of_lt created,
        Tcb.status_of_ready (Kernel.selectTask_ready selects runs)]
  | block wait line inside enabled =>
      exact Kernel.taskView_running_of_ne
        (Nat.ne_of_lt (inside.trans sound.nTasks_lt))
  | release inside waits found =>
      rw [Tasks.Enabled, Kernel.taskView_statuses_of_lt inside,
        Tcb.status_of_waitsForSem waits]
      exact ⟨_, rfl⟩
  | increment noWaiter =>
      intro waited queued
      obtain ⟨tid, inside, status⟩ := List.mem_map.mp queued
      exact noWaiter ⟨tid, List.mem_range.mp inside,
        Tcb.waitsForSem_of_status status⟩
  | _ => trivial

theorem Micro.taskView
    (acts : Micro cfg k act k')
    (sound : k.Sound cfg)
    (tasks : k.TasksSound cfg) :
    k'.taskView cfg = (k.taskView cfg).after act := by
  have running : (k'.taskView cfg).running =
      ((k.taskView cfg).after act).running := by
    unfold Kernel.taskView
    rw [acts.runningTid]
    cases act <;> rfl
  have kept : k'.tasks.nTasks = k.tasks.nTasks →
      (k'.taskView cfg).statuses =
        (k.taskView cfg).statuses.mapIdx fun tid status =>
          act.onStatus tid status := by
    intro same
    refine List.ext_getElem ?_ fun tid inside _ => ?_
    · simp [Kernel.taskView, same]
    · have created : tid < k.tasks.nTasks := by
        simpa [Kernel.taskView, same] using inside
      simp only [Kernel.taskView, List.getElem_map, List.getElem_range,
        List.getElem_mapIdx]
      exact acts.status tasks sound.nTasks_lt created
  have statuses : (k'.taskView cfg).statuses =
      ((k.taskView cfg).after act).statuses := by
    by_cases quiet : act.Quiet
    · have same := kept (acts.sameObjects quiet).nTasks
      cases act with
      | create creation => exact quiet.elim
      | _ => exact same
    · cases act with
      | create creation =>
          cases creation with
          | osTaskCreate taskproc data prio msgPool poolSize msgSize =>
              have last : k'.tasks.nTasks = k.tasks.nTasks + 1 := by
                cases acts with
                | create _ creates =>
                    obtain ⟨⟨newTid, made⟩, returns, rfl⟩ :=
                      map_eq_ok_iff.mp creates
                    obtain ⟨_, _, _, _, msgQ, kq, _, rfl⟩ :=
                      Kernel.osTaskCreate_cases returns
                    rfl
              have new := acts.ready_of_new le_rfl (by omega)
              unfold Kernel.taskView
              dsimp only [Tasks.after]
              rw [last, List.range_succ, List.map_append]
              congr 1
              · refine List.map_congr_left fun tid inside => ?_
                exact acts.status tasks sound.nTasks_lt (List.mem_range.mp inside)
              · rw [List.map_singleton, Tcb.status_of_ready new]
          | eventCreate | semBinCreate | semCountingCreate =>
              apply kept
              cases acts with
              | create _ creates =>
                  obtain ⟨made, _, rfl⟩ := map_eq_ok_iff.mp creates
                  rfl
      | _ => exact absurd trivial quiet
  generalize k'.taskView cfg = view at running statuses
  cases view
  dsimp only at running statuses
  rw [running, statuses]

/-- The task control blocks refine the abstract tasks: every run of the kernel
from `os_init` is a run of them, with the actions of its steps, from no task to
the statuses that the control blocks stand for. -/
theorem kernel_refines_tasks
    {s s' : Sys β} {labels : List (Label β)}
    (initial : Initial cfg s)
    (runs : run (step cfg) s labels = .ok s') :
    ∃ acts, RunActs cfg s labels acts s' ∧
      Trace Tasks.Takes ⟨[], none⟩ acts (s'.kernel.taskView cfg) := by
  have reachable : ReachableSys cfg s := .of_initial initial
  have sound := reachable_sound reachable
  obtain ⟨acts, runActs⟩ := exists_runActs sound runs
  have empty : s.kernel.taskView cfg = ⟨[], none⟩ := by
    obtain ⟨⟨k, fresh⟩, _⟩ := initial
    rw [fresh]
    rfl
  refine ⟨acts, runActs, ?_⟩
  rw [← empty]
  exact runActs.trace.map (fun k => k.taskView cfg)
    (fun k => k.Sound cfg ∧ k.TasksSound cfg)
    (fun k act k' holds acts => ⟨holds.1.of_micro acts, holds.2.of_micro holds.1 acts⟩)
    (fun k act k' holds acts =>
      ⟨acts.enabled_taskView holds.1, acts.taskView holds.1 holds.2⟩)
    ⟨sound, reachable_tasksSound reachable⟩

end

/-- The first task sleeps five ticks, and one tick goes by. -/
theorem kernel_refines_tasks_setUp :
    ∃ (s : Sys Nat) (acts : List (Act Nat)),
      run (step (Config.small false)) (Sys.boot (Config.small false))
        (setUp 1 2 3 ++
          [.osSchedule, .task (.taskWaitId 0 5) 1, .call .osTick]) = .ok s ∧
      Trace Tasks.Takes ⟨[], none⟩ acts
        (s.kernel.taskView (Config.small false)) ∧
      (s.kernel.taskView (Config.small false)).statuses[0]? =
        some (.active (.sleeping 0 4)) := by
  obtain ⟨s, runs, checked⟩ := exists_of_returnsWith
    (fun s : Sys Nat => decide (0 < s.kernel.tasks.nTasks ∧
      (s.kernel.tasks.taskList 0).state = .waitingTime ∧
      (s.kernel.tasks.taskList 0).clockId = 0 ∧
      (s.kernel.tasks.taskList 0).time = 4))
    (run (step (Config.small false)) (Sys.boot (Config.small false))
      (setUp 1 2 3 ++
        [.osSchedule, .task (.taskWaitId 0 5) 1, .call .osTick]))
    (by decide +kernel)
  obtain ⟨created, state, clockId, time⟩ := of_decide_eq_true checked
  obtain ⟨acts, -, trace⟩ :=
    kernel_refines_tasks ⟨⟨Kernel.zeroed, rfl⟩, rfl⟩ runs
  refine ⟨s, acts, runs, trace, ?_⟩
  rw [Kernel.taskView_statuses_of_lt created,
    Tcb.status_of_active (by rw [state]; decide) (by rw [state]; decide), state,
    Tcb.doing, clockId, time]

end CocoOs
