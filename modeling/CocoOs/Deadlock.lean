import CocoOs.WakeUps

/-!
# Deadlock

When no task is ready the scheduler puts the processor to sleep.  If no
interrupt handler signals an event or a semaphore, or resumes a task, only the
clocks can end the sleep: a time that runs out, or the messages that become
deliverable and signal the change events of their queues.  The kernel sleeps
forever exactly when neither can happen, and its state says whether.
-/

namespace CocoOs

open Foundation

variable {β : Type}

/-! ## Tasks that the clocks cannot wake -/

/-- The clocks do not end what the task is doing, when these are the events that
they can still signal. -/
def Doing.Stuck (coming : Set Nat) : Doing → Prop
  | .awaiting events all none => ¬ SetWaits.Ends coming events all
  | .queued _ _ => True
  | _ => False

/-- The clocks do not make the task ready. -/
def Status.Stuck (coming : Set Nat) : Status → Prop
  | .active doing => doing.Stuck coming
  | _ => True

/-- No task runs, and the clocks make none ready. -/
structure Tasks.Deadlocked (coming : Set Nat) (tasks : Tasks) : Prop where
  idle : tasks.running = none
  stuck : ∀ status ∈ tasks.statuses, status.Stuck coming

section Stuck

variable {coming first second : Set Nat}

theorem Doing.Stuck.tick
    {doing : Doing}
    (stuck : doing.Stuck coming) (clockId tickSize : Nat) :
    (doing.tick clockId tickSize).Stuck coming := by
  cases doing with
  | awaiting events all left =>
      cases left with
      | none => exact stuck
      | some left => exact stuck.elim
  | queued sem waited => trivial
  | _ => exact stuck.elim

/-- Some of the events have come; the others are still to come. -/
theorem Doing.Stuck.signal
    {doing : Doing} (stuck : doing.Stuck (first ∪ second)) :
    (doing.signal first).Stuck second := by
  cases doing with
  | awaiting events all left =>
      cases left with
      | none =>
          have notYet : ¬ SetWaits.Ends first events all :=
            fun ⟨common, whole⟩ => stuck
              ⟨common.mono (Set.inter_subset_inter_right _ Set.subset_union_left),
                fun isAll => (whole isAll).trans Set.subset_union_left⟩
          rw [Doing.signal_of_not_ends notYet]
          exact fun ends => stuck ((SetWaits.ends_sdiff_iff notYet).mp ends)
      | some left => exact stuck.elim
  | queued sem waited => trivial
  | _ => exact stuck.elim

theorem Status.Stuck.tick
    {status : Status}
    (stuck : status.Stuck coming) (clockId tickSize : Nat) :
    (status.tick clockId tickSize).Stuck coming := by
  cases status with
  | active doing => exact Doing.Stuck.tick stuck clockId tickSize
  | _ => trivial

theorem Status.Stuck.signal
    {status : Status} (stuck : status.Stuck (first ∪ second)) :
    (status.signal first).Stuck second := by
  cases status with
  | active doing => exact Doing.Stuck.signal stuck
  | _ => trivial

/-- A tick of the master clock signals the events that are due. -/
theorem Tasks.Deadlocked.tick
    {tasks : Tasks} (deadlocked : tasks.Deadlocked (first ∪ second)) :
    (tasks.tick first).Deadlocked second where
  idle := deadlocked.idle
  stuck := by
    intro status inside
    obtain ⟨before, member, rfl⟩ := List.mem_map.mp inside
    exact ((deadlocked.stuck before member).tick 0 1).signal

/-- A ready task is not stuck. -/
theorem Tasks.Deadlocked.not_ready
    {tasks : Tasks} (deadlocked : tasks.Deadlocked coming) :
    .active .ready ∉ tasks.statuses :=
  fun inside => deadlocked.stuck _ inside

end Stuck

/-! ## The events to come -/

namespace Kernel

/-- The change events of the queues with a delayed message. -/
def coming (cfg : Config) (k : Kernel β) : Set Nat :=
  { event | ∃ queue, k.HasQueue cfg queue ∧
    (k.queues.msgQList queue).change = event ∧
    ∃ msg ∈ k.contents queue, msg.delay ≠ 0 }

variable {cfg : Config} {k k' : Kernel β}

theorem mem_coming_iff {event : Nat} :
    event ∈ k.coming cfg ↔ ∃ later, event ∈ k.due cfg later := by
  constructor
  · rintro ⟨queue, created, change, msg, inside, delayed⟩
    exact ⟨msg.delay - 1, queue, created, change, msg, inside, by omega⟩
  · rintro ⟨later, queue, created, change, msg, inside, delay⟩
    exact ⟨queue, created, change, msg, inside, by omega⟩

/-- A tick of the master clock signals some of the events to come. -/
theorem coming_osTick
    (sound : k.Sound cfg)
    (returns : k.osTick cfg = .ok k') :
    k.coming cfg = k.due cfg 0 ∪ k'.coming cfg := by
  ext event
  simp only [Set.mem_union, mem_coming_iff, due_osTick sound returns]
  constructor
  · rintro ⟨later, inside⟩
    cases later with
    | zero => exact .inl inside
    | succ later => exact .inr ⟨later, inside⟩
  · rintro (inside | ⟨later, inside⟩)
    · exact ⟨0, inside⟩
    · exact ⟨later + 1, inside⟩

/-- Within a number of ticks all events to come have come. -/
theorem exists_coming_eq (cfg : Config) (k : Kernel β) :
    ∃ count, k.coming cfg = comingWithin (k.due cfg) count := by
  let delays := (List.range k.queues.nQueues).flatMap fun queue =>
    (k.contents queue).map Msg.delay
  refine ⟨delays.max?.getD 0, ?_⟩
  ext event
  constructor
  · rintro ⟨queue, created, change, msg, inside, delayed⟩
    have member : msg.delay ∈ delays :=
      List.mem_flatMap.mpr ⟨queue, List.mem_range.mpr created.2,
        List.mem_map_of_mem inside⟩
    have bound := List.le_max?_getD_of_mem (k := 0) member
    exact ⟨msg.delay - 1, by omega, queue, created, change, msg, inside, by omega⟩
  · rintro ⟨later, _, inside⟩
    exact mem_coming_iff.mpr ⟨later, inside⟩

/-- A tick of a sub clock ticks every task. -/
theorem subTicked_taskView
    (onMaster : ∀ tid, tid < k.tasks.nTasks → (k.tasks.taskList tid).OnMaster)
    (id ticks : Nat) :
    (k.subTicked cfg id ticks).taskView cfg =
      { k.taskView cfg with
        statuses := (k.taskView cfg).statuses.map fun status =>
          status.tick id ticks } := by
  unfold taskView
  dsimp only
  rw [List.map_map]
  congr 1
  refine List.map_congr_left fun tid inside => ?_
  have created := List.mem_range.mp inside
  have ticked : (k.subTicked cfg id ticks).tasks.taskList tid =
      (k.tasks.taskList tid).tick cfg id ticks := if_pos created
  rw [ticked, Tcb.status_tick (onMaster tid created)]
  rfl

end Kernel

/-! ## Sub clocks are bytes -/

/-- A clock on which the task sleeps is the master clock or a sub clock. -/
def Doing.OnByteClock : Doing → Prop
  | .sleeping clock _ => clock < 256
  | _ => True

def Status.OnByteClock : Status → Prop
  | .active doing => doing.OnByteClock
  | .suspended doing => doing.OnByteClock
  | .killed => True

/-- The action blocks a task on such a clock only. -/
def Act.OnByteClock : Act β → Prop
  | .block _ wait _ => wait.doing.OnByteClock
  | _ => True

theorem Doing.OnByteClock.signal
    {doing : Doing} (onByte : doing.OnByteClock) (signalled : Set Nat) :
    (doing.signal signalled).OnByteClock := by
  cases doing with
  | awaiting events all left =>
      by_cases ends : SetWaits.Ends signalled events all
      · rw [signal_of_ends ends]
        trivial
      · rw [signal_of_not_ends ends]
        trivial
  | _ => exact onByte

theorem Doing.OnByteClock.tick
    {doing : Doing} (onByte : doing.OnByteClock) (clockId tickSize : Nat) :
    (doing.tick clockId tickSize).OnByteClock := by
  cases doing with
  | sleeping clock left =>
      simp only [Doing.tick]
      split_ifs
      · trivial
      · exact onByte
      · exact onByte
  | awaiting events all left =>
      cases left with
      | none => trivial
      | some left =>
          simp only [Doing.tick]
          split_ifs <;> trivial
  | _ => trivial

theorem Status.OnByteClock.onStatus
    {status : Status} (onByte : status.OnByteClock)
    {act : Act β} (byteAct : act.OnByteClock) (tid : Nat) :
    (act.onStatus tid status).OnByteClock := by
  cases act with
  | block actor wait line =>
      simp only [Act.onStatus]
      split_ifs
      · exact byteAct
      · exact onByte
  | suspend other =>
      simp only [Act.onStatus]
      split_ifs
      · cases status with
        | active doing =>
            cases doing with
            | queued => trivial
            | _ => exact onByte
        | _ => exact onByte
      · exact onByte
  | resume other =>
      simp only [Act.onStatus]
      split_ifs
      · cases status with
        | _ => exact onByte
      · exact onByte
  | kill other =>
      simp only [Act.onStatus]
      split_ifs
      · trivial
      · exact onByte
  | tick other clockId tickSize =>
      simp only [Act.onStatus]
      split_ifs
      · cases status with
        | active doing => exact Doing.OnByteClock.tick onByte clockId tickSize
        | _ => exact onByte
      · exact onByte
  | signal eventId =>
      cases status with
      | active doing => exact Doing.OnByteClock.signal onByte {eventId}
      | _ => exact onByte
  | release other sem =>
      simp only [Act.onStatus]
      split_ifs
      · trivial
      · exact onByte
  | _ => exact onByte

theorem onByteClock_signalActs (cfg : Config) (event tid : Nat) :
    ∀ act ∈ Kernel.signalActs (β := β) cfg event tid, act.OnByteClock := by
  unfold Kernel.signalActs
  split <;> simp [Act.OnByteClock]

theorem onByteClock_waitEventActs
    (cfg : Config) (k : Kernel β) (event : Nat) {wait : Wait} (line : Nat)
    (onByte : wait.doing.OnByteClock) :
    ∀ act ∈ k.waitEventActs cfg event wait line, act.OnByteClock := by
  unfold Kernel.waitEventActs
  split_ifs <;> simp [Act.OnByteClock, onByte]

theorem Kernel.PostActs.onByteClock
    {cfg : Config} {k : Kernel β} {queue delay period event line : Nat}
    {msg : Msg β} {async blocked : Bool} {acts : List (Act β)}
    (turn : PostActs cfg k queue delay period msg async event line blocked acts) :
    ∀ act ∈ acts, act.OnByteClock := by
  cases turn with
  | blocked sync full =>
      exact List.forall_mem_cons.mpr
        ⟨trivial, onByteClock_waitEventActs cfg k event line trivial⟩
  | posted room =>
      exact List.forall_mem_cons.mpr ⟨trivial, onByteClock_signalActs _ _ _⟩
  | refused notBlocked => simp

theorem Kernel.ReceiveActs.onByteClock
    {cfg : Config} {k : Kernel β} {queue event line : Nat}
    {async blocked : Bool} {acts : List (Act β)}
    (turn : ReceiveActs cfg k queue async event line blocked acts) :
    ∀ act ∈ acts, act.OnByteClock := by
  cases turn with
  | blocked sync nothing =>
      exact List.forall_mem_cons.mpr
        ⟨trivial, onByteClock_waitEventActs cfg k event line trivial⟩
  | received msg some =>
      exact List.forall_mem_cons.mpr ⟨trivial, onByteClock_signalActs _ _ _⟩
  | nothing notBlocked => simp

/-- `task_wait_id` takes the clock as a byte. -/
theorem StepActs.onByteClock
    {cfg : Config} {s : Sys β} {label : Label β} {acts : List (Act β)}
    {frame : Nat → Frame β}
    (shape : StepActs cfg s label acts frame) :
    ∀ act ∈ acts, act.OnByteClock := by
  cases shape with
  | create | osStart | sleep => simp [Act.OnByteClock]
  | osSchedule idle selects runs created resumes =>
      refine List.forall_mem_cons.mpr ⟨trivial, ?_⟩
      cases resumes with
      | begin | between => simp
      | post goesOn here full turn => exact turn.onByteClock
      | receive goesOn here empty turn => exact turn.onByteClock
      | done goesOn wasPost wasReceive =>
          split_ifs
          · exact onByteClock_signalActs _ _ _
          · simp
  | call calls =>
      intro act inside
      have steady := calls.steady act inside
      cases act with
      | block => exact absurd trivial steady
      | _ => trivial
  | task runs takes =>
      cases takes with
      | taskWaitId id ticks =>
          intro act inside
          rw [List.mem_singleton.mp inside]
          exact id.toNat_lt
      | taskSuspend | taskResume =>
          unfold Kernel.selfYieldActs
          split_ifs <;> simp [Act.OnByteClock]
      | eventWaitTimeout event timeout =>
          exact onByteClock_waitEventActs _ _ _ _ trivial
      | eventWaitMultiple | eventWaitMultipleNone | semWaitTake | semWaitBlock
        | taskClose =>
          simp [Act.OnByteClock, Wait.doing, Doing.OnByteClock]
      | eventSignal event =>
          exact List.forall_mem_append.mpr
            ⟨onByteClock_signalActs _ _ _, by simp [Act.OnByteClock]⟩
      | semSignal inside =>
          unfold Kernel.semSignalYieldActs Kernel.semSignalActs
          split_ifs <;> simp [Act.OnByteClock]
      | msgPost turn =>
          exact List.forall_mem_cons.mpr ⟨trivial, turn.onByteClock⟩
      | msgReceive buffer turn =>
          exact List.forall_mem_cons.mpr ⟨trivial, turn.onByteClock⟩

/-- Every clock on which a task sleeps can be ticked. -/
theorem reachable_onByteClock
    {cfg : Config} {s : Sys β}
    (reachable : ReachableSys cfg s) :
    ∀ tid, tid < s.kernel.tasks.nTasks →
      ((s.kernel.tasks.taskList tid).status cfg).OnByteClock := by
  refine Reachable.induction
    (fun s : Sys β => ∀ tid, tid < s.kernel.tasks.nTasks →
      ((s.kernel.tasks.taskList tid).status cfg).OnByteClock) ?_ ?_ reachable
  · rintro s ⟨⟨k, fresh⟩, _⟩ tid created
    rw [fresh] at created
    exact absurd created (Nat.not_lt_zero tid)
  · intro s label s' reachable holds steps
    have sound := reachable_sound reachable
    obtain ⟨acts, shape, trace⟩ := step_trace sound steps
    refine (trace.invariant Act.OnByteClock
      (fun k => k.Sound cfg ∧ k.TasksSound cfg ∧ ∀ tid, tid < k.tasks.nTasks →
        ((k.tasks.taskList tid).status cfg).OnByteClock)
      ?_ shape.onByteClock
      ⟨sound, reachable_tasksSound reachable, holds⟩).2.2
    rintro k act k' onByte ⟨sound, tasks, holds⟩ acts
    refine ⟨sound.of_micro acts, tasks.of_micro sound acts, fun tid created' => ?_⟩
    by_cases created : tid < k.tasks.nTasks
    · rw [acts.status tasks sound.nTasks_lt created]
      exact (holds tid created).onStatus onByte tid
    · rw [Tcb.status_of_ready
        (acts.ready_of_new (Nat.not_lt.mp created) created')]
      trivial

/-! ## Clockwork -/

/-- The steps of the scheduler and of the clocks. -/
def Label.Clockwork : Label β → Prop
  | .osSchedule => True
  | .call .osTick => True
  | .call (.osSubTick _) => True
  | .call (.osSubNTick _ _) => True
  | _ => False

/-- The kernel sleeps, and the clocks make no task ready. -/
def Kernel.Deadlocked (cfg : Config) (k : Kernel β) : Prop :=
  (k.taskView cfg).Deadlocked (k.coming cfg)

section

variable {cfg : Config} {s s' : Sys β}

theorem Kernel.Deadlocked.runningTid
    {k : Kernel β} (deadlocked : k.Deadlocked cfg) :
    k.runningTid = noTid := by
  by_contra runs
  have idle := deadlocked.idle
  rw [taskView_running_of_ne runs] at idle
  cases idle

theorem Kernel.Deadlocked.not_ready
    {k : Kernel β} (deadlocked : k.Deadlocked cfg)
    {tid : Nat} (created : tid < k.tasks.nTasks) :
    (k.tasks.taskList tid).state ≠ .ready := by
  intro ready
  apply Tasks.Deadlocked.not_ready deadlocked
  rw [← Tcb.status_of_ready ready]
  exact List.mem_of_getElem? (taskView_statuses_of_lt created)

theorem Kernel.Deadlocked.subTicked
    {k : Kernel β} (deadlocked : k.Deadlocked cfg)
    (onMaster : ∀ tid, tid < k.tasks.nTasks → (k.tasks.taskList tid).OnMaster)
    (id ticks : Nat) :
    (k.subTicked cfg id ticks).Deadlocked cfg := by
  unfold Kernel.Deadlocked
  rw [subTicked_taskView onMaster]
  refine ⟨deadlocked.idle, fun status inside => ?_⟩
  obtain ⟨before, member, rfl⟩ := List.mem_map.mp inside
  exact (deadlocked.stuck before member).tick id ticks

/-- The scheduler finds no task that is ready, and the ticks make none ready. -/
theorem Kernel.Deadlocked.of_step
    {label : Label β}
    (reachable : ReachableSys cfg s)
    (deadlocked : s.kernel.Deadlocked cfg)
    (clockwork : label.Clockwork)
    (steps : step cfg s label = .ok s') :
    s'.kernel.Deadlocked cfg := by
  have sound := reachable_sound reachable
  have onMaster : ∀ tid, tid < s.kernel.tasks.nTasks →
      (s.kernel.tasks.taskList tid).OnMaster :=
    fun tid created => reachable_onMaster reachable created
  cases label with
  | osSchedule =>
      unfold step at steps
      dsimp only at steps
      rw [if_pos deadlocked.runningTid, scheduleStep, bind_eq_ok_iff] at steps
      obtain ⟨k, selects, goesOn⟩ := steps
      obtain ⟨nTasks, taskList, _, _, _, queues, _⟩ :=
        Kernel.selectTask_frame selects
      by_cases runs : k.runningTid ≠ noTid
      · dsimp only at goesOn
        rw [if_pos runs] at goesOn
        by_cases created : k.runningTid < k.tasks.nTasks
        · exact absurd (Kernel.selectTask_ready selects runs)
            (deadlocked.not_ready (nTasks ▸ created))
        · rw [if_neg created] at goesOn
          cases goesOn
      · dsimp only at goesOn
        rw [if_neg runs] at goesOn
        cases Except.ok.inj goesOn
        have view : k.taskView cfg = s.kernel.taskView cfg := by
          unfold Kernel.taskView
          rw [nTasks, taskList, not_not.mp runs, deadlocked.runningTid]
        have coming : k.coming cfg = s.kernel.coming cfg := by
          unfold Kernel.coming Kernel.HasQueue Kernel.contents
          rw [queues]
        unfold Kernel.Deadlocked at deadlocked ⊢
        rwa [view, coming]
  | call call =>
      cases call with
      | osTick =>
          obtain ⟨k, returns, rfl⟩ := map_eq_ok_iff.mp steps
          unfold Kernel.Deadlocked at deadlocked ⊢
          dsimp only
          rw [Kernel.coming_osTick sound returns] at deadlocked
          rw [Kernel.osTick_taskView sound (reachable_tasksSound reachable)
            returns]
          exact deadlocked.tick
      | osSubTick id =>
          by_cases sub : id = 0
          · subst sub
            cases Except.ok.inj steps
            exact deadlocked
          · rw [step_osSubTick cfg s sub] at steps
            cases Except.ok.inj steps
            exact deadlocked.subTicked onMaster _ _
      | osSubNTick id nTicks =>
          by_cases sub : id = 0
          · subst sub
            cases Except.ok.inj steps
            exact deadlocked
          · rw [step_osSubNTick cfg s sub] at steps
            cases Except.ok.inj steps
            exact deadlocked.subTicked onMaster _ _
      | _ => exact clockwork.elim
  | _ => exact clockwork.elim

theorem Kernel.Deadlocked.of_run
    {labels : List (Label β)}
    (reachable : ReachableSys cfg s)
    (deadlocked : s.kernel.Deadlocked cfg)
    (clockwork : ∀ label ∈ labels, label.Clockwork)
    (runs : run (step cfg) s labels = .ok s') :
    s'.kernel.Deadlocked cfg := by
  induction labels generalizing s with
  | nil =>
      cases Except.ok.inj runs
      exact deadlocked
  | cons label labels inductionHypothesis =>
      obtain ⟨here, later⟩ := List.forall_mem_cons.mp clockwork
      obtain ⟨t, steps, rest⟩ := run_cons_eq_ok_iff.mp runs
      exact inductionHypothesis (reachable.step steps)
        (deadlocked.of_step reachable here steps) later rest

/-! ## Ticks that wake a task -/

/-- Somewhere in a run of the clocks and the scheduler a task runs or is
ready. -/
def Wakes (cfg : Config) (s : Sys β) : Prop :=
  ∃ labels s', (∀ label ∈ labels, label.Clockwork) ∧
    run (step cfg) s labels = .ok s' ∧
    (s'.kernel.runningTid ≠ noTid ∨ ∃ tid, tid < s'.kernel.tasks.nTasks ∧
      (s'.kernel.tasks.taskList tid).state = .ready)

/-- A task that ticks of the master clock make ready. -/
theorem wakes_of_ticks
    (reachable : ReachableSys cfg s)
    (rings : s.kernel.RingsFit cfg)
    {tid count : Nat} {doing : Doing}
    (created : tid < s.kernel.tasks.nTasks)
    (status : (s.kernel.tasks.taskList tid).status cfg = .active doing)
    (ends : doing.EndsWith (comingWithin (s.kernel.due cfg) count) count) :
    Wakes cfg s := by
  obtain ⟨s', runs⟩ := exists_run_osTick reachable rings count
  have clockwork : ∀ label ∈ List.replicate count (Label.call (β := β) .osTick),
      label.Clockwork := by
    intro label inside
    rw [List.eq_of_mem_replicate inside]
    trivial
  have ready := (woken_within_iff reachable created runs).mpr ⟨doing, status, ends⟩
  exact ⟨_, s', clockwork, runs, .inr ⟨tid,
    created.trans_le (run_nTasks_le (reachable_sound reachable) runs), ready⟩⟩

/-- A task that sleeps waits for its time. -/
theorem Tcb.sleeps_of_status
    {task : Tcb} {clock left : Nat}
    (status : task.status cfg = .active (.sleeping clock left)) :
    task.state = .waitingTime ∧ task.clockId = clock ∧ task.time = left := by
  unfold Tcb.status at status
  split_ifs at status
  rcases state : task.state
  case waitingTime =>
    rw [state] at status
    simp only [Tcb.doing, Status.active.injEq, Doing.sleeping.injEq] at status
    exact ⟨rfl, status⟩
  all_goals
    rw [state] at status
    simp [Tcb.doing] at status

/-- A task that sleeps on a sub clock. -/
theorem wakes_of_subTick
    (reachable : ReachableSys cfg s)
    {tid clock left : Nat}
    (created : tid < s.kernel.tasks.nTasks)
    (status : (s.kernel.tasks.taskList tid).status cfg =
      .active (.sleeping clock left))
    (sub : clock ≠ 0) :
    Wakes cfg s := by
  have onByte := reachable_onByteClock reachable tid created
  rw [status] at onByte
  obtain ⟨state, clockId, time⟩ := Tcb.sleeps_of_status status
  have notSuspended : (s.kernel.tasks.taskList tid).state ≠ .suspended := by
    rw [state]
    decide
  have consistent := (reachable_tasksSound reachable).consistent tid created
    (by rw [state]; decide)
  have positive := consistent.time
  rw [Tcb.effectiveState_of_ne notSuspended] at positive
  let id : UInt8 := UInt8.ofNat clock
  have byte : id.toNat = clock := UInt8.toNat_ofNat_of_lt' onByte
  have notMaster : id ≠ 0 := by
    intro zero
    rw [zero] at byte
    exact sub byte.symm
  have runs := run_osSubTick cfg s notMaster left
  refine ⟨_, _, ?_, runs, .inr ⟨tid, created, ?_⟩⟩
  · intro label inside
    rw [List.eq_of_mem_replicate inside]
    trivial
  · have ticked : (s.kernel.tasks.mapCreated
        (Tcb.tick cfg id.toNat 1)^[left]).taskList tid =
          (Tcb.tick cfg id.toNat 1)^[left] (s.kernel.tasks.taskList tid) :=
      if_pos created
    dsimp only
    rw [ticked, Tcb.iterate_tick cfg _ _ positive (by rw [state]; decide)]
    unfold Tcb.tick
    simp [state, clockId, byte, time, Tcb.readySet]

/-- A kernel that is not deadlocked is woken by the clocks, if it sleeps. -/
theorem wakes_of_not_deadlocked
    (reachable : ReachableSys cfg s)
    (rings : s.kernel.RingsFit cfg)
    (alive : ¬ s.kernel.Deadlocked cfg) :
    Wakes cfg s := by
  by_cases idle : s.kernel.runningTid = noTid
  · have some : ∃ status ∈ (s.kernel.taskView cfg).statuses,
        ¬ status.Stuck (s.kernel.coming cfg) := by
      by_contra none
      push Not at none
      exact alive ⟨if_pos idle, none⟩
    obtain ⟨status, inside, moves⟩ := some
    obtain ⟨tid, member, rfl⟩ := List.mem_map.mp inside
    have created := List.mem_range.mp member
    cases status : (s.kernel.tasks.taskList tid).status cfg with
    | active doing =>
        rw [status] at moves
        cases doing with
        | ready =>
            exact ⟨[], s, by simp, rfl, .inr ⟨tid, created,
              (state_eq_ready_iff reachable created).mpr status⟩⟩
        | sleeping clock left =>
            by_cases master : clock = 0
            · have ends : (Doing.sleeping clock left).EndsWith
                  (comingWithin (s.kernel.due cfg) left) left := ⟨master, le_rfl⟩
              exact wakes_of_ticks reachable rings created status ends
            · exact wakes_of_subTick reachable created status master
        | awaiting events all left =>
            cases left with
            | some left =>
                have ends : (Doing.awaiting events all (some left)).EndsWith
                    (comingWithin (s.kernel.due cfg) left) left :=
                  .inl ⟨left, rfl, le_rfl⟩
                exact wakes_of_ticks reachable rings created status ends
            | none =>
                obtain ⟨count, coming⟩ := s.kernel.exists_coming_eq cfg
                rw [coming] at moves
                exact wakes_of_ticks reachable rings created status
                  (.inr (not_not.mp moves))
        | queued sem waited => exact absurd trivial moves
    | suspended doing =>
        rw [status] at moves
        exact absurd trivial moves
    | killed =>
        rw [status] at moves
        exact absurd trivial moves
  · exact ⟨[], s, by simp, rfl, .inl idle⟩

/-- The kernel sleeps forever, unless an interrupt handler intervenes, exactly
when no task runs and every task is killed, suspended, queued at a semaphore, or
waits without a timeout for events that the delayed messages in the queues do
not complete. -/
theorem sleeps_forever_iff
    (reachable : ReachableSys cfg s)
    (rings : s.kernel.RingsFit cfg) :
    s.kernel.Deadlocked cfg ↔
      ∀ labels s', (∀ label ∈ labels, label.Clockwork) →
        run (step cfg) s labels = .ok s' →
        s'.kernel.runningTid = noTid ∧ ∀ tid, tid < s'.kernel.tasks.nTasks →
          (s'.kernel.tasks.taskList tid).state ≠ .ready := by
  constructor
  · intro deadlocked labels s' clockwork runs
    have after := deadlocked.of_run reachable clockwork runs
    exact ⟨after.runningTid, fun tid created => after.not_ready created⟩
  · intro sleeps
    by_contra alive
    obtain ⟨labels, s', clockwork, runs, awake⟩ :=
      wakes_of_not_deadlocked reachable rings alive
    obtain ⟨idle, asleep⟩ := sleeps labels s' clockwork runs
    rcases awake with busy | ⟨tid, created, ready⟩
    · exact busy idle
    · exact asleep tid created ready

end

/-- The first task waits for an event that no queue signals, and the others have
ended: the clocks alone never wake it. -/
theorem sleeps_forever_iff_setUp :
    ∃ s : Sys Nat,
      run (step (Config.small false)) (Sys.boot (Config.small false))
        (setUp 1 2 3 ++ [.osSchedule, .task (.eventWaitTimeout 1 0) 1,
          .osSchedule, .task .taskClose 2, .osSchedule, .task .taskClose 3]) =
        .ok s ∧
      ∀ labels s', (∀ label ∈ labels, label.Clockwork) →
        run (step (Config.small false)) s labels = .ok s' →
        s'.kernel.runningTid = noTid ∧ ∀ tid, tid < s'.kernel.tasks.nTasks →
          (s'.kernel.tasks.taskList tid).state ≠ .ready := by
  obtain ⟨s, runs, checked⟩ := exists_of_returnsWith
    (fun s : Sys Nat => decide
      ((s.kernel.tasks.nTasks = 3 ∧ s.kernel.runningTid = noTid) ∧
        ((s.kernel.tasks.taskList 0).state = .waitingEvent ∧
          (s.kernel.tasks.taskList 1).state = .killed ∧
          (s.kernel.tasks.taskList 2).state = .killed) ∧
        (s.kernel.queues.nQueues = 1 ∧ s.kernel.contents 0 = []) ∧
        (2 ≤ (s.kernel.queues.msgQList 0).q.size ∧
          (s.kernel.queues.msgQList 0).change / 8 <
            (Config.small false).eventQueueSize)))
    (run (step (Config.small false)) (Sys.boot (Config.small false))
      (setUp 1 2 3 ++ [.osSchedule, .task (.eventWaitTimeout 1 0) 1,
        .osSchedule, .task .taskClose 2, .osSchedule, .task .taskClose 3]))
    (by decide +kernel)
  obtain ⟨⟨nTasks, idle⟩, ⟨waits, second, third⟩, ⟨nQueues, empty⟩, two, fits⟩ :=
    of_decide_eq_true checked
  have none_ : s.kernel.coming (Config.small false) = ∅ := by
    ext event
    refine iff_of_false ?_ (fun wrong => wrong)
    rintro ⟨queue, ⟨_, created⟩, _, msg, inside, _⟩
    obtain rfl : queue = 0 := by omega
    rw [empty] at inside
    cases inside
  refine ⟨s, runs, (sleeps_forever_iff (reachable_of_run runs)
    (.of_one nQueues two fits)).mp ⟨if_pos idle, fun status inside => ?_⟩⟩
  obtain ⟨tid, member, rfl⟩ := List.mem_map.mp inside
  rw [nTasks] at member
  by_cases isFirst : tid = 0
  · subst isFirst
    rw [Tcb.status_of_active (by rw [waits]; decide) (by rw [waits]; decide),
      waits, none_]
    rintro ⟨⟨event, _, wrong⟩, _⟩
    exact wrong
  · have killed : (s.kernel.tasks.taskList tid).state = .killed := by
      have inside := List.mem_range.mp member
      rcases (show tid = 1 ∨ tid = 2 by omega) with rfl | rfl
      · exact second
      · exact third
    rw [Tcb.status_of_killed killed]
    trivial

end CocoOs
