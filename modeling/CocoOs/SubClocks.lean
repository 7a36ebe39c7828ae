import CocoOs.StepTrace
import CocoOs.TaskSound

/-!
# Ticks of the sub clocks

A tick of a sub clock rewrites every created task and nothing else.  On the
waits for time a step of several ticks is as good as the ticks one by one; the
count of a task that waits for a semaphore goes up by one a call, whatever the
size of the step.
-/

namespace CocoOs

open Foundation

variable {β : Type}

/-! ## One task -/

namespace Tcb

/-- A task that waits for neither time nor a semaphore has no tick. -/
theorem tick_of_idle
    (cfg : Config) (clockId ticks : Nat) {task : Tcb}
    (untimed : ¬ (task.state = .waitingTime ∨ task.state = .waitingEventTimeout))
    (notSem : task.state ≠ .waitingSem) :
    task.tick cfg clockId ticks = task := by
  unfold tick
  dsimp only
  rw [if_neg untimed, if_neg notSem]

/-- The waits for time: ticks in a row add up. -/
theorem tick_tick
    (cfg : Config) (clockId first second : Nat) {task : Tcb}
    (notSem : task.state ≠ .waitingSem) :
    (task.tick cfg clockId first).tick cfg clockId second =
      task.tick cfg clockId (first + second) := by
  by_cases timed : task.state = .waitingTime ∨ task.state = .waitingEventTimeout
  · by_cases own : task.clockId = clockId
    · by_cases expires : task.time ≤ first
      · have ready : (task.tick cfg clockId first).state = .ready := by
          simp only [tick, if_pos timed, if_pos own, if_pos expires]
          rfl
        rw [tick_of_idle cfg clockId second (by simp [ready]) (by simp [ready])]
        have within : task.time ≤ first + second := by omega
        simp only [tick, if_pos timed, if_pos own, if_pos expires, if_pos within]
      · simp only [tick, if_pos timed, if_pos own, if_neg expires]
        have later : task.time - first ≤ second ↔ task.time ≤ first + second := by
          omega
        simp only [later, Nat.sub_sub]
    · simp only [tick, if_pos timed, if_neg own]
  · simp only [tick, if_neg timed, if_neg notSem]

/-- A step of no ticks. -/
theorem tick_zero
    (cfg : Config) (clockId : Nat) {task : Tcb}
    (positive : task.state = .waitingTime ∨ task.state = .waitingEventTimeout →
      0 < task.time)
    (notSem : task.state ≠ .waitingSem) :
    task.tick cfg clockId 0 = task := by
  unfold tick
  dsimp only
  by_cases timed : task.state = .waitingTime ∨ task.state = .waitingEventTimeout
  · have running := positive timed
    rw [if_pos timed, if_neg (by omega : ¬ task.time ≤ 0)]
    split_ifs <;> rfl
  · rw [if_neg timed, if_neg notSem]

/-- Off the semaphores a number of single ticks is one step of so many. -/
theorem iterate_tick
    (cfg : Config) (clockId count : Nat) {task : Tcb}
    (positive : task.state = .waitingTime ∨ task.state = .waitingEventTimeout →
      0 < task.time)
    (notSem : task.state ≠ .waitingSem) :
    (Tcb.tick cfg clockId 1)^[count] task = task.tick cfg clockId count := by
  induction count with
  | zero => exact (tick_zero cfg clockId positive notSem).symm
  | succ count inductionHypothesis =>
      rw [Function.iterate_succ_apply', inductionHypothesis,
        tick_tick cfg clockId count 1 notSem]

/-- A task that waits for a semaphore counts the calls. -/
theorem tick_of_waitingSem
    (cfg : Config) (clockId ticks : Nat) {task : Tcb}
    (sem : task.state = .waitingSem) :
    task.tick cfg clockId ticks = { task with time := (task.time + 1) % 2 ^ 32 } := by
  unfold tick
  simp [sem]

theorem iterate_tick_of_waitingSem
    (cfg : Config) (clockId count : Nat) {task : Tcb}
    (sem : task.state = .waitingSem) :
    (Tcb.tick cfg clockId 1)^[count + 1] task =
      { task with time := (task.time + (count + 1)) % 2 ^ 32 } := by
  induction count with
  | zero => exact tick_of_waitingSem cfg clockId 1 sem
  | succ count inductionHypothesis =>
      rw [Function.iterate_succ_apply', inductionHypothesis,
        tick_of_waitingSem cfg clockId 1 (by exact sem)]
      dsimp only
      rw [Nat.mod_add_mod, Nat.add_assoc]

/-- For a task that waits for a semaphore a step is as good as single ticks
exactly when it is one tick. -/
theorem tick_eq_iterate_iff
    (cfg : Config) (clockId : Nat) {count : Nat} {task : Tcb}
    (sem : task.state = .waitingSem)
    (word : count < 2 ^ 32) :
    task.tick cfg clockId count = (Tcb.tick cfg clockId 1)^[count] task ↔
      count = 1 := by
  rw [tick_of_waitingSem cfg clockId count sem]
  cases count with
  | zero =>
      refine iff_of_false (fun same => ?_) (by decide)
      have times := congrArg Tcb.time same
      simp only [Function.iterate_zero, id] at times
      omega
  | succ count =>
      rw [iterate_tick_of_waitingSem cfg clockId count sem]
      constructor
      · intro same
        have times := congrArg Tcb.time same
        dsimp only at times
        omega
      · rintro one
        rw [one]

end Tcb

/-! ## The task table -/

namespace TaskTable

theorem mapCreated_mapCreated
    (tasks : TaskTable) (first second : Tcb → Tcb) :
    (tasks.mapCreated first).mapCreated second =
      tasks.mapCreated fun task => second (first task) := by
  unfold mapCreated
  congr 1
  funext tid
  dsimp only
  split_ifs <;> rfl

theorem mapCreated_congr
    (tasks : TaskTable) {first second : Tcb → Tcb}
    (agree : ∀ tid, tid < tasks.nTasks →
      first (tasks.taskList tid) = second (tasks.taskList tid)) :
    tasks.mapCreated first = tasks.mapCreated second := by
  unfold mapCreated
  congr 1
  funext tid
  split_ifs with created
  · exact agree tid created
  · rfl

end TaskTable

namespace Kernel

/-- The kernel after a tick of a sub clock. -/
def subTicked (cfg : Config) (k : Kernel β) (id ticks : Nat) : Kernel β :=
  { k with tasks := k.tasks.mapCreated (Tcb.tick cfg id ticks) }

/-- `task_tick` of a sub clock ticks every created task, and nothing else. -/
theorem taskTick_sub
    (cfg : Config) (k : Kernel β) {id : Nat} (sub : id ≠ 0) (ticks : Nat) :
    k.taskTick cfg id ticks = .ok (k.subTicked cfg id ticks) := by
  have loop : ∀ count, forRange count (taskTickBody cfg id ticks) k =
      .ok { k with
        tasks := { k.tasks with
          taskList := forEach count
            (fun i taskList =>
              Function.update taskList i ((taskList i).tick cfg id ticks))
            k.tasks.taskList } } := by
    intro count
    induction count with
    | zero => rfl
    | succ count inductionHypothesis =>
        rw [forRange_succ, inductionHypothesis, ok_bind]
        unfold taskTickBody
        rw [if_neg sub]
        rfl
  unfold taskTick subTicked TaskTable.mapCreated
  rw [loop]
  congr 2
  dsimp only
  congr 1
  funext tid
  exact forEach_update_apply k.tasks.nTasks
    (fun _ task => task.tick cfg id ticks) k.tasks.taskList tid

end Kernel

/-! ## Steps -/

theorem toNat_ne_zero {id : UInt8} (sub : id ≠ 0) : id.toNat ≠ 0 :=
  fun zero => sub (UInt8.toNat_inj.mp zero)

theorem step_osSubTick
    (cfg : Config) (s : Sys β) {id : UInt8} (sub : id ≠ 0) :
    step cfg s (.call (.osSubTick id)) =
      .ok { s with kernel := s.kernel.subTicked cfg id.toNat 1 } := by
  unfold step callStep Kernel.osSubTick
  dsimp only
  rw [if_pos (toNat_ne_zero sub), Kernel.taskTick_sub cfg _ (toNat_ne_zero sub)]
  rfl

theorem step_osSubNTick
    (cfg : Config) (s : Sys β) {id : UInt8} (sub : id ≠ 0) (nTicks : UInt32) :
    step cfg s (.call (.osSubNTick id nTicks)) =
      .ok { s with kernel := s.kernel.subTicked cfg id.toNat nTicks.toNat } := by
  unfold step callStep Kernel.osSubNTick
  dsimp only
  rw [if_pos (toNat_ne_zero sub), Kernel.taskTick_sub cfg _ (toNat_ne_zero sub)]
  rfl

/-- A number of calls of `os_sub_tick`. -/
theorem run_osSubTick
    (cfg : Config) (s : Sys β) {id : UInt8} (sub : id ≠ 0) (count : Nat) :
    run (step cfg) s (List.replicate count (.call (.osSubTick id))) =
      .ok { s with
        kernel := { s.kernel with
          tasks := s.kernel.tasks.mapCreated
            (Tcb.tick cfg id.toNat 1)^[count] } } := by
  induction count generalizing s with
  | zero =>
      have same : s.kernel.tasks.mapCreated (Tcb.tick cfg id.toNat 1)^[0] =
          s.kernel.tasks := by
        unfold TaskTable.mapCreated
        simp
      rw [same]
      rfl
  | succ count inductionHypothesis =>
      rw [List.replicate_succ, run_cons, step_osSubTick cfg s sub, ok_bind,
        inductionHypothesis]
      unfold Kernel.subTicked
      dsimp only
      rw [TaskTable.mapCreated_mapCreated]
      rfl

/-- A task that waits for a semaphore tells a step of several ticks, or of
none, from so many ticks. -/
theorem osSubNTick_ne_run
    {cfg : Config} {s : Sys β} {tid : Nat}
    (created : tid < s.kernel.tasks.nTasks)
    (sem : (s.kernel.tasks.taskList tid).state = .waitingSem)
    {id : UInt8} (sub : id ≠ 0)
    {nTicks : UInt32} (several : nTicks ≠ 1) :
    step cfg s (.call (.osSubNTick id nTicks)) ≠
      run (step cfg) s
        (List.replicate nTicks.toNat (.call (.osSubTick id))) := by
  rw [step_osSubNTick cfg s sub, run_osSubTick cfg s sub]
  intro same
  have tables := congrArg (fun s : Sys β => s.kernel.tasks.taskList tid)
    (Except.ok.inj same)
  dsimp only [Kernel.subTicked] at tables
  rw [TaskTable.mapCreated_taskList_of_lt _ _ created,
    TaskTable.mapCreated_taskList_of_lt _ _ created,
    Tcb.tick_eq_iterate_iff cfg _ sem nTicks.toNat_lt] at tables
  exact several (UInt32.toNat_inj.mp tables)

/-- In every reachable state, `os_sub_nTick` leaves what so many calls of
`os_sub_tick` leave (and the state as it is, for no ticks) exactly when it
steps by one tick or no task waits for a semaphore. -/
theorem osSubNTick_eq_iff
    {cfg : Config} {s : Sys β}
    (reachable : ReachableSys cfg s)
    {id : UInt8} (sub : id ≠ 0)
    (nTicks : UInt32) :
    step cfg s (.call (.osSubNTick id nTicks)) =
        run (step cfg) s
          (List.replicate nTicks.toNat (.call (.osSubTick id))) ↔
      nTicks = 1 ∨ ∀ tid, tid < s.kernel.tasks.nTasks →
        (s.kernel.tasks.taskList tid).state ≠ .waitingSem := by
  have tasksSound := reachable_tasksSound reachable
  constructor
  · intro same
    by_contra both
    push Not at both
    obtain ⟨several, tid, created, sem⟩ := both
    exact osSubNTick_ne_run created sem sub several same
  · intro condition
    rw [step_osSubNTick cfg s sub, run_osSubTick cfg s sub]
    have agree : ∀ tid, tid < s.kernel.tasks.nTasks →
        (s.kernel.tasks.taskList tid).tick cfg id.toNat nTicks.toNat =
          (Tcb.tick cfg id.toNat 1)^[nTicks.toNat]
            (s.kernel.tasks.taskList tid) := by
      intro tid created
      rcases condition with rfl | noSem
      · rfl
      · refine (Tcb.iterate_tick cfg _ _ (fun timed => ?_)
          (noSem tid created)).symm
        have alive : (s.kernel.tasks.taskList tid).state ≠ .killed := by
          rcases timed with state | state <;> rw [state] <;> decide
        have active : (s.kernel.tasks.taskList tid).state ≠ .suspended := by
          rcases timed with state | state <;> rw [state] <;> decide
        have consistent := tasksSound.consistent tid created alive
        apply consistent.time
        rw [Tcb.effectiveState_of_ne active]
        exact timed
    unfold Kernel.subTicked
    rw [TaskTable.mapCreated_congr _ agree]

/-- While the first task waits for a sub clock, a step of two ticks is two
ticks. -/
theorem osSubNTick_eq_iff_setUp :
    ∃ s : Sys Nat,
      run (step (Config.small false)) (Sys.boot (Config.small false))
        (setUp 1 2 3 ++ [.osSchedule, .task (.taskWaitId 5 9) 2]) = .ok s ∧
      step (Config.small false) s (.call (.osSubNTick 5 2)) =
        run (step (Config.small false)) s
          [.call (.osSubTick 5), .call (.osSubTick 5)] := by
  obtain ⟨s, runs, checked⟩ := exists_of_returnsWith
    (fun s : Sys Nat => decide (s.kernel.tasks.nTasks = 3 ∧
      ∀ tid ∈ List.range 3, (s.kernel.tasks.taskList tid).state ≠ .waitingSem))
    (run (step (Config.small false)) (Sys.boot (Config.small false))
      (setUp 1 2 3 ++ [.osSchedule, .task (.taskWaitId 5 9) 2]))
    (by decide +kernel)
  obtain ⟨three, noSem⟩ := of_decide_eq_true checked
  refine ⟨s, runs, ?_⟩
  refine (osSubNTick_eq_iff (reachable_of_run runs) (by decide) 2).mpr (.inr ?_)
  rw [three]
  exact fun tid created => noSem tid (List.mem_range.mpr created)

/-- The second task waits for the semaphore that the first one took: it counts a
step of two ticks as one, and a step of no ticks as one as well. -/
theorem sub_nTick_counts_calls :
    (¬ ∀ s : Sys Nat, ReachableSys (Config.small false) s →
      ∀ id : UInt8, id ≠ 0 → ∀ nTicks : UInt32, 1 ≤ nTicks →
        step (Config.small false) s (.call (.osSubNTick id nTicks)) =
          run (step (Config.small false)) s
            (List.replicate nTicks.toNat (.call (.osSubTick id)))) ∧
    ¬ ∀ s : Sys Nat, ReachableSys (Config.small false) s →
      ∀ id : UInt8, id ≠ 0 →
        step (Config.small false) s (.call (.osSubNTick id 0)) = .ok s := by
  obtain ⟨s, runs, checked⟩ := exists_of_returnsWith
    (fun s : Sys Nat => decide (1 < s.kernel.tasks.nTasks ∧
      (s.kernel.tasks.taskList 1).state = .waitingSem))
    (run (step (Config.small false)) (Sys.boot (Config.small false))
      (setUp 1 2 3 ++ [.osSchedule, .task (.semWait 0) 1,
        .task (.taskWaitId 5 9) 2, .osSchedule, .task (.semWait 0) 3]))
    (by decide +kernel)
  obtain ⟨created, sem⟩ := of_decide_eq_true checked
  have reachable := reachable_of_run runs
  exact ⟨fun equal => osSubNTick_ne_run created sem (by decide) (by decide)
      (equal s reachable 5 (by decide) 2 (by decide)),
    fun equal =>
      (@osSubNTick_ne_run _ _ s 1 created sem 5 (by decide) 0 (by decide))
        (equal s reachable 5 (by decide))⟩

end CocoOs
