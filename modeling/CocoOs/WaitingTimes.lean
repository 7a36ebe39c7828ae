import CocoOs.RunTrace
import CocoOs.SemGrants

/-!
# Waiting times

A task that waits for a semaphore counts the calls of `task_tick` in a 32-bit
time.  A count without bound runs beside the system; with round-robin
scheduling the task released first is the one that has waited longest, as long
as the 32-bit counters are in the order of the counts.
-/

namespace CocoOs

open Foundation

variable {β : Type}

/-! ## The count -/

/-- The calls of `task_tick` since the last `task_wait_sem_set` of each task,
after a step. -/
def countTicks (cfg : Config) (waited : Nat → Nat) (s : Sys β)
    (label : Label β) (tid : Nat) : Nat :=
  match label with
  | .task (.semWait sem) _ =>
      if tid = s.kernel.runningTid ∧
          s.kernel.sems.osSemLargerThanZero cfg sem = false then 0
      else waited tid
  | label => if label.ticks.isSome then waited tid + 1 else waited tid

/-- A step of the system with the count. -/
def countedStep (cfg : Config) (state : (Nat → Nat) × Sys β)
    (label : Label β) : Outcome ((Nat → Nat) × Sys β) :=
  (step cfg state.2 label).map fun s' =>
    (countTicks cfg state.1 state.2 label, s')

theorem countedStep_eq_ok_iff
    {cfg : Config} {state state' : (Nat → Nat) × Sys β} {label : Label β} :
    countedStep cfg state label = .ok state' ↔
      step cfg state.2 label = .ok state'.2 ∧
        state'.1 = countTicks cfg state.1 state.2 label := by
  unfold countedStep
  rw [map_eq_ok_iff]
  constructor
  · rintro ⟨s', steps, rfl⟩
    exact ⟨steps, rfl⟩
  · rintro ⟨steps, counts⟩
    exact ⟨state'.2, steps, Prod.ext counts.symm rfl⟩

/-! ## The time of a waiting task -/

/-- While the task waits for a semaphore its time is the count, in 32 bits. -/
def TimeCounts (waited : Nat) (task : Tcb) : Prop :=
  task.state = .waitingSem → task.time = waited % 2 ^ 32

namespace TimeCounts

variable {cfg : Config} {waited : Nat}

theorem tick
    {task : Tcb} (counts : TimeCounts waited task) (clockId tickSize : Nat) :
    TimeCounts (waited + 1) (task.tick cfg clockId tickSize) := by
  intro state
  by_cases sem : task.state = .waitingSem
  · have time := counts sem
    have counted : (task.tick cfg clockId tickSize).time =
        (task.time + 1) % 2 ^ 32 := by simp [Tcb.tick, sem]
    rw [counted, time]
    omega
  · exfalso
    unfold Tcb.tick Tcb.readySet at state
    dsimp only at state
    split_ifs at state <;> exact sem state

/-- An action that neither ticks the task nor blocks it on a semaphore. -/
theorem of_micro
    {k k' : Kernel β} {act : Act β} {tid : Nat}
    (tasks : k.TasksSound cfg)
    (acts : Micro cfg k act k')
    (created : tid < k.tasks.nTasks)
    (notTicked : ¬ act.Ticks tid)
    (notBlocked : ∀ sem line, act ≠ .block tid (.sem sem) line)
    (counts : TimeCounts waited (k.tasks.taskList tid)) :
    TimeCounts waited (k'.tasks.taskList tid) := by
  intro state
  have before : (k.tasks.taskList tid).WaitsForSem
      (k'.tasks.taskList tid).semaphore := by
    rcases acts.waitsForSem tasks created ⟨state, rfl⟩ with waits | ⟨line, blocks⟩
    · exact waits
    · exact absurd blocks (notBlocked _ line)
  rw [← counts before.1]
  rw [acts.taskList created] at state ⊢
  by_cases moves : act.Moves tid
  · cases acts with
    | @block wait line inside enabled =>
        have same : k.runningTid = tid := moves
        subst same
        simp only [Act.onTask, if_true] at state
        rw [Wait.state_apply enabled] at state
        cases wait with
        | sem sem => exact absurd rfl (notBlocked sem line)
        | event eventId timeout =>
            simp only [Wait.state] at state
            split_ifs at state
        | _ => cases state
    | suspend inside =>
        simp only [Act.onTask] at state
        rw [if_pos (Eq.symm moves)] at state
        simp [Tcb.suspend, before.1] at state
    | resume inside =>
        simp only [Act.onTask]
        rw [if_pos (Eq.symm moves)]
        simp [Tcb.resume, before.1]
    | kill inside =>
        simp only [Act.onTask] at state
        rw [if_pos (Eq.symm moves)] at state
        cases state
    | tick other clockId tickSize inside => exact absurd moves notTicked
    | release inside waits found =>
        simp only [Act.onTask] at state
        rw [if_pos (Eq.symm moves)] at state
        cases state
    | _ => exact moves.elim
  · have same : (act.onTask cfg tid (k.tasks.taskList tid)).waitPart =
        (k.tasks.taskList tid).waitPart := Act.waitPart_onTask moves ?_
    · unfold Tcb.waitPart at same
      simp only [Prod.mk.injEq] at same
      exact same.2.2.1
    · cases act with
      | signal eventId =>
          rintro ⟨_, event | event⟩ <;> rw [before.1] at event <;> cases event
      | _ => exact id

theorem of_trace
    {k k' : Kernel β} {acts : List (Act β)} {tid : Nat}
    (trace : Trace (Micro cfg) k acts k')
    (sound : k.Sound cfg)
    (tasks : k.TasksSound cfg)
    (created : tid < k.tasks.nTasks)
    (notTicked : ∀ act ∈ acts, ¬ act.Ticks tid)
    (notBlocked : ∀ act ∈ acts, ∀ sem line, act ≠ .block tid (.sem sem) line)
    (counts : TimeCounts waited (k.tasks.taskList tid)) :
    k'.Sound cfg ∧ k'.TasksSound cfg ∧ tid < k'.tasks.nTasks ∧
      TimeCounts waited (k'.tasks.taskList tid) :=
  trace.invariant (fun act => act ∈ acts)
    (fun k => k.Sound cfg ∧ k.TasksSound cfg ∧ tid < k.tasks.nTasks ∧
      TimeCounts waited (k.tasks.taskList tid))
    (fun _ act _ inside ⟨sound, tasks, created, counts⟩ acts =>
      ⟨sound.of_micro acts, tasks.of_micro sound acts,
        created.trans_le acts.nTasks_le,
        counts.of_micro tasks acts created (notTicked act inside)
          (notBlocked act inside)⟩)
    (fun _ inside => inside) ⟨sound, tasks, created, counts⟩

end TimeCounts

/-! ## One step of a created task -/

section

variable {cfg : Config} {s s' : Sys β} {label : Label β} {acts : List (Act β)}
variable {frame : Nat → Frame β} {tid : Nat}

/-- Ticks are delivered by calls, and only tasks wait. -/
theorem Label.not_waitsSem_of_ticks
    {tick : Nat × Nat} (ticks : label.ticks = some tick) (sem : Int) :
    ¬ label.WaitsSem sem := by
  cases label with
  | call call => exact id
  | _ => cases ticks

theorem countTicks_of_ticks
    {tick : Nat × Nat} (waited : Nat → Nat) (ticks : label.ticks = some tick) :
    countTicks cfg waited s label tid = waited tid + 1 := by
  unfold countTicks
  cases label with
  | call call => simp [ticks]
  | _ => cases ticks

/-- A step that delivers a tick counts the time up. -/
theorem StepActs.timeCounts_of_ticks
    {waited clockId tickSize : Nat}
    (shape : StepActs cfg s label acts frame)
    (trace : Trace (Micro cfg) s.kernel acts s'.kernel)
    (sound : s.kernel.Sound cfg)
    (tasks : s.kernel.TasksSound cfg)
    (created : tid < s.kernel.tasks.nTasks)
    (ticks : label.ticks = some (clockId, tickSize))
    (counts : TimeCounts waited (s.kernel.tasks.taskList tid)) :
    TimeCounts (waited + 1) (s'.kernel.tasks.taskList tid) := by
  have notBlocked : ∀ act ∈ acts, ∀ sem line,
      act ≠ .block tid (.sem sem) line := by
    rintro act inside sem line rfl
    exact Label.not_waitsSem_of_ticks ticks sem (shape.waitsSem_of_block inside)
  obtain ⟨before, after, split, earlier, later⟩ :=
    shape.exists_tick ticks created
  subst split
  obtain ⟨k₁, traceBefore, trace⟩ := trace.exists_middle
  obtain ⟨sound₁, tasks₁, created₁, counts₁⟩ := counts.of_trace traceBefore
    sound tasks created earlier fun act inside =>
      notBlocked act (List.mem_append_left _ inside)
  cases trace with
  | @cons _ k₂ _ _ _ ticked traceAfter =>
      have effect := ticked.taskList created₁
      simp only [Act.onTask, if_true] at effect
      have counts₂ : TimeCounts (waited + 1) (k₂.tasks.taskList tid) := by
        rw [effect]
        exact counts₁.tick clockId tickSize
      exact (counts₂.of_trace traceAfter (sound₁.of_micro ticked)
        (tasks₁.of_micro sound₁ ticked)
        (created₁.trans_le ticked.nTasks_le) later fun act inside =>
          notBlocked act (List.mem_append_right _
            (List.mem_cons_of_mem _ inside))).2.2.2

/-- A step that makes the task wait for a semaphore sets its time to zero. -/
theorem StepActs.timeCounts_of_block
    {sem : Int} {line : Nat}
    (waited : Nat → Nat)
    (shape : StepActs cfg s label acts frame)
    (trace : Trace (Micro cfg) s.kernel acts s'.kernel)
    (created : tid < s.kernel.tasks.nTasks)
    (inside : .block tid (.sem sem) line ∈ acts) :
    countTicks cfg waited s label tid = 0 ∧
      TimeCounts 0 (s'.kernel.tasks.taskList tid) := by
  have waits := shape.waitsSem_of_block inside
  cases label with
  | task op at_ =>
      cases op with
      | semWait other =>
          cases shape with
          | task runs takes =>
              cases takes with
              | semWaitTake => simp at inside
              | semWaitBlock inTable zero =>
                  simp only [List.mem_singleton, Act.block.injEq] at inside
                  obtain ⟨rfl, _⟩ := inside
                  refine ⟨by simp [countTicks, zero], ?_⟩
                  cases trace with
                  | cons waitsNow rest =>
                      cases rest
                      rw [waitsNow.taskList created]
                      simp only [Act.onTask, if_true]
                      exact fun _ => rfl
      | _ => exact waits.elim
  | _ => exact waits.elim

/-- Every other step leaves the count. -/
theorem StepActs.countTicks_of_not_blocks
    (waited : Nat → Nat)
    (shape : StepActs cfg s label acts frame)
    (ticks : label.ticks = none)
    (notBlocked : ∀ act ∈ acts, ∀ sem line,
      act ≠ .block tid (.sem sem) line) :
    countTicks cfg waited s label tid = waited tid := by
  unfold countTicks
  cases label with
  | task op line =>
      cases op with
      | semWait sem =>
          dsimp only
          rw [if_neg]
          rintro ⟨rfl, zero⟩
          cases shape with
          | task runs takes =>
              cases takes with
              | semWaitTake inTable positive =>
                  rw [zero] at positive
                  cases positive
              | semWaitBlock =>
                  exact notBlocked _ (List.mem_singleton_self _) _ _ rfl
      | _ => rfl
  | _ => simp [ticks]

/-- The count goes along with the time in every step. -/
theorem StepActs.timeCounts
    {waited : Nat → Nat}
    (shape : StepActs cfg s label acts frame)
    (trace : Trace (Micro cfg) s.kernel acts s'.kernel)
    (sound : s.kernel.Sound cfg)
    (tasks : s.kernel.TasksSound cfg)
    (created : tid < s.kernel.tasks.nTasks)
    (counts : TimeCounts (waited tid) (s.kernel.tasks.taskList tid)) :
    TimeCounts (countTicks cfg waited s label tid)
      (s'.kernel.tasks.taskList tid) := by
  cases ticks : label.ticks with
  | some tick =>
      rw [countTicks_of_ticks waited ticks]
      exact shape.timeCounts_of_ticks trace sound tasks created ticks counts
  | none =>
      by_cases blocks : ∃ sem line, Act.block tid (.sem sem) line ∈ acts
      · obtain ⟨sem, line, inside⟩ := blocks
        obtain ⟨zero, starts⟩ :=
          shape.timeCounts_of_block waited trace created inside
        rwa [zero]
      · have notBlocked : ∀ act ∈ acts, ∀ sem line,
            act ≠ .block tid (.sem sem) line := by
          rintro act inside sem line rfl
          exact blocks ⟨sem, line, inside⟩
        rw [shape.countTicks_of_not_blocks waited ticks notBlocked]
        exact (counts.of_trace trace sound tasks created
          (shape.not_ticks ticks) notBlocked).2.2.2

end

/-- Every task that waits for a semaphore has the count in its time. -/
structure TimesCount (cfg : Config) (state : (Nat → Nat) × Sys β) : Prop where
  reachable : ReachableSys cfg state.2
  counts : ∀ tid, tid < state.2.kernel.tasks.nTasks →
    TimeCounts (state.1 tid) (state.2.kernel.tasks.taskList tid)

theorem TimesCount.of_step
    {cfg : Config} {state state' : (Nat → Nat) × Sys β} {label : Label β}
    (times : TimesCount cfg state)
    (counted : countedStep cfg state label = .ok state') :
    TimesCount cfg state' := by
  obtain ⟨waited, s⟩ := state
  obtain ⟨waited', s'⟩ := state'
  obtain ⟨steps, counts⟩ := countedStep_eq_ok_iff.mp counted
  dsimp only at steps counts
  subst counts
  refine ⟨times.reachable.step steps, fun tid created => ?_⟩
  obtain ⟨acts, shape, trace⟩ :=
    step_trace (reachable_sound times.reachable) steps
  by_cases before : tid < s.kernel.tasks.nTasks
  · exact shape.timeCounts trace (reachable_sound times.reachable)
      (reachable_tasksSound times.reachable) before (times.counts tid before)
  · -- a task that the step creates is ready
    intro state
    exfalso
    by_cases quiet : ∀ act ∈ acts, act.Quiet
    · have same := (Kernel.SameObjects.of_trace trace quiet).nTasks
      dsimp only at created same
      omega
    · push Not at quiet
      obtain ⟨act, inside, creates⟩ := quiet
      cases act with
      | create creation =>
          have labelled := shape.allowed _ inside
          cases labelled
          generalize s'.frame = frame at shape
          cases shape with
          | create =>
              cases trace with
              | cons made rest =>
                  cases rest
                  have ready := made.ready_of_new (Nat.not_lt.mp before) created
                  dsimp only at state
                  rw [ready] at state
                  cases state
      | _ => exact creates trivial

theorem TimesCount.of_run
    {cfg : Config} {state state' : (Nat → Nat) × Sys β}
    {labels : List (Label β)}
    (times : TimesCount cfg state)
    (runs : run (countedStep cfg) state labels = .ok state') :
    TimesCount cfg state' :=
  run_invariant (TimesCount cfg) (fun _ _ _ times steps => times.of_step steps)
    times runs

theorem TimesCount.of_initial
    {cfg : Config} {s : Sys β} (waited : Nat → Nat)
    (initial : Initial cfg s) :
    TimesCount cfg (waited, s) := by
  refine ⟨.of_initial initial, fun tid created => ?_⟩
  obtain ⟨⟨k, kernel⟩, _⟩ := initial
  rw [kernel] at created
  exact absurd created (Nat.not_lt_zero tid)

/-! ## The release -/

/-- `os_task_release_waiting_task` makes one waiting task ready, and no task
that waits for the semaphore has been waiting longer. -/
def ReleasesLongest (cfg : Config) (waited : Nat → Nat) (tasks : TaskTable)
    (sem : Int) : Prop :=
  ∃ tid, tid < tasks.nTasks ∧ (tasks.taskList tid).WaitsForSem sem ∧
    tasks.osTaskReleaseWaitingTask cfg sem = tasks.modify tid Tcb.readySet ∧
    ∀ other, other < tasks.nTasks → (tasks.taskList other).WaitsForSem sem →
      waited other ≤ waited tid

/-- Among the tasks that wait for the semaphore the counts reduced to 32 bits
are in the order of the counts. -/
def CountersInOrder (waited : Nat → Nat) (tasks : TaskTable) (sem : Int) : Prop :=
  ∀ tid other, tid < tasks.nTasks → other < tasks.nTasks →
    (tasks.taskList tid).WaitsForSem sem →
    (tasks.taskList other).WaitsForSem sem →
    waited tid % 2 ^ 32 ≤ waited other % 2 ^ 32 → waited tid ≤ waited other

/-- Counts below 2^32 are their own counters. -/
theorem countersInOrder_of_lt
    {waited : Nat → Nat} {tasks : TaskTable} {sem : Int}
    (short : ∀ tid, tid < tasks.nTasks → (tasks.taskList tid).WaitsForSem sem →
      waited tid < 2 ^ 32) :
    CountersInOrder waited tasks sem := by
  intro tid other created otherCreated waits otherWaits inOrder
  have first := short tid created waits
  have second := short other otherCreated otherWaits
  rwa [Nat.mod_eq_of_lt first, Nat.mod_eq_of_lt second] at inOrder

/-- With round-robin scheduling exactly one task that waits for the semaphore
is released, the one of the greatest 32-bit time. -/
theorem exists_released
    {cfg : Config} {tasks : TaskTable} {sem : Int}
    (roundRobin : cfg.roundRobin = true)
    (inside : tasks.nTasks < noTid)
    (some : tasks.SomeWaiter sem) :
    tasks.findWaitingTask cfg sem < tasks.nTasks ∧
      (tasks.taskList (tasks.findWaitingTask cfg sem)).WaitsForSem sem ∧
      tasks.osTaskReleaseWaitingTask cfg sem =
        tasks.modify (tasks.findWaitingTask cfg sem) Tcb.readySet ∧
      ∀ other, other < tasks.nTasks → (tasks.taskList other).WaitsForSem sem →
        (tasks.taskList other).time ≤
          (tasks.taskList (tasks.findWaitingTask cfg sem)).time := by
  rcases tasks.findWaitingTask_spec cfg sem inside with ⟨_, none⟩ | ⟨found, longest⟩
  · obtain ⟨tid, created, waits⟩ := some
    have findable : tasks.Findable cfg sem tid :=
      ⟨created, waits, fun priority => by
        rw [roundRobin] at priority
        cases priority⟩
    exact absurd findable (none tid)
  · refine ⟨found.1, found.2.1, ?_, fun other created waits => ?_⟩
    · unfold TaskTable.osTaskReleaseWaitingTask
      rw [if_pos (Nat.ne_of_lt (found.1.trans inside)).symm]
    · have least := longest other created waits
      rwa [if_pos roundRobin] at least

/-- In every state of every run in which the 32-bit times of the tasks that
wait for a semaphore are in the order of their waiting times, a release makes
exactly one of them ready, and none of the others has been waiting through more
calls of `task_tick` since its wait began. -/
theorem releases_longest_waiting
    {cfg : Config} {s₀ s : Sys β} {waited₀ waited : Nat → Nat}
    {labels : List (Label β)} {sem : Int}
    (roundRobin : cfg.roundRobin = true)
    (initial : Initial cfg s₀)
    (runs : run (countedStep cfg) (waited₀, s₀) labels = .ok (waited, s))
    (some : s.kernel.tasks.SomeWaiter sem)
    (inOrder : CountersInOrder waited s.kernel.tasks sem) :
    ReleasesLongest cfg waited s.kernel.tasks sem := by
  have times := (TimesCount.of_initial waited₀ initial).of_run runs
  have inside := (reachable_sound times.reachable).nTasks_lt
  obtain ⟨created, waits, releases, longest⟩ :=
    exists_released roundRobin inside some
  refine ⟨_, created, waits, releases, fun other otherCreated otherWaits => ?_⟩
  apply inOrder other _ otherCreated created otherWaits waits
  rw [← times.counts other otherCreated otherWaits.1,
    ← times.counts _ created waits.1]
  exact longest other otherCreated otherWaits

/-- The first of two tasks takes a binary semaphore and then waits for it; the
second runs. -/
def oneWaits : List (Label Nat) :=
  [.create (.osTaskCreate 1 0 1 (fun _ => ⟨0, 0, 0, 0⟩) 0 0),
    .create (.osTaskCreate 1 0 2 (fun _ => ⟨0, 0, 0, 0⟩) 0 0),
    .create (.semBinCreate true), .osStart, .osSchedule,
    .task (.taskResume 1) 3, .osSchedule, .task (.semWait 0) 4,
    .task (.semWait 0) 5, .osSchedule]

/-- Two tasks wait for the semaphore, the first of them for longer. -/
theorem releases_longest_waiting_setUp :
    ∃ waited s, run (countedStep (Config.small true))
        (fun _ => 0, Sys.boot (Config.small true))
        (oneWaits ++ [.call .osTick, .task (.semWait 0) 6]) =
          .ok (waited, s) ∧
      ReleasesLongest (Config.small true) waited s.kernel.tasks 0 := by
  obtain ⟨⟨waited, s⟩, runs, checked⟩ := exists_of_returnsWith
    (fun state : (Nat → Nat) × Sys Nat =>
      decide ((state.2.kernel.tasks.nTasks = 2 ∧
        (state.2.kernel.tasks.taskList 0).WaitsForSem 0) ∧
        state.1 0 < 2 ^ 32 ∧ state.1 1 < 2 ^ 32))
    (run (countedStep (Config.small true))
      (fun _ => 0, Sys.boot (Config.small true))
      (oneWaits ++ [.call .osTick, .task (.semWait 0) 6]))
    (by decide +kernel)
  obtain ⟨⟨two, waits⟩, first, second⟩ := of_decide_eq_true checked
  refine ⟨waited, s, runs, releases_longest_waiting rfl ⟨⟨_, rfl⟩, rfl⟩ runs
    ⟨0, by rw [two]; decide, waits⟩ (countersInOrder_of_lt ?_)⟩
  intro tid created _
  rw [two] at created
  have cases : tid = 0 ∨ tid = 1 := by omega
  rcases cases with rfl | rfl
  · exact first
  · exact second

/-- Without message queues `task_tick` ticks every task and does no more. -/
theorem Kernel.taskTick_of_noQueue
    {cfg : Config} {k : Kernel β} (clockId tickSize : Nat)
    (noQueues : ∀ tid, tid < k.tasks.nTasks →
      (k.tasks.taskList tid).msgQ = noQueue) :
    ∃ k', k.taskTick cfg clockId tickSize = .ok k' ∧
      k'.tasks.nTasks = k.tasks.nTasks ∧ k'.sems = k.sems ∧
      k'.runningTid = k.runningTid ∧
      ∀ tid, k'.tasks.taskList tid =
        if tid < k.tasks.nTasks then
          (k.tasks.taskList tid).tick cfg clockId tickSize
        else k.tasks.taskList tid := by
  refine forRange_returns (fun count (state : Kernel β) =>
    state.tasks.nTasks = k.tasks.nTasks ∧ state.sems = k.sems ∧
      state.runningTid = k.runningTid ∧
      ∀ tid, state.tasks.taskList tid =
        if tid < count then (k.tasks.taskList tid).tick cfg clockId tickSize
        else k.tasks.taskList tid) ?_ ?_
  · exact ⟨rfl, rfl, rfl, fun tid => (if_neg (Nat.not_lt_zero tid)).symm⟩
  · rintro index state before ⟨nTasks, sems, runs, tasks⟩
    refine ⟨state.modifyTask index (Tcb.tick cfg clockId tickSize), ?_, nTasks,
      sems, runs, fun tid => ?_⟩
    · have msgQ : ((state.tasks.modify index
          (Tcb.tick cfg clockId tickSize)).taskList index).msgQ = noQueue := by
        rw [TaskTable.modify_taskList_self,
          msgQ_of_static (Tcb.static_tick cfg clockId tickSize _), tasks,
          if_neg (Nat.lt_irrefl index)]
        exact noQueues index before
      unfold taskTickBody
      simp only [msgQ, ne_eq, not_true_eq_false, if_false, ite_self]
      rfl
    · rw [Kernel.modifyTask_taskList, tasks]
      by_cases same : tid = index
      · subst same
        rw [if_pos rfl, if_neg (Nat.lt_irrefl tid), if_pos (Nat.lt_succ_self tid)]
      · have shifted : tid < index + 1 ↔ tid < index := by omega
        rw [if_neg same]
        simp only [shifted]

/-- The first task has been waiting for so many ticks while the second runs. -/
structure OneWaits (cfg : Config) (ticks : Nat)
    (state : (Nat → Nat) × Sys β) : Prop where
  times : TimesCount cfg state
  two : state.2.kernel.tasks.nTasks = 2
  noQueues : ∀ tid, tid < 2 →
    (state.2.kernel.tasks.taskList tid).msgQ = noQueue
  waits : (state.2.kernel.tasks.taskList 0).WaitsForSem 0
  runs : state.2.kernel.runningTid = 1
  zero : (state.2.kernel.sems.semList 0).value = 0
  counted : state.1 0 = ticks

theorem OneWaits.osTick
    {cfg : Config} {ticks : Nat} {state : (Nat → Nat) × Sys β}
    (one : OneWaits cfg ticks state) :
    ∃ state', countedStep cfg state (.call .osTick) = .ok state' ∧
      OneWaits cfg (ticks + 1) state' := by
  obtain ⟨waited, s⟩ := state
  obtain ⟨times, two, noQueues, waits, runs, zero, counted⟩ := one
  dsimp only at two noQueues waits runs zero counted
  obtain ⟨k', returns, nTasks, sems, running, tasks⟩ :=
    @Kernel.taskTick_of_noQueue _ cfg (s.kernel.record .ticked) 0 1
      fun tid created => noQueues tid (two ▸ created)
  have steps : step cfg s (.call .osTick) = .ok { s with kernel := k' } :=
    map_eq_ok_iff.mpr ⟨k', returns, rfl⟩
  have counts : countedStep cfg (waited, s) (.call .osTick) =
      .ok (countTicks cfg waited s (.call .osTick), { s with kernel := k' }) :=
    countedStep_eq_ok_iff.mpr ⟨steps, rfl⟩
  have ticked : ∀ tid, tid < 2 → k'.tasks.taskList tid =
      (s.kernel.tasks.taskList tid).tick cfg 0 1 := by
    intro tid inside
    rw [tasks tid]
    exact if_pos (show tid < s.kernel.tasks.nTasks by rw [two]; exact inside)
  refine ⟨_, counts, times.of_step counts, nTasks.trans two, ?_, ?_,
    running.trans runs, ?_, ?_⟩
  · intro tid inside
    dsimp only
    rw [ticked tid inside, Kernel.msgQ_of_static (Tcb.static_tick cfg 0 1 _)]
    exact noQueues tid inside
  · dsimp only
    rw [ticked 0 (by decide)]
    refine ⟨?_, ?_⟩
    · simp [Tcb.tick, waits.1]
    · simpa [Tcb.tick, waits.1] using waits.2
  · dsimp only
    rw [sems]
    exact zero
  · simp [countTicks, Label.ticks, counted]

theorem OneWaits.osTicks
    {cfg : Config} {ticks : Nat} {state : (Nat → Nat) × Sys β}
    (one : OneWaits cfg ticks state) (more : Nat) :
    ∃ state', run (countedStep cfg) state
        (List.replicate more (.call .osTick)) = .ok state' ∧
      OneWaits cfg (ticks + more) state' := by
  induction more generalizing ticks state with
  | zero => exact ⟨state, rfl, one⟩
  | succ more inductionHypothesis =>
      obtain ⟨next, steps, oneNext⟩ := one.osTick
      obtain ⟨state', runs, later⟩ := inductionHypothesis oneNext
      refine ⟨state', ?_, ?_⟩
      · rw [List.replicate_succ]
        exact run_cons_eq_ok_iff.mpr ⟨next, steps, runs⟩
      · rwa [Nat.add_assoc, Nat.add_comm 1 more] at later

/-- A tie of two tasks that have waited for no time is decided for the last. -/
theorem findWaitingTask_of_zero
    {cfg : Config} {tasks : TaskTable} {sem : Int}
    (roundRobin : cfg.roundRobin = true)
    (two : tasks.nTasks = 2)
    (waits : ∀ tid, tid < 2 → (tasks.taskList tid).WaitsForSem sem ∧
      (tasks.taskList tid).time = 0) :
    tasks.findWaitingTask cfg sem = 1 := by
  obtain ⟨first, firstTime⟩ := waits 0 (by decide)
  obtain ⟨second, secondTime⟩ := waits 1 (by decide)
  unfold TaskTable.findWaitingTask
  rw [if_pos roundRobin, two]
  simp [forEach, TaskTable.releaseRoundRobinStep, first, second, firstTime,
    secondTime, noTid]

/-- The second task starts to wait, too: when the first has waited for a
multiple of 2^32 ticks, the second is released. -/
theorem OneWaits.releases_second
    {cfg : Config} {ticks : Nat} {state : (Nat → Nat) × Sys β}
    (one : OneWaits cfg ticks state)
    (roundRobin : cfg.roundRobin = true)
    (hasSem : cfg.HasSem 0)
    (wraps : ticks % 2 ^ 32 = 0)
    (positive : 0 < ticks) :
    ∃ waited s, countedStep cfg state (.task (.semWait 0) 6) = .ok (waited, s) ∧
      s.kernel.tasks.SomeWaiter 0 ∧
      ¬ ReleasesLongest cfg waited s.kernel.tasks 0 := by
  obtain ⟨waited, s⟩ := state
  obtain ⟨times, two, noQueues, waits, runs, zero, counted⟩ := one
  dsimp only at two noQueues waits runs zero counted
  have empty : s.kernel.sems.osSemLargerThanZero cfg 0 = false := by
    unfold SemTable.osSemLargerThanZero
    split_ifs <;> simp [zero]
  have steps : step cfg s (.task (.semWait 0) 6) =
      .ok { s with kernel := s.kernel.blocked cfg (.sem 0) 6 } := by
    have created : s.kernel.osGetRunningTid < s.kernel.tasks.nTasks := by
      rw [Kernel.osGetRunningTid, runs, two]
      decide
    have running : s.kernel.runningTid ≠ noTid := by
      rw [runs]
      decide
    simp only [step, if_pos running, taskStep, if_pos hasSem, Kernel.osWaitSem,
      empty, Bool.false_eq_true, if_false, Kernel.onTasks,
      TaskTable.taskWaitSemSet, if_pos created, ok_map, ok_bind]
    rfl
  have counts : countedStep cfg (waited, s) (.task (.semWait 0) 6) =
      .ok (countTicks cfg waited s (.task (.semWait 0) 6),
        { s with kernel := s.kernel.blocked cfg (.sem 0) 6 }) :=
    countedStep_eq_ok_iff.mpr ⟨steps, rfl⟩
  have first : (s.kernel.blocked cfg (.sem 0) 6).tasks.taskList 0 =
      s.kernel.tasks.taskList 0 := by
    rw [Kernel.blocked_taskList, if_neg (by rw [runs]; decide)]
  have second : ((s.kernel.blocked cfg (.sem 0) 6).tasks.taskList 1).WaitsForSem
      0 ∧ ((s.kernel.blocked cfg (.sem 0) 6).tasks.taskList 1).time = 0 := by
    rw [Kernel.blocked_taskList, if_pos runs.symm]
    exact ⟨⟨rfl, rfl⟩, rfl⟩
  have firstTime : (s.kernel.tasks.taskList 0).time = 0 := by
    have time := times.counts 0 (by dsimp only; rw [two]; decide) waits.1
    dsimp only at time
    rw [time, counted, wraps]
  have found : (s.kernel.blocked cfg (.sem 0) 6).tasks.findWaitingTask cfg 0 =
      1 := by
    refine findWaitingTask_of_zero roundRobin ?_ fun tid inside => ?_
    · exact two
    · have cases : tid = 0 ∨ tid = 1 := by omega
      rcases cases with rfl | rfl
      · rw [first]
        exact ⟨waits, firstTime⟩
      · exact second
  refine ⟨_, _, counts, ⟨1, by rw [show (s.kernel.blocked cfg (.sem 0)
    6).tasks.nTasks = 2 from two]; decide, second.1⟩, ?_⟩
  rintro ⟨tid, created, tidWaits, releases, longest⟩
  unfold TaskTable.osTaskReleaseWaitingTask at releases
  rw [found, if_pos (by decide)] at releases
  have isSecond : tid = 1 := by
    by_contra different
    have entry := congrArg (fun tasks => (tasks.taskList tid).state) releases
    simp only [TaskTable.modify_taskList, if_neg different, if_true] at entry
    rw [tidWaits.1] at entry
    cases entry
  have atMost := longest 0 (by
    rw [show (s.kernel.blocked cfg (.sem 0) 6).tasks.nTasks = 2 from two]
    decide) (by rw [first]; exact waits)
  rw [isSecond] at atMost
  have newly : countTicks cfg waited s (.task (.semWait 0) 6) 1 = 0 := by
    simp [countTicks, runs, empty]
  have still : countTicks cfg waited s (.task (.semWait 0) 6) 0 = ticks := by
    simp [countTicks, runs, counted]
  omega

/-- A task waits for a semaphore through 2^32 ticks, after which its time is
zero again; another starts to wait and is released first. -/
theorem longest_waiting_not_released :
    ∃ waited s, run (countedStep (Config.small true))
        (fun _ => 0, Sys.boot (Config.small true))
        (oneWaits ++ List.replicate (2 ^ 32) (.call .osTick) ++
          [.task (.semWait 0) 6]) = .ok (waited, s) ∧
      s.kernel.tasks.SomeWaiter 0 ∧
      ¬ ReleasesLongest (Config.small true) waited s.kernel.tasks 0 := by
  obtain ⟨⟨waited₁, s₁⟩, before, checked⟩ := exists_of_returnsWith
    (fun state : (Nat → Nat) × Sys Nat =>
      decide (state.2.kernel.tasks.nTasks = 2 ∧
        ((state.2.kernel.tasks.taskList 0).msgQ = noQueue ∧
          (state.2.kernel.tasks.taskList 1).msgQ = noQueue) ∧
        (state.2.kernel.tasks.taskList 0).WaitsForSem 0 ∧
        state.2.kernel.runningTid = 1 ∧
        (state.2.kernel.sems.semList 0).value = 0 ∧ state.1 0 = 0))
    (run (countedStep (Config.small true))
      (fun _ => 0, Sys.boot (Config.small true)) oneWaits)
    (by decide +kernel)
  obtain ⟨two, ⟨first, second⟩, waits, runs, zero, counted⟩ :=
    of_decide_eq_true checked
  have noQueues : ∀ tid, tid < 2 →
      (s₁.kernel.tasks.taskList tid).msgQ = noQueue := by
    intro tid inside
    have cases : tid = 0 ∨ tid = 1 := by omega
    rcases cases with rfl | rfl
    · exact first
    · exact second
  have times := (TimesCount.of_initial (s := Sys.boot (Config.small true))
    (fun _ => 0) ⟨⟨_, rfl⟩, rfl⟩).of_run before
  have one : OneWaits (Config.small true) 0 (waited₁, s₁) :=
    ⟨times, two, noQueues, waits, runs, zero, counted⟩
  obtain ⟨state₂, ticks, later⟩ := one.osTicks (2 ^ 32)
  rw [Nat.zero_add] at later
  obtain ⟨waited, s, last, someWaits, wrong⟩ := later.releases_second rfl
    (by decide) (Nat.mod_self _) (Nat.two_pow_pos 32)
  refine ⟨waited, s, ?_, someWaits, wrong⟩
  apply run_append_eq_ok_iff.mpr ⟨state₂, _, run_cons_eq_ok_iff.mpr ⟨_, last, rfl⟩⟩
  exact run_append_eq_ok_iff.mpr ⟨_, before, ticks⟩

end CocoOs
