import CocoOs.TaskCode
import CocoOs.ResumePoints
import CocoOs.Finality
import CocoOs.Foundation.TwoRuns

/-!
# The macros make threads of the tasks

A program whose procedures compile runs the same as coroutines and as threads:
the internal state of a task that does not run says what its thread has left to
do.  The tasks need no stacks of their own.
-/

namespace CocoOs

open Foundation

variable {μ β : Type}

namespace TaskCode

theorem osBegin_zero (code : TaskCode μ β) : code.osBegin 0 = some [code] :=
  if_pos rfl

/-- The procedure is entered again behind the macro it yielded in. -/
theorem osBegin_of_placed
    {root : TaskCode μ β} {line : UInt16} {rest : List (TaskCode μ β)}
    {op : Kernel β → μ → TaskOp β}
    (compiles : root.Compiles)
    (placed : Code.Placed root (.marked line op :: rest)) :
    root.osBegin line.toNat = some rest := by
  have enters := placed.enter_mark
  have isLine : line ≠ 0 := by
    rintro rfl
    by_cases present : (0 : UInt16) ∈ root.marks
    · exact compiles.2 present
    · rw [Code.enter_eq_none present] at enters
      cases enters
  have nonzero : line.toNat ≠ 0 := by
    intro zero
    exact isLine (UInt16.toNat_inj.mp zero)
  rw [osBegin, if_neg nonzero, UInt16.ofNat_toNat, enters]

end TaskCode

/-- The coroutines and the threads are at the same point: the internal state of
every task that does not run is where its thread goes on, and the activation of
the running task is what its thread has left to do. -/
structure Tracks (cfg : Config) (procs : Nat → TaskCode μ β)
    (c : Coroutines μ β) (t : Threads μ β) : Prop where
  sys : c.sys = t.sys
  memory : c.memory = t.memory
  reachable : ReachableSys cfg t.sys
  active : t.sys.kernel.runningTid ≠ noTid →
    c.active = t.left t.sys.kernel.runningTid
  placed : ∀ tid, tid < t.sys.kernel.tasks.nTasks →
    Code.Placed (procs (t.sys.kernel.tasks.taskList tid).taskproc) (t.left tid)
  point : ∀ tid, tid < t.sys.kernel.tasks.nTasks →
    t.sys.kernel.runningTid ≠ tid →
    (t.sys.kernel.tasks.taskList tid).state ≠ .killed →
    (procs (t.sys.kernel.tasks.taskList tid).taskproc).osBegin
        (t.sys.kernel.tasks.taskList tid).internalState =
      some (t.left tid)

section

variable {cfg : Config} {procs : Nat → TaskCode μ β}

/-! ## The kernel takes a step -/

section

variable {s s' : Sys β} {label : Label β} {tid : Nat}

theorem step_taskproc
    (sound : s.kernel.Sound cfg)
    (steps : step cfg s label = .ok s')
    (created : tid < s.kernel.tasks.nTasks) :
    (s'.kernel.tasks.taskList tid).taskproc =
      (s.kernel.tasks.taskList tid).taskproc :=
  congrArg Prod.fst (step_static sound steps created)

/-- A task starts over exactly when it is suspended after it waited for a
semaphore. -/
theorem startsOver_iff
    (reachable : ReachableSys cfg s)
    (steps : step cfg s label = .ok s')
    (created : tid < s.kernel.tasks.nTasks) :
    StartsOver tid s label ↔
      (s.kernel.tasks.taskList tid).state = .waitingSem ∧
        (s'.kernel.tasks.taskList tid).state = .suspended := by
  constructor
  · intro startsOver
    exact ⟨startsOver.2,
      (step_startsOver reachable steps created startsOver).2.1⟩
  · rintro ⟨waits, suspended⟩
    refine ⟨?_, waits⟩
    by_contra notSuspends
    exact step_not_suspended (reachable_sound reachable) steps created notSuspends
      (by rw [waits]; exact TaskState.noConfusion) suspended

/-- A killed task that does not run stays killed. -/
theorem step_alive
    (sound : s.kernel.Sound cfg)
    (steps : step cfg s label = .ok s')
    (created : tid < s.kernel.tasks.nTasks)
    (notRunning : s.kernel.runningTid ≠ tid)
    (alive : (s'.kernel.tasks.taskList tid).state ≠ .killed) :
    (s.kernel.tasks.taskList tid).state ≠ .killed := by
  intro killed
  apply alive
  apply step_keeps_killed sound steps created ?_ killed
  exact fun _ _ _ runs => absurd runs notRunning

/-- What the threads have left to do stays in its place when the tasks that
start over are restarted. -/
theorem restart_placed
    {left : Nat → List (TaskCode μ β)}
    (compiles : ∀ address, (procs address).Compiles)
    (sound : s.kernel.Sound cfg)
    (steps : step cfg s label = .ok s')
    (placed : ∀ tid, tid < s.kernel.tasks.nTasks →
      Code.Placed (procs (s.kernel.tasks.taskList tid).taskproc) (left tid)) :
    Code.Placed (procs (s'.kernel.tasks.taskList tid).taskproc)
      (Threads.restart procs s.kernel s'.kernel left tid) := by
  unfold Threads.restart
  split_ifs with starts
  · exact .start (compiles _).1
  · rw [not_or, Nat.not_le] at starts
    rw [step_taskproc sound steps starts.1]
    exact placed tid starts.1

/-- A step in which a task does not run keeps its internal state in step with
its thread. -/
theorem restart_point
    {left : Nat → List (TaskCode μ β)}
    (reachable : ReachableSys cfg s)
    (steps : step cfg s label = .ok s')
    (created : tid < s'.kernel.tasks.nTasks)
    (notRunning : s.kernel.runningTid ≠ tid)
    (alive : (s'.kernel.tasks.taskList tid).state ≠ .killed)
    (point : tid < s.kernel.tasks.nTasks →
      (s.kernel.tasks.taskList tid).state ≠ .killed →
      (procs (s.kernel.tasks.taskList tid).taskproc).osBegin
          (s.kernel.tasks.taskList tid).internalState = some (left tid)) :
    (procs (s'.kernel.tasks.taskList tid).taskproc).osBegin
        (s'.kernel.tasks.taskList tid).internalState =
      some (Threads.restart procs s.kernel s'.kernel left tid) := by
  have sound := reachable_sound reachable
  unfold Threads.restart
  by_cases before : tid < s.kernel.tasks.nTasks
  · have restarts := startsOver_iff reachable steps before
    by_cases startsOver : StartsOver tid s label
    · rw [if_pos (.inr (restarts.mp startsOver)),
        (step_startsOver reachable steps before startsOver).1]
      exact TaskCode.osBegin_zero _
    · rw [if_neg (not_or.mpr
          ⟨Nat.not_le.mpr before, fun both => startsOver (restarts.mpr both)⟩),
        step_keeps_internalState reachable steps before startsOver
          fun both => notRunning both.1,
        step_taskproc sound steps before]
      exact point before (step_alive sound steps before notRunning alive)
  · rw [if_pos (.inl (Nat.not_lt.mp before)),
      step_new_internalState sound steps (Nat.not_lt.mp before) created]
    exact TaskCode.osBegin_zero _

end

/-! ## The scheduler and the interrupts -/

variable {c : Coroutines μ β} {t : Threads μ β}

/-- A step that any code can make, of which the tasks take no notice. -/
theorem Tracks.outside
    {label : Label β} {s : Sys β}
    (compiles : ∀ address, (procs address).Compiles)
    (tracks : Tracks cfg procs c t)
    (steps : step cfg t.sys label = .ok s)
    (notPass : label ≠ .osSchedule)
    (notMacro : ∀ op line, label ≠ .task op line) :
    Tracks cfg procs { c with sys := s }
      { t with
        sys := s
        left := Threads.restart procs t.sys.kernel s.kernel t.left } := by
  have sound := reachable_sound tracks.reachable
  have tasks := reachable_tasksSound tracks.reachable
  have running : s.kernel.runningTid = t.sys.kernel.runningTid := by
    rcases step_runningTid sound steps notPass with same | ⟨_, op, line, isMacro⟩
    · exact same
    · exact absurd isMacro (notMacro op line)
  refine ⟨rfl, tracks.memory, tracks.reachable.step steps, fun runs => ?_,
    fun tid created => ?_, fun tid created notRunning alive => ?_⟩
  · -- the running task is created and does not wait
    dsimp only at runs ⊢
    rw [running] at runs ⊢
    rw [tracks.active runs, Threads.restart, if_neg]
    rintro (new | ⟨waits, _⟩)
    · exact absurd (tasks.runs runs).1 (Nat.not_lt.mpr new)
    · exact tasks.running_state runs waits
  · exact restart_placed compiles sound steps tracks.placed
  · apply restart_point tracks.reachable steps created ?_ alive
    · intro before
      exact tracks.point tid before (by rwa [← running])
    · rwa [← running]

/-- When the kernel starts, no task starts over. -/
theorem Tracks.osStart
    {s : Sys β}
    (compiles : ∀ address, (procs address).Compiles)
    (tracks : Tracks cfg procs c t)
    (steps : step cfg t.sys .osStart = .ok s) :
    Tracks cfg procs { c with sys := s } { t with sys := s } := by
  have after := tracks.outside compiles steps (by simp) (by simp)
  have same : s = { t.sys with kernel := t.sys.kernel.osStart } :=
    (Except.ok.inj steps).symm
  refine ⟨rfl, tracks.memory, after.reachable, fun runs => ?_,
    fun tid created => ?_, fun tid created notRunning alive => ?_⟩
  · subst same
    exact tracks.active runs
  · subst same
    exact tracks.placed tid created
  · subst same
    exact tracks.point tid created notRunning alive

/-- The scheduler calls the procedure of the task it chose, which goes on where
its thread stands. -/
theorem Tracks.osSchedule
    (tracks : Tracks cfg procs c t) :
    Related (Tracks cfg procs) (c.osSchedule cfg procs)
      ((step cfg t.sys .osSchedule).map fun s => { t with sys := s }) := by
  have sound := reachable_sound tracks.reachable
  unfold Coroutines.osSchedule
  rw [tracks.sys]
  cases steps : step cfg t.sys .osSchedule with
  | error stopped => exact .stop stopped
  | ok s =>
      have idle : t.sys.kernel.runningTid = noTid := by
        simp only [step, guard_eq_ok_iff] at steps
        exact steps.1
      have objects := step_sameObjects sound steps (by simp)
      have notRunning : ∀ tid, tid < t.sys.kernel.tasks.nTasks →
          t.sys.kernel.runningTid ≠ tid :=
        fun tid created => idle ▸ Ne.symm (isTask_of_created sound created)
      have same : ∀ tid, tid < t.sys.kernel.tasks.nTasks →
          (s.kernel.tasks.taskList tid).internalState =
            (t.sys.kernel.tasks.taskList tid).internalState :=
        fun tid created => step_keeps_internalState tracks.reachable steps created
          (fun startsOver => startsOver.1) fun both =>
            notRunning tid created both.1
      have placed : ∀ tid, tid < s.kernel.tasks.nTasks →
          Code.Placed (procs (s.kernel.tasks.taskList tid).taskproc)
            (t.left tid) := by
        intro tid created
        rw [objects.nTasks] at created
        rw [step_taskproc sound steps created]
        exact tracks.placed tid created
      have point : ∀ tid, tid < s.kernel.tasks.nTasks →
          (s.kernel.tasks.taskList tid).state ≠ .killed →
          (procs (s.kernel.tasks.taskList tid).taskproc).osBegin
            (s.kernel.tasks.taskList tid).internalState = some (t.left tid) := by
        intro tid created alive
        rw [objects.nTasks] at created
        rw [step_taskproc sound steps created, same tid created]
        exact tracks.point tid created (notRunning tid created)
          (step_alive sound steps created (notRunning tid created) alive)
      have reachable := tracks.reachable.step steps
      change Related _ (if s.kernel.runningTid = noTid then _ else _) (.ok _)
      by_cases sleeps : s.kernel.runningTid = noTid
      · rw [if_pos sleeps]
        exact .value ⟨rfl, tracks.memory, reachable,
          fun runs => absurd sleeps runs, placed,
          fun tid created _ alive => point tid created alive⟩
      · rw [if_neg sleeps]
        have created := ((reachable_tasksSound reachable).runs sleeps).1
        -- the chosen task was ready, so it was entered where its thread stands
        have enters : (procs (s.kernel.tasks.taskList
            s.kernel.runningTid).taskproc).osBegin
              (s.kernel.tasks.taskList s.kernel.runningTid).internalState =
            some (t.left s.kernel.runningTid) := by
          have createdBefore := objects.nTasks ▸ created
          rw [step_taskproc sound steps createdBefore, same _ createdBefore]
          apply tracks.point _ createdBefore (notRunning _ createdBefore)
          have chosen : scheduled cfg t.sys .osSchedule =
              some s.kernel.runningTid := by
            by_contra notChosen
            exact step_notRunning sound steps sleeps
              (notRunning _ createdBefore) notChosen rfl
          rw [scheduled_ready chosen sleeps]
          exact TaskState.noConfusion
        dsimp only
        rw [enters]
        exact .value ⟨rfl, tracks.memory, reachable, fun _ => rfl, placed,
          fun tid created _ alive => point tid created alive⟩

/-! ## The running task -/

/-- A step of a procedure is a step of control or of the application, a call,
the end of the procedure, or a macro that is then behind it. -/
theorem TaskCode.advance_cases
    {s s' : Sys β} {memory memory' : μ} {stack rest : List (TaskCode μ β)}
    (returns : advance cfg s memory stack = .ok (s', memory', rest)) :
    (∀ root, Code.Placed root stack → Code.Placed root rest) ∧
    (s' = s ∨ (∃ call, step cfg s (.call call) = .ok s') ∨
      ∃ line op, step cfg s (.task op line) = .ok s' ∧
        (op = .taskClose ∨ ∃ choose, stack = .marked line choose :: rest)) := by
  cases stack with
  | nil =>
      obtain ⟨next, steps, result⟩ := map_eq_ok_iff.mp returns
      simp only [Prod.mk.injEq] at result
      obtain ⟨rfl, rfl, rfl⟩ := result
      exact ⟨fun _ placed => placed, .inr (.inr ⟨0, _, steps, .inl rfl⟩)⟩
  | cons code left =>
      cases code with
      | plain statement =>
          cases statement with
          | assign change =>
              simp only [advance, Except.ok.injEq, Prod.mk.injEq] at returns
              obtain ⟨rfl, rfl, rfl⟩ := returns
              exact ⟨fun _ placed => placed.tail, .inl rfl⟩
          | call choose =>
              obtain ⟨next, steps, result⟩ := map_eq_ok_iff.mp returns
              simp only [Prod.mk.injEq] at result
              obtain ⟨rfl, rfl, rfl⟩ := result
              exact ⟨fun _ placed => placed.tail, .inr (.inl ⟨_, steps⟩)⟩
      | marked line choose =>
          obtain ⟨next, steps, result⟩ := map_eq_ok_iff.mp returns
          simp only [Prod.mk.injEq] at result
          obtain ⟨rfl, rfl, rfl⟩ := result
          exact ⟨fun _ placed => placed.tail,
            .inr (.inr ⟨line, _, steps, .inr ⟨choose, rfl⟩⟩)⟩
      | skip | seq | branch | loop =>
          simp only [advance, Except.ok.injEq, Prod.mk.injEq] at returns
          obtain ⟨rfl, rfl, rfl⟩ := returns
          exact ⟨fun _ placed => placed.control _, .inl rfl⟩

/-- A silent step of the running task. -/
theorem Tracks.silent
    {memory : μ} {rest : List (TaskCode μ β)}
    (tracks : Tracks cfg procs c t)
    (runs : t.sys.kernel.runningTid ≠ noTid)
    (keeps : ∀ root, Code.Placed root (t.left t.sys.kernel.runningTid) →
      Code.Placed root rest) :
    Tracks cfg procs ⟨t.sys, memory, rest⟩
      ⟨t.sys, memory, Threads.restart procs t.sys.kernel t.sys.kernel
        (Function.update t.left t.sys.kernel.runningTid rest)⟩ := by
  have created := ((reachable_tasksSound tracks.reachable).runs runs).1
  have unchanged : ∀ tid, tid < t.sys.kernel.tasks.nTasks →
      Threads.restart procs t.sys.kernel t.sys.kernel
        (Function.update t.left t.sys.kernel.runningTid rest) tid =
      Function.update t.left t.sys.kernel.runningTid rest tid := by
    intro tid inside
    rw [Threads.restart, if_neg]
    rintro (new | ⟨waits, suspended⟩)
    · exact absurd inside (Nat.not_lt.mpr new)
    · rw [waits] at suspended
      cases suspended
  refine ⟨rfl, rfl, tracks.reachable, fun _ => ?_, fun tid inside => ?_,
    fun tid inside notRunning alive => ?_⟩
  · dsimp only
    rw [unchanged _ created, Function.update_self]
  · dsimp only
    rw [unchanged tid inside]
    by_cases here : tid = t.sys.kernel.runningTid
    · subst here
      rw [Function.update_self]
      exact keeps _ (tracks.placed _ inside)
    · rw [Function.update_of_ne here]
      exact tracks.placed tid inside
  · dsimp only
    rw [unchanged tid inside, Function.update_of_ne (Ne.symm notRunning)]
    exact tracks.point tid inside notRunning alive

/-- A step of the kernel by the running task. -/
theorem Tracks.own
    {s : Sys β} {memory : μ} {label : Label β} {rest : List (TaskCode μ β)}
    (compiles : ∀ address, (procs address).Compiles)
    (tracks : Tracks cfg procs c t)
    (runs : t.sys.kernel.runningTid ≠ noTid)
    (steps : step cfg t.sys label = .ok s)
    (notPass : label ≠ .osSchedule)
    (keeps : ∀ root, Code.Placed root (t.left t.sys.kernel.runningTid) →
      Code.Placed root rest)
    (stops : s.kernel.runningTid = noTid →
      (s.kernel.tasks.taskList t.sys.kernel.runningTid).state ≠ .killed →
      (procs (t.sys.kernel.tasks.taskList
          t.sys.kernel.runningTid).taskproc).osBegin
        (s.kernel.tasks.taskList t.sys.kernel.runningTid).internalState =
      some rest) :
    Tracks cfg procs
      ⟨s, memory, if s.kernel.runningTid = noTid then [] else rest⟩
      ⟨s, memory, Threads.restart procs t.sys.kernel s.kernel
        (Function.update t.left t.sys.kernel.runningTid rest)⟩ := by
  have sound := reachable_sound tracks.reachable
  have tasks := reachable_tasksSound tracks.reachable
  have created := (tasks.runs runs).1
  have own : Threads.restart procs t.sys.kernel s.kernel
      (Function.update t.left t.sys.kernel.runningTid rest)
        t.sys.kernel.runningTid = rest := by
    rw [Threads.restart, if_neg, Function.update_self]
    rintro (new | ⟨waits, _⟩)
    · exact absurd created (Nat.not_lt.mpr new)
    · exact tasks.running_state runs waits
  have running : s.kernel.runningTid = t.sys.kernel.runningTid ∨
      s.kernel.runningTid = noTid :=
    (step_runningTid sound steps notPass).imp id And.left
  refine ⟨rfl, rfl, tracks.reachable.step steps, fun still => ?_,
    fun tid inside => ?_, fun tid inside notRunning alive => ?_⟩
  · dsimp only at still ⊢
    rw [if_neg still, running.resolve_right still, own]
  · apply restart_placed compiles sound steps
    intro tid before
    by_cases here : tid = t.sys.kernel.runningTid
    · subst here
      rw [Function.update_self]
      exact keeps _ (tracks.placed _ before)
    · rw [Function.update_of_ne here]
      exact tracks.placed tid before
  · dsimp only at inside notRunning alive ⊢
    by_cases here : tid = t.sys.kernel.runningTid
    · subst here
      rw [own, step_taskproc sound steps created]
      exact stops (running.resolve_left notRunning) alive
    · apply restart_point tracks.reachable steps inside (Ne.symm here) alive
      intro before aliveBefore
      rw [Function.update_of_ne here]
      exact tracks.point tid before (Ne.symm here) aliveBefore

/-- A step of the procedure of the running task is a step of its thread. -/
theorem Tracks.advance
    (compiles : ∀ address, (procs address).Compiles)
    (tracks : Tracks cfg procs c t) :
    Related (Tracks cfg procs) (c.advance cfg) (t.advance cfg procs) := by
  unfold Coroutines.advance Threads.advance
  rw [tracks.sys, tracks.memory]
  apply Related.guard Iff.rfl
  intro runs
  rw [tracks.active runs]
  cases returns : TaskCode.advance cfg t.sys t.memory
      (t.left t.sys.kernel.runningTid) with
  | error stopped => exact .stop stopped
  | ok result =>
      obtain ⟨s, memory, rest⟩ := result
      obtain ⟨keeps, moved⟩ := TaskCode.advance_cases returns
      have settled : Tracks cfg procs
          ⟨s, memory, if s.kernel.runningTid = noTid then [] else rest⟩
          ⟨s, memory, Threads.restart procs t.sys.kernel s.kernel
            (Function.update t.left t.sys.kernel.runningTid rest)⟩ := by
        have sound := reachable_sound tracks.reachable
        have created := ((reachable_tasksSound tracks.reachable).runs runs).1
        rcases moved with rfl | ⟨call, steps⟩ | ⟨line, op, steps, done⟩
        · rw [if_neg runs]
          exact tracks.silent runs keeps
        · apply tracks.own compiles runs steps (by simp) keeps
          intro idle _
          rcases step_runningTid sound steps (by simp) with
            same | ⟨_, op, line, wrong⟩
          · exact absurd (same.symm.trans idle) runs
          · cases wrong
        · apply tracks.own compiles runs steps (by simp) keeps
          intro idle alive
          by_cases ends : op = .taskClose
          · subst ends
            exact absurd (step_kills sound steps created rfl) alive
          · obtain ⟨choose, top⟩ := done.resolve_left ends
            rw [step_yields tracks.reachable steps rfl runs ends idle]
            apply TaskCode.osBegin_of_placed (compiles _)
            rw [← top]
            exact tracks.placed _ created
      change Related _ (if s.kernel.runningTid = noTid then _ else _) (.ok _)
      by_cases idle : s.kernel.runningTid = noTid
      · rw [if_pos idle] at settled ⊢
        exact .value settled
      · rw [if_neg idle] at settled ⊢
        exact .value settled

/-! ## Runs -/

/-- Every move keeps coroutines and threads at the same point. -/
theorem Tracks.step
    (compiles : ∀ address, (procs address).Compiles)
    (tracks : Tracks cfg procs c t)
    (move : Move β) :
    Related (Tracks cfg procs) (c.step cfg procs move)
      (t.step cfg procs move) := by
  cases move with
  | create creation =>
      unfold Coroutines.step Threads.step
      dsimp only
      rw [tracks.sys]
      cases steps : CocoOs.step cfg t.sys (.create creation) with
      | error stopped => exact .stop stopped
      | ok s => exact .value (tracks.outside compiles steps (by simp) (by simp))
  | osStart =>
      unfold Coroutines.step Threads.step
      dsimp only
      rw [tracks.sys]
      cases steps : CocoOs.step cfg t.sys .osStart with
      | error stopped => exact .stop stopped
      | ok s => exact .value (tracks.osStart compiles steps)
  | osSchedule => exact tracks.osSchedule
  | interrupt call =>
      unfold Coroutines.step Threads.step
      dsimp only
      rw [tracks.sys]
      cases steps : CocoOs.step cfg t.sys (.call call) with
      | error stopped => exact .stop stopped
      | ok s => exact .value (tracks.outside compiles steps (by simp) (by simp))
  | advance => exact tracks.advance compiles

end

/-- For every program whose procedures compile and every order in which its
tasks, the scheduler and the interrupts move, the macros take the kernel and
the static variables through the same states as a thread for each task
would. -/
theorem coroutines_refine_threads
    {cfg : Config} {procs : Nat → TaskCode μ β} {s : Sys β}
    (compiles : ∀ address, (procs address).Compiles)
    (initial : Initial cfg s)
    (memory : μ) (left : Nat → List (TaskCode μ β))
    (moves : List (Move β)) :
    Related (fun (c : Coroutines μ β) (t : Threads μ β) =>
        c.sys = t.sys ∧ c.memory = t.memory)
      (run (Coroutines.step cfg procs) ⟨s, memory, []⟩ moves)
      (run (Threads.step cfg procs) ⟨s, memory, left⟩ moves) := by
  obtain ⟨⟨k, fresh⟩, _⟩ := id initial
  have none : s.kernel.tasks.nTasks = 0 := by rw [fresh]; rfl
  have idle : s.kernel.runningTid = noTid := by rw [fresh]; rfl
  have tracks : Tracks cfg procs ⟨s, memory, []⟩ ⟨s, memory, left⟩ :=
    ⟨rfl, rfl, .of_initial initial, fun runs => absurd idle runs,
      fun tid created => absurd created (by simp [none]),
      fun tid created => absurd created (by simp [none])⟩
  have both := Related.run (fun _ _ move tracks => tracks.step compiles move)
    tracks moves
  exact both.mono fun c t tracks => ⟨tracks.sys, tracks.memory⟩

/-- A task that counts up each time its sleep of one tick ends. -/
def countSleeps : TaskCode Nat Nat :=
  .loop (fun _ _ => true)
    (.seq (.marked 3 fun _ _ => .taskWaitId 0 1)
      (.plain (.assign fun _ count => count + 1)))

/-- The task sleeps twice and counts twice, and its thread has counted as
much. -/
theorem coroutines_refine_threads_setUp :
    ∃ (c : Coroutines Nat Nat) (t : Threads Nat Nat) (moves : List (Move Nat)),
      run (Coroutines.step (Config.small false) fun _ => countSleeps)
        ⟨Sys.boot (Config.small false), 0, []⟩ moves = .ok c ∧
      run (Threads.step (Config.small false) fun _ => countSleeps)
        ⟨Sys.boot (Config.small false), 0, fun _ => []⟩ moves = .ok t ∧
      c.memory = 2 ∧ t.memory = 2 := by
  have compiles : ∀ address : Nat,
      ((fun _ => countSleeps) address : TaskCode Nat Nat).Compiles := by
    intro _
    refine ⟨?_, ?_⟩ <;> simp [countSleeps, Code.marks]
  obtain ⟨c, runs, checked⟩ := exists_of_returnsWith
    (fun c : Coroutines Nat Nat => decide (c.memory = 2))
    (run (Coroutines.step (Config.small false) fun _ => countSleeps)
      ⟨Sys.boot (Config.small false), 0, []⟩
      [.create (.osTaskCreate 1 0 1 (fun _ => ⟨0, 0, 0, 0⟩) 0 0), .osStart,
        .osSchedule, .advance, .advance, .advance, .interrupt .osTick,
        .osSchedule, .advance, .advance, .advance, .advance, .interrupt .osTick,
        .osSchedule, .advance])
    (by decide +kernel)
  have related := coroutines_refine_threads compiles
    (⟨⟨Kernel.zeroed, rfl⟩, rfl⟩ : Initial (Config.small false) (Sys.boot _))
    0 (fun _ => [])
    [.create (.osTaskCreate 1 0 1 (fun _ => ⟨0, 0, 0, 0⟩) 0 0), .osStart,
      .osSchedule, .advance, .advance, .advance, .interrupt .osTick,
      .osSchedule, .advance, .advance, .advance, .advance, .interrupt .osTick,
      .osSchedule, .advance]
  rw [runs] at related
  generalize threads : run (Threads.step _ _) _ _ = outcome at related
  cases related with
  | @value _ t same =>
      have counted : c.memory = 2 := of_decide_eq_true checked
      exact ⟨c, t, _, runs, threads, counted, same.2.symm.trans counted⟩

end CocoOs
