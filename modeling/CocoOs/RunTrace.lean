import CocoOs.EventWaits

/-!
# Runs as lists of actions

The actions of a run in the order in which they happen, across its steps.  A
tick of a clock ticks every created task once, and between the actions that
move a task on its own account the task waits for what it waited for.
-/

namespace CocoOs

open Foundation

variable {β : Type}

/-! ## The actions of a run -/

/-- The run from the first state to the last takes these actions. -/
inductive RunActs (cfg : Config) :
    Sys β → List (Label β) → List (Act β) → Sys β → Prop
  | nil (s : Sys β) : RunActs cfg s [] [] s
  | cons {s next s' : Sys β} {label : Label β} {labels : List (Label β)}
      {acts later : List (Act β)}
      (steps : step cfg s label = .ok next)
      (shape : StepActs cfg s label acts next.frame)
      (trace : Trace (Micro cfg) s.kernel acts next.kernel)
      (rest : RunActs cfg next labels later s') :
      RunActs cfg s (label :: labels) (acts ++ later) s'

namespace RunActs

variable {cfg : Config} {s s' : Sys β} {labels : List (Label β)}
variable {acts : List (Act β)}

theorem trace (runActs : RunActs cfg s labels acts s') :
    Trace (Micro cfg) s.kernel acts s'.kernel := by
  induction runActs with
  | nil s => exact .nil s.kernel
  | cons _ _ first _ inductionHypothesis =>
      exact first.append inductionHypothesis

end RunActs

/-- Every run from a consistent kernel is a list of actions. -/
theorem exists_runActs
    {cfg : Config} {s s' : Sys β} {labels : List (Label β)}
    (sound : s.kernel.Sound cfg)
    (runs : run (step cfg) s labels = .ok s') :
    ∃ acts, RunActs cfg s labels acts s' := by
  induction labels generalizing s with
  | nil =>
      simp only [run_nil, Except.ok.injEq] at runs
      exact ⟨[], runs ▸ .nil s⟩
  | cons label labels inductionHypothesis =>
      obtain ⟨next, steps, rest⟩ := run_cons_eq_ok_iff.mp runs
      obtain ⟨acts, shape, trace⟩ := step_trace sound steps
      obtain ⟨later, runActs⟩ :=
        inductionHypothesis (step_sound sound steps) rest
      exact ⟨acts ++ later, .cons steps shape trace runActs⟩

/-! ## The ticks of one task -/

/-- The action is a tick of the task. -/
def Act.Ticks (tid : Nat) : Act β → Prop
  | .tick other _ _ => other = tid
  | _ => False

namespace Kernel

theorem not_ticks_isrSignalActs (cfg : Config) (event times tid : Nat) :
    ∀ act ∈ isrSignalActs (β := β) cfg event times, ¬ act.Ticks tid := by
  induction times with
  | zero => simp [isrSignalActs]
  | succ times inductionHypothesis =>
      intro act inside
      rcases List.mem_append.mp inside with here | later
      · unfold signalActs at here
        split_ifs at here
        · simp only [List.mem_cons, List.not_mem_nil, or_false] at here
          rcases here with rfl | rfl <;> exact id
        · simp at here
      · exact inductionHypothesis act later

/-- After its first action an iteration of `task_tick` ticks no task. -/
theorem not_ticks_queue
    (cfg : Config) (k : Kernel β) (clockId tickSize other expired tid : Nat) :
    ∀ act ∈ (k.taskTickActs cfg clockId tickSize other expired).tail,
      ¬ act.Ticks tid := by
  unfold taskTickActs queueTickActs
  rw [List.tail_cons]
  intro act inside
  split_ifs at inside
  · rcases List.mem_cons.mp inside with rfl | signals
    · exact id
    · exact not_ticks_isrSignalActs cfg _ _ tid act signals
  · simp at inside
  · simp at inside

/-- `task_tick` ticks a created task once. -/
theorem tickActs_split
    (cfg : Config) (k : Kernel β) (clockId tickSize : Nat)
    (expired : Nat → Nat) {count tid : Nat} (inside : tid < count) :
    ∃ before after,
      k.tickActs cfg clockId tickSize expired count =
        before ++ .tick tid clockId tickSize :: after ∧
      (∀ act ∈ before, ¬ act.Ticks tid) ∧ ∀ act ∈ after, ¬ act.Ticks tid := by
  obtain ⟨lower, upper, split, notLower, notUpper⟩ := exists_range_split inside
  have elsewhere : ∀ others : List Nat, tid ∉ others →
      ∀ act ∈ others.flatMap fun other =>
        k.taskTickActs cfg clockId tickSize other (expired other),
      ¬ act.Ticks tid := by
    intro others absent act member ticks
    obtain ⟨other, otherInside, member⟩ := List.mem_flatMap.mp member
    rcases List.mem_cons.mp member with rfl | later
    · exact absent (ticks ▸ otherInside)
    · exact k.not_ticks_queue cfg clockId tickSize other _ tid act later ticks
  refine ⟨lower.flatMap fun other =>
      k.taskTickActs cfg clockId tickSize other (expired other),
    (k.taskTickActs cfg clockId tickSize tid (expired tid)).tail ++
      upper.flatMap fun other =>
        k.taskTickActs cfg clockId tickSize other (expired other),
    ?_, elsewhere lower notLower, ?_⟩
  · unfold tickActs
    rw [split, List.flatMap_append, List.flatMap_cons]
    rfl
  · intro act member
    rcases List.mem_append.mp member with own | others
    · exact k.not_ticks_queue cfg clockId tickSize tid _ tid act own
    · exact elsewhere upper notUpper act others

end Kernel

section

variable {cfg : Config} {s : Sys β} {label : Label β}
variable {acts : List (Act β)} {frame : Nat → Frame β} {tid : Nat}

/-- A step that delivers ticks ticks a created task once. -/
theorem StepActs.exists_tick
    {clockId tickSize : Nat}
    (shape : StepActs cfg s label acts frame)
    (ticks : label.ticks = some (clockId, tickSize))
    (created : tid < s.kernel.tasks.nTasks) :
    ∃ before after, acts = before ++ .tick tid clockId tickSize :: after ∧
      (∀ act ∈ before, ¬ act.Ticks tid) ∧ ∀ act ∈ after, ¬ act.Ticks tid := by
  cases shape with
  | call calls =>
      cases calls with
      | osTick expired =>
          cases ticks
          obtain ⟨before, after, split, earlier, later⟩ :=
            s.kernel.tickActs_split cfg 0 1 expired created
          refine ⟨.clock :: before, after, by rw [split]; rfl, ?_, later⟩
          intro act inside
          rcases List.mem_cons.mp inside with rfl | member
          · exact id
          · exact earlier act member
      | @osSubTick id sub expired =>
          have different : id ≠ 0 := by
            rintro rfl
            exact sub rfl
          simp only [Label.ticks, if_neg different, Option.some.injEq,
            Prod.mk.injEq] at ticks
          obtain ⟨rfl, rfl⟩ := ticks
          exact s.kernel.tickActs_split cfg _ _ expired created
      | @osSubNTick id nTicks sub expired =>
          have different : id ≠ 0 := by
            rintro rfl
            exact sub rfl
          simp only [Label.ticks, if_neg different, Option.some.injEq,
            Prod.mk.injEq] at ticks
          obtain ⟨rfl, rfl⟩ := ticks
          exact s.kernel.tickActs_split cfg _ _ expired created
      | osSubTickMaster | osSubNTickMaster => simp [Label.ticks] at ticks
      | _ => cases ticks
  | _ => cases ticks

/-- Every other step ticks no task. -/
theorem StepActs.not_ticks
    (shape : StepActs cfg s label acts frame)
    (noTicks : label.ticks = none) :
    ∀ act ∈ acts, ¬ act.Ticks tid := by
  intro act inside ticks
  have allowed := shape.allowed act inside
  cases act with
  | tick other clockId tickSize =>
      have labelled : label.ticks = some (clockId, tickSize) := allowed
      rw [noTicks] at labelled
      cases labelled
  | _ => exact ticks

end

/-! ## A task that does not run -/

/-- The scheduler chooses ready tasks only. -/
theorem scheduled_ready
    {cfg : Config} {s : Sys β} {label : Label β} {tid : Nat}
    (chosen : scheduled cfg s label = some tid)
    (isTask : tid ≠ noTid) :
    (s.kernel.tasks.taskList tid).state = .ready := by
  cases label with
  | osSchedule =>
      simp only [scheduled] at chosen
      split at chosen
      · rename_i k selects
        have same : k.runningTid = tid := Option.some.inj chosen
        rw [← same] at isTask ⊢
        exact Kernel.selectTask_ready selects isTask
      · cases chosen
  | _ => cases chosen

section

variable {cfg : Config} {s s' : Sys β} {label : Label β}
variable {acts : List (Act β)} {frame : Nat → Frame β} {tid : Nat}

/-- Only the task that runs a step starts to wait in it. -/
theorem StepActs.not_blocks
    (shape : StepActs cfg s label acts frame)
    (notRunning : s.kernel.runningTid ≠ tid)
    (notChosen : scheduled cfg s label ≠ some tid) :
    ∀ act ∈ acts, ¬ act.Blocks tid := by
  intro act inside blocks
  have allowed := shape.allowed act inside
  cases act with
  | block actor wait line =>
      have same : actor = tid := blocks
      subst same
      rcases allowed with ⟨op, at_, _, runs, _⟩ | ⟨labelled, _, _⟩
      · exact notRunning runs
      · cases shape with
        | sleep => simp at inside
        | @osSchedule k acts frame idle selects chosen created resumes =>
            have apart : k.runningTid ≠ actor := by
              simpa [scheduled, selects] using notChosen
            rcases List.mem_cons.mp inside with wrong | later
            · cases wrong
            · cases resumes with
              | post _ _ _ turn =>
                  exact turn.not_blocks apart _ later rfl
              | receive _ _ _ turn =>
                  exact turn.not_blocks apart _ later rfl
              | done =>
                  unfold Kernel.signalActs at later
                  split_ifs at later <;> simp at later
              | _ => simp at later
        | _ => cases labelled
  | _ => exact blocks

/-- The frame of a task changes only when the task runs. -/
theorem StepActs.keeps_frame
    (shape : StepActs cfg s label acts frame)
    (notRunning : s.kernel.runningTid ≠ tid)
    (notChosen : scheduled cfg s label ≠ some tid) :
    frame tid = s.frame tid := by
  cases shape with
  | create | osStart | sleep | call => rfl
  | @osSchedule k acts frame idle selects chosen created resumes =>
      have apart : tid ≠ k.runningTid := by
        rintro rfl
        exact notChosen (by simp [scheduled, selects])
      cases resumes with
      | between => rfl
      | _ => exact Function.update_of_ne apart _ _
  | @task op line acts left runs takes =>
      cases left with
      | none => rfl
      | some left => exact Function.update_of_ne (Ne.symm notRunning) _ _

/-- A task that the scheduler chooses between macros goes on with its code. -/
theorem step_resumes
    (steps : step cfg s .osSchedule = .ok s')
    (chosen : scheduled cfg s .osSchedule = some tid)
    (isTask : tid ≠ noTid)
    (between : s.frame tid = .between) :
    ∃ k, s.kernel.selectTask cfg = .ok k ∧ s'.kernel = k ∧
      k.runningTid = tid := by
  simp only [step, guard_eq_ok_iff] at steps
  obtain ⟨_, steps⟩ := steps
  unfold scheduleStep at steps
  obtain ⟨k, selects, steps⟩ := bind_eq_ok_iff.mp steps
  have running : k.runningTid = tid := by
    simpa [scheduled, selects] using chosen
  refine ⟨k, selects, ?_, running⟩
  dsimp only at steps
  rw [if_pos (by rwa [running]), guard_eq_ok_iff] at steps
  have resumes := steps.2
  unfold resumeStep Kernel.osGetRunningTid at resumes
  dsimp only at resumes
  rw [running, between] at resumes
  split_ifs at resumes
  · rw [← Except.ok.inj resumes]
    rfl
  · rw [← Except.ok.inj resumes]

/-- A task that neither runs nor is chosen does not run after the step. -/
theorem step_notRunning
    (sound : s.kernel.Sound cfg)
    (steps : step cfg s label = .ok s')
    (isTask : tid ≠ noTid)
    (notRunning : s.kernel.runningTid ≠ tid)
    (notChosen : scheduled cfg s label ≠ some tid) :
    s'.kernel.runningTid ≠ tid := by
  obtain ⟨acts, shape, trace⟩ := step_trace sound steps
  have allowed := shape.allowed
  have running := Micro.runningTid_of_trace trace
  have settle : ∀ start, start ≠ tid → ∀ acts : List (Act β),
      (∀ act ∈ acts, ∀ tid, act ≠ .select tid) →
      acts.foldl Act.onRunning start ≠ tid := by
    intro start apart acts unscheduled
    rcases foldl_onRunning_cases start unscheduled with same | none
    · rwa [same]
    · rw [none]
      exact Ne.symm isTask
  rw [running]
  generalize s'.frame = frame at shape
  by_cases isPass : label = .osSchedule
  · subst isPass
    cases shape with
    | @sleep k idle selects sleeps =>
        rw [List.foldl_cons, List.foldl_nil]
        change k.runningTid ≠ tid
        rw [sleeps]
        exact Ne.symm isTask
    | @osSchedule k acts frame idle selects chosen created resumes =>
        rw [List.foldl_cons]
        apply settle _ _ acts resumes.unscheduled
        change k.runningTid ≠ tid
        simpa [scheduled, selects] using notChosen
  · apply settle _ notRunning
    rintro act inside other rfl
    exact isPass (allowed _ inside)

end

theorem RunActs.keeps_frame
    {cfg : Config} {s s' : Sys β} {labels : List (Label β)}
    {acts : List (Act β)} {tid : Nat}
    (runActs : RunActs cfg s labels acts s')
    (sound : s.kernel.Sound cfg)
    (isTask : tid ≠ noTid)
    (notRunning : s.kernel.runningTid ≠ tid)
    (notChosen : Meets (step cfg)
      (fun s label => scheduled cfg s label ≠ some tid) s labels) :
    s'.frame tid = s.frame tid := by
  induction runActs with
  | nil s => rfl
  | cons steps shape trace rest inductionHypothesis =>
      rw [inductionHypothesis (step_sound sound steps)
        (step_notRunning sound steps isTask notRunning notChosen.1)
        (notChosen.2 _ steps)]
      exact shape.keeps_frame notRunning notChosen.1

/-! ## What a tick does -/

namespace Tcb

theorem tick_waitingTime
    (cfg : Config) (task : Tcb) (tickSize : Nat)
    (state : task.state = .waitingTime) :
    task.tick cfg task.clockId tickSize =
      if task.time ≤ tickSize then { task with time := 0, state := .ready }
      else { task with time := task.time - tickSize } := by
  simp [tick, state, readySet]

theorem tick_waitingEventTimeout
    (cfg : Config) (task : Tcb) (tickSize : Nat)
    (state : task.state = .waitingEventTimeout) :
    task.tick cfg task.clockId tickSize =
      if task.time ≤ tickSize then
        { task.clearWaitQueue cfg with time := 0, state := .ready }
      else { task with time := task.time - tickSize } := by
  simp [tick, state, readySet, clearWaitQueue]

/-- Ticks of another clock pass by. -/
theorem tick_of_ne
    (cfg : Config) {task : Tcb} {clockId : Nat} (tickSize : Nat)
    (notSem : task.state ≠ .waitingSem)
    (other : task.clockId ≠ clockId) :
    task.tick cfg clockId tickSize = task := by
  simp [tick, other, notSem]

end Tcb

/-! ## What a task waits for -/

/-- The fields of a task control block that say what the task waits for. -/
def Tcb.waitPart (task : Tcb) :
    TaskState × TaskState × Nat × Nat × Int × Bool × (Nat → BitVec 8) :=
  (task.state, task.savedState, task.time, task.clockId, task.semaphore,
    task.waitSingleEvent, task.eventQueue)

/-- The action moves the task on its own account. -/
def Act.Moves (tid : Nat) : Act β → Prop
  | .block actor _ _ => actor = tid
  | .suspend other => other = tid
  | .resume other => other = tid
  | .kill other => other = tid
  | .tick other _ _ => other = tid
  | .release other _ => other = tid
  | _ => False

/-- The action is a signal that the task listens to. -/
def Act.Calls (task : Tcb) : Act β → Prop
  | .signal eventId => task.Pending eventId ∧ task.WaitsForEvents
  | _ => False

/-- Every other action leaves what the task waits for. -/
theorem Act.waitPart_onTask
    {cfg : Config} {tid : Nat} {act : Act β} {task : Tcb}
    (unmoved : ¬ act.Moves tid)
    (uncalled : ¬ act.Calls task) :
    (act.onTask cfg tid task).waitPart = task.waitPart := by
  cases act with
  | yield actor line =>
      simp only [onTask]
      split_ifs <;> rfl
  | note actor noted =>
      simp only [onTask]
      split_ifs
      · cases noted <;> rfl
      · rfl
  | signal eventId =>
      simp only [onTask]
      rw [Tcb.signalEvent_of_not cfg uncalled]
  | block | suspend | resume | kill | tick | release =>
      simp only [onTask]
      rw [if_neg fun same => unmoved same.symm]
  | _ => rfl

theorem Micro.nTasks_le_of_trace
    {cfg : Config} {k k' : Kernel β} {acts : List (Act β)}
    (trace : Trace (Micro cfg) k acts k') :
    k.tasks.nTasks ≤ k'.tasks.nTasks := by
  apply trace.invariant (fun _ => True)
    (fun later => k.tasks.nTasks ≤ later.tasks.nTasks)
  · exact fun _ _ _ _ grows acts => grows.trans acts.nTasks_le
  · exact fun _ _ => trivial
  · exact le_rfl

/-- A task that listens to no signal waits for the same along a trace that does
not move it. -/
theorem Micro.waitPart_of_trace
    {cfg : Config} {k k' : Kernel β} {acts : List (Act β)} {tid : Nat}
    (trace : Trace (Micro cfg) k acts k')
    (created : tid < k.tasks.nTasks)
    (deaf : ¬ (k.tasks.taskList tid).WaitsForEvents)
    (unmoved : ∀ act ∈ acts, ¬ act.Moves tid) :
    (k'.tasks.taskList tid).waitPart = (k.tasks.taskList tid).waitPart := by
  have both := trace.invariant (fun act => ¬ act.Moves tid)
    (fun later => tid < later.tasks.nTasks ∧
      (later.tasks.taskList tid).waitPart = (k.tasks.taskList tid).waitPart)
    ?_ unmoved ⟨created, rfl⟩
  · exact both.2
  · rintro later act next still ⟨createdLater, same⟩ acts
    refine ⟨createdLater.trans_le acts.nTasks_le, ?_⟩
    rw [acts.taskList createdLater, Act.waitPart_onTask still, same]
    have state := congrArg Prod.fst same
    cases act with
    | signal eventId =>
        rintro ⟨_, waits⟩
        apply deaf
        unfold Tcb.WaitsForEvents at waits ⊢
        unfold Tcb.waitPart at state
        dsimp only at state
        rwa [← state]
    | _ => exact id

/-- In a step that delivers ticks only ticks move tasks. -/
theorem StepActs.not_moves_of_ticks
    {cfg : Config} {s : Sys β} {label : Label β} {acts : List (Act β)}
    {frame : Nat → Frame β} {tid : Nat} {tick : Nat × Nat}
    (shape : StepActs cfg s label acts frame)
    (ticks : label.ticks = some tick) :
    ∀ act ∈ acts, ¬ act.Ticks tid → ¬ act.Moves tid := by
  intro act inside notTicked moves
  have allowed := shape.allowed act inside
  cases label with
  | call call =>
      cases call with
      | osTick | osSubTick | osSubNTick =>
          cases act with
          | tick => exact notTicked moves
          | block =>
              rcases allowed with ⟨_, _, wrong, _⟩ | ⟨wrong, _⟩ <;> cases wrong
          | suspend | resume | kill | release => exact allowed
          | _ => exact moves
      | _ => cases ticks
  | _ => cases ticks

theorem Wait.state_ne_suspended (wait : Wait) : wait.state ≠ .suspended := by
  cases wait with
  | event eventId timeout =>
      simp only [state]
      split_ifs <;> exact TaskState.noConfusion
  | _ => exact TaskState.noConfusion

/-- A task is suspended by `os_task_suspend` only. -/
theorem Micro.not_suspended
    {cfg : Config} {k k' : Kernel β} {act : Act β} {tid : Nat}
    (acts : Micro cfg k act k')
    (created : tid < k.tasks.nTasks)
    (notSuspends : act ≠ .suspend tid)
    (active : (k.tasks.taskList tid).state ≠ .suspended) :
    (k'.tasks.taskList tid).state ≠ .suspended := by
  rw [acts.taskList created]
  cases acts with
  | yield line =>
      simp only [Act.onTask]
      split_ifs <;> exact active
  | block wait line inside enabled =>
      simp only [Act.onTask]
      split_ifs
      · change (wait.apply cfg _).state ≠ .suspended
        rw [Wait.state_apply enabled]
        exact wait.state_ne_suspended
      · exact active
  | note noted =>
      simp only [Act.onTask]
      split_ifs
      · cases noted <;> exact active
      · exact active
  | suspend inside =>
      simp only [Act.onTask]
      rw [if_neg]
      · exact active
      · rintro rfl
        exact notSuspends rfl
  | resume inside =>
      simp only [Act.onTask]
      split_ifs
      · rw [Tcb.resume, if_neg active]
        exact active
      · exact active
  | kill inside =>
      simp only [Act.onTask]
      split_ifs
      · exact TaskState.noConfusion
      · exact active
  | tick other clockId tickSize inside =>
      simp only [Act.onTask]
      split_ifs
      · unfold Tcb.tick Tcb.readySet
        dsimp only
        split_ifs <;> first | exact active | exact TaskState.noConfusion
      · exact active
  | signal events fits =>
      simp only [Act.onTask]
      unfold Tcb.signalEvent Tcb.readySet
      dsimp only
      split_ifs <;> first | exact active | exact TaskState.noConfusion
  | release inside waits found =>
      simp only [Act.onTask]
      split_ifs
      · exact TaskState.noConfusion
      · exact active
  | _ => exact active

theorem step_not_suspended
    {cfg : Config} {s s' : Sys β} {label : Label β} {tid : Nat}
    (sound : s.kernel.Sound cfg)
    (steps : step cfg s label = .ok s')
    (created : tid < s.kernel.tasks.nTasks)
    (notSuspends : ¬ label.Suspends tid)
    (active : (s.kernel.tasks.taskList tid).state ≠ .suspended) :
    (s'.kernel.tasks.taskList tid).state ≠ .suspended := by
  obtain ⟨acts, shape, trace⟩ := step_trace sound steps
  have both := trace.invariant (fun act => act ≠ .suspend tid)
    (fun k => tid < k.tasks.nTasks ∧
      (k.tasks.taskList tid).state ≠ .suspended)
    (fun k act k' allowed holds acts =>
      ⟨holds.1.trans_le acts.nTasks_le,
        acts.not_suspended holds.1 allowed holds.2⟩)
    ?_ ⟨created, active⟩
  · exact both.2
  · rintro act inside rfl
    exact notSuspends (shape.allowed _ inside)

end CocoOs
