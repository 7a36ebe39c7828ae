import CocoOs.EventWaits
import CocoOs.RunTrace

/-!
# Waiting for time

A task that waits for time becomes ready at the tick of its clock at which the
ticks delivered while it was not suspended reach the number it asked for, and
its remaining time is exact until then.
-/

namespace CocoOs

open Foundation

variable {β : Type}

/-! ## The wait -/

/-- A wait for time with so many ticks of its clock still to come. -/
inductive TimedWait (clockId left : Nat) (task : Tcb) : Prop
  | waiting
      (positive : 0 < left)
      (state : task.effectiveState = .waitingTime)
      (clock : task.clockId = clockId)
      (time : task.time = left)
  | ended
      (none : left = 0)
      (state : task.effectiveState = .ready)
      (time : task.time = 0)

namespace TimedWait

variable {cfg : Config} {clockId left : Nat} {task task' : Tcb}

/-- The task waits for time or is ready, suspended or not. -/
theorem effectiveState_cases (wait : TimedWait clockId left task) :
    task.effectiveState = .waitingTime ∨ task.effectiveState = .ready := by
  cases wait with
  | waiting positive state clock time => exact .inl state
  | ended none state time => exact .inr state

/-- The states in which a task can be during a wait for time. -/
theorem state_cases (wait : TimedWait clockId left task) :
    task.state = .waitingTime ∨ task.state = .ready ∨
      task.state = .suspended := by
  by_cases suspended : task.state = .suspended
  · exact .inr (.inr suspended)
  · have effective := Tcb.effectiveState_of_ne suspended
    rcases wait.effectiveState_cases with state | state
    · exact .inl (effective.symm.trans state)
    · exact .inr (.inl (effective.symm.trans state))

theorem not_waitsForEvents (wait : TimedWait clockId left task) :
    ¬ task.WaitsForEvents := by
  rintro (event | event) <;>
    rcases wait.state_cases with state | state | state <;>
    rw [event] at state <;> cases state

/-- The wait is a matter of the state, the saved state, the time and the clock
of the task. -/
theorem of_eq
    (wait : TimedWait clockId left task)
    (effective : task'.effectiveState = task.effectiveState)
    (time : task'.time = task.time)
    (clock : task'.clockId = task.clockId) :
    TimedWait clockId left task' := by
  cases wait with
  | waiting positive stateBefore clockBefore timeBefore =>
      exact .waiting positive (effective.trans stateBefore)
        (clock.trans clockBefore) (time.trans timeBefore)
  | ended none stateBefore timeBefore =>
      exact .ended none (effective.trans stateBefore) (time.trans timeBefore)

theorem of_waitPart
    (wait : TimedWait clockId left task)
    (same : task'.waitPart = task.waitPart) :
    TimedWait clockId left task' := by
  unfold Tcb.waitPart at same
  simp only [Prod.mk.injEq] at same
  obtain ⟨state, savedState, time, clock, _⟩ := same
  apply wait.of_eq _ time clock
  unfold Tcb.effectiveState
  rw [state, savedState]

theorem suspend (wait : TimedWait clockId left task) :
    TimedWait clockId left task.suspend := by
  refine wait.of_eq (Tcb.effectiveState_suspend ?_) ?_ ?_
  · rcases wait.effectiveState_cases with state | state <;> rw [state] <;> decide
  · unfold Tcb.suspend
    split_ifs <;> rfl
  · unfold Tcb.suspend
    split_ifs <;> rfl

theorem resume (wait : TimedWait clockId left task) :
    TimedWait clockId left task.resume := by
  refine wait.of_eq (Tcb.effectiveState_resume ?_) ?_ ?_
  · rcases wait.effectiveState_cases with state | state <;> rw [state] <;> decide
  · unfold Tcb.resume
    split_ifs <;> rfl
  · unfold Tcb.resume
    split_ifs <;> rfl

/-- A tick takes its size off what is left, unless the task is suspended or
waits on another clock. -/
theorem tick
    (wait : TimedWait clockId left task)
    (other tickSize : Nat) :
    TimedWait clockId
      (left - if task.state = .suspended then 0
        else if other = clockId then tickSize else 0)
      (task.tick cfg other tickSize) := by
  by_cases suspended : task.state = .suspended
  · have still : task.tick cfg other tickSize = task := by
      simp [Tcb.tick, suspended]
    rw [still, if_pos suspended]
    exact wait
  · rw [if_neg suspended]
    have effective := Tcb.effectiveState_of_ne suspended
    cases wait with
    | ended none state time =>
        have ready : task.state = .ready := effective.symm.trans state
        have still : task.tick cfg other tickSize = task := by
          simp [Tcb.tick, ready]
        rw [still]
        exact .ended (by omega) state time
    | waiting positive state clock time =>
        have timed : task.state = .waitingTime := effective.symm.trans state
        by_cases mine : other = clockId
        · rw [if_pos mine, mine, ← clock, Tcb.tick_waitingTime cfg task _ timed,
            time]
          by_cases expires : left ≤ tickSize
          · rw [if_pos expires]
            exact .ended (by omega) rfl rfl
          · rw [if_neg expires]
            exact .waiting (by omega) state rfl rfl
        · rw [if_neg mine, Tcb.tick_of_ne cfg tickSize (by simp [timed])
            (clock ▸ Ne.symm mine)]
          exact .waiting positive state clock time

/-! ## One action -/

/-- Only ticks shorten a wait, as long as the task neither starts another wait
nor is killed. -/
theorem of_micro
    {k k' : Kernel β} {act : Act β} {tid : Nat}
    (acts : Micro cfg k act k')
    (created : tid < k.tasks.nTasks)
    (notBlocked : ¬ act.Blocks tid)
    (notKilled : act ≠ .kill tid)
    (notTicked : ¬ act.Ticks tid)
    (wait : TimedWait clockId left (k.tasks.taskList tid)) :
    TimedWait clockId left (k'.tasks.taskList tid) := by
  rw [acts.taskList created]
  by_cases moves : act.Moves tid
  · cases acts with
    | block other line inside enabled => exact absurd moves notBlocked
    | suspend inside =>
        simp only [Act.onTask]
        rw [if_pos (Eq.symm moves)]
        exact wait.suspend
    | resume inside =>
        simp only [Act.onTask]
        rw [if_pos (Eq.symm moves)]
        exact wait.resume
    | kill inside => exact absurd (congrArg Act.kill moves) notKilled
    | tick other clock size inside => exact absurd moves notTicked
    | @release other sem inside waits found =>
        have same : other = tid := moves
        subst same
        rcases wait.state_cases with state | state | state <;>
          rw [waits.1] at state <;> cases state
    | _ => exact moves.elim
  · apply wait.of_waitPart (Act.waitPart_onTask moves _)
    cases act with
    | signal eventId => exact fun calls => wait.not_waitsForEvents calls.2
    | _ => exact id

end TimedWait

/-! ## Steps and runs -/

/-- The ticks of a clock that a step delivers to a task: none while the task is
suspended. -/
def deliveredTo (clockId tid : Nat) (s : Sys β) (label : Label β) : Nat :=
  if (s.kernel.tasks.taskList tid).state = .suspended then 0
  else
    match label.ticks with
    | some (other, tickSize) => if other = clockId then tickSize else 0
    | none => 0

section

variable {cfg : Config} {s s' : Sys β} {label : Label β}
variable {labels : List (Label β)} {tid clockId left : Nat}

/-- A step takes the ticks it delivers off a wait. -/
theorem TimedWait.of_step
    (sound : s.kernel.Sound cfg)
    (steps : step cfg s label = .ok s')
    (created : tid < s.kernel.tasks.nTasks)
    (notRunning : s.kernel.runningTid ≠ tid)
    (notChosen : scheduled cfg s label ≠ some tid)
    (alive : ¬ label.Kills s tid)
    (wait : TimedWait clockId left (s.kernel.tasks.taskList tid)) :
    TimedWait clockId (left - deliveredTo clockId tid s label)
      (s'.kernel.tasks.taskList tid) := by
  obtain ⟨acts, shape, trace⟩ := step_trace sound steps
  have notBlocked := shape.not_blocks notRunning notChosen
  have notKilled : ∀ act ∈ acts, act ≠ .kill tid := by
    rintro act inside rfl
    exact alive (shape.allowed _ inside)
  unfold deliveredTo
  cases ticks : label.ticks with
  | none =>
      have notTicked : ∀ act ∈ acts, ¬ act.Ticks tid := shape.not_ticks ticks
      dsimp only
      rw [ite_self, Nat.sub_zero]
      have both := trace.invariant (fun act => act ∈ acts)
        (fun k => tid < k.tasks.nTasks ∧
          TimedWait clockId left (k.tasks.taskList tid))
        (fun k act k' inside holds acts =>
          ⟨holds.1.trans_le acts.nTasks_le, holds.2.of_micro acts holds.1
            (notBlocked act inside) (notKilled act inside)
            (notTicked act inside)⟩)
        (fun _ inside => inside) ⟨created, wait⟩
      exact both.2
  | some tick =>
      obtain ⟨other, tickSize⟩ := tick
      dsimp only
      obtain ⟨before, after, split, earlier, later⟩ :=
        shape.exists_tick ticks created
      subst split
      have unmoved : ∀ act ∈ before ++ .tick tid other tickSize :: after,
          ¬ act.Ticks tid → ¬ act.Moves tid := shape.not_moves_of_ticks ticks
      obtain ⟨k₁, traceBefore, trace⟩ := trace.exists_middle
      cases trace with
      | cons ticked traceAfter =>
          have same := Micro.waitPart_of_trace traceBefore created
            wait.not_waitsForEvents fun act inside =>
              unmoved act (List.mem_append_left _ inside) (earlier act inside)
          have state : (k₁.tasks.taskList tid).state =
              (s.kernel.tasks.taskList tid).state := congrArg Prod.fst same
          have createdThere := created.trans_le (Micro.nTasks_le_of_trace traceBefore)
          have shorter : TimedWait clockId _
              ((k₁.tasks.taskList tid).tick cfg other tickSize) :=
            (wait.of_waitPart same).tick other tickSize
          rw [state] at shorter
          have effect := ticked.taskList createdThere
          simp only [Act.onTask, if_true] at effect
          rw [← effect] at shorter
          apply shorter.of_waitPart
          apply Micro.waitPart_of_trace traceAfter
            (createdThere.trans_le ticked.nTasks_le) shorter.not_waitsForEvents
          intro act inside
          exact unmoved act (List.mem_append_right _
            (List.mem_cons_of_mem _ inside)) (later act inside)

/-- A task that waits for time is not chosen before the wait is over. -/
theorem TimedWait.not_chosen
    (wait : TimedWait clockId left (s.kernel.tasks.taskList tid))
    (isTask : tid ≠ noTid)
    (positive : 0 < left) :
    scheduled cfg s label ≠ some tid := by
  intro chosen
  have ready := scheduled_ready chosen isTask
  cases wait with
  | waiting _ state clock time =>
      have effective : (s.kernel.tasks.taskList tid).effectiveState =
          (s.kernel.tasks.taskList tid).state :=
        Tcb.effectiveState_of_ne (by rw [ready]; decide)
      rw [ready, state] at effective
      cases effective
  | ended none => omega

/-- What is known of a waiting task in a state of a run. -/
structure WaitsForTime (cfg : Config) (clockId left tid : Nat) (s : Sys β) :
    Prop where
  sound : s.kernel.Sound cfg
  created : tid < s.kernel.tasks.nTasks
  notRunning : s.kernel.runningTid ≠ tid
  wait : TimedWait clockId left (s.kernel.tasks.taskList tid)

theorem WaitsForTime.of_step
    (waits : WaitsForTime cfg clockId left tid s)
    (steps : step cfg s label = .ok s')
    (alive : ¬ label.Kills s tid)
    (unchosen : left = 0 → scheduled cfg s label ≠ some tid) :
    WaitsForTime cfg clockId (left - deliveredTo clockId tid s label) tid s' := by
  obtain ⟨sound, created, notRunning, wait⟩ := waits
  have isTask : tid ≠ noTid := Nat.ne_of_lt (created.trans sound.nTasks_lt)
  have notChosen : scheduled cfg s label ≠ some tid := by
    by_cases ended : left = 0
    · exact unchosen ended
    · exact wait.not_chosen isTask (Nat.pos_of_ne_zero ended)
  exact ⟨step_sound sound steps, created.trans_le (step_nTasks_le sound steps),
    step_notRunning sound steps isTask notRunning notChosen,
    wait.of_step sound steps created notRunning notChosen alive⟩

/-- While a wait is not over, what is left of it is what was asked for without
what was delivered. -/
theorem WaitsForTime.of_run
    (waits : WaitsForTime cfg clockId left tid s)
    (runs : run (step cfg) s labels = .ok s')
    (alive : Meets (step cfg) (fun s label => ¬ label.Kills s tid) s labels)
    (early : total (step cfg) (deliveredTo clockId tid) s labels < left) :
    WaitsForTime cfg clockId
      (left - total (step cfg) (deliveredTo clockId tid) s labels) tid s' := by
  induction labels generalizing s left with
  | nil =>
      simp only [run_nil, Except.ok.injEq] at runs
      exact runs ▸ waits
  | cons label labels inductionHypothesis =>
      obtain ⟨next, steps, rest⟩ := run_cons_eq_ok_iff.mp runs
      rw [total_cons steps] at early ⊢
      have later := waits.of_step steps alive.1 fun ended => by omega
      rw [← Nat.sub_sub]
      exact inductionHypothesis later rest (alive.2 next steps) (by omega)

/-- Once a wait is over it stays over until the task runs again. -/
theorem WaitsForTime.over_of_run
    (waits : WaitsForTime cfg clockId 0 tid s)
    (runs : run (step cfg) s labels = .ok s')
    (apart : Meets (step cfg)
      (fun s label => ¬ label.Kills s tid ∧ scheduled cfg s label ≠ some tid)
      s labels) :
    WaitsForTime cfg clockId 0 tid s' := by
  apply apart.run_invariant (WaitsForTime cfg clockId 0 tid) _ waits runs
  rintro t label t' waits ⟨alive, notChosen⟩ steps
  have later := waits.of_step steps alive fun _ => notChosen
  rwa [Nat.zero_sub] at later

/-- `task_wait_id` starts a wait for all of its ticks. -/
theorem WaitsForTime.of_taskWaitId
    {id : UInt8} {ticks : UInt32} {line : UInt16}
    (reachable : ReachableSys cfg s)
    (waits : step cfg s (.task (.taskWaitId id ticks) line) = .ok s')
    (runsNow : s.kernel.runningTid = tid) :
    WaitsForTime cfg id.toNat ticks.toNat tid s' := by
  have sound := reachable_sound reachable
  obtain ⟨acts, shape, trace⟩ := step_trace sound waits
  generalize s'.frame = frame at shape
  cases shape with
  | task runs takes =>
      have created := ((reachable_tasksSound reachable).runs runs).1
      rw [runsNow] at runs created
      cases takes with
      | taskWaitId =>
          cases trace with
          | cons blocks rest =>
              cases rest
              have effect := blocks.taskList created
              have running := blocks.runningTid
              obtain ⟨_, _, positive, _⟩ := blocks.of_block
              rw [runsNow] at effect
              simp only [Act.onTask, if_true] at effect
              refine ⟨step_sound sound waits,
                created.trans_le blocks.nTasks_le, ?_, ?_⟩
              · rw [running]
                exact Ne.symm runs
              · rw [effect]
                exact .waiting positive (by simp [Wait.apply, Tcb.waitTimeSet,
                  Tcb.effectiveState]) rfl rfl

theorem WaitsForTime.timeout
    (waits : WaitsForTime cfg clockId left tid s) :
    s.kernel.tasks.osTaskTimeoutGet cfg tid = .ok left := by
  unfold TaskTable.osTaskTimeoutGet
  rw [if_pos (waits.created.trans_le waits.sound.tasks)]
  rcases waits.wait with ⟨_, _, _, time⟩ | ⟨none, _, time⟩
  · rw [time]
  · rw [time, none]

/-- A timed wait is exact.  Count the ticks delivered to its clock while the
task is not suspended.  As long as they are fewer than asked for, the task is
not ready and its timeout is what is missing, so that no tick is subtracted
from a smaller time; the step that brings them to the number asked for makes
the task ready; and the timeout is then zero until the task runs again. -/
theorem timed_wait_exact
    {s₁ s₂ : Sys β} {id : UInt8} {ticks : UInt32} {line : UInt16}
    (reachable : ReachableSys cfg s)
    (runsNow : s.kernel.runningTid = tid)
    (waits : step cfg s (.task (.taskWaitId id ticks) line) = .ok s₁)
    (runs : run (step cfg) s₁ labels = .ok s₂)
    (alive : Meets (step cfg) (fun s label => ¬ label.Kills s tid) s₁ labels)
    (early : total (step cfg) (deliveredTo id.toNat tid) s₁ labels <
      ticks.toNat) :
    (s₂.kernel.tasks.taskList tid).state ≠ .ready ∧
    s₂.kernel.tasks.osTaskTimeoutGet cfg tid =
      .ok (ticks.toNat -
        total (step cfg) (deliveredTo id.toNat tid) s₁ labels) ∧
    ∀ label s₃, step cfg s₂ label = .ok s₃ → ¬ label.Kills s₂ tid →
      (total (step cfg) (deliveredTo id.toNat tid) s₁ labels +
          deliveredTo id.toNat tid s₂ label < ticks.toNat →
        deliveredTo id.toNat tid s₂ label <
          (s₂.kernel.tasks.taskList tid).time) ∧
      (ticks.toNat ≤ total (step cfg) (deliveredTo id.toNat tid) s₁ labels +
          deliveredTo id.toNat tid s₂ label →
        (s₃.kernel.tasks.taskList tid).state = .ready ∧
        ∀ later s₄, run (step cfg) s₃ later = .ok s₄ →
          Meets (step cfg) (fun s label => ¬ label.Kills s tid ∧
            scheduled cfg s label ≠ some tid) s₃ later →
          s₄.kernel.tasks.osTaskTimeoutGet cfg tid = .ok 0) := by
  have started := WaitsForTime.of_taskWaitId reachable waits runsNow
  have here := started.of_run runs alive early
  obtain ⟨positive, state, clock, time⟩ | ⟨ended, _, _⟩ := here.wait
  swap
  · omega
  refine ⟨?_, here.timeout, ?_⟩
  · intro ready
    have effective : (s₂.kernel.tasks.taskList tid).effectiveState =
        (s₂.kernel.tasks.taskList tid).state :=
      Tcb.effectiveState_of_ne (by rw [ready]; decide)
    rw [ready, state] at effective
    cases effective
  · intro label s₃ steps spared
    refine ⟨fun more => by omega, fun enough => ?_⟩
    have next := here.of_step steps spared fun ended => by omega
    rw [Nat.sub_sub, Nat.sub_eq_zero_of_le enough] at next
    refine ⟨?_, fun later s₄ runsLater apart =>
      (next.over_of_run runsLater apart).timeout⟩
    -- a suspended task takes no ticks, so the task is not suspended here
    have size : deliveredTo id.toNat tid s₂ label ≠ 0 := by omega
    have active : (s₂.kernel.tasks.taskList tid).state ≠ .suspended := by
      intro suspended
      rw [deliveredTo, if_pos suspended] at size
      exact size rfl
    have notSuspends : ¬ label.Suspends tid := by
      intro suspends
      apply size
      unfold deliveredTo
      cases label with
      | call call =>
          cases call with
          | osTaskSuspend => simp [Label.ticks]
          | _ => exact suspends.elim
      | task => simp [Label.ticks]
      | _ => exact suspends.elim
    have stillActive := step_not_suspended here.sound steps here.created
      notSuspends active
    rw [← Tcb.effectiveState_of_ne stillActive]
    cases next.wait with
    | waiting wrong => omega
    | ended _ state _ => exact state

end

/-- The first of three tasks waits for two ticks of clock 1. -/
theorem timed_wait_exact_setUp :
    ∃ s s₁ s₂ s₃ : Sys Nat,
      run (step (Config.small false)) (Sys.boot (Config.small false))
        (setUp 1 2 3 ++ [.osSchedule]) = .ok s ∧
      step (Config.small false) s (.task (.taskWaitId 1 2) 4) = .ok s₁ ∧
      run (step (Config.small false)) s₁ [.call (.osSubTick 1)] = .ok s₂ ∧
      step (Config.small false) s₂ (.call (.osSubNTick 1 7)) = .ok s₃ ∧
      (s₂.kernel.tasks.taskList 0).state ≠ .ready ∧
      (s₃.kernel.tasks.taskList 0).state = .ready := by
  obtain ⟨s, s₃, before, after, checked⟩ := exists_runs_of_returnsWith
    (step (Config.small false)) (Sys.boot (Config.small false))
    (setUp 1 2 3 ++ [.osSchedule])
    [.task (.taskWaitId 1 2) 4, .call (.osSubTick 1), .call (.osSubNTick 1 7)]
    (fun states : Sys Nat × Sys Nat =>
      decide (states.1.kernel.runningTid = 0 ∧
        total (step (Config.small false)) (deliveredTo 1 0) states.1
          [.task (.taskWaitId 1 2) 4, .call (.osSubTick 1)] = 1 ∧
        total (step (Config.small false)) (deliveredTo 1 0) states.1
          [.task (.taskWaitId 1 2) 4, .call (.osSubTick 1),
            .call (.osSubNTick 1 7)] = 8))
    (by decide +kernel)
  obtain ⟨runsNow, first, second⟩ := of_decide_eq_true checked
  obtain ⟨s₁, waits, rest⟩ := run_cons_eq_ok_iff.mp after
  obtain ⟨s₂, ticks, rest⟩ := run_cons_eq_ok_iff.mp rest
  obtain ⟨s₃', ticksAgain, rest⟩ := run_cons_eq_ok_iff.mp rest
  simp only [run_nil, Except.ok.injEq] at rest
  subst rest
  rw [total_cons waits] at first second
  have one : deliveredTo (β := Nat) 1 0 s (.task (.taskWaitId 1 2) 4) = 0 := by
    simp [deliveredTo, Label.ticks]
  rw [one, Nat.zero_add] at first second
  rw [total_cons ticks] at first second
  have nothing : ∀ s : Sys Nat,
      total (step (Config.small false)) (deliveredTo 1 0) s [] = 0 :=
    fun _ => rfl
  rw [total_cons ticksAgain, nothing] at second
  have runs : run (step (Config.small false)) s₁ [.call (.osSubTick 1)] = .ok s₂ :=
    run_cons_eq_ok_iff.mpr ⟨s₂, ticks, rfl⟩
  have sum : total (step (Config.small false)) (deliveredTo 1 0) s₁
      [.call (.osSubTick 1)] = 1 := (total_cons ticks).trans first
  rw [nothing] at first
  obtain ⟨notReady, _, next⟩ := timed_wait_exact
    (reachable_of_run before) runsNow waits runs ⟨id, fun _ _ => trivial⟩
    (by rw [show (1 : UInt8).toNat = 1 from rfl, sum]; decide)
  refine ⟨s, s₁, s₂, s₃', before, waits, runs, ticksAgain, notReady, ?_⟩
  apply ((next _ s₃' ticksAgain id).2 _).1
  rw [show (1 : UInt8).toNat = 1 from rfl, sum,
    show (2 : UInt32).toNat = 2 from rfl]
  omega

end CocoOs
