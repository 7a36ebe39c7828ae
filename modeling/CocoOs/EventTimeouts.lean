import CocoOs.RunTrace

/-!
# Waiting for an event with a timeout

A task that waits for an event with a timeout is woken by the first signal of
the event or by the last tick of its timeout, whichever comes first in the
order in which the kernel acts; its time tells afterwards which of them it was.
-/

namespace CocoOs

open Foundation

variable {β : Type}

/-! ## The race -/

/-- What can end a wait with a timeout. -/
inductive Contender
  | tick
  | signal
  deriving DecidableEq, Repr

/-- The contender an action stands for, in the race for a task that waits for
an event. -/
def Act.contender (tid eventId : Nat) : Act β → Option Contender
  | .tick other clockId _ =>
      if other = tid ∧ clockId = 0 then some .tick else none
  | .signal other => if other = eventId then some .signal else none
  | _ => none

/-- The contenders among a list of actions, in their order. -/
def contenders (tid eventId : Nat) (acts : List (Act β)) : List Contender :=
  acts.filterMap (Act.contender tid eventId)

/-- The ticks before the first signal. -/
def ticksBefore : List Contender → Nat
  | .tick :: later => ticksBefore later + 1
  | _ => 0

/-- The race is decided: the event was signalled, or there were as many ticks
before that as the timeout has. -/
def Decided (timeout : Nat) (moments : List Contender) : Prop :=
  .signal ∈ moments ∨ timeout ≤ ticksBefore moments

theorem ticksBefore_append_of_mem
    {moments : List Contender} (later : List Contender)
    (signalled : .signal ∈ moments) :
    ticksBefore (moments ++ later) = ticksBefore moments := by
  induction moments with
  | nil => cases signalled
  | cons moment moments inductionHypothesis =>
      cases moment with
      | signal => rfl
      | tick =>
          have rest : .signal ∈ moments := by simpa using signalled
          rw [List.cons_append, ticksBefore, ticksBefore,
            inductionHypothesis rest]

theorem ticksBefore_append_of_not_mem
    {moments : List Contender} (later : List Contender)
    (silent : .signal ∉ moments) :
    ticksBefore (moments ++ later) = ticksBefore moments + ticksBefore later := by
  induction moments with
  | nil => simp [ticksBefore]
  | cons moment moments inductionHypothesis =>
      cases moment with
      | signal => exact absurd (List.mem_cons_self ..) silent
      | tick =>
          have rest : .signal ∉ moments := fun member =>
            silent (List.mem_cons_of_mem _ member)
          rw [List.cons_append, ticksBefore, ticksBefore,
            inductionHypothesis rest]
          omega

/-- A race that is decided stays decided, and with it what the timeout has
left. -/
theorem Decided.append
    {timeout : Nat} {moments : List Contender}
    (decided : Decided timeout moments) (later : List Contender) :
    Decided timeout (moments ++ later) ∧
      timeout - ticksBefore (moments ++ later) =
        timeout - ticksBefore moments := by
  by_cases signalled : .signal ∈ moments
  · refine ⟨.inl (List.mem_append_left _ signalled), ?_⟩
    rw [ticksBefore_append_of_mem later signalled]
  · have enough := decided.resolve_left signalled
    have grows := ticksBefore_append_of_not_mem later signalled
    refine ⟨.inr (by omega), by omega⟩

/-! ## The wait -/

/-- A wait for an event with a timeout, after these contenders. -/
inductive TimeoutWait (cfg : Config) (eventId timeout : Nat)
    (moments : List Contender) (task : Tcb) : Prop
  | waiting
      (notYet : ¬ Decided timeout moments)
      (state : task.state = .waitingEventTimeout)
      (mode : task.waitSingleEvent = true)
      (pending : ∀ event, event / 8 < cfg.eventQueueSize →
        (task.Pending event ↔ event = eventId))
      (clock : task.clockId = 0)
      (time : task.time = timeout - ticksBefore moments)
  | ended
      (decided : Decided timeout moments)
      (state : task.state = .ready)
      (empty : task.NoEvents cfg)
      (time : task.time = timeout - ticksBefore moments)

namespace TimeoutWait

variable {cfg : Config} {eventId timeout : Nat} {moments : List Contender}
variable {task task' : Tcb}

theorem state_cases (wait : TimeoutWait cfg eventId timeout moments task) :
    task.state = .waitingEventTimeout ∨ task.state = .ready := by
  cases wait with
  | waiting _ state => exact .inl state
  | ended _ state => exact .inr state

theorem of_waitPart
    (wait : TimeoutWait cfg eventId timeout moments task)
    (same : task'.waitPart = task.waitPart) :
    TimeoutWait cfg eventId timeout moments task' := by
  unfold Tcb.waitPart at same
  simp only [Prod.mk.injEq] at same
  obtain ⟨sameState, _, sameTime, sameClock, _, sameMode, sameEvents⟩ := same
  cases wait with
  | waiting notYet state mode pending clock time =>
      refine .waiting notYet (sameState.trans state) (sameMode.trans mode) ?_
        (sameClock.trans clock) (sameTime.trans time)
      intro event fits
      unfold Tcb.Pending
      rw [sameEvents]
      exact pending event fits
  | ended decided state empty time =>
      refine .ended decided (sameState.trans state) ?_ (sameTime.trans time)
      unfold Tcb.NoEvents
      rw [sameEvents]
      exact empty

/-- What is decided stays decided while nothing moves the task. -/
theorem ended_append
    (wait : TimeoutWait cfg eventId timeout moments task)
    (decided : Decided timeout moments) (later : List Contender) :
    TimeoutWait cfg eventId timeout (moments ++ later) task := by
  obtain ⟨still, left⟩ := decided.append later
  cases wait with
  | waiting notYet => exact absurd decided notYet
  | ended _ state empty time => exact .ended still state empty (time.trans left.symm)

/-- A tick of the master clock. -/
theorem tick (wait : TimeoutWait cfg eventId timeout moments task) :
    TimeoutWait cfg eventId timeout (moments ++ [.tick])
      (task.tick cfg 0 1) := by
  cases wait with
  | ended decided state empty time =>
      have still : task.tick cfg 0 1 = task := by simp [Tcb.tick, state]
      rw [still]
      exact (ended decided state empty time).ended_append decided _
  | waiting notYet state mode pending clock time =>
      have silent : .signal ∉ moments := fun signalled =>
        notYet (.inl signalled)
      have more : ticksBefore moments < timeout :=
        Nat.lt_of_not_le fun enough => notYet (.inr enough)
      have counted := ticksBefore_append_of_not_mem [.tick] silent
      have one : ticksBefore [.tick] = 1 := rfl
      rw [← clock, Tcb.tick_waitingEventTimeout cfg task 1 state, time]
      by_cases last : timeout - ticksBefore moments ≤ 1
      · rw [if_pos last]
        refine .ended (.inr (by omega)) rfl (Tcb.empty_clearWaitQueue cfg _) ?_
        dsimp only
        omega
      · rw [if_neg last]
        refine .waiting ?_ state mode pending clock (by dsimp only; omega)
        rintro (signalled | enough)
        · simp [silent] at signalled
        · omega

/-- A signal of the event. -/
theorem signal
    (wait : TimeoutWait cfg eventId timeout moments task)
    (fits : eventId / 8 < cfg.eventQueueSize) :
    TimeoutWait cfg eventId timeout (moments ++ [.signal])
      (task.signalEvent cfg eventId) := by
  cases wait with
  | ended decided state empty time =>
      have deaf : ¬ (task.Pending eventId ∧ task.WaitsForEvents) := by
        rintro ⟨_, wrong | wrong⟩ <;> rw [state] at wrong <;> cases wrong
      rw [Tcb.signalEvent_of_not cfg deaf]
      exact (ended decided state empty time).ended_append decided _
  | waiting notYet state mode pending clock time =>
      have silent : .signal ∉ moments := fun signalled =>
        notYet (.inl signalled)
      have counted := ticksBefore_append_of_not_mem [.signal] silent
      have none : ticksBefore [.signal] = 0 := rfl
      rw [Tcb.signalEvent_of_completes cfg ((pending eventId fits).mpr rfl)
        (.inr state) (.inl mode)]
      refine .ended (.inl (by simp)) rfl (Tcb.empty_clearWaitQueue cfg _) ?_
      change task.time = _
      omega

/-! ## One action -/

/-- The action leaves the race for the task to the contenders: it does not make
the task wait, suspend it or kill it, and the master clock ticks by one. -/
structure Fair (tid : Nat) (act : Act β) : Prop where
  notBlocked : ¬ act.Blocks tid
  notSuspended : act ≠ .suspend tid
  notKilled : act ≠ .kill tid
  byOne : ∀ tickSize, act = .tick tid 0 tickSize → tickSize = 1

theorem of_micro
    {k k' : Kernel β} {act : Act β} {tid : Nat}
    (acts : Micro cfg k act k')
    (created : tid < k.tasks.nTasks)
    (fair : Fair tid act)
    (fits : eventId / 8 < cfg.eventQueueSize)
    (wait : TimeoutWait cfg eventId timeout moments (k.tasks.taskList tid)) :
    TimeoutWait cfg eventId timeout
      (moments ++ (act.contender tid eventId).toList)
      (k'.tasks.taskList tid) := by
  have states := wait.state_cases
  rw [acts.taskList created]
  by_cases moves : act.Moves tid
  · cases acts with
    | block other line inside enabled => exact absurd moves fair.notBlocked
    | suspend inside =>
        exact absurd (congrArg Act.suspend moves) fair.notSuspended
    | kill inside => exact absurd (congrArg Act.kill moves) fair.notKilled
    | @resume other inside =>
        have same : other = tid := moves
        subst same
        have still : (k.tasks.taskList other).resume = k.tasks.taskList other := by
          unfold Tcb.resume
          rcases states with state | state <;> simp [state]
        simp only [Act.onTask, if_true, Act.contender, Option.toList_none,
          List.append_nil]
        rw [still]
        exact wait
    | @release other sem inside waits found =>
        have same : other = tid := moves
        subst same
        rcases states with state | state <;> rw [waits.1] at state <;> cases state
    | tick other clockId tickSize inside =>
        have same : other = tid := moves
        subst same
        simp only [Act.onTask, if_true, Act.contender, true_and]
        by_cases master : clockId = 0
        · subst master
          rw [if_pos rfl, fair.byOne tickSize rfl]
          exact wait.tick
        · rw [if_neg master]
          have still : (k.tasks.taskList other).tick cfg clockId tickSize =
              k.tasks.taskList other := by
            cases wait with
            | waiting _ state _ _ clock =>
                apply Tcb.tick_of_ne cfg tickSize
                · rw [state]
                  exact TaskState.noConfusion
                · rw [clock]
                  exact Ne.symm master
            | ended _ state => simp [Tcb.tick, state]
          rw [still, Option.toList_none, List.append_nil]
          exact wait
    | _ => exact moves.elim
  · have elsewhere : ∀ (clockId tickSize other : Nat),
        act = .tick other clockId tickSize → other ≠ tid := by
      rintro clockId tickSize other rfl same
      exact moves same
    cases acts with
    | @signal other some fitsOther =>
        simp only [Act.onTask, Act.contender]
        by_cases mine : other = eventId
        · rw [if_pos mine, mine]
          exact wait.signal fits
        · rw [if_neg mine]
          have inside := fitsOther.resolve_left (Nat.ne_zero_of_lt created)
          have deaf : ¬ ((k.tasks.taskList tid).Pending other ∧
              (k.tasks.taskList tid).WaitsForEvents) := by
            rintro ⟨isPending, waits⟩
            cases wait with
            | waiting _ state mode pending =>
                exact mine ((pending other inside).mp isPending)
            | ended _ state =>
                rcases waits with wrong | wrong <;> rw [state] at wrong <;>
                  cases wrong
          rw [Tcb.signalEvent_of_not cfg deaf, Option.toList_none,
            List.append_nil]
          exact wait
    | tick other clockId tickSize inside =>
        have apart := elsewhere clockId tickSize other rfl
        simp only [Act.onTask, Act.contender]
        rw [if_neg (Ne.symm apart), if_neg fun both => apart both.1,
          Option.toList_none, List.append_nil]
        exact wait
    | _ =>
        have same : (Act.onTask cfg tid _ (k.tasks.taskList tid)).waitPart =
            (k.tasks.taskList tid).waitPart := Act.waitPart_onTask moves id
        simp only [Act.contender, Option.toList_none, List.append_nil]
        exact wait.of_waitPart same

/-- The race along a trace. -/
theorem of_trace
    {k k' : Kernel β} {acts : List (Act β)} {tid : Nat}
    (trace : Trace (Micro cfg) k acts k')
    (created : tid < k.tasks.nTasks)
    (fair : ∀ act ∈ acts, Fair tid act)
    (fits : eventId / 8 < cfg.eventQueueSize)
    (wait : TimeoutWait cfg eventId timeout moments (k.tasks.taskList tid)) :
    TimeoutWait cfg eventId timeout (moments ++ contenders tid eventId acts)
      (k'.tasks.taskList tid) := by
  induction trace generalizing moments with
  | nil k => simpa [contenders] using wait
  | @cons k middle k' act acts first rest inductionHypothesis =>
      have here := wait.of_micro first created
        (fair act (List.mem_cons_self ..)) fits
      have later := inductionHypothesis (created.trans_le first.nTasks_le)
        (fun act inside => fair act (List.mem_cons_of_mem _ inside)) here
      have split : contenders tid eventId (act :: acts) =
          (act.contender tid eventId).toList ++ contenders tid eventId acts := by
        unfold contenders
        rw [List.filterMap_cons]
        cases act.contender tid eventId <;> rfl
      rwa [split, ← List.append_assoc]

end TimeoutWait

/-! ## Runs -/

/-- The step neither suspends nor kills the task, and does not run it. -/
def LeftAlone (cfg : Config) (tid : Nat) (s : Sys β) (label : Label β) : Prop :=
  ¬ label.Suspends tid ∧ ¬ label.Kills s tid ∧ scheduled cfg s label ≠ some tid

/-- The master clock is ticked by `os_tick` only, by one. -/
theorem Label.ticks_master
    {label : Label β} {tickSize : Nat}
    (ticks : label.ticks = some (0, tickSize)) :
    label = .call .osTick ∧ tickSize = 1 := by
  have sub : ∀ id : UInt8, id ≠ 0 → id.toNat ≠ 0 := by
    intro id different zero
    exact different (UInt8.toNat_inj.mp zero)
  cases label with
  | call call =>
      cases call with
      | osTick =>
          cases ticks
          exact ⟨rfl, rfl⟩
      | osSubTick id | osSubNTick id =>
          simp only [Label.ticks] at ticks
          split_ifs at ticks with zero
          simp only [Option.some.injEq, Prod.mk.injEq] at ticks
          exact absurd ticks.1 (sub id zero)
      | _ => cases ticks
  | _ => cases ticks

section

variable {cfg : Config} {s s' : Sys β} {label : Label β}
variable {labels : List (Label β)} {acts : List (Act β)} {tid : Nat}

theorem StepActs.fair
    {frame : Nat → Frame β}
    (shape : StepActs cfg s label acts frame)
    (notRunning : s.kernel.runningTid ≠ tid)
    (leftAlone : LeftAlone cfg tid s label) :
    ∀ act ∈ acts, TimeoutWait.Fair tid act := by
  obtain ⟨notSuspended, notKilled, notChosen⟩ := leftAlone
  have allowed := shape.allowed
  intro act inside
  refine ⟨shape.not_blocks notRunning notChosen act inside, ?_, ?_, ?_⟩
  · rintro rfl
    exact notSuspended (allowed _ inside)
  · rintro rfl
    exact notKilled (allowed _ inside)
  · rintro tickSize rfl
    exact (Label.ticks_master (allowed _ inside)).2

theorem RunActs.fair
    (runActs : RunActs cfg s labels acts s')
    (sound : s.kernel.Sound cfg)
    (isTask : tid ≠ noTid)
    (notRunning : s.kernel.runningTid ≠ tid)
    (leftAlone : Meets (step cfg) (LeftAlone cfg tid) s labels) :
    ∀ act ∈ acts, TimeoutWait.Fair tid act := by
  induction runActs with
  | nil s => simp
  | cons steps shape trace rest inductionHypothesis =>
      intro act inside
      rcases List.mem_append.mp inside with here | later
      · exact shape.fair notRunning leftAlone.1 act here
      · exact inductionHypothesis (step_sound sound steps)
          (step_notRunning sound steps isTask notRunning leftAlone.1.2.2)
          (leftAlone.2 _ steps) act later

end

end CocoOs
