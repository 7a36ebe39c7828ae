import CocoOs.StepShape
import CocoOs.TaskSound

/-!
# Killing and suspending

A killed task stays killed and a suspended one stays suspended until it is
resumed or killed, unless the task is the running task and goes on to a macro
that waits: the wait then overwrites its state.  The condition that this does
not happen is exact, step by step.
-/

namespace CocoOs

open Foundation

variable {β : Type}

/-! ## One action -/

/-- A suspended task stays suspended unless it is resumed or killed or starts
to wait. -/
theorem Micro.suspended
    {cfg : Config} {k k' : Kernel β} {act : Act β}
    (acts : Micro cfg k act k')
    {tid : Nat}
    (created : tid < k.tasks.nTasks)
    (notBlocked : ¬ act.Blocks tid)
    (notResumed : act ≠ .resume tid)
    (notKilled : act ≠ .kill tid)
    (suspended : (k.tasks.taskList tid).state = .suspended) :
    (k'.tasks.taskList tid).state = .suspended := by
  rw [acts.taskList created]
  cases acts with
  | yield line =>
      simp only [Act.onTask]
      split_ifs <;> exact suspended
  | block wait line _ _ =>
      simp only [Act.onTask]
      rw [if_neg fun same => notBlocked same.symm]
      exact suspended
  | note note =>
      simp only [Act.onTask]
      split_ifs
      · cases note <;> exact suspended
      · exact suspended
  | suspend inside =>
      simp only [Act.onTask]
      split_ifs
      · simp [Tcb.suspend, suspended]
      · exact suspended
  | resume inside =>
      simp only [Act.onTask]
      rw [if_neg]
      · exact suspended
      · rintro rfl
        exact notResumed rfl
  | kill inside =>
      simp only [Act.onTask]
      rw [if_neg]
      · exact suspended
      · rintro rfl
        exact notKilled rfl
  | tick other clockId tickSize inside =>
      simp only [Act.onTask]
      split_ifs
      · simp [Tcb.tick, suspended]
      · exact suspended
  | signal events fits =>
      simp only [Act.onTask]
      rw [Tcb.signalEvent_of_not]
      · exact suspended
      · rintro ⟨_, state | state⟩ <;> rw [suspended] at state <;> cases state
  | release inside waits found =>
      simp only [Act.onTask]
      rw [if_neg]
      · exact suspended
      · rintro rfl
        rw [waits.1] at suspended
        cases suspended
  | _ => exact suspended

/-- The states in which a task waits. -/
def TaskState.Waiting (state : TaskState) : Prop :=
  state = .waitingSem ∨ state = .waitingTime ∨ state = .waitingEvent ∨
    state = .waitingEventTimeout

/-- A task that starts to wait is in a waiting state, whatever it was in. -/
theorem Wait.waiting_apply
    {cfg : Config} {k : Kernel β} {wait : Wait}
    (enabled : wait.Enabled cfg k) (task : Tcb) :
    (wait.apply cfg task).state.Waiting := by
  rw [Wait.state_apply enabled, TaskState.Waiting]
  cases wait with
  | event eventId timeout => by_cases timed : timeout ≠ 0 <;> simp [Wait.state, timed]
  | _ => simp [Wait.state]

/-! ## One step -/

/-- The step is not a wait of the task while it is killed or suspended. -/
def WaitsAlive (cfg : Config) (tid : Nat) (s : Sys β) (label : Label β) : Prop :=
  ∀ op line, label = .task op line → s.kernel.runningTid = tid →
    op.Waits cfg s.kernel →
    (s.kernel.tasks.taskList tid).state ≠ .killed ∧
    (s.kernel.tasks.taskList tid).state ≠ .suspended

/-- The step neither resumes nor kills the task. -/
def LeavesSuspended (tid : Nat) (s : Sys β) (label : Label β) : Prop :=
  ¬ label.Resumes tid ∧ ¬ label.Kills s tid

section

variable {cfg : Config} {s s' : Sys β} {label : Label β} {tid : Nat}

/-- A task that does not wait while killed or suspended does not block in a
step in which it is killed or suspended. -/
theorem WaitsAlive.not_blocks
    (alive : WaitsAlive cfg tid s label)
    (stopped : (s.kernel.tasks.taskList tid).state = .killed ∨
      (s.kernel.tasks.taskList tid).state = .suspended)
    {act : Act β}
    (allowed : act.Allowed cfg s label) :
    ¬ act.Blocks tid := by
  intro blocks
  cases act with
  | block actor wait line =>
      have same : actor = tid := blocks
      subst same
      rcases allowed with ⟨op, at_, labelled, runs, waits⟩ | ⟨_, _, ready⟩
      · obtain ⟨notKilled, notSuspended⟩ := alive op at_ labelled runs waits
        exact stopped.elim notKilled notSuspended
      · rw [ready] at stopped
        rcases stopped with wrong | wrong <;> cases wrong
  | _ => exact blocks.elim

theorem step_keeps_killed
    (sound : s.kernel.Sound cfg)
    (steps : step cfg s label = .ok s')
    (created : tid < s.kernel.tasks.nTasks)
    (alive : WaitsAlive cfg tid s label)
    (killed : (s.kernel.tasks.taskList tid).state = .killed) :
    (s'.kernel.tasks.taskList tid).state = .killed := by
  obtain ⟨acts, shape, trace⟩ := step_trace sound steps
  have after := trace.invariant _
    (fun k => tid < k.tasks.nTasks ∧ (k.tasks.taskList tid).state = .killed)
    (fun k act k' allowed holds acts =>
      ⟨holds.1.trans_le acts.nTasks_le,
        acts.killed holds.1 (alive.not_blocks (.inl killed) allowed) holds.2⟩)
    shape.allowed ⟨created, killed⟩
  exact after.2

theorem step_keeps_suspended
    (sound : s.kernel.Sound cfg)
    (steps : step cfg s label = .ok s')
    (created : tid < s.kernel.tasks.nTasks)
    (alive : WaitsAlive cfg tid s label)
    (leaves : LeavesSuspended tid s label)
    (suspended : (s.kernel.tasks.taskList tid).state = .suspended) :
    (s'.kernel.tasks.taskList tid).state = .suspended := by
  obtain ⟨acts, shape, trace⟩ := step_trace sound steps
  have after := trace.invariant _
    (fun k => tid < k.tasks.nTasks ∧ (k.tasks.taskList tid).state = .suspended)
    (fun k act k' allowed holds acts => by
      refine ⟨holds.1.trans_le acts.nTasks_le,
        acts.suspended holds.1 (alive.not_blocks (.inr suspended) allowed)
          ?_ ?_ holds.2⟩
      · rintro rfl
        exact leaves.1 allowed
      · rintro rfl
        exact leaves.2 allowed)
    shape.allowed ⟨created, suspended⟩
  exact after.2

/-- A macro that gets to a wait ends in it. -/
theorem TaskActs.ends_in_block
    {k : Kernel β} {line : Nat} {op : TaskOp β} {acts : List (Act β)}
    {left : Option (Frame β)}
    (takes : TaskActs cfg k line op acts left)
    (waits : op.Waits cfg k) :
    ∃ earlier wait, acts = earlier ++ [.block k.runningTid wait line] := by
  have one : ∀ (k : Kernel β) (eventId : Nat) (wait : Wait),
      0 < cfg.nTotalEvents → eventId < k.events.nEvents →
      k.waitEventActs cfg eventId wait line =
        [.signaller eventId noTid] ++ [.block k.runningTid wait line] := by
    intro k eventId wait some known
    unfold Kernel.waitEventActs
    rw [if_pos ⟨some, known⟩]
    rfl
  -- an event can only be below the event counter when there are events
  have events : 0 < cfg.nQueues → 0 < cfg.nTotalEvents := by
    intro queues
    unfold Config.nTotalEvents
    omega
  cases takes with
  | taskWaitId id ticks => exact ⟨[], _, rfl⟩
  | eventWaitTimeout event timeout =>
      exact ⟨_, _, one k _ _ waits.1 waits.2⟩
  | eventWaitMultiple waitAll args _ => exact ⟨[], _, rfl⟩
  | eventWaitMultipleNone waitAll args none_ =>
      exact absurd none_ (Nat.ne_of_gt waits)
  | semWaitTake _ positive =>
      rw [show k.sems.osSemLargerThanZero cfg _ = false from waits] at positive
      cases positive
  | semWaitBlock _ _ => exact ⟨[], _, rfl⟩
  | msgPost turn =>
      obtain ⟨sync, full, known⟩ := waits
      cases turn with
      | blocked _ _ =>
          rw [one (k.setWaitQueue cfg _) _ _ (events full.1) known]
          exact ⟨_ :: _ :: [_], _, rfl⟩
      | posted room => exact absurd full room
      | refused notBlocked =>
          rcases notBlocked with async | room
          · rw [sync] at async
            cases async
          · exact absurd full room
  | msgReceive buffer turn =>
      obtain ⟨sync, nothing, known⟩ := waits
      cases turn with
      | blocked _ _ =>
          rw [one (k.setWaitQueue cfg _) _ _ (events nothing.1) known]
          exact ⟨_ :: _ :: [_], _, rfl⟩
      | received msg some => exact absurd nothing some
      | nothing notBlocked =>
          rcases notBlocked with async | some
          · rw [sync] at async
            cases async
          · exact absurd nothing some
  | taskSuspend | taskResume | eventSignal | semSignal | taskClose =>
      exact waits.elim

/-- A wait of a killed or suspended running task puts it in a waiting state. -/
theorem step_waiting_of_not_alive
    (sound : s.kernel.Sound cfg)
    (steps : step cfg s label = .ok s')
    (created : tid < s.kernel.tasks.nTasks)
    (notAlive : ¬ WaitsAlive cfg tid s label) :
    (s'.kernel.tasks.taskList tid).state.Waiting := by
  unfold WaitsAlive at notAlive
  push Not at notAlive
  obtain ⟨op, line, rfl, runs, waits, _⟩ := notAlive
  obtain ⟨acts, shape, trace⟩ := step_trace sound steps
  generalize s'.frame = frame at shape
  cases shape with
  | task _ takes =>
      obtain ⟨earlier, wait, rfl⟩ := takes.ends_in_block waits
      obtain ⟨k, before, last⟩ := trace.exists_middle
      have createdThen : tid < k.tasks.nTasks :=
        before.invariant (fun _ => True)
          (fun k => tid < k.tasks.nTasks)
          (fun _ _ _ _ holds acts => holds.trans_le acts.nTasks_le)
          (fun _ _ => trivial) created
      cases last with
      | cons blocks rest =>
          cases rest
          rw [blocks.taskList createdThen]
          simp only [Act.onTask]
          rw [if_pos runs.symm]
          exact Wait.waiting_apply blocks.of_block.2.2.1 _

/-- A request to kill is obeyed. -/
theorem step_kills
    (sound : s.kernel.Sound cfg)
    (steps : step cfg s label = .ok s')
    (created : tid < s.kernel.tasks.nTasks)
    (kills : label.Kills s tid) :
    (s'.kernel.tasks.taskList tid).state = .killed := by
  obtain ⟨acts, shape, trace⟩ := step_trace sound steps
  generalize s'.frame = frame at shape
  cases shape with
  | call calls =>
      cases calls with
      | osTaskKill id =>
          have same : id.toNat = tid := kills
          cases trace with
          | cons act rest =>
              cases rest
              rw [act.taskList created]
              simp only [Act.onTask]
              rw [if_pos same.symm]
              rfl
      | _ => exact kills.elim
  | task _ takes =>
      cases takes with
      | taskClose =>
          have same : s.kernel.runningTid = tid := kills
          cases trace with
          | cons act rest =>
              cases rest with
              | cons frees rest =>
                  cases rest
                  rw [frees.taskList (created.trans_le act.nTasks_le),
                    act.taskList created]
                  simp only [Act.onTask]
                  rw [if_pos same.symm]
                  rfl
      | _ => exact kills.elim
  | _ => exact kills.elim

end

/-! ## Runs -/

section

variable {cfg : Config} {s s' : Sys β} {labels : List (Label β)} {tid : Nat}

theorem run_keeps_killed
    (sound : s.kernel.Sound cfg)
    (created : tid < s.kernel.tasks.nTasks)
    (meets : Meets (step cfg) (WaitsAlive cfg tid) s labels)
    (runs : run (step cfg) s labels = .ok s')
    (killed : (s.kernel.tasks.taskList tid).state = .killed) :
    (s'.kernel.tasks.taskList tid).state = .killed := by
  refine (meets.run_invariant
    (fun t => t.kernel.Sound cfg ∧ tid < t.kernel.tasks.nTasks ∧
      (t.kernel.tasks.taskList tid).state = .killed)
    ?_ ⟨sound, created, killed⟩ runs).2.2
  rintro t label t' ⟨soundHere, createdHere, killedHere⟩ alive steps
  exact ⟨step_sound soundHere steps,
    createdHere.trans_le (step_nTasks_le soundHere steps),
    step_keeps_killed soundHere steps createdHere alive killedHere⟩

theorem run_keeps_suspended
    (sound : s.kernel.Sound cfg)
    (created : tid < s.kernel.tasks.nTasks)
    (meets : Meets (step cfg)
      (fun s label => WaitsAlive cfg tid s label ∧ LeavesSuspended tid s label)
      s labels)
    (runs : run (step cfg) s labels = .ok s')
    (suspended : (s.kernel.tasks.taskList tid).state = .suspended) :
    (s'.kernel.tasks.taskList tid).state = .suspended := by
  refine (meets.run_invariant
    (fun t => t.kernel.Sound cfg ∧ tid < t.kernel.tasks.nTasks ∧
      (t.kernel.tasks.taskList tid).state = .suspended)
    ?_ ⟨sound, created, suspended⟩ runs).2.2
  rintro t label t' ⟨soundHere, createdHere, suspendedHere⟩ ⟨alive, leaves⟩ steps
  exact ⟨step_sound soundHere steps,
    createdHere.trans_le (step_nTasks_le soundHere steps),
    step_keeps_suspended soundHere steps createdHere alive leaves suspendedHere⟩

/-- Killing is final and suspension ends on request only, as long as the task
does not get to a wait while it is killed or suspended; and a step at which it
does ends the killing or the suspension. -/
theorem killed_and_suspended_last
    (reachable : ReachableSys cfg s)
    (created : tid < s.kernel.tasks.nTasks)
    (meets : Meets (step cfg) (WaitsAlive cfg tid) s labels)
    (runs : run (step cfg) s labels = .ok s') :
    ((s.kernel.tasks.taskList tid).state = .killed →
      (s'.kernel.tasks.taskList tid).state = .killed ∧
      ∀ k, s'.kernel.selectTask cfg = .ok k → k.runningTid ≠ tid) ∧
    ((s.kernel.tasks.taskList tid).state = .suspended →
      Meets (step cfg) (LeavesSuspended tid) s labels →
      (s'.kernel.tasks.taskList tid).state = .suspended) ∧
    ∀ label s'', step cfg s' label = .ok s'' →
      (label.Kills s' tid → (s''.kernel.tasks.taskList tid).state = .killed) ∧
      ((s'.kernel.tasks.taskList tid).state = .killed →
        ((s''.kernel.tasks.taskList tid).state = .killed ↔
          WaitsAlive cfg tid s' label)) ∧
      ((s'.kernel.tasks.taskList tid).state = .suspended →
        LeavesSuspended tid s' label →
        ((s''.kernel.tasks.taskList tid).state = .suspended ↔
          WaitsAlive cfg tid s' label)) := by
  have sound := reachable_sound reachable
  have sound' := run_sound sound runs
  have created' := created.trans_le (run_nTasks_le sound runs)
  refine ⟨fun killed => ?_, fun suspended leaves => ?_, fun label s'' steps => ?_⟩
  · have still := run_keeps_killed sound created meets runs killed
    refine ⟨still, fun k selects same => ?_⟩
    have runsNow : k.runningTid ≠ noTid := by
      have small := sound'.nTasks_lt
      rw [same]
      omega
    have ready := Kernel.selectTask_ready selects runsNow
    rw [same, still] at ready
    cases ready
  · exact run_keeps_suspended sound created (meets.and leaves) runs suspended
  · refine ⟨step_kills sound' steps created', fun killed => ⟨?_, ?_⟩,
      fun suspended leaves => ⟨?_, ?_⟩⟩
    · intro still
      by_contra notAlive
      have waiting := step_waiting_of_not_alive sound' steps created' notAlive
      rw [still] at waiting
      rcases waiting with wrong | wrong | wrong | wrong <;> cases wrong
    · exact fun alive => step_keeps_killed sound' steps created' alive killed
    · intro still
      by_contra notAlive
      have waiting := step_waiting_of_not_alive sound' steps created' notAlive
      rw [still] at waiting
      rcases waiting with wrong | wrong | wrong | wrong <;> cases wrong
    · exact fun alive =>
        step_keeps_suspended sound' steps created' alive leaves suspended

end

/-- A killed task during two ticks and a scheduling pass. -/
theorem killed_and_suspended_last_setUp :
    ∃ s s', run (step (Config.small false)) (Sys.boot (Config.small false))
        (setUp 1 2 3 ++ [.call (.osTaskKill 0)]) = .ok s ∧
      run (step (Config.small false)) s [.call .osTick, .osSchedule] = .ok s' ∧
      (s'.kernel.tasks.taskList 0).state = .killed := by
  obtain ⟨s, s', before, after, checked⟩ := exists_runs_of_returnsWith
    (step (Config.small false)) (Sys.boot (Config.small false))
    (setUp 1 2 3 ++ [.call (.osTaskKill 0)]) [.call .osTick, .osSchedule]
    (fun states : Sys Nat × Sys Nat =>
      decide (0 < states.1.kernel.tasks.nTasks ∧
        (states.1.kernel.tasks.taskList 0).state = .killed))
    (by decide +kernel)
  obtain ⟨created, killed⟩ := of_decide_eq_true checked
  have meets : Meets (step (Config.small false)) (WaitsAlive (Config.small false) 0)
      s [.call .osTick, .osSchedule] :=
    ⟨fun _ _ labelled => (by cases labelled), fun _ _ =>
      ⟨fun _ _ labelled => (by cases labelled), fun _ _ => trivial⟩⟩
  exact ⟨s, s', before, after, ((killed_and_suspended_last
    (reachable_of_run before) created meets after).1 killed).1⟩

/-- An interrupt kills the running task, which goes on to `task_wait`: it waits
for its time as if it had never been killed. -/
theorem killed_running_task_waits :
    ∃ s s', run (step (Config.small false)) (Sys.boot (Config.small false))
        (setUp 1 2 3 ++ [.osSchedule, .call (.osTaskKill 0)]) = .ok s ∧
      run (step (Config.small false)) s [.task (.taskWaitId 0 5) 9] = .ok s' ∧
      (s.kernel.tasks.taskList 0).state = .killed ∧
      (s'.kernel.tasks.taskList 0).state = .waitingTime := by
  obtain ⟨s, s', before, after, checked⟩ := exists_runs_of_returnsWith
    (step (Config.small false)) (Sys.boot (Config.small false))
    (setUp 1 2 3 ++ [.osSchedule, .call (.osTaskKill 0)])
    [.task (.taskWaitId 0 5) 9]
    (fun states : Sys Nat × Sys Nat =>
      decide ((states.1.kernel.tasks.taskList 0).state = .killed ∧
        (states.2.kernel.tasks.taskList 0).state = .waitingTime))
    (by decide +kernel)
  exact ⟨s, s', before, after, of_decide_eq_true checked⟩

end CocoOs
