import CocoOs.TaskIdentity
import CocoOs.Finality

/-!
# Tasks that are stopped

Nothing happens to a killed or suspended task that does not run: ticks, signals
and the other tasks leave its whole task control block alone.  A resumed task
therefore goes on with the remaining time and the events it had when it was
suspended.
-/

namespace CocoOs

open Foundation

variable {β : Type}

/-- The task is killed or suspended. -/
def Tcb.Stopped (task : Tcb) : Prop :=
  task.state = .killed ∨ task.state = .suspended

namespace Tcb

theorem Stopped.not_waitsForEvents {task : Tcb} (stopped : task.Stopped) :
    ¬ task.WaitsForEvents := by
  rcases stopped with state | state
  · rintro (waits | waits) <;> rw [state] at waits <;> cases waits
  · rintro (waits | waits) <;> rw [state] at waits <;> cases waits

theorem Stopped.tick
    {task : Tcb} (stopped : task.Stopped)
    (cfg : Config) (clockId tickSize : Nat) :
    task.tick cfg clockId tickSize = task := by
  rcases stopped with state | state <;> simp [Tcb.tick, state]

theorem Stopped.signalEvent
    {task : Tcb} (stopped : task.Stopped)
    (cfg : Config) (eventId : Nat) :
    task.signalEvent cfg eventId = task :=
  signalEvent_of_not cfg fun both => stopped.not_waitsForEvents both.2

theorem Stopped.suspend {task : Tcb} (stopped : task.Stopped) :
    task.suspend = task := by
  rcases stopped with state | state <;> simp [Tcb.suspend, state]

end Tcb

/-- The action ends the suspension of the task. -/
def Act.EndsSuspension (tid : Nat) : Act β → Prop
  | .resume other => other = tid
  | .kill other => other = tid
  | _ => False

/-- An action by another task leaves a stopped task as it is. -/
theorem Micro.stopped
    {cfg : Config} {k k' : Kernel β} {act : Act β} {tid : Nat}
    (acts : Micro cfg k act k')
    (created : tid < k.tasks.nTasks)
    (notRunning : k.runningTid ≠ tid)
    (stopped : (k.tasks.taskList tid).Stopped)
    (lasts : (k.tasks.taskList tid).state = .killed ∨ ¬ act.EndsSuspension tid) :
    k'.tasks.taskList tid = k.tasks.taskList tid := by
  rw [acts.taskList created]
  cases acts with
  | yield line => exact if_neg (Ne.symm notRunning)
  | block wait line inside enabled => exact if_neg (Ne.symm notRunning)
  | note noted => exact if_neg (Ne.symm notRunning)
  | suspend inside =>
      simp only [Act.onTask]
      split_ifs
      · exact stopped.suspend
      · rfl
  | resume inside =>
      simp only [Act.onTask]
      split_ifs with here
      · have killed := lasts.resolve_right (not_not.mpr here.symm)
        simp [Tcb.resume, killed]
      · rfl
  | kill inside =>
      simp only [Act.onTask]
      split_ifs with here
      · have killed := lasts.resolve_right (not_not.mpr here.symm)
        rw [Tcb.kill, ← killed]
      · rfl
  | tick other clockId tickSize inside =>
      simp only [Act.onTask]
      split_ifs
      · exact stopped.tick cfg clockId tickSize
      · rfl
  | signal events fits => exact stopped.signalEvent cfg _
  | release inside waits found =>
      simp only [Act.onTask]
      rw [if_neg]
      rintro rfl
      rcases stopped with state | state <;> rw [waits.1] at state <;> cases state
  | _ => rfl

/-- The scheduler does not choose a stopped task. -/
theorem Micro.stopped_notRunning
    {cfg : Config} {k k' : Kernel β} {act : Act β} {tid : Nat}
    (acts : Micro cfg k act k')
    (isTask : tid ≠ noTid)
    (notRunning : k.runningTid ≠ tid)
    (stopped : (k.tasks.taskList tid).Stopped) :
    k'.runningTid ≠ tid := by
  rw [acts.runningTid]
  cases acts with
  | select idle selects inside =>
      intro (same : k'.runningTid = tid)
      have ready := Kernel.selectTask_ready selects (same ▸ isTask)
      rw [same] at ready
      rcases stopped with state | state <;> rw [ready] at state <;> cases state
  | free | yield | block => exact Ne.symm isTask
  | _ => exact notRunning

section

variable {cfg : Config} {s s' : Sys β} {label : Label β} {tid : Nat}
variable {labels : List (Label β)}

/-- The step neither resumes nor kills the task, or the task is killed. -/
def StaysStopped (tid : Nat) (s : Sys β) (label : Label β) : Prop :=
  (s.kernel.tasks.taskList tid).state = .killed ∨ LeavesSuspended tid s label

/-- A step leaves the control block of a stopped task that does not run. -/
theorem step_stopped
    (sound : s.kernel.Sound cfg)
    (steps : step cfg s label = .ok s')
    (created : tid < s.kernel.tasks.nTasks)
    (notRunning : s.kernel.runningTid ≠ tid)
    (stopped : (s.kernel.tasks.taskList tid).Stopped)
    (stays : StaysStopped tid s label) :
    s'.kernel.tasks.taskList tid = s.kernel.tasks.taskList tid ∧
      s'.kernel.runningTid ≠ tid := by
  have isTask : tid ≠ noTid := Nat.ne_of_lt (created.trans sound.nTasks_lt)
  obtain ⟨acts, shape, trace⟩ := step_trace sound steps
  have after := trace.invariant
    (fun act => (s.kernel.tasks.taskList tid).state = .killed ∨
      ¬ act.EndsSuspension tid)
    (fun k => tid < k.tasks.nTasks ∧ k.runningTid ≠ tid ∧
      k.tasks.taskList tid = s.kernel.tasks.taskList tid)
    ?_ ?_ ⟨created, notRunning, rfl⟩
  · exact ⟨after.2.2, after.2.1⟩
  · rintro k act k' lasts ⟨createdHere, runsNot, same⟩ acts
    rw [← same] at stopped lasts
    exact ⟨createdHere.trans_le acts.nTasks_le,
      acts.stopped_notRunning isTask runsNot stopped,
      (acts.stopped createdHere runsNot stopped lasts).trans same⟩
  · intro act inside
    refine stays.imp id fun leaves ends => ?_
    have allowed := shape.allowed act inside
    cases act with
    | resume other =>
        have here : other = tid := ends
        exact leaves.1 (here ▸ allowed)
    | kill other =>
        have here : other = tid := ends
        exact leaves.2 (here ▸ allowed)
    | _ => exact ends

theorem run_stopped
    (sound : s.kernel.Sound cfg)
    (created : tid < s.kernel.tasks.nTasks)
    (notRunning : s.kernel.runningTid ≠ tid)
    (stopped : (s.kernel.tasks.taskList tid).Stopped)
    (stays : Meets (step cfg) (StaysStopped tid) s labels)
    (runs : run (step cfg) s labels = .ok s') :
    s'.kernel.tasks.taskList tid = s.kernel.tasks.taskList tid ∧
      s'.kernel.runningTid ≠ tid := by
  refine (stays.run_invariant
    (fun t => t.kernel.Sound cfg ∧ tid < t.kernel.tasks.nTasks ∧
      t.kernel.tasks.taskList tid = s.kernel.tasks.taskList tid ∧
      t.kernel.runningTid ≠ tid)
    ?_ ⟨sound, created, rfl, notRunning⟩ runs).2.2
  rintro t label t' ⟨soundHere, createdHere, same, runsNot⟩ here steps
  rw [← same] at stopped
  obtain ⟨sameAfter, runsNotAfter⟩ :=
    step_stopped soundHere steps createdHere runsNot stopped here
  exact ⟨step_sound soundHere steps,
    createdHere.trans_le (step_nTasks_le soundHere steps),
    sameAfter.trans same, runsNotAfter⟩

/-- Once a task is killed and no longer runs, nothing changes its control block
and the scheduler never chooses it. -/
theorem killed_task_is_frozen
    (reachable : ReachableSys cfg s)
    (created : tid < s.kernel.tasks.nTasks)
    (notRunning : s.kernel.runningTid ≠ tid)
    (killed : (s.kernel.tasks.taskList tid).state = .killed)
    (runs : run (step cfg) s labels = .ok s') :
    s'.kernel.tasks.taskList tid = s.kernel.tasks.taskList tid ∧
      s'.kernel.runningTid ≠ tid := by
  refine (run_invariant
    (fun t => t.kernel.Sound cfg ∧ tid < t.kernel.tasks.nTasks ∧
      t.kernel.tasks.taskList tid = s.kernel.tasks.taskList tid ∧
      t.kernel.runningTid ≠ tid)
    ?_ ⟨reachable_sound reachable, created, rfl, notRunning⟩ runs).2.2
  rintro t label t' ⟨sound, createdHere, same, runsNot⟩ steps
  have killedHere : (t.kernel.tasks.taskList tid).state = .killed := by
    rw [same, killed]
  obtain ⟨sameAfter, runsNotAfter⟩ := step_stopped sound steps createdHere
    runsNot (.inl killedHere) (.inl killedHere)
  exact ⟨step_sound sound steps,
    createdHere.trans_le (step_nTasks_le sound steps),
    sameAfter.trans same, runsNotAfter⟩

/-- A task killed while it waits for an event is signalled, resumed and ticked,
and stays as it was. -/
theorem killed_task_is_frozen_setUp :
    ∃ s s' : Sys Nat,
      run (step (Config.small false)) (Sys.boot (Config.small false))
        (setUp 1 2 3 ++ [.osSchedule, .task (.eventWaitTimeout 1 5) 2,
          .call (.osTaskKill 0)]) = .ok s ∧
      run (step (Config.small false)) s
        [.call (.eventIsrSignal 1), .call (.osTaskResume 0), .call .osTick,
          .osSchedule] = .ok s' ∧
      s'.kernel.tasks.taskList 0 = s.kernel.tasks.taskList 0 := by
  obtain ⟨s, s', before, after, checked⟩ := exists_runs_of_returnsWith
    (step (Config.small false)) (Sys.boot (Config.small false))
    (setUp 1 2 3 ++ [.osSchedule, .task (.eventWaitTimeout 1 5) 2,
      .call (.osTaskKill 0)])
    [.call (.eventIsrSignal 1), .call (.osTaskResume 0), .call .osTick,
      .osSchedule]
    (fun states : Sys Nat × Sys Nat =>
      decide (0 < states.1.kernel.tasks.nTasks ∧
        states.1.kernel.runningTid ≠ 0 ∧
        (states.1.kernel.tasks.taskList 0).state = .killed))
    (by decide +kernel)
  obtain ⟨created, notRunning, killed⟩ := of_decide_eq_true checked
  exact ⟨s, s', before, after, (killed_task_is_frozen (reachable_of_run before)
    created notRunning killed after).1⟩

/-! ## Requests -/

/-- What one action makes of a task. -/
theorem taskList_of_single
    {k k' : Kernel β} {act : Act β}
    (trace : Trace (Micro cfg) k [act] k')
    (created : tid < k.tasks.nTasks) :
    k'.tasks.taskList tid = act.onTask cfg tid (k.tasks.taskList tid) := by
  cases trace with
  | cons first rest =>
      cases rest
      exact first.taskList created

/-- A request to suspend a task that does not run does that and nothing else to
the task. -/
theorem step_suspends
    (sound : s.kernel.Sound cfg)
    (steps : step cfg s label = .ok s')
    (created : tid < s.kernel.tasks.nTasks)
    (notRunning : s.kernel.runningTid ≠ tid)
    (suspends : label.Suspends tid) :
    s'.kernel.tasks.taskList tid = (s.kernel.tasks.taskList tid).suspend ∧
      s'.kernel.runningTid ≠ tid := by
  have isTask : tid ≠ noTid := Nat.ne_of_lt (created.trans sound.nTasks_lt)
  have notChosen : scheduled cfg s label ≠ some tid := by
    cases label with
    | osSchedule => exact suspends.elim
    | _ => simp [scheduled]
  refine ⟨?_, step_notRunning sound steps isTask notRunning notChosen⟩
  obtain ⟨acts, shape, trace⟩ := step_trace sound steps
  generalize s'.frame = frame at shape
  cases shape with
  | call calls =>
      cases calls with
      | osTaskSuspend id =>
          have named : id.toNat = tid := suspends
          exact (taskList_of_single trace created).trans (if_pos named.symm)
      | _ => exact suspends.elim
  | task runs takes =>
      cases takes with
      | taskSuspend id =>
          have named : id.toNat = tid := suspends
          rw [named, Kernel.selfYieldActs, if_neg (Ne.symm notRunning)] at trace
          exact (taskList_of_single trace created).trans (if_pos rfl)
      | _ => exact suspends.elim
  | _ => exact suspends.elim

/-- A request to resume a task that does not run does that and nothing else to
the task. -/
theorem step_resumesTask
    (sound : s.kernel.Sound cfg)
    (steps : step cfg s label = .ok s')
    (created : tid < s.kernel.tasks.nTasks)
    (notRunning : s.kernel.runningTid ≠ tid)
    (resumes : label.Resumes tid) :
    s'.kernel.tasks.taskList tid = (s.kernel.tasks.taskList tid).resume := by
  obtain ⟨acts, shape, trace⟩ := step_trace sound steps
  generalize s'.frame = frame at shape
  cases shape with
  | call calls =>
      cases calls with
      | osTaskResume id =>
          have named : id.toNat = tid := resumes
          exact (taskList_of_single trace created).trans (if_pos named.symm)
      | _ => exact resumes.elim
  | task runs takes =>
      cases takes with
      | taskResume id =>
          have named : id.toNat = tid := resumes
          rw [named, Kernel.selfYieldActs, if_neg (Ne.symm notRunning)] at trace
          exact (taskList_of_single trace created).trans (if_pos rfl)
      | _ => exact resumes.elim
  | _ => exact resumes.elim

/-! ## Suspending and resuming -/

/-- A task that is suspended and later resumed has the control block it had,
but for the saved state; one that waited for a semaphore is ready to start at
its top. -/
theorem suspension_round_trip
    {suspends resumes : Label β} {before after : Sys β}
    (reachable : ReachableSys cfg before)
    (created : tid < before.kernel.tasks.nTasks)
    (notRunning : before.kernel.runningTid ≠ tid)
    (active : ¬ (before.kernel.tasks.taskList tid).Stopped)
    (isSuspend : suspends.Suspends tid)
    (suspended : step cfg before suspends = .ok s)
    (leaves : Meets (step cfg) (LeavesSuspended tid) s labels)
    (runs : run (step cfg) s labels = .ok s')
    (isResume : resumes.Resumes tid)
    (resumed : step cfg s' resumes = .ok after) :
    after.kernel.tasks.taskList tid =
      if (before.kernel.tasks.taskList tid).state = .waitingSem then
        { before.kernel.tasks.taskList tid with
          state := .ready, savedState := .ready, internalState := 0 }
      else
        { before.kernel.tasks.taskList tid with
          savedState := (before.kernel.tasks.taskList tid).state } := by
  have sound := reachable_sound reachable
  have soundThen := step_sound sound suspended
  have createdThen := created.trans_le (step_nTasks_le sound suspended)
  obtain ⟨suspendedNow, runsNot⟩ :=
    step_suspends sound suspended created notRunning isSuspend
  have notStopped : (before.kernel.tasks.taskList tid).state ≠ .killed ∧
      (before.kernel.tasks.taskList tid).state ≠ .suspended :=
    not_or.mp active
  have stopped : (s.kernel.tasks.taskList tid).Stopped := by
    rw [suspendedNow, Tcb.suspend, if_pos notStopped]
    right
    split_ifs <;> rfl
  obtain ⟨frozen, runsNotLater⟩ := run_stopped soundThen createdThen runsNot
    stopped (leaves.mono fun _ _ here => .inr here) runs
  rw [step_resumesTask (run_sound soundThen runs) resumed
    (createdThen.trans_le (run_nTasks_le soundThen runs)) runsNotLater isResume,
    frozen, suspendedNow, Tcb.suspend, if_pos notStopped]
  split_ifs with sem
  · rfl
  · rfl

end

/-- A task that sleeps for five ticks is suspended for one of them, and has five
left when it is resumed. -/
theorem suspension_round_trip_setUp :
    ∃ s s' after : Sys Nat,
      run (step (Config.small false)) (Sys.boot (Config.small false))
        (setUp 1 2 3 ++ [.osSchedule, .task (.taskWaitId 0 5) 2]) = .ok s ∧
      run (step (Config.small false)) s
        [.call (.osTaskSuspend 0), .call .osTick] = .ok s' ∧
      step (Config.small false) s' (.call (.osTaskResume 0)) = .ok after ∧
      (after.kernel.tasks.taskList 0).state = .waitingTime ∧
      (after.kernel.tasks.taskList 0).time = 5 := by
  obtain ⟨before, after, reaches, runs, checked⟩ := exists_runs_of_returnsWith
    (step (Config.small false)) (Sys.boot (Config.small false))
    (setUp 1 2 3 ++ [.osSchedule, .task (.taskWaitId 0 5) 2])
    [.call (.osTaskSuspend 0), .call .osTick, .call (.osTaskResume 0)]
    (fun states : Sys Nat × Sys Nat =>
      decide (0 < states.1.kernel.tasks.nTasks ∧
        states.1.kernel.runningTid ≠ 0 ∧
        (states.1.kernel.tasks.taskList 0).state = .waitingTime ∧
        (states.1.kernel.tasks.taskList 0).time = 5))
    (by decide +kernel)
  obtain ⟨created, notRunning, state, time⟩ := of_decide_eq_true checked
  obtain ⟨s, suspended, rest⟩ := run_cons_eq_ok_iff.mp runs
  obtain ⟨s', ticked, last⟩ := run_cons_eq_ok_iff.mp rest
  obtain ⟨after', resumed, ends⟩ := run_cons_eq_ok_iff.mp last
  have ended := Except.ok.inj ends
  subst ended
  have active : ¬ (before.kernel.tasks.taskList 0).Stopped := by
    rintro (wrong | wrong) <;> rw [state] at wrong <;> cases wrong
  have leaves : Meets (step (Config.small false)) (LeavesSuspended 0) s
      [.call .osTick] :=
    ⟨⟨id, id⟩, fun _ _ => trivial⟩
  have isSuspend : (Label.call (.osTaskSuspend 0) : Label Nat).Suspends 0 := rfl
  have isResume : (Label.call (.osTaskResume 0) : Label Nat).Resumes 0 := rfl
  have trip := suspension_round_trip (reachable_of_run reaches) created
    notRunning active isSuspend suspended leaves
    (run_cons_eq_ok_iff.mpr ⟨s', ticked, rfl⟩) isResume resumed
  rw [if_neg (by rw [state]; decide)] at trip
  refine ⟨before, s', after', reaches, ?_, resumed, ?_, ?_⟩
  · exact run_cons_eq_ok_iff.mpr ⟨s, suspended,
      run_cons_eq_ok_iff.mpr ⟨s', ticked, rfl⟩⟩
  · rw [trip]
    exact state
  · rw [trip]
    exact time

end CocoOs
