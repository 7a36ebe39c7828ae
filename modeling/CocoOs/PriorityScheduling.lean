import CocoOs.TaskSound

/-!
# Priority scheduling

The scan of `highest_prio_ready_task` starts from the priority 255 and looks
for smaller ones, so it runs the ready task of the smallest priority except
when the only ready task has priority 255.
-/

namespace CocoOs

open Foundation

variable {β : Type}

namespace TaskTable

/-- The task was created and is ready. -/
def Ready (tasks : TaskTable) (tid : Nat) : Prop :=
  tid < tasks.nTasks ∧ (tasks.taskList tid).state = .ready

instance (tasks : TaskTable) (tid : Nat) : Decidable (tasks.Ready tid) :=
  inferInstanceAs (Decidable (_ ∧ _))

/-- The scan finds the ready task of the smallest priority below 255. -/
theorem highestPrioReadyTask_cases (tasks : TaskTable) :
    (tasks.highestPrioReadyTask = noTid ∧
      ∀ tid, tasks.Ready tid → 255 ≤ (tasks.taskList tid).prio) ∨
    (tasks.Ready tasks.highestPrioReadyTask ∧
      (tasks.taskList tasks.highestPrioReadyTask).prio < 255 ∧
      ∀ tid, tasks.Ready tid →
        (tasks.taskList tasks.highestPrioReadyTask).prio ≤
          (tasks.taskList tid).prio) := by
  unfold highestPrioReadyTask
  rw [highestPrioStep_eq]
  have found := Scan.found_forEach
    (fun tid => (tasks.taskList tid).state = .ready)
    (fun tid => (tasks.taskList tid).prio) 255 noTid tasks.nTasks
  generalize forEach tasks.nTasks _ _ = scan at found ⊢
  cases found with
  | none noneBelow =>
      exact .inl ⟨rfl, fun tid ready => noneBelow tid ready.1 ready.2⟩
  | least index inside selected below least =>
      exact .inr ⟨⟨inside, selected⟩, below,
        fun tid ready => least tid ready.1 ready.2⟩

end TaskTable

namespace Kernel

/-- A pass of the scheduler that leaves this kernel runs the one ready task of
the smallest priority number when some task is ready, and sleeps only when none
is. -/
structure RunsHighestPrio (k k' : Kernel β) : Prop where
  runs : (∃ tid, k.tasks.Ready tid) →
    k.tasks.Ready k'.runningTid ∧
    ∀ tid, k.tasks.Ready tid → tid ≠ k'.runningTid →
      (k.tasks.taskList k'.runningTid).prio < (k.tasks.taskList tid).prio
  sleeps : k'.runningTid = noTid → ∀ tid, ¬ k.tasks.Ready tid

/-- With priority scheduling the choice is that of the scan. -/
theorem selectTask_priority
    {cfg : Config} {k : Kernel β}
    (priority : cfg.roundRobin = false) :
    k.selectTask cfg =
      .ok { k with runningTid := k.tasks.highestPrioReadyTask } := by
  unfold selectTask
  rw [priority, if_neg Bool.false_ne_true]

end Kernel

/-- In every reachable state of a priority scheduled kernel, a pass of the
scheduler runs the ready task of the smallest priority, and sleeps only when no
task is ready, exactly when no task is ready or some ready task has a priority
below 255. -/
theorem runsHighestPrio_iff
    {cfg : Config} {s : Sys β}
    (reachable : ReachableSys cfg s)
    (priority : cfg.roundRobin = false) :
    ∃ k', s.kernel.selectTask cfg = .ok k' ∧
      k'.runningTid = s.kernel.tasks.highestPrioReadyTask ∧
      (s.kernel.RunsHighestPrio k' ↔
        ((∃ tid, s.kernel.tasks.Ready tid) →
          ∃ tid, s.kernel.tasks.Ready tid ∧
            (s.kernel.tasks.taskList tid).prio < 255)) := by
  refine ⟨_, Kernel.selectTask_priority priority, rfl, ?_⟩
  have sound := reachable_sound reachable
  have prios := (reachable_tasksSound reachable).prios
  have found := s.kernel.tasks.highestPrioReadyTask_cases
  constructor
  · rintro ⟨runs, sleeps⟩ someReady
    obtain ⟨ready, _⟩ := runs someReady
    rcases found with ⟨none, _⟩ | ⟨_, below, _⟩
    · exact absurd ready (sleeps none _)
    · exact ⟨_, ready, below⟩
  · intro enough
    rcases found with ⟨none, atLeast⟩ | ⟨ready, below, least⟩
    · have noneReady : ∀ tid, ¬ s.kernel.tasks.Ready tid := by
        intro tid ready
        obtain ⟨other, otherReady, below⟩ := enough ⟨tid, ready⟩
        exact absurd (atLeast other otherReady) (Nat.not_le.mpr below)
      refine ⟨?_, fun _ => noneReady⟩
      rintro ⟨tid, ready⟩
      exact absurd ready (noneReady tid)
    · refine ⟨fun _ => ⟨ready, ?_⟩, ?_⟩
      · intro tid otherReady different
        apply Nat.lt_of_le_of_ne (least tid otherReady)
        exact prios _ _ ready.1 otherReady.1 (Ne.symm different)
      · intro none
        have small := sound.nTasks_lt
        have inside := ready.1
        change s.kernel.tasks.highestPrioReadyTask = noTid at none
        omega

/-- Three ready tasks, of which the scheduler runs the first. -/
theorem runsHighestPrio_setUp :
    ∃ s : Sys Nat, run (step (Config.small false))
        (Sys.boot (Config.small false)) (setUp 3 4 255) = .ok s ∧
      ∃ k', s.kernel.selectTask (Config.small false) = .ok k' ∧
        k'.runningTid = s.kernel.tasks.highestPrioReadyTask ∧
        (s.kernel.RunsHighestPrio k' ↔
          ((∃ tid, s.kernel.tasks.Ready tid) →
            ∃ tid, s.kernel.tasks.Ready tid ∧
              (s.kernel.tasks.taskList tid).prio < 255)) := by
  obtain ⟨s, runs⟩ := exists_of_isOk
    (run (step (Config.small false)) (Sys.boot (Config.small false))
      (setUp 3 4 255)) (by decide +kernel)
  exact ⟨s, runs, runsHighestPrio_iff (reachable_of_run runs) rfl⟩

/-- The only task has priority 255 and is ready, and the scheduler sleeps. -/
theorem lowest_prio_task_never_runs :
    ∃ s : Sys Nat, run (step (Config.small false))
        (Sys.boot (Config.small false))
        [.create (.osTaskCreate 1 0 255 (fun _ => ⟨0, 0, 0, 0⟩) 0 0), .osStart] =
          .ok s ∧
      s.kernel.tasks.Ready 0 ∧
      ∃ k', s.kernel.selectTask (Config.small false) = .ok k' ∧
        k'.runningTid = noTid ∧ ¬ s.kernel.RunsHighestPrio k' := by
  obtain ⟨s, runs, checked⟩ := exists_of_returnsWith
    (fun s : Sys Nat => decide (s.kernel.tasks.Ready 0 ∧
      s.kernel.tasks.highestPrioReadyTask = noTid))
    (run (step (Config.small false)) (Sys.boot (Config.small false))
      [.create (.osTaskCreate 1 0 255 (fun _ => ⟨0, 0, 0, 0⟩) 0 0), .osStart])
    (by decide +kernel)
  obtain ⟨ready, none⟩ := of_decide_eq_true checked
  refine ⟨s, runs, ready, _, Kernel.selectTask_priority rfl, none, ?_⟩
  intro correct
  exact correct.sleeps none 0 ready

end CocoOs
