import CocoOs.TaskView
import CocoOs.Foundation.Scan
import Mathlib.Data.Nat.Basic

/-!
# The scheduler's choice

Both variants of the scheduler choose a task that is ready, when they choose
one at all.
-/

namespace CocoOs

open Foundation

variable {β : Type}

namespace TaskTable

/-- The round-robin loop stops at a task that is ready. -/
theorem nextReadyTaskLoop_ready
    {cfg : Config} {tasks : TaskTable} {fuel index nChecked tid : Nat}
    (returns : tasks.nextReadyTaskLoop cfg fuel index nChecked =
      .ok (some tid)) :
    tid < cfg.nTasks ∧ (tasks.taskList tid).state = .ready := by
  induction fuel generalizing index nChecked with
  | zero => cases returns
  | succ fuel inductionHypothesis =>
      unfold nextReadyTaskLoop at returns
      rw [guard_eq_ok_iff] at returns
      obtain ⟨inside, returns⟩ := returns
      by_cases ready : (tasks.taskList index).state = .ready
      · rw [if_pos ready] at returns
        simp only [Except.ok.injEq, Option.some.injEq] at returns
        exact returns ▸ ⟨inside, ready⟩
      · rw [if_neg ready] at returns
        dsimp only at returns
        by_cases more : (nChecked + 1) % 256 ≠ tasks.nTasks
        · rw [if_pos more] at returns
          exact inductionHypothesis returns
        · rw [if_neg more] at returns
          simp at returns

theorem nextReadyTask_ready
    {cfg : Config} {tasks tasks' : TaskTable} {tid : Nat}
    (returns : tasks.nextReadyTask cfg = .ok (tid, tasks'))
    (runs : tid ≠ noTid) :
    (tasks.taskList tid).state = .ready := by
  unfold nextReadyTask at returns
  obtain ⟨found, loops, result⟩ := bind_eq_ok_iff.mp returns
  simp only [Except.ok.injEq, Prod.mk.injEq] at result
  cases found with
  | none => exact absurd result.1.symm runs
  | some index =>
      obtain ⟨inside, ready⟩ := nextReadyTaskLoop_ready loops
      have small := cfg.nTasks_lt
      have same : index % 256 = index := Nat.mod_eq_of_lt (by omega)
      have tidEq : tid = index := result.1.symm.trans same
      exact tidEq ▸ ready

theorem highestPrioStep_eq (tasks : TaskTable) :
    tasks.highestPrioStep =
      Scan.scanStep (fun tid => (tasks.taskList tid).state = .ready)
        (fun tid => (tasks.taskList tid).prio) := rfl

/-- The priority scan never chooses a task of the lowest priority 255. -/
theorem highestPrioReadyTask_ready
    (tasks : TaskTable)
    (runs : tasks.highestPrioReadyTask ≠ noTid) :
    (tasks.taskList tasks.highestPrioReadyTask).state = .ready ∧
      (tasks.taskList tasks.highestPrioReadyTask).prio < 255 := by
  unfold highestPrioReadyTask at runs ⊢
  rw [highestPrioStep_eq] at runs ⊢
  have found := Scan.found_forEach
    (fun tid => (tasks.taskList tid).state = .ready)
    (fun tid => (tasks.taskList tid).prio) 255 noTid tasks.nTasks
  generalize forEach tasks.nTasks _ _ = scan at found runs ⊢
  cases found with
  | none _ => exact absurd rfl runs
  | least index inside selected below least => exact ⟨selected, below⟩

end TaskTable

/-- The scheduler chooses a task that is ready. -/
theorem Kernel.selectTask_ready
    {cfg : Config} {k k' : Kernel β}
    (selects : k.selectTask cfg = .ok k')
    (runs : k'.runningTid ≠ noTid) :
    (k.tasks.taskList k'.runningTid).state = .ready := by
  unfold selectTask at selects
  by_cases roundRobin : cfg.roundRobin = true
  · rw [if_pos roundRobin] at selects
    obtain ⟨⟨tid, tasks⟩, returns, result⟩ := bind_eq_ok_iff.mp selects
    have chosen := Except.ok.inj result
    subst chosen
    exact TaskTable.nextReadyTask_ready returns runs
  · rw [if_neg roundRobin] at selects
    have chosen := Except.ok.inj selects
    subst chosen
    exact (k.tasks.highestPrioReadyTask_ready runs).1

/-- With priority scheduling a task of priority 255 never runs. -/
theorem Kernel.selectTask_prio
    {cfg : Config} {k k' : Kernel β}
    (priority : cfg.roundRobin = false)
    (selects : k.selectTask cfg = .ok k')
    (runs : k'.runningTid ≠ noTid) :
    (k.tasks.taskList k'.runningTid).prio < 255 := by
  unfold selectTask at selects
  rw [priority, if_neg Bool.false_ne_true] at selects
  have chosen := Except.ok.inj selects
  subst chosen
  exact (k.tasks.highestPrioReadyTask_ready runs).2

end CocoOs
