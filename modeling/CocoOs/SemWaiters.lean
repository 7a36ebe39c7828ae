import CocoOs.Task
import CocoOs.Foundation.Scan
import Mathlib.Data.Nat.Basic

/-!
# The tasks waiting for a semaphore

What the two scans of the task table behind a semaphore signal find: whether a
created task waits for the semaphore, and which of them is released.
-/

namespace CocoOs

open Foundation

namespace TaskTable

/-- A created task waits for the semaphore. -/
def SomeWaiter (tasks : TaskTable) (sem : Int) : Prop :=
  ∃ tid, tid < tasks.nTasks ∧ (tasks.taskList tid).WaitsForSem sem

/-! ## Whether a task waits -/

theorem waitingThisSemaphoreFrom_iff
    (tasks : TaskTable) (sem : Int) (remaining tid : Nat) :
    tasks.waitingThisSemaphoreFrom sem remaining tid = true ↔
      ∃ other, tid ≤ other ∧ other < tid + remaining ∧
        (tasks.taskList other).WaitsForSem sem := by
  induction remaining generalizing tid with
  | zero =>
      simp only [waitingThisSemaphoreFrom, Bool.false_eq_true, false_iff]
      rintro ⟨other, after, before, _⟩
      omega
  | succ remaining inductionHypothesis =>
      rw [waitingThisSemaphoreFrom]
      by_cases waits : (tasks.taskList tid).WaitsForSem sem
      · rw [if_pos waits]
        simp only [true_iff]
        exact ⟨tid, le_rfl, by omega, waits⟩
      · rw [if_neg waits, inductionHypothesis]
        constructor
        · rintro ⟨other, after, before, otherWaits⟩
          exact ⟨other, by omega, by omega, otherWaits⟩
        · rintro ⟨other, after, before, otherWaits⟩
          have different : other ≠ tid := by
            rintro rfl
            exact waits otherWaits
          exact ⟨other, by omega, by omega, otherWaits⟩

/-- `os_task_waiting_this_semaphore` tells whether some task waits. -/
theorem osTaskWaitingThisSemaphore_iff (tasks : TaskTable) (sem : Int) :
    tasks.osTaskWaitingThisSemaphore sem = true ↔ tasks.SomeWaiter sem := by
  rw [osTaskWaitingThisSemaphore, waitingThisSemaphoreFrom_iff]
  constructor
  · rintro ⟨tid, _, inside, waits⟩
    exact ⟨tid, by omega, waits⟩
  · rintro ⟨tid, inside, waits⟩
    exact ⟨tid, by omega, by omega, waits⟩

/-! ## Which task is released -/

/-- The priority scan is the library scan for the least priority. -/
theorem releasePrioStep_eq (tasks : TaskTable) (sem : Int) :
    tasks.releasePrioStep sem =
      Scan.scanStep (fun tid => (tasks.taskList tid).WaitsForSem sem)
        (fun tid => (tasks.taskList tid).prio) := rfl

/-- What the round-robin scan of the first `count` tasks has found. -/
def LongestFound
    (tasks : TaskTable) (sem : Int) (count : Nat) (found : LongestWait) :
    Prop :=
  (found.lastCheckedTask = noTid → ∀ tid, tid < count →
    ¬ (tasks.taskList tid).WaitsForSem sem) ∧
  (found.lastCheckedTask ≠ noTid → found.lastCheckedTask < count ∧
    (tasks.taskList found.lastCheckedTask).WaitsForSem sem) ∧
  (found.longestWaitTime = 0 → found.foundTask = noTid) ∧
  (found.longestWaitTime ≠ 0 → found.foundTask < count ∧
    (tasks.taskList found.foundTask).WaitsForSem sem ∧
    (tasks.taskList found.foundTask).time = found.longestWaitTime) ∧
  (∀ tid, tid < count → (tasks.taskList tid).WaitsForSem sem →
    (tasks.taskList tid).time ≤ found.longestWaitTime)

theorem longestFound_forEach
    (tasks : TaskTable) (sem : Int) {count : Nat} (inside : count < noTid) :
    tasks.LongestFound sem count
      (forEach count (tasks.releaseRoundRobinStep sem)
        { longestWaitTime := 0
          lastCheckedTask := noTid
          foundTask := noTid }) := by
  refine forEach_invariant (fun count => tasks.LongestFound sem count) ?_ ?_
  · simp [LongestFound]
  · rintro next found before ⟨noneYet, last, zero, positive, longest⟩
    have different : next ≠ noTid := by omega
    unfold LongestFound
    by_cases waits : (tasks.taskList next).WaitsForSem sem
    · by_cases longer : found.longestWaitTime < (tasks.taskList next).time
      · have stepped : tasks.releaseRoundRobinStep sem next found =
            { longestWaitTime := (tasks.taskList next).time
              lastCheckedTask := next
              foundTask := next } := by
          simp [releaseRoundRobinStep, waits, longer]
        rw [stepped]
        refine ⟨fun same => absurd same different,
          fun _ => ⟨Nat.lt_succ_self next, waits⟩,
          fun none => absurd none (Nat.ne_zero_of_lt longer),
          fun _ => ⟨Nat.lt_succ_self next, waits, rfl⟩, ?_⟩
        intro tid tidInside tidWaits
        rcases Nat.lt_succ_iff_lt_or_eq.mp tidInside with earlier | same
        · exact (longest tid earlier tidWaits).trans longer.le
        · exact same ▸ le_rfl
      · have stepped : tasks.releaseRoundRobinStep sem next found =
            { found with lastCheckedTask := next } := by
          simp [releaseRoundRobinStep, waits, longer]
        rw [stepped]
        refine ⟨fun same => absurd same different,
          fun _ => ⟨Nat.lt_succ_self next, waits⟩, zero, fun nonzero => ?_, ?_⟩
        · obtain ⟨foundInside, foundWaits, foundTime⟩ := positive nonzero
          exact ⟨Nat.lt_succ_of_lt foundInside, foundWaits, foundTime⟩
        · intro tid tidInside tidWaits
          rcases Nat.lt_succ_iff_lt_or_eq.mp tidInside with earlier | same
          · exact longest tid earlier tidWaits
          · subst same
            exact not_lt.mp longer
    · have stepped :
          tasks.releaseRoundRobinStep sem next found = found := by
        simp [releaseRoundRobinStep, waits]
      rw [stepped]
      refine ⟨fun same tid tidInside => ?_, fun nonzero => ?_, zero,
        fun nonzero => ?_, fun tid tidInside tidWaits => ?_⟩
      · rcases Nat.lt_succ_iff_lt_or_eq.mp tidInside with earlier | last
        · exact noneYet same tid earlier
        · exact last ▸ waits
      · exact ⟨Nat.lt_succ_of_lt (last nonzero).1, (last nonzero).2⟩
      · exact ⟨Nat.lt_succ_of_lt (positive nonzero).1, (positive nonzero).2⟩
      · rcases Nat.lt_succ_iff_lt_or_eq.mp tidInside with earlier | last
        · exact longest tid earlier tidWaits
        · exact absurd (last ▸ tidWaits) waits

/-- The waiters `os_task_release_waiting_task` can find: with priority
scheduling, those above the lowest priority 255. -/
def Findable (cfg : Config) (tasks : TaskTable) (sem : Int) (tid : Nat) :
    Prop :=
  tid < tasks.nTasks ∧ (tasks.taskList tid).WaitsForSem sem ∧
    (cfg.roundRobin = false → (tasks.taskList tid).prio < 255)

/-- `os_task_release_waiting_task` finds a waiter when there is one it can
find; with priority scheduling it is one of least priority value, with round
robin one that has waited longest. -/
theorem findWaitingTask_spec
    (cfg : Config) (tasks : TaskTable) (sem : Int)
    (inside : tasks.nTasks < noTid) :
    (tasks.findWaitingTask cfg sem = noTid ∧
      ∀ tid, ¬ tasks.Findable cfg sem tid) ∨
    (tasks.Findable cfg sem (tasks.findWaitingTask cfg sem) ∧
      ∀ tid, tid < tasks.nTasks → (tasks.taskList tid).WaitsForSem sem →
        if cfg.roundRobin then
          (tasks.taskList tid).time ≤
            (tasks.taskList (tasks.findWaitingTask cfg sem)).time
        else
          (tasks.taskList (tasks.findWaitingTask cfg sem)).prio ≤
            (tasks.taskList tid).prio) := by
  unfold findWaitingTask Findable
  by_cases roundRobin : cfg.roundRobin = true
  · simp only [roundRobin, if_true]
    have found := tasks.longestFound_forEach sem inside
    generalize forEach tasks.nTasks (tasks.releaseRoundRobinStep sem) _ = scan
      at found
    obtain ⟨noneYet, last, zero, positive, longest⟩ := found
    by_cases someChecked : scan.lastCheckedTask = noTid
    · left
      have noWaiter := noneYet someChecked
      refine ⟨?_, fun tid findable => noWaiter tid findable.1 findable.2.1⟩
      rw [if_neg fun both => both.2 someChecked.symm]
      by_contra found
      have nonzero : scan.longestWaitTime ≠ 0 := fun same => found (zero same)
      exact noWaiter scan.foundTask (positive nonzero).1 (positive nonzero).2.1
    · right
      obtain ⟨lastInside, lastWaits⟩ := last someChecked
      by_cases allZero : scan.longestWaitTime = 0
      · rw [if_pos ⟨allZero, fun same => someChecked same.symm⟩]
        refine ⟨⟨lastInside, lastWaits, by simp⟩, fun tid tidInside waits => ?_⟩
        have atMost := longest tid tidInside waits
        omega
      · rw [if_neg fun both => allZero both.1]
        obtain ⟨foundInside, foundWaits, foundTime⟩ := positive allZero
        refine ⟨⟨foundInside, foundWaits, by simp⟩,
          fun tid tidInside waits => ?_⟩
        exact (longest tid tidInside waits).trans foundTime.symm.le
  · simp only [roundRobin, if_false, Bool.false_eq_true]
    rw [releasePrioStep_eq]
    have found := Scan.found_forEach
      (fun tid => (tasks.taskList tid).WaitsForSem sem)
      (fun tid => (tasks.taskList tid).prio) 255 noTid tasks.nTasks
    generalize forEach tasks.nTasks _ _ = scan at found
    cases found with
    | none noneBelow =>
        left
        refine ⟨rfl, fun tid findable => ?_⟩
        obtain ⟨tidInside, waits, below⟩ := findable
        have notBelow := noneBelow tid tidInside waits
        have isBelow := below trivial
        omega
    | least index indexInside selected below least =>
        right
        exact ⟨⟨indexInside, selected, fun _ => below⟩, least⟩

end TaskTable

end CocoOs
