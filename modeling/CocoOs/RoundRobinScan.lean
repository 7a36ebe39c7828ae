import CocoOs.RoundRobin
import Mathlib.Data.List.Nodup

/-!
# The scan of `next_ready_task`

The loop of `next_ready_task` once more, with the entries of `task_list` it
reads, one an iteration.  Around a ring with a task in it the scan reads created
tasks only, each once at most and in order; with no task at all it reads an
entry that is none.
-/

namespace CocoOs

open Foundation

namespace TaskTable

/-! ## The loop with the entries it reads -/

/-- The `do`-`while` loop of `next_ready_task`, with the index that each
iteration reads. -/
def nextReadyTaskVisits (cfg : Config) (tasks : TaskTable) :
    Nat → Nat → Nat → List Nat × Outcome (Option Nat)
  | 0, _, _ => ([], .error .divergence)
  | fuel + 1, index, nChecked =>
      if index < cfg.nTasks then
        if (tasks.taskList index).state = .ready then ([index], .ok (some index))
        else
          let next := index + 1
          let next := if next = tasks.nTasks then 0 else next
          let nChecked := (nChecked + 1) % 256
          if nChecked ≠ tasks.nTasks then
            let rest := nextReadyTaskVisits cfg tasks fuel next nChecked
            (index :: rest.1, rest.2)
          else ([index], .ok none)
      else ([index], .error .bounds)

theorem nextReadyTaskVisits_snd
    (cfg : Config) (tasks : TaskTable) (fuel index nChecked : Nat) :
    (tasks.nextReadyTaskVisits cfg fuel index nChecked).2 =
      tasks.nextReadyTaskLoop cfg fuel index nChecked := by
  induction fuel generalizing index nChecked with
  | zero => rfl
  | succ fuel inductionHypothesis =>
      unfold nextReadyTaskVisits nextReadyTaskLoop
      split_ifs
      · rfl
      · dsimp only
        split_ifs
        · exact inductionHypothesis _ _
        · exact inductionHypothesis _ _
        · rfl
      · rfl

/-- The entries of `task_list` that `next_ready_task` reads. -/
def nextReadyTaskReads (cfg : Config) (tasks : TaskTable) : List Nat :=
  (tasks.nextReadyTaskVisits cfg 256 tasks.scanStart 0).1

/-- `next_ready_task` is the loop whose reads these are. -/
theorem nextReadyTask_eq_visits (cfg : Config) (tasks : TaskTable) :
    tasks.nextReadyTask cfg =
      (tasks.nextReadyTaskVisits cfg 256 tasks.scanStart 0).2 >>= fun found =>
        .ok (found.getD noTid % 256,
          { tasks with lastRunningTask := found.getD noTid }) := by
  rw [nextReadyTaskVisits_snd]
  rfl

/-! ## The ring of created tasks -/

/-- The created tasks around the ring from an index. -/
def ringFrom (tasks : TaskTable) (index count : Nat) : List Nat :=
  (List.range count).map fun ahead => (index + ahead) % tasks.nTasks

/-- The created tasks in cyclic order, from the one after `last_running_task`
or the first when there is none. -/
def ringOrder (tasks : TaskTable) : List Nat :=
  tasks.ringFrom
    (if tasks.lastRunningTask + 1 < tasks.nTasks then tasks.lastRunningTask + 1
    else 0) tasks.nTasks

theorem ringFrom_succ
    (tasks : TaskTable) {index count next : Nat}
    (inside : index < tasks.nTasks)
    (same : next = (index + 1) % tasks.nTasks) :
    tasks.ringFrom index (count + 1) = index :: tasks.ringFrom next count := by
  unfold ringFrom
  rw [List.range_succ_eq_map, List.map_cons, List.map_map, Nat.add_zero,
    Nat.mod_eq_of_lt inside]
  congr 1
  apply List.map_congr_left
  intro ahead _
  rw [same, Nat.mod_add_mod, Function.comp_apply]
  congr 1
  omega

theorem ringFrom_lt
    (tasks : TaskTable) (some : 0 < tasks.nTasks) (index count : Nat) :
    ∀ tid ∈ tasks.ringFrom index count, tid < tasks.nTasks := by
  intro tid inside
  obtain ⟨ahead, _, rfl⟩ := List.mem_map.mp inside
  exact Nat.mod_lt _ some

/-- Once around the ring no task comes twice. -/
theorem ringFrom_nodup (tasks : TaskTable) (index : Nat) :
    (tasks.ringFrom index tasks.nTasks).Nodup := by
  refine List.Nodup.map_on ?_ List.nodup_range
  intro first firstInside second secondInside meets
  have congruent : first ≡ second [MOD tasks.nTasks] :=
    Nat.ModEq.add_left_cancel' index meets
  exact congruent.eq_of_lt_of_lt (List.mem_range.mp firstInside)
    (List.mem_range.mp secondInside)

theorem ringOrder_eq
    {cfg : Config} {tasks : TaskTable} (within : tasks.nTasks ≤ cfg.nTasks) :
    tasks.ringOrder = tasks.ringFrom tasks.scanStart tasks.nTasks := by
  have small := cfg.nTasks_lt
  unfold ringOrder scanStart
  by_cases none : noTid = tasks.lastRunningTask
  · rw [if_pos none, if_neg]
    rw [← none]
    unfold noTid
    omega
  · rw [if_neg none]
    by_cases wraps : tasks.nTasks ≤ tasks.lastRunningTask + 1
    · rw [if_pos wraps, if_neg (Nat.not_lt.mpr wraps)]
    · rw [if_neg wraps, if_pos (Nat.not_le.mp wraps)]

/-- Every created task is on the ring. -/
theorem mem_ringOrder
    {cfg : Config} {tasks : TaskTable} {tid : Nat}
    (within : tasks.nTasks ≤ cfg.nTasks)
    (created : tid < tasks.nTasks) :
    tid ∈ tasks.ringOrder := by
  rw [ringOrder_eq within]
  apply List.mem_map.mpr
  refine ⟨tasks.distanceTo tid, ?_, tasks.scanStart_add_distanceTo created⟩
  exact List.mem_range.mpr (tasks.distanceTo_lt tid (Nat.zero_lt_of_lt created))

/-! ## What the scan reads and finds -/

/-- The loop reads the tasks it has still to check, in order, up to the one it
finds. -/
theorem nextReadyTaskVisits_prefix
    {cfg : Config} {tasks : TaskTable}
    (within : tasks.nTasks ≤ cfg.nTasks)
    (fuel index nChecked : Nat)
    (inside : index < tasks.nTasks)
    (more : nChecked < tasks.nTasks) :
    (tasks.nextReadyTaskVisits cfg fuel index nChecked).1 <+:
      tasks.ringFrom index (tasks.nTasks - nChecked) := by
  have small := cfg.nTasks_lt
  induction fuel generalizing index nChecked with
  | zero => exact List.nil_prefix
  | succ fuel inductionHypothesis =>
      obtain ⟨next, nextEq, nextInside, nextSame⟩ :
          ∃ next, next = (if index + 1 = tasks.nTasks then 0 else index + 1) ∧
            next < tasks.nTasks ∧ next = (index + 1) % tasks.nTasks := by
        by_cases wraps : index + 1 = tasks.nTasks
        · exact ⟨0, (if_pos wraps).symm, by omega, by rw [wraps, Nat.mod_self]⟩
        · exact ⟨index + 1, (if_neg wraps).symm, by omega,
            (Nat.mod_eq_of_lt (by omega)).symm⟩
      have remaining : tasks.nTasks - nChecked =
          tasks.nTasks - (nChecked + 1) + 1 := by omega
      have here : [index] <+: tasks.ringFrom index (tasks.nTasks - nChecked) := by
        rw [remaining, tasks.ringFrom_succ inside nextSame]
        exact List.prefix_append [index] _
      unfold nextReadyTaskVisits
      rw [if_pos (by omega)]
      by_cases ready : (tasks.taskList index).state = .ready
      · rw [if_pos ready]
        exact here
      · rw [if_neg ready]
        dsimp only
        rw [← nextEq, Nat.mod_eq_of_lt (by omega : nChecked + 1 < 256)]
        by_cases last : nChecked + 1 ≠ tasks.nTasks
        · rw [if_pos last, remaining, tasks.ringFrom_succ inside nextSame]
          exact (List.prefix_cons_inj index).mpr
            (inductionHypothesis next (nChecked + 1) nextInside (by omega))
        · rw [if_neg last]
          exact here

/-- An iteration reads an entry whatever it finds there. -/
theorem mem_nextReadyTaskVisits
    (cfg : Config) (tasks : TaskTable) (fuel index nChecked : Nat) :
    index ∈ (tasks.nextReadyTaskVisits cfg (fuel + 1) index nChecked).1 := by
  unfold nextReadyTaskVisits
  split_ifs
  · exact List.mem_singleton_self _
  · dsimp only
    split_ifs
    · exact List.mem_cons_self ..
    · exact List.mem_cons_self ..
    · exact List.mem_singleton_self _
  · exact List.mem_singleton_self _

/-- The first ready task among those around the ring is the first of the list
of them. -/
theorem FirstReady.find?_ringFrom
    {tasks : TaskTable} {index remaining : Nat} {found : Option Nat}
    (first : FirstReady tasks index remaining found) :
    (tasks.ringFrom index remaining).find?
      (fun tid => (tasks.taskList tid).state = .ready) = found := by
  unfold ringFrom
  rw [List.find?_map]
  cases first with
  | none noneReady =>
      rw [Option.map_eq_none_iff, List.find?_eq_none]
      intro ahead inside
      simpa using noneReady ahead (List.mem_range.mp inside)
  | some distance inside ready first =>
      have found : (List.range remaining).find?
          ((fun tid => decide ((tasks.taskList tid).state = .ready)) ∘
            fun ahead => (index + ahead) % tasks.nTasks) = Option.some distance := by
        rw [List.find?_range_eq_some]
        refine ⟨by simpa using ready, List.mem_range.mpr inside, ?_⟩
        intro ahead before
        simpa using first ahead before
      rw [found]
      rfl

/-- The scan is exact: it reads created tasks only, each once at most and in
cyclic order, and returns the first ready one in that order, or `NO_TID` when
none is ready. -/
structure ScanExact (cfg : Config) (tasks : TaskTable) : Prop where
  inside : ∀ index ∈ tasks.nextReadyTaskReads cfg, index < tasks.nTasks
  once : (tasks.nextReadyTaskReads cfg).Nodup
  inOrder : tasks.nextReadyTaskReads cfg <+: tasks.ringOrder
  returns : ∃ tid tasks', tasks.nextReadyTask cfg = .ok (tid, tasks') ∧
    (tid = noTid ↔
      ∀ index, index < tasks.nTasks → (tasks.taskList index).state ≠ .ready) ∧
    (tid ≠ noTid →
      tasks.ringOrder.find? (fun index => (tasks.taskList index).state = .ready) =
        some tid)

/-- What a pass over a table with a task in it returns. -/
theorem nextReadyTask_exact
    {cfg : Config} {tasks : TaskTable}
    (within : tasks.nTasks ≤ cfg.nTasks)
    (some : 0 < tasks.nTasks) :
    ∃ tid tasks', tasks.nextReadyTask cfg = .ok (tid, tasks') ∧
      (tid = noTid ↔
        ∀ index, index < tasks.nTasks →
          (tasks.taskList index).state ≠ .ready) ∧
      (tid ≠ noTid →
        tasks.ringOrder.find?
          (fun index => (tasks.taskList index).state = .ready) =
            Option.some tid) := by
  have small := cfg.nTasks_lt
  obtain ⟨found, first, returns⟩ := nextReadyTask_spec within some
  have search := first.find?_ringFrom
  rw [← ringOrder_eq within] at search
  refine ⟨_, _, returns, ?_, ?_⟩
  · cases found with
    | none =>
        refine iff_of_true rfl fun index created => ?_
        simpa using List.find?_eq_none.mp search index
          (mem_ringOrder within created)
    | some tid =>
        have created : tid < tasks.nTasks := by
          have member := List.mem_of_find?_eq_some search
          rw [ringOrder_eq within] at member
          exact tasks.ringFrom_lt some _ _ tid member
        have ready := List.find?_some search
        refine iff_of_false ?_ fun none => ?_
        · rw [Option.getD_some]
          unfold noTid
          omega
        · exact none tid created (of_decide_eq_true ready)
  · intro runs
    cases found with
    | none => exact absurd rfl runs
    | some tid => exact search

/-- The scan is exact exactly when a task was created: the loop of
`next_ready_task` reads an entry before it looks at the number of tasks. -/
theorem scanExact_iff
    {cfg : Config} {tasks : TaskTable}
    (within : tasks.nTasks ≤ cfg.nTasks) :
    tasks.ScanExact cfg ↔ 0 < tasks.nTasks := by
  constructor
  · intro exact_
    have reads : tasks.scanStart ∈ tasks.nextReadyTaskReads cfg :=
      tasks.mem_nextReadyTaskVisits cfg 255 tasks.scanStart 0
    exact Nat.zero_lt_of_lt (exact_.inside _ reads)
  · intro some
    have reads : tasks.nextReadyTaskReads cfg <+: tasks.ringOrder := by
      rw [ringOrder_eq within]
      exact nextReadyTaskVisits_prefix within 256 tasks.scanStart 0
        (tasks.scanStart_lt some) some
    have whole := reads
    rw [ringOrder_eq within] at whole
    refine ⟨fun index member => ?_, ?_, reads, nextReadyTask_exact within some⟩
    · exact tasks.ringFrom_lt some _ _ index (whole.subset member)
    · exact whole.sublist.nodup (tasks.ringFrom_nodup tasks.scanStart)

end TaskTable

/-- The second of three tasks runs and the third is suspended: the scan reads the
third and then the first, which is ready. -/
theorem scanExact_setUp :
    ∃ s : Sys Nat,
      run (step (Config.small true)) (Sys.boot (Config.small true))
        (setUp 1 2 3 ++ [.osSchedule, .call (.osTaskSuspend 2)]) = .ok s ∧
      s.kernel.tasks.nextReadyTaskReads (Config.small true) = [2, 0] ∧
      s.kernel.tasks.ScanExact (Config.small true) := by
  obtain ⟨s, runs, checked⟩ := exists_of_returnsWith
    (fun s : Sys Nat => decide (
      s.kernel.tasks.nextReadyTaskReads (Config.small true) = [2, 0] ∧
      s.kernel.tasks.nTasks = 3))
    (run (step (Config.small true)) (Sys.boot (Config.small true))
      (setUp 1 2 3 ++ [.osSchedule, .call (.osTaskSuspend 2)]))
    (by decide +kernel)
  obtain ⟨reads, three⟩ := of_decide_eq_true checked
  refine ⟨s, runs, reads, ?_⟩
  exact (TaskTable.scanExact_iff (by rw [three]; decide)).mpr
    (by rw [three]; decide)

/-- The scheduler runs before any task was created, and the scan reads entries
that are none. -/
theorem scan_reads_no_task :
    ¬ ∀ s : Sys Nat, ReachableSys (Config.small true) s →
      s.kernel.tasks.ScanExact (Config.small true) := by
  intro exact_
  have boot := exact_ (Sys.boot (Config.small true))
    (.of_initial ⟨⟨Kernel.zeroed, rfl⟩, rfl⟩)
  exact absurd (boot.inside 0 (by decide +kernel)) (by decide +kernel)

end CocoOs
