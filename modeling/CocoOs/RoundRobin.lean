import CocoOs.PriorityScheduling
import CocoOs.Frames

/-!
# Round-robin scheduling

Each pass of `next_ready_task` starts right after the task it chose last and
takes the first ready task around the ring of created tasks.  A pass that
misses a ready task therefore comes closer to it, whatever happens to the other
tasks between the passes.
-/

namespace CocoOs

open Foundation

variable {β : Type}

namespace TaskTable

/-! ## One pass -/

/-- The index at which `next_ready_task` starts. -/
def scanStart (tasks : TaskTable) : Nat :=
  if noTid = tasks.lastRunningTask then 0
  else if tasks.nTasks ≤ tasks.lastRunningTask + 1 then 0
  else tasks.lastRunningTask + 1

theorem scanStart_lt (tasks : TaskTable) (some : 0 < tasks.nTasks) :
    tasks.scanStart < tasks.nTasks := by
  unfold scanStart
  split_ifs
  · exact some
  · exact some
  · omega

/-- What the loop of `next_ready_task` has found among the next `remaining`
tasks around the ring: none of them is ready, or the first one that is. -/
inductive FirstReady (tasks : TaskTable) (index remaining : Nat) :
    Option Nat → Prop
  | none
      (noneReady : ∀ ahead, ahead < remaining →
        (tasks.taskList ((index + ahead) % tasks.nTasks)).state ≠ .ready) :
      FirstReady tasks index remaining none
  | some (distance : Nat)
      (inside : distance < remaining)
      (ready : (tasks.taskList ((index + distance) % tasks.nTasks)).state =
        .ready)
      (first : ∀ ahead, ahead < distance →
        (tasks.taskList ((index + ahead) % tasks.nTasks)).state ≠ .ready) :
      FirstReady tasks index remaining
        (some ((index + distance) % tasks.nTasks))

/-- One more task that is not ready before those already looked at. -/
theorem FirstReady.cons
    {tasks : TaskTable} {index next remaining : Nat} {found : Option Nat}
    (rest : FirstReady tasks next remaining found)
    (same : ∀ ahead, (next + ahead) % tasks.nTasks =
      (index + (ahead + 1)) % tasks.nTasks)
    (notReady : (tasks.taskList (index % tasks.nTasks)).state ≠ .ready) :
    FirstReady tasks index (remaining + 1) found := by
  have shifted : ∀ {bound : Nat},
      (∀ ahead, ahead < bound →
        (tasks.taskList ((next + ahead) % tasks.nTasks)).state ≠ .ready) →
      ∀ ahead, ahead < bound + 1 →
        (tasks.taskList ((index + ahead) % tasks.nTasks)).state ≠ .ready := by
    intro bound later ahead inside
    cases ahead with
    | zero => exact notReady
    | succ ahead => exact same ahead ▸ later ahead (by omega)
  cases rest with
  | none noneReady => exact .none (shifted noneReady)
  | some distance inside ready first =>
      rw [same distance] at ready ⊢
      exact .some (distance + 1) (by omega) ready (shifted first)

/-- The loop of `next_ready_task` returns and finds the first ready task among
those it has still to check. -/
theorem nextReadyTaskLoop_spec
    {cfg : Config} {tasks : TaskTable}
    (within : tasks.nTasks ≤ cfg.nTasks)
    (fuel index nChecked : Nat)
    (inside : index < tasks.nTasks)
    (more : nChecked < tasks.nTasks)
    (enough : tasks.nTasks - nChecked ≤ fuel) :
    ∃ found, tasks.nextReadyTaskLoop cfg fuel index nChecked = .ok found ∧
      FirstReady tasks index (tasks.nTasks - nChecked) found := by
  have small := cfg.nTasks_lt
  have here : index % tasks.nTasks = index := Nat.mod_eq_of_lt inside
  induction fuel generalizing index nChecked with
  | zero => omega
  | succ fuel inductionHypothesis =>
      unfold nextReadyTaskLoop
      rw [if_pos (by omega)]
      by_cases ready : (tasks.taskList index).state = .ready
      · rw [if_pos ready]
        refine ⟨some index, rfl, ?_⟩
        have found : FirstReady tasks index (tasks.nTasks - nChecked)
            (some ((index + 0) % tasks.nTasks)) := .some 0 (by omega)
          (by rw [Nat.add_zero, here]; exact ready)
          (fun ahead before => absurd before (Nat.not_lt_zero ahead))
        rwa [Nat.add_zero, here] at found
      · rw [if_neg ready]
        dsimp only
        have counted : (nChecked + 1) % 256 = nChecked + 1 :=
          Nat.mod_eq_of_lt (by omega)
        have remainingEq : tasks.nTasks - nChecked =
            tasks.nTasks - (nChecked + 1) + 1 := by omega
        have notReady : (tasks.taskList (index % tasks.nTasks)).state ≠
            .ready := by
          rw [here]
          exact ready
        rw [counted]
        by_cases last : nChecked + 1 ≠ tasks.nTasks
        · rw [if_pos last]
          obtain ⟨next, nextEq, nextInside, nextSame⟩ :
              ∃ next, next = (if index + 1 = tasks.nTasks then 0
                  else index + 1) ∧ next < tasks.nTasks ∧
                next = (index + 1) % tasks.nTasks := by
            by_cases wraps : index + 1 = tasks.nTasks
            · exact ⟨0, (if_pos wraps).symm, by omega, by rw [wraps, Nat.mod_self]⟩
            · exact ⟨index + 1, (if_neg wraps).symm, by omega,
                (Nat.mod_eq_of_lt (by omega)).symm⟩
          rw [← nextEq]
          obtain ⟨found, returns, rest⟩ := inductionHypothesis next (nChecked + 1)
            nextInside (by omega) (by omega) (Nat.mod_eq_of_lt nextInside)
          refine ⟨found, returns, remainingEq ▸ rest.cons ?_ notReady⟩
          intro ahead
          rw [nextSame, Nat.mod_add_mod]
          congr 1
          omega
        · rw [if_neg last]
          have none : FirstReady tasks (index + 1) 0 none :=
            .none fun ahead before => absurd before (Nat.not_lt_zero ahead)
          have lastEq : tasks.nTasks - (nChecked + 1) = 0 := by omega
          rw [remainingEq, lastEq]
          refine ⟨_, rfl, none.cons ?_ notReady⟩
          intro ahead
          congr 1
          omega

/-- A pass returns; it chooses the first ready task at or after its start, or
no task when none is ready. -/
theorem nextReadyTask_spec
    {cfg : Config} {tasks : TaskTable}
    (within : tasks.nTasks ≤ cfg.nTasks)
    (some : 0 < tasks.nTasks) :
    ∃ found, FirstReady tasks tasks.scanStart tasks.nTasks found ∧
      tasks.nextReadyTask cfg = .ok (found.getD noTid,
        { tasks with lastRunningTask := found.getD noTid }) := by
  have small := cfg.nTasks_lt
  obtain ⟨found, returns, first⟩ := nextReadyTaskLoop_spec within 256
    tasks.scanStart 0 (tasks.scanStart_lt some) some (by omega)
  rw [Nat.sub_zero] at first
  refine ⟨found, first, ?_⟩
  have byte : found.getD noTid % 256 = found.getD noTid := by
    apply Nat.mod_eq_of_lt
    cases first with
    | none => decide
    | some distance inside ready _ =>
        have below := Nat.mod_lt (tasks.scanStart + distance) some
        simp only [Option.getD_some]
        omega
  unfold nextReadyTask
  change (tasks.nextReadyTaskLoop cfg 256 tasks.scanStart 0 >>= _) = _
  rw [returns, ok_bind]
  dsimp only
  rw [byte]

/-! ## Distance around the ring -/

/-- How far the task is from the start of the next pass. -/
def distanceTo (tasks : TaskTable) (tid : Nat) : Nat :=
  (tid + tasks.nTasks - tasks.scanStart) % tasks.nTasks

theorem distanceTo_lt (tasks : TaskTable) (tid : Nat)
    (some : 0 < tasks.nTasks) : tasks.distanceTo tid < tasks.nTasks :=
  Nat.mod_lt _ some

theorem scanStart_add_distanceTo
    (tasks : TaskTable) {tid : Nat} (created : tid < tasks.nTasks) :
    (tasks.scanStart + tasks.distanceTo tid) % tasks.nTasks = tid := by
  have start := tasks.scanStart_lt (by omega)
  unfold distanceTo
  rw [Nat.add_mod_mod]
  have sum : tasks.scanStart + (tid + tasks.nTasks - tasks.scanStart) =
      tid + tasks.nTasks := by omega
  rw [sum, Nat.add_mod_right, Nat.mod_eq_of_lt created]

/-- A distance below the number of tasks is determined by where it leads. -/
theorem distanceTo_eq
    (tasks : TaskTable) {tid distance : Nat}
    (created : tid < tasks.nTasks)
    (short : distance < tasks.nTasks)
    (leads : (tasks.scanStart + distance) % tasks.nTasks = tid) :
    tasks.distanceTo tid = distance := by
  have ends := tasks.scanStart_add_distanceTo created
  have long := tasks.distanceTo_lt tid (by omega)
  have same : tasks.scanStart + tasks.distanceTo tid ≡
      tasks.scanStart + distance [MOD tasks.nTasks] := ends.trans leads.symm
  have congruent := Nat.ModEq.add_left_cancel' tasks.scanStart same
  exact (Nat.ModEq.eq_of_lt_of_lt congruent long short)

/-- A pass that misses a ready task comes closer to it. -/
theorem nextReadyTask_closer
    {cfg : Config} {tasks tasks' later : TaskTable} {tid chosen : Nat}
    (within : tasks.nTasks ≤ cfg.nTasks)
    (ready : tasks.Ready tid)
    (returns : tasks.nextReadyTask cfg = .ok (chosen, tasks'))
    (nTasks : later.nTasks = tasks'.nTasks)
    (last : later.lastRunningTask = tasks'.lastRunningTask)
    (missed : chosen ≠ tid) :
    later.distanceTo tid < tasks.distanceTo tid := by
  have small := cfg.nTasks_lt
  have some : 0 < tasks.nTasks := Nat.zero_lt_of_lt ready.1
  have leads := tasks.scanStart_add_distanceTo ready.1
  have short := tasks.distanceTo_lt tid some
  obtain ⟨found, first, answer⟩ := nextReadyTask_spec within some
  rw [answer] at returns
  simp only [Except.ok.injEq, Prod.mk.injEq] at returns
  obtain ⟨rfl, rfl⟩ := returns
  cases first with
  | none noneReady =>
      have notReady := noneReady _ short
      rw [leads] at notReady
      exact absurd ready.2 notReady
  | some distance inside readyThere first =>
      simp only [Option.getD_some] at missed last nTasks
      have before : distance < tasks.distanceTo tid := by
        rcases Nat.lt_trichotomy distance (tasks.distanceTo tid) with
          less | same | greater
        · exact less
        · rw [same, leads] at missed
          exact absurd rfl missed
        · have notReady := first _ greater
          rw [leads] at notReady
          exact absurd ready.2 notReady
      have chosenInside := Nat.mod_lt (tasks.scanStart + distance) some
      have startEq : later.scanStart =
          (tasks.scanStart + (distance + 1)) % tasks.nTasks := by
        have next : (tasks.scanStart + (distance + 1)) % tasks.nTasks =
            ((tasks.scanStart + distance) % tasks.nTasks + 1) % tasks.nTasks := by
          rw [Nat.mod_add_mod]
          rfl
        have apart : noTid ≠ (tasks.scanStart + distance) % tasks.nTasks := by
          unfold noTid
          omega
        have unfolded : later.scanStart =
            if noTid = later.lastRunningTask then 0
            else if later.nTasks ≤ later.lastRunningTask + 1 then 0
            else later.lastRunningTask + 1 := rfl
        rw [unfolded, last, nTasks, if_neg apart, next]
        by_cases wraps : tasks.nTasks ≤
            (tasks.scanStart + distance) % tasks.nTasks + 1
        · have full : (tasks.scanStart + distance) % tasks.nTasks + 1 =
              tasks.nTasks := by omega
          rw [if_pos wraps, full, Nat.mod_self]
        · have below : (tasks.scanStart + distance) % tasks.nTasks + 1 <
              tasks.nTasks := by omega
          rw [if_neg wraps, Nat.mod_eq_of_lt below]
      have laterDistance : later.distanceTo tid =
          tasks.distanceTo tid - (distance + 1) := by
        apply later.distanceTo_eq
        · rw [nTasks]
          exact ready.1
        · rw [nTasks]
          omega
        · rw [startEq, nTasks]
          rw [Nat.mod_add_mod]
          have sum : tasks.scanStart + (distance + 1) +
              (tasks.distanceTo tid - (distance + 1)) =
                tasks.scanStart + tasks.distanceTo tid := by omega
          rw [sum, leads]
      omega

end TaskTable

/-! ## Consecutive passes -/

namespace Kernel

/-- Consecutive passes of the round-robin scheduler, at each of which the task
is ready, with the tasks they choose.  Between two passes everything may change
but the number of tasks and `last_running_task`. -/
inductive Passes (cfg : Config) (tid : Nat) : Kernel β → List Nat → Prop
  | nil (k : Kernel β) : Passes cfg tid k []
  | cons {k k' later : Kernel β} {choices : List Nat}
      (ready : k.tasks.Ready tid)
      (selects : k.selectTask cfg = .ok k')
      (nTasks : later.tasks.nTasks = k'.tasks.nTasks)
      (last : later.tasks.lastRunningTask = k'.tasks.lastRunningTask)
      (rest : Passes cfg tid later choices) :
      Passes cfg tid k (k'.runningTid :: choices)

/-- With round-robin scheduling the choice is that of `next_ready_task`. -/
theorem selectTask_roundRobin
    {cfg : Config} {k k' : Kernel β}
    (roundRobin : cfg.roundRobin = true)
    (selects : k.selectTask cfg = .ok k') :
    k.tasks.nextReadyTask cfg = .ok (k'.runningTid, k'.tasks) := by
  unfold selectTask at selects
  rw [if_pos roundRobin] at selects
  obtain ⟨⟨tid, tasks⟩, returns, result⟩ := bind_eq_ok_iff.mp selects
  rw [← Except.ok.inj result]
  exact returns

/-- Passes that miss a ready task are fewer than the steps around the ring to
it. -/
theorem Passes.length_le
    {cfg : Config} {k : Kernel β} {tid : Nat} {choices : List Nat}
    (roundRobin : cfg.roundRobin = true)
    (passes : Passes cfg tid k choices)
    (within : k.tasks.nTasks ≤ cfg.nTasks)
    (missed : tid ∉ choices) :
    choices.length ≤ k.tasks.distanceTo tid := by
  induction passes with
  | nil k => exact Nat.zero_le _
  | @cons k k' later choices ready selects nTasks last rest inductionHypothesis =>
      have returns := selectTask_roundRobin roundRobin selects
      have sameTasks : k'.tasks.nTasks = k.tasks.nTasks :=
        (selectTask_frame selects).1
      have closer := TaskTable.nextReadyTask_closer within ready returns nTasks
        last fun same => missed (same ▸ List.mem_cons_self ..)
      have before := inductionHypothesis (by rw [nTasks, sameTasks]; exact within)
        fun inside => missed (List.mem_cons_of_mem _ inside)
      rw [List.length_cons]
      omega

theorem Passes.mem
    {cfg : Config} {k : Kernel β} {tid : Nat} {choices : List Nat}
    (roundRobin : cfg.roundRobin = true)
    (passes : Passes cfg tid k choices)
    (within : k.tasks.nTasks ≤ cfg.nTasks)
    (some : 0 < k.tasks.nTasks)
    (enough : k.tasks.nTasks ≤ choices.length) :
    tid ∈ choices := by
  by_contra missed
  have short := passes.length_le roundRobin within missed
  have below := k.tasks.distanceTo_lt tid some
  omega

end Kernel

/-! ## Passes of a run -/

/-- Only the scheduler writes `last_running_task`. -/
theorem Micro.lastRunningTask
    {cfg : Config} {k k' : Kernel β} {act : Act β}
    (acts : Micro cfg k act k')
    (unscheduled : ∀ tid, act ≠ .select tid) :
    k'.tasks.lastRunningTask = k.tasks.lastRunningTask := by
  cases acts with
  | create creation creates => exact (creationStep_frame creates).lastRunningTask
  | select => exact absurd rfl (unscheduled _)
  | post returns =>
      rcases Kernel.osMsgPost_cases returns with
        ⟨_, rfl⟩ | ⟨_, _, _, _, q, rfl⟩ <;> rfl
  | receive returns _ =>
      rcases Kernel.osMsgReceive_cases returns with
        ⟨_, _, rfl⟩ | ⟨_, _, _, q, msg, rfl⟩ <;> rfl
  | _ => rfl

theorem Trace.lastRunningTask
    {cfg : Config} {k k' : Kernel β} {acts : List (Act β)}
    (trace : Trace (Micro cfg) k acts k')
    (unscheduled : ∀ act ∈ acts, ∀ tid, act ≠ .select tid) :
    k'.tasks.lastRunningTask = k.tasks.lastRunningTask :=
  trace.invariant (fun act => ∀ tid, act ≠ .select tid)
    (fun later => later.tasks.lastRunningTask = k.tasks.lastRunningTask)
    (fun _ _ _ allowed holds acts => (acts.lastRunningTask allowed).trans holds)
    unscheduled rfl

/-- A pass of the scheduler leaves `last_running_task` as its choice did. -/
theorem step_osSchedule
    {cfg : Config} {s s' : Sys β}
    (sound : s.kernel.Sound cfg)
    (steps : step cfg s .osSchedule = .ok s') :
    ∃ k, s.kernel.selectTask cfg = .ok k ∧
      s'.kernel.tasks.lastRunningTask = k.tasks.lastRunningTask := by
  obtain ⟨acts, shape, trace⟩ := step_trace sound steps
  generalize s'.frame = frame at shape
  cases shape with
  | sleep idle selects sleeps =>
      cases trace with
      | cons first rest =>
          cases rest
          exact ⟨_, first.of_select rfl, rfl⟩
  | osSchedule idle selects runs inside resumes =>
      cases trace with
      | cons first rest =>
          exact ⟨_, first.of_select rfl,
            Trace.lastRunningTask rest resumes.unscheduled⟩

/-- Every other step leaves it alone. -/
theorem step_lastRunningTask
    {cfg : Config} {s s' : Sys β} {label : Label β}
    (sound : s.kernel.Sound cfg)
    (steps : step cfg s label = .ok s')
    (other : label ≠ .osSchedule) :
    s'.kernel.tasks.lastRunningTask = s.kernel.tasks.lastRunningTask := by
  obtain ⟨acts, shape, trace⟩ := step_trace sound steps
  apply Trace.lastRunningTask trace
  rintro act inside tid rfl
  exact other (shape.allowed _ inside)

/-- The tasks that the scheduler chooses along a run. -/
def choices (cfg : Config) : Sys β → List (Label β) → List Nat
  | _, [] => []
  | s, label :: labels =>
      match step cfg s label with
      | .ok next => (scheduled cfg s label).toList ++ choices cfg next labels
      | .error _ => []

theorem choices_cons
    {cfg : Config} {s next : Sys β} {label : Label β} {labels : List (Label β)}
    (steps : step cfg s label = .ok next) :
    choices cfg s (label :: labels) =
      (scheduled cfg s label).toList ++ choices cfg next labels := by
  rw [choices, steps]

/-- The task is ready whenever the scheduler makes a pass. -/
def ReadyAtPasses (tid : Nat) (s : Sys β) (label : Label β) : Prop :=
  label = .osSchedule → s.kernel.tasks.Ready tid

/-- The passes of a run are consecutive passes of the scheduler, from a kernel
that agrees with the first on what the scheduler remembers. -/
theorem passes_of_run
    {cfg : Config} {s s' : Sys β} {labels : List (Label β)} {tid : Nat}
    (sound : s.kernel.Sound cfg)
    (runs : run (step cfg) s labels = .ok s')
    (sameTasks : s'.kernel.tasks.nTasks = s.kernel.tasks.nTasks)
    (ready : Meets (step cfg) (ReadyAtPasses tid) s labels) :
    ∃ k : Kernel β, k.tasks.nTasks = s.kernel.tasks.nTasks ∧
      k.tasks.lastRunningTask = s.kernel.tasks.lastRunningTask ∧
      k.Passes cfg tid (choices cfg s labels) := by
  induction labels generalizing s with
  | nil => exact ⟨s.kernel, rfl, rfl, .nil s.kernel⟩
  | cons label labels inductionHypothesis =>
      obtain ⟨next, steps, rest⟩ := run_cons_eq_ok_iff.mp runs
      have soundNext := step_sound sound steps
      have grows := step_nTasks_le sound steps
      have growsLater := run_nTasks_le soundNext rest
      have sameNext : next.kernel.tasks.nTasks = s.kernel.tasks.nTasks := by
        omega
      obtain ⟨later, nTasks, last, passes⟩ := inductionHypothesis soundNext rest
        (by omega) (ready.2 next steps)
      rw [choices_cons steps]
      by_cases isPass : label = .osSchedule
      · subst isPass
        obtain ⟨k', selects, lastEq⟩ := step_osSchedule sound steps
        have chosen : scheduled cfg s .osSchedule = some k'.runningTid := by
          simp only [scheduled, selects]
        rw [chosen]
        refine ⟨s.kernel, rfl, rfl, .cons (ready.1 rfl) selects ?_ ?_ passes⟩
        · rw [nTasks, sameNext, (Kernel.selectTask_frame selects).1]
        · rw [last, lastEq]
      · have none : scheduled cfg s label = none := by
          cases label with
          | osSchedule => exact absurd rfl isPass
          | _ => rfl
        rw [none]
        refine ⟨later, nTasks.trans sameNext, ?_, passes⟩
        rw [last, step_lastRunningTask sound steps isPass]

/-- Round-robin scheduling is fair.  Among any passes at which a task is ready,
as many as there are tasks, one chooses it, whatever happens to the other tasks
between the passes; in particular among the passes of any run.  Every pass
returns, and chooses only tasks that are ready. -/
theorem round_robin_fair
    {cfg : Config}
    (roundRobin : cfg.roundRobin = true) :
    (∀ (k : Kernel β) (tid : Nat) (choices : List Nat),
      k.tasks.nTasks ≤ cfg.nTasks → 0 < k.tasks.nTasks →
      k.Passes cfg tid choices → k.tasks.nTasks ≤ choices.length →
        tid ∈ choices) ∧
    (∀ (s s' : Sys β) (labels : List (Label β)) (tid : Nat),
      ReachableSys cfg s → run (step cfg) s labels = .ok s' →
      0 < s.kernel.tasks.nTasks →
      s'.kernel.tasks.nTasks = s.kernel.tasks.nTasks →
      Meets (step cfg) (ReadyAtPasses tid) s labels →
      s.kernel.tasks.nTasks ≤ (choices cfg s labels).length →
        tid ∈ choices cfg s labels) ∧
    ∀ k : Kernel β, k.tasks.nTasks ≤ cfg.nTasks → 0 < k.tasks.nTasks →
      ∃ k', k.selectTask cfg = .ok k' ∧
        (k'.runningTid ≠ noTid → k.tasks.Ready k'.runningTid) := by
  refine ⟨?_, ?_, ?_⟩
  · intro k tid choices within some passes enough
    exact passes.mem roundRobin within some enough
  · intro s s' labels tid reachable runs some sameTasks ready enough
    have sound := reachable_sound reachable
    obtain ⟨k, nTasks, _, passes⟩ := passes_of_run sound runs sameTasks ready
    rw [← nTasks] at some enough
    exact passes.mem roundRobin (nTasks ▸ sound.tasks) some enough
  · intro k within some
    obtain ⟨found, first, returns⟩ := TaskTable.nextReadyTask_spec within some
    refine ⟨{ k with
      tasks := { k.tasks with lastRunningTask := found.getD noTid }
      runningTid := found.getD noTid }, ?_, ?_⟩
    · unfold Kernel.selectTask
      rw [if_pos roundRobin, returns, ok_bind]
    · intro runs
      cases first with
      | none noneReady => exact absurd rfl runs
      | some distance inside ready _ => exact ⟨Nat.mod_lt _ some, ready⟩

/-- Three passes, between which the tasks that run give up the processor. -/
def threePasses : List (Label Nat) :=
  [.osSchedule, .task (.taskWaitId 0 9) 4, .osSchedule,
    .task (.eventSignal 0) 5, .osSchedule]

/-- A first task that is ready at three passes over three tasks is among those
chosen. -/
theorem round_robin_fair_setUp :
    ∃ s s' : Sys Nat,
      run (step (Config.small true)) (Sys.boot (Config.small true))
        (setUp 1 2 3) = .ok s ∧
      run (step (Config.small true)) s threePasses = .ok s' ∧
      0 ∈ choices (Config.small true) s threePasses := by
  obtain ⟨s, s', before, after, checked⟩ := exists_runs_of_returnsWith
    (step (Config.small true)) (Sys.boot (Config.small true)) (setUp 1 2 3)
    threePasses
    (fun states : Sys Nat × Sys Nat =>
      decide (0 < states.1.kernel.tasks.nTasks ∧
        states.2.kernel.tasks.nTasks = states.1.kernel.tasks.nTasks ∧
        states.1.kernel.tasks.nTasks ≤
          (choices (Config.small true) states.1 threePasses).length) &&
      meetsCheck (step (Config.small true))
        (fun s _ => decide (s.kernel.tasks.Ready 0)) states.1 threePasses)
    (by decide +kernel)
  rw [Bool.and_eq_true] at checked
  obtain ⟨some, sameTasks, enough⟩ := of_decide_eq_true checked.1
  have ready : Meets (step (Config.small true)) (ReadyAtPasses 0) s threePasses := by
    apply Meets.of_check (fun s _ => decide (s.kernel.tasks.Ready 0))
    · intro s label holds pass
      exact of_decide_eq_true holds
    · exact checked.2
  exact ⟨s, s', before, after, (round_robin_fair rfl).2.1 s s' threePasses 0
    (reachable_of_run before) after some sameTasks ready enough⟩

end CocoOs
