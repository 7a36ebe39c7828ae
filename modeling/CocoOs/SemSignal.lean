import CocoOs.StepShape
import CocoOs.TaskSound
import CocoOs.SemWaiters

/-!
# Semaphore signals

A semaphore signal either releases one waiting task or counts up.  With
priority scheduling the two scans behind it disagree on a task of priority 255,
which is seen to wait but is never found; such a task never runs, and so it
never waits.
-/

namespace CocoOs

open Foundation

variable {β : Type}

namespace Kernel

/-- The kernel is this one, or this one after the running task has yielded. -/
def UpToYield (k k' : Kernel β) : Prop :=
  k' = k ∨ ∃ line, k' = k.osYield line

/-- The task is as it was, but for the yield of the task that was running. -/
def Unchanged (k k' : Kernel β) (tid : Nat) : Prop :=
  k'.tasks.taskList tid = k.tasks.taskList tid ∨
    (k.runningTid = tid ∧ k'.runningTid = noTid ∧
      ∃ line, k'.tasks.taskList tid =
        { k.tasks.taskList tid with internalState := line })

/-- What a semaphore signal is for: it makes one waiting task ready, with
priority scheduling the one of least priority value, or else counts the
semaphore up to its maximum.  Nothing else changes, but that a macro which
releases a task yields. -/
structure SignalEffect (cfg : Config) (sem : Int) (k k' : Kernel β) : Prop where
  released : k.tasks.SomeWaiter sem →
    k'.sems = k.sems ∧
    ∃ tid, tid < k.tasks.nTasks ∧ (k.tasks.taskList tid).WaitsForSem sem ∧
      k'.tasks.taskList tid = (k.tasks.taskList tid).readySet ∧
      (cfg.roundRobin = false → ∀ other, other < k.tasks.nTasks →
        (k.tasks.taskList other).WaitsForSem sem →
        (k.tasks.taskList tid).prio ≤ (k.tasks.taskList other).prio) ∧
      (∀ other, other < k.tasks.nTasks → other ≠ tid → k.Unchanged k' other) ∧
      (k.modifyTask tid Tcb.readySet).UpToYield k'
  counted : ¬ k.tasks.SomeWaiter sem →
    (k.sems.semList sem).value < (k.sems.semList sem).maxValue →
    k' =
      { k with
        sems :=
          { k.sems with
            semList :=
              Function.update k.sems.semList sem
                { k.sems.semList sem with
                  value := (k.sems.semList sem).value + 1 } } }
  saturated : ¬ k.tasks.SomeWaiter sem →
    ¬ (k.sems.semList sem).value < (k.sems.semList sem).maxValue →
    k' = k

theorem UpToYield.sems {k k' : Kernel β} (same : k.UpToYield k') :
    k'.sems = k.sems := by
  rcases same with rfl | ⟨line, rfl⟩ <;> rfl

theorem UpToYield.taskList_of_ne
    {k k' : Kernel β} (same : k.UpToYield k')
    {tid : Nat} (different : tid ≠ k.runningTid) :
    k'.tasks.taskList tid = k.tasks.taskList tid := by
  rcases same with rfl | ⟨line, rfl⟩
  · rfl
  · rw [osYield_taskList, if_neg different]

/-- What a kernel leaves unchanged it still does after a yield. -/
theorem UpToYield.unchanged
    {k k₁ k' : Kernel β} {tid : Nat}
    (yields : k₁.UpToYield k')
    (same : k₁.tasks.taskList tid = k.tasks.taskList tid)
    (running : k₁.runningTid = k.runningTid) :
    k.Unchanged k' tid := by
  rcases yields with rfl | ⟨line, rfl⟩
  · exact .inl same
  · by_cases runs : tid = k₁.runningTid
    · right
      refine ⟨(runs.trans running).symm, rfl, line, ?_⟩
      rw [osYield_taskList, if_pos runs, same]
    · left
      rw [osYield_taskList, if_neg runs, same]

/-- A semaphore signal, up to the yield at its end, has its effect when a task
that waits can be found. -/
theorem signalEffect_of_findable
    {cfg : Config} {k k' : Kernel β} {sem : Int}
    (inside : cfg.HasSem sem)
    (within : k.tasks.nTasks < noTid)
    (findable : k.tasks.SomeWaiter sem → ∃ tid, k.tasks.Findable cfg sem tid)
    (runningWaits : ∀ tid, tid < k.tasks.nTasks →
      (k.tasks.taskList tid).WaitsForSem sem → tid ≠ k.runningTid)
    (yields : (k.osSignalSemNoSchedule cfg sem).UpToYield k')
    (stays : ¬ k.tasks.SomeWaiter sem → k' = k.osSignalSemNoSchedule cfg sem) :
    SignalEffect cfg sem k k' := by
  have some : 0 < cfg.nTotalSemaphores := by
    have := inside.1
    have := inside.2
    omega
  have waitingIff := k.tasks.osTaskWaitingThisSemaphore_iff sem
  unfold osSignalSemNoSchedule at yields stays
  by_cases waiting : k.tasks.SomeWaiter sem
  · rw [if_pos (waitingIff.mpr waiting)] at yields
    have sems := yields.sems
    unfold TaskTable.osTaskReleaseWaitingTask at yields
    rcases k.tasks.findWaitingTask_spec cfg sem within with
      ⟨_, notFindable⟩ | ⟨found, best⟩
    · obtain ⟨tid, can⟩ := findable waiting
      exact absurd can (notFindable tid)
    · have different : noTid ≠ k.tasks.findWaitingTask cfg sem :=
        (found.1.trans within).ne'
      rw [if_pos different] at yields
      refine ⟨fun _ => ⟨sems, _, found.1, found.2.1, ?_, ?_, ?_, yields⟩,
        fun none => absurd waiting none, fun none => absurd waiting none⟩
      · rw [yields.taskList_of_ne (runningWaits _ found.1 found.2.1)]
        exact k.tasks.modify_taskList_self _ _
      · intro priority other created waits
        have atMost := best other created waits
        rw [priority] at atMost
        exact atMost
      · intro other _ apart
        exact yields.unchanged (k.tasks.modify_taskList_of_ne _ apart) rfl
  · have same := stays waiting
    rw [if_neg fun busy => waiting (waitingIff.mp busy)] at same
    refine ⟨fun busy => absurd busy waiting, fun _ below => ?_,
      fun _ atMax => ?_⟩
    · rw [same]
      unfold SemTable.osSemIncrement
      rw [if_pos ⟨some, below⟩]
    · rw [same]
      unfold SemTable.osSemIncrement
      rw [if_neg fun both => atMax both.2]

/-! ## Who waits -/

/-- With priority scheduling the task that runs and the tasks that wait for a
semaphore are above the lowest priority 255. -/
structure WaitersAbove (cfg : Config) (k : Kernel β) : Prop where
  runs : cfg.roundRobin = false → k.runningTid ≠ noTid →
    (k.tasks.taskList k.runningTid).prio < 255
  waits : cfg.roundRobin = false → ∀ tid, tid < k.tasks.nTasks →
    (k.tasks.taskList tid).state = .waitingSem →
    (k.tasks.taskList tid).prio < 255

end Kernel

/-- A task that waits for a semaphore waited for it before the action, or is
the running task that starts to wait. -/
theorem Micro.waitsForSem
    {cfg : Config} {k k' : Kernel β} {act : Act β}
    (tasks : k.TasksSound cfg)
    (acts : Micro cfg k act k')
    {tid : Nat} {sem : Int}
    (created : tid < k.tasks.nTasks)
    (waits : (k'.tasks.taskList tid).WaitsForSem sem) :
    (k.tasks.taskList tid).WaitsForSem sem ∨
      ∃ line, act = .block tid (.sem sem) line := by
  rw [acts.taskList created] at waits
  cases acts with
  | yield line =>
      simp only [Act.onTask] at waits
      split_ifs at waits <;> exact .inl waits
  | block wait line inside enabled =>
      simp only [Act.onTask] at waits
      split_ifs at waits with same
      · right
        have state := waits.1
        dsimp only at state
        rw [Wait.state_apply enabled] at state
        cases wait with
        | sem other =>
            have sameSem : other = sem := waits.2
            exact ⟨line, by rw [same, sameSem]⟩
        | event eventId timeout =>
            by_cases timed : timeout ≠ 0 <;> simp [Wait.state, timed] at state
        | _ => cases state
      · exact .inl waits
  | note note =>
      simp only [Act.onTask] at waits
      split_ifs at waits
      · cases note <;> exact .inl waits
      · exact .inl waits
  | suspend inside =>
      simp only [Act.onTask, Tcb.suspend] at waits
      split_ifs at waits
      · cases waits.1
      · cases waits.1
      · exact .inl waits
      · exact .inl waits
  | resume inside =>
      simp only [Act.onTask, Tcb.resume] at waits
      split_ifs at waits with same suspended
      · have alive : (k.tasks.taskList tid).state ≠ .killed := by
          rw [suspended]
          decide
        have semReset := (tasks.consistent tid created alive).semReset suspended
        exact absurd waits.1 semReset
      · exact .inl waits
      · exact .inl waits
  | kill inside =>
      simp only [Act.onTask] at waits
      split_ifs at waits
      · cases waits.1
      · exact .inl waits
  | tick other clockId tickSize inside =>
      simp only [Act.onTask, Tcb.tick] at waits
      split_ifs at waits <;> first | exact .inl waits | cases waits.1
  | @signal eventId events fits =>
      left
      simp only [Act.onTask] at waits
      by_cases listens : (k.tasks.taskList tid).Pending eventId ∧
          (k.tasks.taskList tid).WaitsForEvents
      · rw [Tcb.signalEvent_of_waits cfg listens.1 listens.2] at waits
        split_ifs at waits
        · cases waits.1
        · have state : (k.tasks.taskList tid).state = .waitingSem := waits.1
          rcases listens.2 with wrong | wrong <;> rw [wrong] at state <;>
            cases state
      · rwa [Tcb.signalEvent_of_not cfg listens] at waits
  | release inside others found =>
      simp only [Act.onTask] at waits
      split_ifs at waits
      · cases waits.1
      · exact .inl waits
  | _ => exact .inl waits

namespace Kernel

theorem WaitersAbove.of_micro
    {cfg : Config} {k k' : Kernel β} {act : Act β}
    (sound : k.Sound cfg)
    (tasks : k.TasksSound cfg)
    (above : k.WaitersAbove cfg)
    (acts : Micro cfg k act k') :
    k'.WaitersAbove cfg := by
  have grows := acts.nTasks_le
  have keepsPrio : ∀ tid, tid < k.tasks.nTasks →
      (k'.tasks.taskList tid).prio = (k.tasks.taskList tid).prio := by
    intro tid created
    rw [acts.taskList created]
    exact prio_of_static (act.static_onTask cfg tid _)
  refine ⟨fun priority runs => ?_, fun priority tid created waits => ?_⟩
  · by_cases chosen : ∃ tid, act = .select tid
    · obtain ⟨tid, rfl⟩ := chosen
      cases acts with
      | select idle selects inside =>
          rw [(selectTask_frame selects).2.1]
          exact selectTask_prio priority selects runs
    · have running := acts.runningTid
      have same : k'.runningTid = k.runningTid := by
        rw [running]
        cases act with
        | select tid => exact absurd ⟨tid, rfl⟩ chosen
        | free | yield | block => exact absurd running runs
        | _ => rfl
      rw [same] at runs ⊢
      rw [keepsPrio _ (tasks.runs runs).1]
      exact above.runs priority runs
  · by_cases old : tid < k.tasks.nTasks
    · rw [keepsPrio tid old]
      have forSem : (k'.tasks.taskList tid).WaitsForSem
          (k'.tasks.taskList tid).semaphore := ⟨waits, rfl⟩
      rcases acts.waitsForSem tasks old forSem with before | ⟨line, rfl⟩
      · exact above.waits priority tid old before.1
      · obtain ⟨same, inside, _⟩ := acts.of_block
        rw [same] at inside ⊢
        exact above.runs priority (Nat.ne_of_lt (inside.trans sound.nTasks_lt))
    · have ready := acts.ready_of_new (Nat.not_lt.mp old) created
      rw [waits] at ready
      cases ready

theorem waitersAbove_osInit (cfg : Config) (k : Kernel β) :
    (osInit cfg k).WaitersAbove cfg :=
  ⟨fun _ runs => absurd rfl runs,
    fun _ tid created => absurd created (Nat.not_lt_zero tid)⟩

end Kernel

/-- A step that signals a semaphore signals it, and may yield when a task
waits. -/
theorem step_signalsSem
    {cfg : Config} {s s' : Sys β} {label : Label β} {sem : Int}
    (signals : label.SignalsSem sem)
    (steps : step cfg s label = .ok s') :
    cfg.HasSem sem ∧
      (s.kernel.osSignalSemNoSchedule cfg sem).UpToYield s'.kernel ∧
      (¬ s.kernel.tasks.SomeWaiter sem →
        s'.kernel = s.kernel.osSignalSemNoSchedule cfg sem) := by
  cases label with
  | call call =>
      cases call with
      | semIsrSignal other =>
          have same : other = sem := signals
          subst same
          obtain ⟨k', calls, rfl⟩ := map_eq_ok_iff.mp steps
          obtain ⟨inside, result⟩ := guard_eq_ok_iff.mp calls
          have same := (Except.ok.inj result).symm
          exact ⟨inside, .inl same, fun _ => same⟩
      | _ => exact signals.elim
  | task op line =>
      cases op with
      | semSignal other =>
          have same : other = sem := signals
          subst same
          obtain ⟨_, takes⟩ := guard_eq_ok_iff.mp steps
          obtain ⟨inside, result⟩ := guard_eq_ok_iff.mp takes
          have waitingIff :=
            s.kernel.tasks.osTaskWaitingThisSemaphore_iff other
          rw [← Except.ok.inj result]
          unfold Kernel.osSignalSem Kernel.osSignalSemNoSchedule
          split_ifs with busy
          · exact ⟨inside, .inr ⟨_, rfl⟩,
              fun nobody => absurd (waitingIff.mp busy) nobody⟩
          · exact ⟨inside, .inl rfl, fun _ => rfl⟩
      | _ => exact signals.elim
  | _ => exact signals.elim

/-- An action that neither creates a semaphore nor counts leaves the semaphores
alone. -/
theorem Micro.sems_cases
    {cfg : Config} {k k' : Kernel β} {act : Act β}
    (acts : Micro cfg k act k') :
    k'.sems = k.sems ∨
    (∃ sem, act = .decrement sem ∧ k'.sems = k.sems.osSemDecrement cfg sem) ∨
    (∃ sem, act = .increment sem ∧ k'.sems = k.sems.osSemIncrement cfg sem) ∨
    ∃ creation, act = .create creation ∧
      creationStep cfg k creation = .ok k' := by
  cases acts with
  | create creation creates => exact .inr (.inr (.inr ⟨creation, rfl, creates⟩))
  | decrement positive => exact .inr (.inl ⟨_, rfl, rfl⟩)
  | increment noWaiter => exact .inr (.inr (.inl ⟨_, rfl, rfl⟩))
  | select _ selects _ => exact .inl (Kernel.selectTask_frame selects).2.2.2.2.1
  | post returns =>
      rcases Kernel.osMsgPost_cases returns with
        ⟨_, rfl⟩ | ⟨_, _, _, _, q, rfl⟩ <;> exact .inl rfl
  | receive returns _ =>
      rcases Kernel.osMsgReceive_cases returns with
        ⟨_, _, rfl⟩ | ⟨_, _, _, q, msg, rfl⟩ <;> exact .inl rfl
  | _ => exact .inl rfl

theorem reachable_waitersAbove
    {cfg : Config} {s : Sys β}
    (reachable : ReachableSys cfg s) :
    s.kernel.WaitersAbove cfg := by
  have both := reachable_invariant
    (fun k => k.TasksSound cfg ∧ k.WaitersAbove cfg)
    (fun k => ⟨Kernel.tasksSound_osInit cfg k, Kernel.waitersAbove_osInit cfg k⟩)
    (fun _ _ _ sound holds acts =>
      ⟨holds.1.of_micro sound acts, holds.2.of_micro sound holds.1 acts⟩)
    reachable
  exact both.2

/-- In every reachable state a signal releases one of the tasks that wait or
counts up. -/
theorem step_signalEffect
    {cfg : Config} {s s' : Sys β} {label : Label β} {sem : Int}
    (reachable : ReachableSys cfg s)
    (signals : label.SignalsSem sem)
    (steps : step cfg s label = .ok s') :
    Kernel.SignalEffect cfg sem s.kernel s'.kernel := by
  obtain ⟨inside, yields, stays⟩ := step_signalsSem signals steps
  have tasks := reachable_tasksSound reachable
  have within := (reachable_sound reachable).nTasks_lt
  refine Kernel.signalEffect_of_findable inside within ?_ ?_ yields stays
  · rintro ⟨tid, created, waits⟩
    exact ⟨tid, created, waits, fun priority =>
      (reachable_waitersAbove reachable).waits priority tid created waits.1⟩
  · rintro tid created waits rfl
    obtain ⟨_, idle⟩ := tasks.runs (Nat.ne_of_lt (created.trans within))
    rcases idle.state_cases with state | state | ⟨state, _⟩ <;>
      rw [waits.1] at state <;> cases state

end CocoOs
