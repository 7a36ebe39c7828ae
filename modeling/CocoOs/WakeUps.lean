import CocoOs.MasterTick

/-!
# When the master clock wakes a task

While the processor sleeps only the master clock goes on.  What a task waits for
says at which tick it wakes up: a time that runs out, or events of which the
delayed messages in the queues signal enough.  The ticks and the signals change
places, so the events of many ticks are signalled as one set.
-/

namespace CocoOs

open Foundation

variable {β : Type}

/-- What the task is doing after so many ticks of the master clock, at which
these events are due. -/
noncomputable def Doing.ticks
    (due : Nat → Set Nat) (count : Nat) (doing : Doing) : Doing :=
  (List.range count).foldl
    (fun doing later => (doing.tick 0 1).signal (due later)) doing

noncomputable def Status.ticks
    (due : Nat → Set Nat) (count : Nat) : Status → Status
  | .active doing => .active (doing.ticks due count)
  | status => status

/-- The time and the events end what the task is doing. -/
def Doing.EndsWith (signalled : Set Nat) (count : Nat) : Doing → Prop
  | .ready => True
  | .sleeping clock left => clock = 0 ∧ left ≤ count
  | .awaiting events all left =>
      (∃ time, left = some time ∧ time ≤ count) ∨
        SetWaits.Ends signalled events all
  | .queued _ _ => False

/-- A time that has not run out is positive. -/
def Doing.Positive : Doing → Prop
  | .sleeping _ left => 0 < left
  | .awaiting _ _ (some left) => 0 < left
  | _ => True

/-- The events of so many ticks. -/
def comingWithin (due : Nat → Set Nat) (count : Nat) : Set Nat :=
  { event | ∃ later < count, event ∈ due later }

theorem comingWithin_zero (due : Nat → Set Nat) : comingWithin due 0 = ∅ := by
  ext event
  simp [comingWithin]

theorem comingWithin_succ (due : Nat → Set Nat) (count : Nat) :
    comingWithin due (count + 1) = comingWithin due count ∪ due count := by
  ext event
  simp only [comingWithin, Set.mem_union, Set.mem_ofPred_eq,
    Nat.lt_succ_iff_lt_or_eq]
  constructor
  · rintro ⟨later, before | rfl, inside⟩
    · exact .inl ⟨later, before, inside⟩
    · exact .inr inside
  · rintro (⟨later, before, inside⟩ | inside)
    · exact ⟨later, .inl before, inside⟩
    · exact ⟨count, .inr rfl, inside⟩

namespace Doing

theorem ticks_succ (due : Nat → Set Nat) (count : Nat) (doing : Doing) :
    doing.ticks due (count + 1) =
      ((doing.ticks due count).tick 0 1).signal (due count) := by
  simp [ticks, List.range_succ]

/-- The events may as well be signalled after all ticks. -/
theorem ticks_eq (due : Nat → Set Nat) (count : Nat) (doing : Doing) :
    doing.ticks due count =
      ((tick 0 1)^[count] doing).signal (comingWithin due count) := by
  induction count with
  | zero =>
      rw [comingWithin_zero, signal_empty]
      rfl
  | succ count inductionHypothesis =>
      rw [ticks_succ, inductionHypothesis, tick_signal, signal_signal,
        Function.iterate_succ_apply', comingWithin_succ]

theorem iterate_tick_sleeping
    {clock left : Nat} (positive : 0 < left) (count : Nat) :
    (tick 0 1)^[count] (sleeping clock left) =
      if clock ≠ 0 then sleeping clock left
      else if left ≤ count then ready else sleeping clock (left - count) := by
  induction count with
  | zero =>
      rw [if_neg (Nat.not_le.mpr positive)]
      split_ifs <;> rfl
  | succ count inductionHypothesis =>
      rw [Function.iterate_succ_apply', inductionHypothesis]
      by_cases master : clock = 0
      · rw [if_neg (not_not.mpr master), if_neg (not_not.mpr master)]
        by_cases runsOut : left ≤ count
        · rw [if_pos runsOut, if_pos (runsOut.trans (Nat.le_succ count))]
          rfl
        · rw [if_neg runsOut]
          simp only [tick, if_pos master]
          split_ifs <;> first | rfl | omega
      · rw [if_pos master, if_pos master]
        exact if_neg master

theorem iterate_tick_timeout
    {left : Nat} (positive : 0 < left) (events : Set Nat) (all : Bool)
    (count : Nat) :
    (tick 0 1)^[count] (awaiting events all (some left)) =
      if left ≤ count then ready
      else awaiting events all (some (left - count)) := by
  induction count with
  | zero => exact (if_neg (Nat.not_le.mpr positive)).symm
  | succ count inductionHypothesis =>
      rw [Function.iterate_succ_apply', inductionHypothesis]
      by_cases runsOut : left ≤ count
      · rw [if_pos runsOut, if_pos (runsOut.trans (Nat.le_succ count))]
        rfl
      · rw [if_neg runsOut]
        simp only [tick, if_true]
        split_ifs <;> first | rfl | omega

theorem iterate_tick_awaiting (events : Set Nat) (all : Bool) (count : Nat) :
    (tick 0 1)^[count] (awaiting events all none) = awaiting events all none :=
  Function.iterate_fixed rfl count

theorem exists_iterate_tick_queued (sem : Int) (waited count : Nat) :
    ∃ waited', (tick 0 1)^[count] (queued sem waited) = queued sem waited' := by
  induction count with
  | zero => exact ⟨waited, rfl⟩
  | succ count inductionHypothesis =>
      obtain ⟨waited', same⟩ := inductionHypothesis
      exact ⟨_, by rw [Function.iterate_succ_apply', same]; rfl⟩

/-- A wait goes on until a signal ends it. -/
theorem signal_awaiting_eq_ready_iff
    {signalled events : Set Nat} {all : Bool} {left : Option Nat} :
    (awaiting events all left).signal signalled = ready ↔
      SetWaits.Ends signalled events all := by
  by_cases ends : SetWaits.Ends signalled events all
  · exact iff_of_true (signal_of_ends ends left) ends
  · rw [signal_of_not_ends ends]
    exact iff_of_false nofun ends

/-- The task is ready after so many ticks exactly when the time and the events
of the ticks end what it is doing. -/
theorem ticks_eq_ready_iff
    {doing : Doing} (positive : doing.Positive)
    (due : Nat → Set Nat) (count : Nat) :
    doing.ticks due count = ready ↔
      doing.EndsWith (comingWithin due count) count := by
  rw [ticks_eq]
  cases doing with
  | ready =>
      have still : (tick 0 1)^[count] ready = ready :=
        Function.iterate_fixed rfl count
      rw [still]
      exact iff_of_true rfl trivial
  | sleeping clock left =>
      rw [iterate_tick_sleeping positive]
      unfold EndsWith
      split_ifs with sub runsOut
      · exact iff_of_false nofun fun wrong => sub wrong.1
      · exact iff_of_true rfl ⟨not_not.mp sub, runsOut⟩
      · exact iff_of_false nofun fun wrong => runsOut wrong.2
  | awaiting events all left =>
      cases left with
      | none =>
          rw [iterate_tick_awaiting, signal_awaiting_eq_ready_iff]
          exact ⟨.inr, fun ends => ends.resolve_left nofun⟩
      | some left =>
          rw [iterate_tick_timeout positive]
          split_ifs with runsOut
          · exact iff_of_true rfl (.inl ⟨left, rfl, runsOut⟩)
          · rw [signal_awaiting_eq_ready_iff]
            refine ⟨.inr, fun ends => ends.resolve_left ?_⟩
            rintro ⟨time, same, wrong⟩
            exact runsOut (Option.some.inj same ▸ wrong)
  | queued sem waited =>
      obtain ⟨waited', same⟩ := exists_iterate_tick_queued sem waited count
      rw [same]
      exact iff_of_false nofun id

end Doing

/-! ## Tasks -/

section

variable {cfg : Config} {s s' : Sys β} {tid count : Nat}

/-- What a task is doing takes a positive time. -/
theorem positive_of_status
    (reachable : ReachableSys cfg s)
    (created : tid < s.kernel.tasks.nTasks)
    {doing : Doing}
    (status : (s.kernel.tasks.taskList tid).status cfg = .active doing) :
    doing.Positive := by
  unfold Tcb.status at status
  split_ifs at status with killed suspended
  have consistent :=
    (reachable_tasksSound reachable).consistent tid created killed
  have positive := consistent.time
  rw [Tcb.effectiveState_of_ne suspended] at positive
  rw [Status.active.injEq] at status
  subst status
  rcases state : (s.kernel.tasks.taskList tid).state
  case waitingTime => exact positive (.inl state)
  case waitingEventTimeout => exact positive (.inr state)
  all_goals trivial

/-- A task that is active and does nothing is ready. -/
theorem state_eq_ready_iff
    (reachable : ReachableSys cfg s)
    (created : tid < s.kernel.tasks.nTasks) :
    (s.kernel.tasks.taskList tid).state = .ready ↔
      (s.kernel.tasks.taskList tid).status cfg = .active .ready := by
  refine ⟨Tcb.status_of_ready, fun status => ?_⟩
  unfold Tcb.status at status
  split_ifs at status with killed suspended
  rcases state : (s.kernel.tasks.taskList tid).state
  case ready => rfl
  case suspended => exact absurd state suspended
  case killed => exact absurd state killed
  case running =>
    have consistent :=
      (reachable_tasksSound reachable).consistent tid created killed
    rw [← Tcb.effectiveState_of_ne suspended] at state
    exact absurd state consistent.notRunning
  all_goals
    rw [state] at status
    simp [Tcb.doing] at status

/-- The ticks of the master clock, task by task. -/
theorem foldl_tick_statuses
    (due : Nat → Set Nat) (count : Nat) (tasks : Tasks) {status : Status}
    (here : tasks.statuses[tid]? = some status) :
    ((List.range count).foldl (fun tasks later => tasks.tick (due later))
        tasks).statuses[tid]? =
      some (status.ticks due count) := by
  induction count with
  | zero => cases status <;> exact here
  | succ count inductionHypothesis =>
      rw [List.range_succ, List.foldl_append]
      refine List.getElem?_map.trans ?_
      rw [inductionHypothesis]
      cases status with
      | active doing =>
          simp only [Status.ticks, Doing.ticks_succ]
          rfl
      | _ => rfl

/-- The status of a task after a number of ticks. -/
theorem run_osTick_status
    (reachable : ReachableSys cfg s)
    (created : tid < s.kernel.tasks.nTasks)
    (runs : run (step cfg) s (List.replicate count (.call .osTick)) = .ok s') :
    (s'.kernel.tasks.taskList tid).status cfg =
      ((s.kernel.tasks.taskList tid).status cfg).ticks (s.kernel.due cfg) count := by
  have createdThen := created.trans_le (run_nTasks_le (reachable_sound reachable) runs)
  have view := run_osTick_taskView reachable runs
  have here : (s.kernel.taskView cfg).statuses[tid]? =
      some ((s.kernel.tasks.taskList tid).status cfg) :=
    Kernel.taskView_statuses_of_lt created
  have after := foldl_tick_statuses (s.kernel.due cfg) count _ here
  rw [← view, Kernel.taskView_statuses_of_lt createdThen] at after
  exact Option.some.inj after

/-- Ticks of the master clock make a task ready exactly when it is not stopped,
and by then its time is over or the messages that have become deliverable signal
what it waits for. -/
theorem woken_within_iff
    (reachable : ReachableSys cfg s)
    (created : tid < s.kernel.tasks.nTasks)
    (runs : run (step cfg) s (List.replicate count (.call .osTick)) = .ok s') :
    (s'.kernel.tasks.taskList tid).state = .ready ↔
      ∃ doing, (s.kernel.tasks.taskList tid).status cfg = .active doing ∧
        doing.EndsWith (comingWithin (s.kernel.due cfg) count) count := by
  have createdThen := created.trans_le (run_nTasks_le (reachable_sound reachable) runs)
  rw [state_eq_ready_iff (reachable.run runs) createdThen,
    run_osTick_status reachable created runs]
  cases status : (s.kernel.tasks.taskList tid).status cfg with
  | active doing =>
      have positive := positive_of_status reachable created status
      rw [Status.ticks, Status.active.injEq, Doing.ticks_eq_ready_iff positive]
      constructor
      · intro ends
        exact ⟨doing, rfl, ends⟩
      · rintro ⟨other, same, ends⟩
        exact Status.active.inj same ▸ ends
  | suspended doing => exact iff_of_false nofun nofun
  | killed => exact iff_of_false nofun nofun

end

/-- The first task posts itself a message with a delay of two ticks and waits
for it: the second tick wakes it, and the first does not. -/
theorem woken_within_iff_setUp :
    ∃ s s' : Sys Nat,
      run (step (Config.small false)) (Sys.boot (Config.small false))
        (setUp 1 2 3 ++ [.osSchedule, .task (.msgPost 0 ⟨1, 0, 0, 7⟩ 2 0 false) 1,
          .task (.msgReceive 0 ⟨0, 0, 0, 0⟩ false) 2]) = .ok s ∧
      run (step (Config.small false)) s (List.replicate 2 (.call .osTick)) =
        .ok s' ∧
      (s'.kernel.tasks.taskList 0).state = .ready ∧
      ∃ doing,
        (s.kernel.tasks.taskList 0).status (Config.small false) = .active doing ∧
        doing.EndsWith (comingWithin (s.kernel.due (Config.small false)) 2) 2 ∧
        ¬ doing.EndsWith (comingWithin (s.kernel.due (Config.small false)) 1) 1 := by
  obtain ⟨s, s', before, after, checked⟩ := exists_runs_of_returnsWith
    (step (Config.small false)) (Sys.boot (Config.small false))
    (setUp 1 2 3 ++ [.osSchedule, .task (.msgPost 0 ⟨1, 0, 0, 7⟩ 2 0 false) 1,
      .task (.msgReceive 0 ⟨0, 0, 0, 0⟩ false) 2])
    (List.replicate 2 (.call .osTick))
    (fun states : Sys Nat × Sys Nat =>
      decide (0 < states.1.kernel.tasks.nTasks ∧
        (states.2.kernel.tasks.taskList 0).state = .ready) &&
        returnsWith (fun s' : Sys Nat =>
          decide ((s'.kernel.tasks.taskList 0).state ≠ .ready))
          (run (step (Config.small false)) states.1
            (List.replicate 1 (.call .osTick))))
    (by decide +kernel)
  rw [Bool.and_eq_true] at checked
  obtain ⟨checked, early⟩ := checked
  obtain ⟨created, ready⟩ := of_decide_eq_true checked
  obtain ⟨s₁, once, asleep⟩ := exists_of_returnsWith _ _ early
  have reachable := reachable_of_run before
  obtain ⟨doing, status, ends⟩ :=
    (woken_within_iff reachable created after).mp ready
  exact ⟨s, s', before, after, ready, doing, status, ends, fun wrong =>
    of_decide_eq_true asleep
      ((woken_within_iff reachable created once).mpr ⟨doing, status, wrong⟩)⟩

end CocoOs
