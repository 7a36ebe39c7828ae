import CocoOs.Marks

/-!
# Waits with a callback

`event_wait_ex` and `event_wait_timeout_ex` take a function that is called when
the task is registered as a waiter and before it yields, for what has to happen
in between.  A callback that calls the functions of the kernel does what an
interrupt handler would do that comes right after the yield: the yield commutes
with every call.  So a program with callbacks has no runs that a program without
them cannot have.
-/

namespace CocoOs

open Foundation

variable {β : Type}

namespace Kernel

/-! ## The macro with a callback -/

/-- The callback that makes the given calls. -/
def callBack (cfg : Config) (calls : List Call) (k : Kernel β) :
    Outcome (Kernel β) :=
  run (CocoOs.callStep cfg) k calls

/-- `OS_WAIT_SINGLE_EVENT` with a callback, the macros `event_wait_ex` and
`event_wait_timeout_ex`. -/
def osWaitSingleEventEx
    (cfg : Config) (k : Kernel β) (x timeout : Nat) (calls : List Call)
    (line : Nat) : Outcome (Kernel β) := do
  let k ← k.osWaitEvent cfg k.osGetRunningTid x true timeout
    (some (callBack cfg calls))
  .ok (k.osYield line)

/-- The callback of a wait for a created event may as well come after the yield.
A wait for an event that is not created does not call it. -/
theorem osWaitSingleEventEx_eq
    {cfg : Config} {k : Kernel β} {x timeout line : Nat} {calls : List Call}
    (created : k.runningTid < k.tasks.nTasks)
    (queued : ∀ k', k.osWaitSingleEvent cfg x timeout line = .ok k' →
      Meets (CocoOs.callStep cfg) (fun k' call => call.Suspends k.runningTid →
        (k'.tasks.taskList k.runningTid).state ≠ .waitingSem) k' calls) :
    k.osWaitSingleEventEx cfg x timeout calls line =
      k.osWaitSingleEvent cfg x timeout line >>=
        callBack cfg
          (if 0 < cfg.nTotalEvents ∧ x < k.events.nEvents then calls else []) := by
  unfold osWaitSingleEventEx osWaitSingleEvent osWaitEvent osGetRunningTid at *
  by_cases known : 0 < cfg.nTotalEvents ∧ x < k.events.nEvents
  · simp only [if_pos known] at queued ⊢
    rw [TaskTable.osTaskWaitEvent_eq, if_pos created] at queued ⊢
    by_cases fits : x / 8 < cfg.eventQueueSize
    · rw [if_pos fits] at queued ⊢
      let waiting : Kernel β :=
        { k with
          events := k.events.setSignaledByTid x noTid
          tasks := k.tasks.modify k.runningTid (Tcb.waitEvent x true timeout) }
      have after := map_osYield_run (k := waiting) created
        (queued (waiting.osYield line) rfl)
      refine Eq.trans ?_ after
      exact bind_pure_comp (fun k => k.osYield line) (callBack cfg calls waiting)
    · rw [if_neg fits]
      rfl
  · rw [if_neg known, if_neg known, if_neg known]
    rfl

end Kernel

/-! ## The system with callbacks -/

/-- The steps of a program whose waits for an event may have a callback. -/
inductive CallbackLabel (β : Type)
  | plain (label : Label β)
  | eventWaitEx (event : UInt8) (timeout : UInt32) (calls : List Call)
      (line : UInt16)

/-- The step function of the system with callbacks. -/
def stepEx (cfg : Config) (s : Sys β) : CallbackLabel β → Outcome (Sys β)
  | .plain label => step cfg s label
  | .eventWaitEx event timeout calls line =>
      if s.kernel.runningTid ≠ noTid then
        (s.kernel.osWaitSingleEventEx cfg event.toNat timeout.toNat calls
          line.toNat).map fun k => { s with kernel := k }
      else .error .disabled

/-- The steps without a callback: the wait, and then the calls. -/
def CallbackLabel.expand (cfg : Config) (s : Sys β) :
    CallbackLabel β → List (Label β)
  | .plain label => [label]
  | .eventWaitEx event timeout calls line =>
      .task (.eventWaitTimeout event timeout) line ::
        if 0 < cfg.nTotalEvents ∧ event.toNat < s.kernel.events.nEvents then
          calls.map Label.call
        else []

/-- The run without callbacks. -/
def withoutCallbacks (cfg : Config) :
    Sys β → List (CallbackLabel β) → List (Label β)
  | _, [] => []
  | s, label :: labels =>
      label.expand cfg s ++
        match stepEx cfg s label with
        | .ok next => withoutCallbacks cfg next labels
        | .error _ => []

section

variable {cfg : Config} {s : Sys β}

/-- The task that waits for an event is not queued at a semaphore when its
callback suspends it. -/
theorem meets_calls_of_wait
    (reachable : ReachableSys cfg s)
    (runs : s.kernel.runningTid ≠ noTid)
    (event : UInt8) (timeout : UInt32) (line : UInt16) (calls : List Call)
    (k : Kernel β)
    (waits : s.kernel.osWaitSingleEvent cfg event.toNat timeout.toNat line.toNat =
      .ok k) :
    Meets (callStep cfg) (fun k call => call.Suspends s.kernel.runningTid →
      (k.tasks.taskList s.kernel.runningTid).state ≠ .waitingSem) k calls := by
  let next : Sys β := { s with kernel := k }
  have steps : step cfg s (.task (.eventWaitTimeout event timeout) line) =
      .ok next :=
    (if_pos runs).trans (map_eq_ok_iff.mpr ⟨k, waits, rfl⟩)
  have created := ((reachable_tasksSound reachable).runs runs).1
  have reachable' : ReachableSys cfg next := reachable.step steps
  exact meets_not_queued reachable'
    (created.trans_le (step_nTasks_le (reachable_sound reachable) steps))
    (step_running_not_queued reachable runs (fun _ => id) steps) calls

/-- A wait with a callback is the wait without it followed by its calls. -/
theorem stepEx_eq_run
    (reachable : ReachableSys cfg s) (label : CallbackLabel β) :
    stepEx cfg s label = run (step cfg) s (label.expand cfg s) := by
  cases label with
  | plain label =>
      rw [CallbackLabel.expand, run_cons]
      exact (bind_pure _).symm
  | eventWaitEx event timeout calls line =>
      rw [CallbackLabel.expand, run_cons]
      unfold stepEx step
      dsimp only
      by_cases runs : s.kernel.runningTid ≠ noTid
      · have created := ((reachable_tasksSound reachable).runs runs).1
        have queued := meets_calls_of_wait reachable runs event timeout line calls
        rw [if_pos runs, if_pos runs, Kernel.osWaitSingleEventEx_eq created queued]
        unfold taskStep
        dsimp only
        cases s.kernel.osWaitSingleEvent cfg event.toNat timeout.toNat
          line.toNat with
        | error stopped => rfl
        | ok k =>
            have later := run_calls cfg { s with kernel := k }
              (if 0 < cfg.nTotalEvents ∧
                event.toNat < s.kernel.events.nEvents then calls else [])
            rw [apply_ite (List.map Label.call)] at later
            exact later.symm
      · rw [if_neg runs, if_neg runs]
        rfl

/-- Callbacks add no runs: a run of a program whose waits for events have
callbacks is the run in which the calls of each callback come right after the
yield of its task, and ends in the same state or stops for the same reason. -/
theorem callbacks_add_no_runs
    (reachable : ReachableSys cfg s) (labels : List (CallbackLabel β)) :
    run (stepEx cfg) s labels =
      run (step cfg) s (withoutCallbacks cfg s labels) := by
  induction labels generalizing s with
  | nil => rfl
  | cons label labels inductionHypothesis =>
      rw [run_cons, withoutCallbacks, run_append,
        ← stepEx_eq_run reachable label]
      generalize taken : stepEx cfg s label = after
      cases after with
      | error stopped => rfl
      | ok next =>
          have reachable' : ReachableSys cfg next :=
            reachable.run (stepEx_eq_run reachable label ▸ taken)
          exact inductionHypothesis reachable'

end

/-- A callback that signals the awaited event: the signal is not lost, and the
task runs again. -/
theorem callbacks_add_no_runs_setUp :
    ∃ s t : Sys Nat,
      run (step (Config.small false)) (Sys.boot (Config.small false))
        (setUp 1 2 3 ++ [.osSchedule]) = .ok s ∧
      run (stepEx (Config.small false)) s
        [.eventWaitEx 1 0 [.eventIsrSignal 1] 7, .plain .osSchedule] = .ok t ∧
      run (step (Config.small false)) s
        [.task (.eventWaitTimeout 1 0) 7, .call (.eventIsrSignal 1),
          .osSchedule] = .ok t ∧
      t.kernel.runningTid = 0 := by
  obtain ⟨s, t, before, after, checked⟩ := exists_pair_of_returnsWith
    (run (step (Config.small false)) (Sys.boot (Config.small false))
      (setUp 1 2 3 ++ [.osSchedule]))
    (fun s => run (stepEx (Config.small false)) s
      [.eventWaitEx 1 0 [.eventIsrSignal 1] 7, .plain .osSchedule])
    (fun states : Sys Nat × Sys Nat =>
      decide (1 < states.1.kernel.events.nEvents ∧
        states.2.kernel.runningTid = 0))
    (by decide +kernel)
  obtain ⟨known, chosen⟩ := of_decide_eq_true checked
  have plain := callbacks_add_no_runs (reachable_of_run before)
    [.eventWaitEx 1 0 [.eventIsrSignal 1] 7, .plain .osSchedule]
  obtain ⟨middle, first, second⟩ := run_cons_eq_ok_iff.mp after
  have expanded : withoutCallbacks (Config.small false) s
      [.eventWaitEx 1 0 [.eventIsrSignal 1] 7, .plain .osSchedule] =
      [.task (.eventWaitTimeout 1 0) 7, .call (.eventIsrSignal 1),
        .osSchedule] := by
    have available : 0 < (Config.small false).nTotalEvents := by decide
    have created : (1 : UInt8).toNat < s.kernel.events.nEvents := known
    unfold withoutCallbacks
    rw [first]
    simp only [CallbackLabel.expand, available, created, and_self, if_true]
    unfold withoutCallbacks
    simp only [CallbackLabel.expand]
    cases stepEx (Config.small false) middle (.plain .osSchedule) <;> rfl
  rw [expanded, after] at plain
  exact ⟨s, t, before, after, plain.symm, chosen⟩

end CocoOs
