import CocoOs.EventWaits

/-!
# The argument list of `os_wait_multiple`

The function walks its arguments twice.  The first loop looks for `NO_EVENT`;
it drops the argument it reads before the loop, and its bound lets it read one
argument more than the events allow.  The second loop marks the events from the
first argument on.  The two agree exactly on the lists in which between one and
`N_TOTAL_EVENTS` events stand before the first `NO_EVENT`.
-/

namespace CocoOs

open Foundation

variable {β : Type}

namespace Kernel

/-! ## What the call should do -/

/-- The events before the first `NO_EVENT`. -/
def leadingEvents (args : List Nat) : List Nat :=
  args.takeWhile fun event => event ≠ noEvent

/-- Between one and `N_TOTAL_EVENTS` events stand before the first
`NO_EVENT`. -/
def Terminated (cfg : Config) (args : List Nat) : Prop :=
  noEvent ∈ args ∧ 1 ≤ (leadingEvents args).length ∧
    (leadingEvents args).length ≤ cfg.nTotalEvents

/-- The call made the running task wait for exactly the given events, and
changed nothing else. -/
structure WaitsOn
    (cfg : Config) (waitForAll : Bool) (events : List Nat)
    (k k' : Kernel β) : Prop where
  state : (k'.tasks.taskList k.runningTid).state = .waitingEvent
  single : (k'.tasks.taskList k.runningTid).waitSingleEvent = !waitForAll
  pending : ∀ event, event / 8 < cfg.eventQueueSize →
    ((k'.tasks.taskList k.runningTid).Pending event ↔ event ∈ events)
  others : ∀ tid, tid ≠ k.runningTid →
    k'.tasks.taskList tid = k.tasks.taskList tid
  kernel : k' = { k with tasks := k'.tasks }

/-- The call validates its arguments: it waits for the events before the first
`NO_EVENT` when there are between one and `N_TOTAL_EVENTS` of them, and stops at
its assertion, which stands before its first write, for every other list.  It
does the same when only the first `N_TOTAL_EVENTS + 1` arguments are passed, so
it reads no argument beyond them. -/
structure ValidatesWaits
    (cfg : Config) (k : Kernel β) (waitForAll : Bool) (args : List Nat) :
    Prop where
  accepts : Terminated cfg args →
    ∃ k', k.osWaitMultiple cfg waitForAll args = .ok k' ∧
      WaitsOn cfg waitForAll (leadingEvents args) k k'
  rejects : ¬ Terminated cfg args →
    k.osWaitMultiple cfg waitForAll args = .error .assertion
  reads : k.osWaitMultiple cfg waitForAll (args.take (cfg.nTotalEvents + 1)) =
    k.osWaitMultiple cfg waitForAll args

/-! ## The events before `NO_EVENT` -/

theorem leadingEvents_append
    {events : List Nat}
    (absent : noEvent ∉ events)
    (rest : List Nat) :
    leadingEvents (events ++ noEvent :: rest) = events := by
  have before : ∀ event ∈ events, decide (event ≠ noEvent) = true := by
    rintro event inside
    apply decide_eq_true
    rintro rfl
    exact absent inside
  rw [leadingEvents, List.takeWhile_append_of_pos before]
  simp

theorem noEvent_not_mem_leadingEvents
    (args : List Nat) :
    noEvent ∉ leadingEvents args := by
  intro inside
  have different := List.mem_takeWhile_imp inside
  simp at different

/-- A list that contains `NO_EVENT` is cut at the first one. -/
theorem exists_eq_leadingEvents_append
    {args : List Nat}
    (inside : noEvent ∈ args) :
    ∃ rest, args = leadingEvents args ++ noEvent :: rest := by
  obtain ⟨events, rest, rfl, absent⟩ := List.eq_append_cons_of_mem inside
  exact ⟨rest, by rw [leadingEvents_append absent]⟩

/-- The call marks all events before `NO_EVENT`. -/
theorem mem_markedEvents
    {args : List Nat} {event : Nat}
    (small : event % 256 = event)
    (inside : event ∈ leadingEvents args) :
    event ∈ markedEvents args := by
  cases args with
  | nil => cases inside
  | cons first rest =>
      rw [leadingEvents, List.takeWhile_cons] at inside
      split_ifs at inside
      · rcases List.mem_cons.mp inside with rfl | later
        · rw [markedEvents, small]
          exact List.mem_cons_self
        · apply List.mem_cons_of_mem
          exact List.mem_map.mpr ⟨event, later, small⟩
      · cases inside

/-! ## The validating loop -/

/-- The loop finds the first `NO_EVENT` when its counter allows. -/
theorem waitMultipleScan_of_absent
    {cfg : Config} {events : List Nat} {count : Nat}
    (absent : noEvent ∉ events)
    (room : count + events.length ≤ cfg.nTotalEvents)
    (rest : List Nat) :
    waitMultipleScan cfg (events ++ noEvent :: rest) count = .ok noEvent := by
  induction events generalizing count with
  | nil => simp [waitMultipleScan]
  | cons event events inductionHypothesis =>
      obtain ⟨different, later⟩ := List.ne_and_not_mem_of_not_mem_cons absent
      rw [List.length_cons] at room
      rw [List.cons_append, waitMultipleScan,
        if_pos ⟨Ne.symm different, by omega⟩]
      exact inductionHypothesis later (by omega)

/-- Before its counter runs out the loop stops at `NO_EVENT` only. -/
theorem eq_noEvent_of_waitMultipleScan
    {cfg : Config} {unread : List Nat} {count last : Nat}
    (short : count + unread.length ≤ cfg.nTotalEvents)
    (returns : waitMultipleScan cfg unread count = .ok last) :
    last = noEvent := by
  induction unread generalizing count with
  | nil => cases returns
  | cons event rest inductionHypothesis =>
      rw [List.length_cons] at short
      unfold waitMultipleScan at returns
      by_cases more : event ≠ noEvent
      · rw [if_pos ⟨more, by omega⟩] at returns
        exact inductionHypothesis (by omega) returns
      · rw [if_neg fun both => more both.1] at returns
        rw [← Except.ok.inj returns]
        exact not_not.mp more

theorem waitMultipleScan_ne_assertion
    (cfg : Config) (unread : List Nat) (count : Nat) :
    waitMultipleScan cfg unread count ≠ .error .assertion := by
  induction unread generalizing count with
  | nil => simp [waitMultipleScan]
  | cons event rest inductionHypothesis =>
      unfold waitMultipleScan
      dsimp only
      split_ifs
      · exact inductionHypothesis (count + 1)
      · simp

/-! ## The marking loop -/

/-- The loop marks the events up to the first `NO_EVENT`. -/
theorem waitMultipleMark_of_absent
    {cfg : Config} {tid first : Nat} {events : List Nat} {tasks : TaskTable}
    (waitForAll : Bool)
    (created : tid < tasks.nTasks)
    (absent : noEvent ∉ events)
    (small : ∀ event ∈ first :: events, event % 256 = event)
    (fits : ∀ event ∈ first :: events, event / 8 < cfg.eventQueueSize)
    (rest : List Nat) :
    waitMultipleMark cfg tid waitForAll (first :: events ++ noEvent :: rest)
        tasks =
      .ok (tasks.modify tid fun task =>
        (first :: events).foldl
          (fun task event => task.waitEvent event (!waitForAll) 0) task) := by
  induction events generalizing first tasks with
  | nil =>
      have here : first ∈ [first] := List.mem_cons_self
      rw [List.cons_append, waitMultipleMark, TaskTable.osTaskWaitEvent_eq,
        small first here, if_pos created, if_pos (fits first here)]
      simp
  | cons next events inductionHypothesis =>
      have here : first ∈ first :: next :: events := List.mem_cons_self
      obtain ⟨different, later⟩ := List.ne_and_not_mem_of_not_mem_cons absent
      rw [List.cons_append, waitMultipleMark, TaskTable.osTaskWaitEvent_eq,
        small first here, if_pos created, if_pos (fits first here)]
      simp only [ok_bind, List.cons_append]
      rw [if_pos (Ne.symm different)]
      have createdStill : tid <
          (tasks.modify tid (Tcb.waitEvent first (!waitForAll) 0)).nTasks :=
        created
      refine (inductionHypothesis createdStill later
        (fun event inside => small event (List.mem_cons_of_mem _ inside))
        (fun event inside => fits event (List.mem_cons_of_mem _ inside))).trans ?_
      rw [TaskTable.modify_modify]
      rfl

theorem waitMultipleMark_ne_assertion
    {cfg : Config} {tid : Nat} {tasks : TaskTable}
    (waitForAll : Bool)
    (created : tid < tasks.nTasks)
    (args : List Nat) :
    waitMultipleMark cfg tid waitForAll args tasks ≠ .error .assertion := by
  induction args generalizing tasks with
  | nil => simp [waitMultipleMark]
  | cons event rest inductionHypothesis =>
      rw [waitMultipleMark, TaskTable.osTaskWaitEvent_eq, if_pos created]
      by_cases fits : event % 256 / 8 < cfg.eventQueueSize
      · rw [if_pos fits, ok_bind]
        cases rest with
        | nil => simp
        | cons next later =>
            dsimp only
            split_ifs
            · exact inductionHypothesis created
            · simp
      · rw [if_neg fits, error_bind]
        simp

/-! ## The call -/

/-- A list with as many leading events as allowed, all inside the bitmaps, is
accepted. -/
theorem osWaitMultiple_of_terminated
    {cfg : Config} {k : Kernel β} {args : List Nat}
    (waitForAll : Bool)
    (created : k.runningTid < k.tasks.nTasks)
    (small : ∀ event ∈ args, event % 256 = event)
    (terminated : Terminated cfg args)
    (fits : ∀ event ∈ leadingEvents args, event / 8 < cfg.eventQueueSize) :
    k.osWaitMultiple cfg waitForAll args =
      .ok (k.modifyTask k.runningTid
        ((Wait.multiple waitForAll (leadingEvents args)).apply cfg)) := by
  obtain ⟨inside, atLeast, atMost⟩ := terminated
  obtain ⟨rest, split⟩ := exists_eq_leadingEvents_append inside
  have absent := noEvent_not_mem_leadingEvents args
  have smallLeading : ∀ event ∈ leadingEvents args, event % 256 = event :=
    fun event member => small event ((List.takeWhile_subset _) member)
  generalize leadingEvents args = events at *
  subst split
  cases events with
  | nil => simp at atLeast
  | cons first events =>
      rw [List.length_cons] at atMost
      have later := (List.ne_and_not_mem_of_not_mem_cons absent).2
      have createdHere : k.osGetRunningTid <
          (k.tasks.osTaskClearWaitQueue cfg k.osGetRunningTid).nTasks := created
      unfold osWaitMultiple
      rw [if_pos (by omega), List.cons_append]
      dsimp only
      rw [waitMultipleScan_of_absent later (by omega), ok_bind, if_pos rfl,
        ← List.cons_append, waitMultipleMark_of_absent waitForAll createdHere
          later smallLeading fits]
      rw [ok_bind, TaskTable.osTaskClearWaitQueue, TaskTable.modify_modify]
      rfl

/-- A task that runs and is made to wait for several events waits for them. -/
theorem waitsOn_modifyTask
    {cfg : Config} {events : List Nat}
    (k : Kernel β)
    (waitForAll : Bool)
    (some : events ≠ []) :
    WaitsOn cfg waitForAll events k
      (k.modifyTask k.runningTid
        ((Wait.multiple waitForAll events).apply cfg)) := by
  obtain ⟨earlier, last, rfl⟩ :=
    (List.eq_nil_or_concat events).resolve_left some
  refine ⟨?_, ?_, fun event fits => ?_, fun tid different => ?_, rfl⟩
  · simp [modifyTask_taskList, Wait.apply, Tcb.waitEvent]
  · simp [modifyTask_taskList, Wait.apply, Tcb.waitEvent, Tcb.markEvent]
  · rw [modifyTask_taskList, if_pos rfl]
    have absent := Tcb.not_pending_clearWaitQueue cfg
      (k.tasks.taskList k.runningTid) fits
    exact (Tcb.pending_foldl_waitEvent _ _ _ event).trans (or_iff_left absent)
  · rw [modifyTask_taskList, if_neg different]

/-- When the assertion fires, the validating loop ended at an argument other than
`NO_EVENT`. -/
theorem exists_scan_of_assertion
    {cfg : Config} {k : Kernel β} {waitForAll : Bool} {args : List Nat}
    (created : k.runningTid < k.tasks.nTasks)
    (stops : k.osWaitMultiple cfg waitForAll args = .error .assertion) :
    ∃ first unread last, args = first :: unread ∧
      waitMultipleScan cfg unread 0 = .ok last ∧ last ≠ noEvent := by
  unfold osWaitMultiple at stops
  by_cases events : 0 < cfg.nTotalEvents
  · rw [if_pos events] at stops
    cases args with
    | nil => cases stops
    | cons first unread =>
        dsimp only at stops
        cases scan : waitMultipleScan cfg unread 0 with
        | error stopped =>
            rw [scan, error_bind] at stops
            cases stops
            exact absurd scan (waitMultipleScan_ne_assertion cfg unread 0)
        | ok last =>
            refine ⟨first, unread, last, rfl, scan, fun isLast => ?_⟩
            rw [scan, ok_bind, if_pos isLast] at stops
            cases marks : waitMultipleMark cfg k.osGetRunningTid waitForAll
                (first :: unread)
                (k.tasks.osTaskClearWaitQueue cfg k.osGetRunningTid) with
            | error stopped =>
                rw [marks, error_bind] at stops
                cases stops
                have createdHere : k.osGetRunningTid <
                    (k.tasks.osTaskClearWaitQueue cfg k.osGetRunningTid).nTasks :=
                  created
                exact waitMultipleMark_ne_assertion waitForAll createdHere _ marks
            | ok tasks =>
                rw [marks, ok_bind] at stops
                cases stops
  · rw [if_neg events] at stops
    cases stops

/-- The assertion does not fire on the first `N_TOTAL_EVENTS + 1` arguments
alone. -/
theorem osWaitMultiple_take_ne_assertion
    {cfg : Config} {k : Kernel β}
    (waitForAll : Bool)
    (args : List Nat)
    (created : k.runningTid < k.tasks.nTasks) :
    k.osWaitMultiple cfg waitForAll (args.take (cfg.nTotalEvents + 1)) ≠
      .error .assertion := by
  intro stops
  obtain ⟨first, unread, last, taken, scan, different⟩ :=
    exists_scan_of_assertion created stops
  have short := List.length_take_le (cfg.nTotalEvents + 1) args
  rw [taken, List.length_cons] at short
  exact different (eq_noEvent_of_waitMultipleScan (by omega) scan)

/-- The arguments after the first `N_TOTAL_EVENTS + 1` do not matter to a list
that is terminated before them. -/
theorem Terminated.take
    {cfg : Config} {args : List Nat}
    (terminated : Terminated cfg args) :
    Terminated cfg (args.take (cfg.nTotalEvents + 1)) ∧
      leadingEvents (args.take (cfg.nTotalEvents + 1)) = leadingEvents args := by
  obtain ⟨inside, atLeast, atMost⟩ := terminated
  obtain ⟨rest, split⟩ := exists_eq_leadingEvents_append inside
  have absent := noEvent_not_mem_leadingEvents args
  have taken : args.take (cfg.nTotalEvents + 1) =
      leadingEvents args ++ noEvent ::
        rest.take (cfg.nTotalEvents - (leadingEvents args).length) := by
    conv_lhs => rw [split]
    rw [List.take_append, List.take_of_length_le (by omega),
      Nat.succ_sub atMost, List.take_succ_cons]
  have same : leadingEvents (args.take (cfg.nTotalEvents + 1)) =
      leadingEvents args := by
    rw [taken, leadingEvents_append absent]
  refine ⟨⟨?_, ?_, ?_⟩, same⟩
  · rw [taken]
    simp
  · rw [same]
    exact atLeast
  · rw [same]
    exact atMost

end Kernel

/-- In every reachable state with a running task, and for every list of created
events and `NO_EVENT`, the call validates its arguments exactly when between one
and `N_TOTAL_EVENTS` events that fit the bitmaps stand before the first
`NO_EVENT`. -/
theorem validatesWaits_iff
    {cfg : Config} {s : Sys β} {args : List Nat}
    (waitForAll : Bool)
    (reachable : ReachableSys cfg s)
    (runs : s.kernel.runningTid ≠ noTid)
    (ids : ∀ event ∈ args, event = noEvent ∨ s.kernel.HasEvent cfg event) :
    Kernel.ValidatesWaits cfg s.kernel waitForAll args ↔
      Kernel.Terminated cfg args ∧
        ∀ event ∈ Kernel.leadingEvents args, event / 8 < cfg.eventQueueSize := by
  have created := ((reachable_tasksSound reachable).runs runs).1
  have small : ∀ event ∈ args, event % 256 = event := by
    intro event inside
    rcases ids event inside with rfl | ⟨some, known⟩
    · rfl
    · have bound := reachable_nEvents_lt some reachable
      exact Nat.mod_eq_of_lt (known.trans bound)
  constructor
  · intro validates
    have terminated : Kernel.Terminated cfg args := by
      by_contra unterminated
      have stops := validates.rejects unterminated
      rw [← validates.reads] at stops
      exact Kernel.osWaitMultiple_take_ne_assertion waitForAll args created stops
    refine ⟨terminated, fun event inside => ?_⟩
    obtain ⟨k', returns, _⟩ := validates.accepts terminated
    rcases Kernel.osWaitMultiple_cases returns with ⟨none, _⟩ | ⟨_, _, _, fit, _⟩
    · obtain ⟨_, atLeast, atMost⟩ := terminated
      omega
    · apply fit.2
      exact Kernel.mem_markedEvents
        (small event ((List.takeWhile_subset _) inside)) inside
  · rintro ⟨terminated, fits⟩
    have accepts := Kernel.osWaitMultiple_of_terminated waitForAll created small
      terminated fits
    refine ⟨fun _ => ⟨_, accepts, ?_⟩, absurd terminated, ?_⟩
    · apply Kernel.waitsOn_modifyTask
      exact List.ne_nil_of_length_pos terminated.2.1
    · obtain ⟨taken, same⟩ := terminated.take
      have smallTaken : ∀ event ∈ args.take (cfg.nTotalEvents + 1),
          event % 256 = event :=
        fun event inside => small event (List.mem_of_mem_take inside)
      rw [accepts, Kernel.osWaitMultiple_of_terminated waitForAll created
        smallTaken taken (by rwa [same]), same]

/-- The running task waits for both of its events. -/
theorem validatesWaits_setUp :
    ∃ s : Sys Nat,
      run (step (Config.small false)) (Sys.boot (Config.small false))
        (setUp 1 2 3 ++ [.osSchedule]) = .ok s ∧
      Kernel.ValidatesWaits (Config.small false) s.kernel true
        [0, 1, noEvent, noEvent, 0] := by
  obtain ⟨s, runs, checked⟩ := exists_of_returnsWith
    (fun s : Sys Nat => decide (s.kernel.runningTid = 0 ∧
      s.kernel.events.nEvents = 2))
    (run (step (Config.small false)) (Sys.boot (Config.small false))
      (setUp 1 2 3 ++ [.osSchedule]))
    (by decide +kernel)
  obtain ⟨running, count⟩ := of_decide_eq_true checked
  have ids : ∀ event ∈ [0, 1, noEvent, noEvent, 0],
      event = noEvent ∨ s.kernel.HasEvent (Config.small false) event := by
    unfold Kernel.HasEvent
    rw [count]
    decide
  refine ⟨s, runs, ?_⟩
  refine (validatesWaits_iff true (reachable_of_run runs) ?_ ids).mpr ?_
  · rw [running]
    decide
  · exact ⟨⟨by decide, by decide, by decide⟩, by decide⟩

/-- With three events in all, a list of four events is accepted. -/
theorem waitMultiple_accepts_four :
    ∃ s : Sys Nat, ReachableSys (Config.small false) s ∧
      s.kernel.runningTid ≠ noTid ∧
      (∀ event ∈ [0, 1, 0, 1, noEvent],
        event = noEvent ∨ s.kernel.HasEvent (Config.small false) event) ∧
      ¬ Kernel.Terminated (Config.small false) [0, 1, 0, 1, noEvent] ∧
      (∃ k', s.kernel.osWaitMultiple (Config.small false) true
        [0, 1, 0, 1, noEvent] = .ok k') ∧
      ¬ Kernel.ValidatesWaits (Config.small false) s.kernel true
        [0, 1, 0, 1, noEvent] := by
  obtain ⟨s, runs, checked⟩ := exists_of_returnsWith
    (fun s : Sys Nat => decide (s.kernel.runningTid = 0 ∧
      s.kernel.events.nEvents = 2 ∧
      (s.kernel.osWaitMultiple (Config.small false) true
        [0, 1, 0, 1, noEvent]).isOk = true))
    (run (step (Config.small false)) (Sys.boot (Config.small false))
      (setUp 1 2 3 ++ [.osSchedule]))
    (by decide +kernel)
  obtain ⟨running, count, accepted⟩ := of_decide_eq_true checked
  obtain ⟨k', returns⟩ := exists_of_isOk _ accepted
  have unterminated :
      ¬ Kernel.Terminated (Config.small false) [0, 1, 0, 1, noEvent] := by
    rintro ⟨_, _, atMost⟩
    exact absurd atMost (by decide)
  refine ⟨s, reachable_of_run runs, ?_, ?_, unterminated, ⟨k', returns⟩,
    fun validates => ?_⟩
  · rw [running]
    decide
  · unfold Kernel.HasEvent
    rw [count]
    decide
  · have stops := validates.rejects unterminated
    rw [returns] at stops
    cases stops

end CocoOs
