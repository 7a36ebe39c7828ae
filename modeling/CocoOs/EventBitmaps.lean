import CocoOs.StepTrace
import CocoOs.TaskEvents

/-!
# The size of the event bitmaps

`EVENT_QUEUE_SIZE` divides the number of events by nine where the accesses
divide the event by eight.  The two roundings agree for some numbers of events
only; for the others the last events fall outside the bitmap.  An event inside
it has a bit of its own in the bitmap of every task.
-/

namespace CocoOs

open Foundation

variable {β : Type}

/-! ## What a large enough bitmap is for -/

/-- A wait sets the bit of the event in the bitmap of one task.  No other event
shares the bit. -/
structure SetsBit (eventId tid : Nat) (tasks tasks' : TaskTable) : Prop where
  own : ∀ other, (tasks'.taskList tid).Pending other ↔
    other = eventId ∨ (tasks.taskList tid).Pending other
  others : ∀ other, other ≠ tid → tasks'.taskList other = tasks.taskList other

/-- What a signal of an event does to the bitmap of a task.  While the wait
goes on it clears the bit of the event and no other; a wait that it completes
leaves no bit set. -/
structure SignalClears (cfg : Config) (eventId : Nat) (task task' : Tcb) :
    Prop where
  deaf : ¬ (task.Pending eventId ∧ task.WaitsForEvents) → task' = task
  goesOn : task.Pending eventId → task.WaitsForEvents →
    ¬ task.Completes cfg eventId →
    task'.state = task.state ∧
      ∀ other, task'.Pending other ↔ other ≠ eventId ∧ task.Pending other
  ends : task.Pending eventId → task.WaitsForEvents →
    task.Completes cfg eventId →
    task'.state = .ready ∧
      ∀ other, other / 8 < cfg.eventQueueSize → ¬ task'.Pending other

/-- A created event has a bit of its own in the bitmap of every task, and no
event created later shares it. -/
structure OwnBit (cfg : Config) (k : Kernel β) (eventId : Nat) : Prop where
  marks : ∀ tid waitSingleEvent timeout, tid < k.tasks.nTasks →
    ∃ tasks',
      k.tasks.osTaskWaitEvent cfg tid eventId waitSingleEvent timeout =
        .ok tasks' ∧
      SetsBit eventId tid k.tasks tasks'
  waits : ∀ tid waitSingleEvent timeout, tid < k.tasks.nTasks →
    ∃ k', k.osWaitEvent cfg tid eventId waitSingleEvent timeout none = .ok k' ∧
      SetsBit eventId tid k.tasks k'.tasks
  signals : ∃ k', k.osSignalEvent cfg eventId = .ok k' ∧
    ∀ tid, tid < k.tasks.nTasks →
      SignalClears cfg eventId (k.tasks.taskList tid) (k'.tasks.taskList tid)
  unshared : ∀ other events, k.events.eventCreate cfg = .ok (other, events) →
    other ≠ eventId

theorem Tcb.signalClears_signalEvent
    (cfg : Config) (eventId : Nat) (task : Tcb) :
    SignalClears cfg eventId task (task.signalEvent cfg eventId) := by
  by_cases listens : task.Pending eventId ∧ task.WaitsForEvents
  · obtain ⟨pending, waits⟩ := listens
    by_cases completes : task.Completes cfg eventId
    · rw [signalEvent_of_completes cfg pending waits completes]
      exact ⟨fun indifferent => absurd ⟨pending, waits⟩ indifferent,
        fun _ _ notYet => absurd completes notYet,
        fun _ _ _ => ⟨rfl, fun _ fits => not_pending_clearWaitQueue cfg _ fits⟩⟩
    · rw [signalEvent_of_not_completes cfg pending waits completes]
      exact ⟨fun indifferent => absurd ⟨pending, waits⟩ indifferent,
        fun _ _ _ => ⟨rfl, fun other => pending_unmarkEvent eventId other task⟩,
        fun _ _ complete => absurd complete completes⟩
  · rw [signalEvent_of_not cfg listens]
    exact ⟨fun _ => rfl, fun pending waits => absurd ⟨pending, waits⟩ listens,
      fun pending waits => absurd ⟨pending, waits⟩ listens⟩

theorem TaskTable.osTaskWaitEvent_setsBit
    {cfg : Config} {tasks : TaskTable} {tid eventId : Nat}
    (waitSingleEvent : Bool) (timeout : Nat)
    (created : tid < tasks.nTasks)
    (inside : eventId / 8 < cfg.eventQueueSize) :
    ∃ tasks',
      tasks.osTaskWaitEvent cfg tid eventId waitSingleEvent timeout =
        .ok tasks' ∧
      SetsBit eventId tid tasks tasks' := by
  refine ⟨_, by rw [osTaskWaitEvent_eq, if_pos created, if_pos inside],
    fun other => ?_, fun other different => ?_⟩
  · rw [modify_taskList_self, Tcb.pending_waitEvent]
  · exact tasks.modify_taskList_of_ne _ different

/-- An event that was created and lies inside the bitmaps has its own bit as
long as the ids do not wrap. -/
theorem OwnBit.of_inside
    {cfg : Config} {k : Kernel β} {eventId : Nat}
    (small : cfg.nTotalEvents ≤ 255)
    (known : eventId < k.events.nEvents)
    (bound : k.events.nEvents ≤ cfg.nTotalEvents)
    (inside : eventId / 8 < cfg.eventQueueSize) :
    OwnBit cfg k eventId := by
  have some : 0 < cfg.nTotalEvents := by omega
  refine ⟨fun tid waitSingleEvent timeout created =>
    TaskTable.osTaskWaitEvent_setsBit _ _ created inside,
    fun tid waitSingleEvent timeout created => ?_, ?_, ?_⟩
  · obtain ⟨tasks', returns, sets⟩ := TaskTable.osTaskWaitEvent_setsBit
      waitSingleEvent timeout created inside
    refine ⟨{ k with
      events := k.events.setSignaledByTid eventId noTid
      tasks := tasks' }, ?_, sets⟩
    unfold Kernel.osWaitEvent
    rw [if_pos ⟨some, known⟩]
    dsimp only
    rw [returns]
    rfl
  · refine ⟨k.signalled cfg eventId, ?_, fun tid created => ?_⟩
    · rw [Kernel.osSignalEvent_eq, if_pos some, if_pos (.inr inside)]
    · change SignalClears cfg eventId _
        ((k.tasks.mapCreated (Tcb.signalEvent cfg eventId)).taskList tid)
      rw [TaskTable.mapCreated_taskList_of_lt _ _ created]
      exact Tcb.signalClears_signalEvent cfg eventId _
  · intro other events returns
    rcases EventTable.eventCreate_cases returns with
      ⟨none, _⟩ | ⟨room, same, _⟩
    · omega
    · omega

/-! ## The events there can be -/

/-- Only the creation of an event changes how many there are.  The counter is
an 8-bit integer. -/
theorem Micro.nEvents_cases
    {cfg : Config} {k k' : Kernel β} {act : Act β}
    (acts : Micro cfg k act k') :
    k'.events.nEvents = k.events.nEvents ∨
    ∃ creation, act = .create creation ∧
      k.events.nEvents < cfg.nTotalEvents ∧
      k'.events.nEvents = (k.events.nEvents + 1) % 256 := by
  cases acts with
  | create creation creates =>
      rcases creationStep_events creates with same | ⟨event, returns⟩
      · exact .inl (by rw [same])
      · rcases EventTable.eventCreate_cases returns with
          ⟨_, _, same⟩ | ⟨room, _, same⟩
        · exact .inl (by rw [same])
        · exact .inr ⟨creation, rfl, room, by rw [same]⟩
  | select _ selects _ =>
      exact .inl (by rw [(Kernel.selectTask_frame selects).2.2.2.1])
  | post returns =>
      rcases Kernel.osMsgPost_cases returns with
        ⟨_, rfl⟩ | ⟨_, _, _, _, q, rfl⟩ <;> exact .inl rfl
  | receive returns _ =>
      rcases Kernel.osMsgReceive_cases returns with
        ⟨_, _, rfl⟩ | ⟨_, _, _, q, msg, rfl⟩ <;> exact .inl rfl
  | _ => exact .inl rfl

/-- What holds of the 8-bit counter of events at zero and after every
creation. -/
theorem reachable_nEvents
    {cfg : Config} {s : Sys β}
    (holds : Nat → Prop)
    (zero : holds 0)
    (created : ∀ count, count < cfg.nTotalEvents → holds ((count + 1) % 256))
    (some : 0 < cfg.nTotalEvents)
    (reachable : ReachableSys cfg s) :
    holds s.kernel.events.nEvents := by
  refine reachable_invariant (fun k => holds k.events.nEvents) ?_ ?_ reachable
  · intro k
    simp only [Kernel.osInit, EventTable.osEventInit, if_pos some]
    exact zero
  · intro k act k' _ here acts
    rcases acts.nEvents_cases with same | ⟨_, _, room, next⟩
    · rwa [same]
    · rw [next]
      exact created _ room

theorem reachable_nEvents_lt
    {cfg : Config} {s : Sys β}
    (some : 0 < cfg.nTotalEvents)
    (reachable : ReachableSys cfg s) :
    s.kernel.events.nEvents < 256 :=
  reachable_nEvents (fun count => count < 256) (by decide)
    (fun _ _ => Nat.mod_lt _ (by decide)) some reachable

theorem reachable_nEvents_le
    {cfg : Config} {s : Sys β}
    (some : 0 < cfg.nTotalEvents)
    (reachable : ReachableSys cfg s) :
    s.kernel.events.nEvents ≤ cfg.nTotalEvents :=
  reachable_nEvents (fun count => count ≤ cfg.nTotalEvents) (Nat.zero_le _)
    (fun _ room => (Nat.mod_le _ _).trans room) some reachable

/-- Events are never removed as long as the ids do not wrap. -/
theorem step_nEvents_le
    {cfg : Config} {s s' : Sys β} {label : Label β}
    (small : cfg.nTotalEvents ≤ 255)
    (sound : s.kernel.Sound cfg)
    (steps : step cfg s label = .ok s') :
    s.kernel.events.nEvents ≤ s'.kernel.events.nEvents := by
  obtain ⟨acts, _, trace⟩ := step_trace sound steps
  apply trace.invariant (fun _ => True)
    (fun later => s.kernel.events.nEvents ≤ later.events.nEvents)
  · intro k act k' _ grows acts
    rcases acts.nEvents_cases with same | ⟨_, _, room, next⟩ <;> omega
  · exact fun _ _ => trivial
  · exact le_rfl

/-- The event that a step creates is known from then on. -/
theorem known_of_created
    {cfg : Config} {s s₁ s₂ : Sys β} {label : Label β}
    {labels : List (Label β)} {eventId : Nat}
    (some : 0 < cfg.nTotalEvents)
    (small : cfg.nTotalEvents ≤ 255)
    (reachable : ReachableSys cfg s)
    (steps : step cfg s label = .ok s₁)
    (returns : s.kernel.events.eventCreate cfg =
      .ok (eventId, s₁.kernel.events))
    (runs : run (step cfg) s₁ labels = .ok s₂) :
    ReachableSys cfg s₂ ∧ eventId < s₂.kernel.events.nEvents := by
  have known : eventId < s₁.kernel.events.nEvents := by
    rcases EventTable.eventCreate_cases returns with
      ⟨none, _⟩ | ⟨room, same, after⟩
    · omega
    · rw [after, same]
      dsimp only
      omega
  refine run_invariant
    (fun s => ReachableSys cfg s ∧ eventId < s.kernel.events.nEvents)
    (fun s label s' holds steps => ⟨holds.1.step steps, holds.2.trans_le
      (step_nEvents_le small (reachable_sound holds.1) steps)⟩)
    ⟨reachable.step steps, known⟩ runs

/-! ## When the bitmaps are large enough -/

/-- The numbers of events for which a ninth of them, rounded down, is as many
full bytes as the last event needs before its own. -/
def Config.BytesSuffice (cfg : Config) : Prop :=
  cfg.nTotalEvents ≤ 16 ∨
  (18 ≤ cfg.nTotalEvents ∧ cfg.nTotalEvents ≤ 24) ∨
  (27 ≤ cfg.nTotalEvents ∧ cfg.nTotalEvents ≤ 32) ∨
  (36 ≤ cfg.nTotalEvents ∧ cfg.nTotalEvents ≤ 40) ∨
  (45 ≤ cfg.nTotalEvents ∧ cfg.nTotalEvents ≤ 48) ∨
  (54 ≤ cfg.nTotalEvents ∧ cfg.nTotalEvents ≤ 56) ∨
  (63 ≤ cfg.nTotalEvents ∧ cfg.nTotalEvents ≤ 64) ∨
  cfg.nTotalEvents = 72

theorem bytesSuffice_iff (cfg : Config) (some : 0 < cfg.nTotalEvents) :
    cfg.BytesSuffice ↔ (cfg.nTotalEvents - 1) / 8 < cfg.eventQueueSize := by
  unfold Config.BytesSuffice Config.eventQueueSize
  generalize cfg.nTotalEvents = events at some ⊢
  omega

/-- The bitmaps have the byte of every event that is created when the two
roundings agree; and an event whose byte they have keeps a bit of its own in
every later state. -/
theorem created_event_has_own_bit
    {cfg : Config} {s s₁ s₂ : Sys β} {label : Label β}
    {labels : List (Label β)} {eventId : Nat}
    (some : 0 < cfg.nTotalEvents)
    (small : cfg.nTotalEvents ≤ 255)
    (reachable : ReachableSys cfg s)
    (steps : step cfg s label = .ok s₁)
    (returns : s.kernel.events.eventCreate cfg =
      .ok (eventId, s₁.kernel.events))
    (runs : run (step cfg) s₁ labels = .ok s₂) :
    (cfg.BytesSuffice → eventId / 8 < cfg.eventQueueSize) ∧
    (eventId / 8 < cfg.eventQueueSize → OwnBit cfg s₂.kernel eventId) := by
  obtain ⟨later, known⟩ :=
    known_of_created some small reachable steps returns runs
  have bound := reachable_nEvents_le some later
  constructor
  · intro enough
    have atMost : eventId ≤ cfg.nTotalEvents - 1 := by omega
    exact (Nat.div_le_div_right atMost).trans_lt
      ((bytesSuffice_iff cfg some).mp enough)
  · exact OwnBit.of_inside small known bound

/-- After the event of a queue `event_create` returns the next, and a task is
chosen. -/
theorem created_event_has_own_bit_setUp :
    ∃ s s₁ s₂ : Sys Nat,
      run (step (Config.small false)) (Sys.boot (Config.small false))
        [.create (.osTaskCreate 1 0 1 (fun _ => ⟨0, 0, 0, 0⟩) 2 20)] = .ok s ∧
      step (Config.small false) s (.create .eventCreate) = .ok s₁ ∧
      run (step (Config.small false)) s₁ [.osStart, .osSchedule] = .ok s₂ ∧
      OwnBit (Config.small false) s₂.kernel 1 := by
  obtain ⟨s, before, checked⟩ := exists_of_returnsWith
    (fun s : Sys Nat =>
      returnsWith (fun made : Nat × EventTable => decide (made.1 = 1))
        (s.kernel.events.eventCreate (Config.small false)) &&
      returnsWith (fun s₁ : Sys Nat =>
        (run (step (Config.small false)) s₁ [.osStart, .osSchedule]).isOk)
        (step (Config.small false) s (.create .eventCreate)))
    (run (step (Config.small false)) (Sys.boot (Config.small false))
      [.create (.osTaskCreate 1 0 1 (fun _ => ⟨0, 0, 0, 0⟩) 2 20)])
    (by decide +kernel)
  rw [Bool.and_eq_true] at checked
  obtain ⟨⟨eventId, events⟩, returns, isOne⟩ :=
    exists_of_returnsWith _ _ checked.1
  obtain ⟨s₁, steps, checked₁⟩ := exists_of_returnsWith _ _ checked.2
  obtain ⟨s₂, runs⟩ := exists_of_isOk _ checked₁
  obtain rfl : eventId = 1 := of_decide_eq_true isOne
  have made : s₁.kernel.events = events := by
    simp only [step, creationStep, returns, ok_map, Except.ok.injEq] at steps
    rw [← steps]
  obtain ⟨inside, ownBit⟩ := created_event_has_own_bit (by decide) (by decide)
    (reachable_of_run before) steps (made.symm ▸ returns) runs
  exact ⟨s, s₁, s₂, before, steps, runs, ownBit (inside (.inl (by decide)))⟩

/-- A task waits for any of two events, and the signal of one clears the bit of
the other as well.  The seventeenth event needs a third byte of a bitmap of two:
a task that waits for it writes outside its bitmap.  And after the 256th event
the counter is zero, so that a wait for the first sets no bit. -/
theorem signal_clears_bit_of_other_event :
    (∃ s s' : Sys Nat,
      run (step (Config.small false)) (Sys.boot (Config.small false))
          (setUp 1 2 3 ++
            [.osSchedule, .task (.eventWaitMultiple false [0, 1]) 4]) = .ok s ∧
      step (Config.small false) s (.call (.eventIsrSignal 1)) = .ok s' ∧
      (s.kernel.tasks.taskList 0).Pending 0 ∧
      (s.kernel.tasks.taskList 0).Pending 1 ∧
      ¬ (s'.kernel.tasks.taskList 0).Pending 0) ∧
    (∃ s : Sys Nat,
      run (step Config.seventeenEvents) (Sys.boot Config.seventeenEvents)
          (.create (.osTaskCreate 1 0 1 (fun _ => ⟨0, 0, 0, 0⟩) 0 0) ::
            List.replicate 17 (.create .eventCreate) ++
              [.osStart, .osSchedule]) = .ok s ∧
      (s.kernel.events.eventList 16).id = 16 ∧
      ¬ 16 / 8 < Config.seventeenEvents.eventQueueSize ∧
      (step Config.seventeenEvents s (.task (.eventWaitTimeout 16 0) 3)).isOk =
        false) ∧
    ∃ s s' : Sys Nat,
      run (step Config.wrappingEvents) (Sys.boot Config.wrappingEvents)
          (.create (.osTaskCreate 1 0 1 (fun _ => ⟨0, 0, 0, 0⟩) 0 0) ::
            List.replicate 256 (.create .eventCreate) ++
              [.osStart, .osSchedule]) = .ok s ∧
      step Config.wrappingEvents s (.task (.eventWaitTimeout 0 0) 3) = .ok s' ∧
      ¬ (s'.kernel.tasks.taskList 0).Pending 0 := by
  refine ⟨?_, ?_, ?_⟩
  · obtain ⟨s, runs, checked⟩ := exists_of_returnsWith
      (fun s : Sys Nat => decide ((s.kernel.tasks.taskList 0).Pending 0 ∧
          (s.kernel.tasks.taskList 0).Pending 1) &&
        returnsWith (fun s' : Sys Nat =>
          decide (¬ (s'.kernel.tasks.taskList 0).Pending 0))
          (step (Config.small false) s (.call (.eventIsrSignal 1))))
      (run (step (Config.small false)) (Sys.boot (Config.small false))
        (setUp 1 2 3 ++
          [.osSchedule, .task (.eventWaitMultiple false [0, 1]) 4]))
      (by decide +kernel)
    rw [Bool.and_eq_true] at checked
    obtain ⟨first, second⟩ := of_decide_eq_true checked.1
    obtain ⟨s', signals, cleared⟩ := exists_of_returnsWith _ _ checked.2
    exact ⟨s, s', runs, signals, first, second, of_decide_eq_true cleared⟩
  · obtain ⟨s, runs, checked⟩ := exists_of_returnsWith
      (fun s : Sys Nat => decide ((s.kernel.events.eventList 16).id = 16 ∧
        (step Config.seventeenEvents s (.task (.eventWaitTimeout 16 0) 3)).isOk =
          false))
      (run (step Config.seventeenEvents) (Sys.boot Config.seventeenEvents)
        (.create (.osTaskCreate 1 0 1 (fun _ => ⟨0, 0, 0, 0⟩) 0 0) ::
          List.replicate 17 (.create .eventCreate) ++
            [.osStart, .osSchedule]))
      (by decide +kernel)
    obtain ⟨known, stops⟩ := of_decide_eq_true checked
    exact ⟨s, runs, known, by decide, stops⟩
  · obtain ⟨s, runs, checked⟩ := exists_of_returnsWith
      (fun s : Sys Nat => returnsWith (fun s' : Sys Nat =>
          decide (¬ (s'.kernel.tasks.taskList 0).Pending 0))
        (step Config.wrappingEvents s (.task (.eventWaitTimeout 0 0) 3)))
      (run (step Config.wrappingEvents) (Sys.boot Config.wrappingEvents)
        (.create (.osTaskCreate 1 0 1 (fun _ => ⟨0, 0, 0, 0⟩) 0 0) ::
          List.replicate 256 (.create .eventCreate) ++
            [.osStart, .osSchedule]))
      (by decide +kernel)
    obtain ⟨s', waits, unmarked⟩ := exists_of_returnsWith _ _ checked
    exact ⟨s, s', runs, waits, of_decide_eq_true unmarked⟩

end CocoOs
