import CocoOs.Frames
import CocoOs.EventBitmaps
import CocoOs.TaskSound

/-!
# Waiting for events

A task that waits for events is woken by the signals alone: for all of its
events by the last of their first signals, for any of them by the first.  The
invariant ties the wait queue of the task to the events signalled since the
wait began.
-/

namespace CocoOs

open Foundation

variable {β : Type}

/-! ## When a task is woken -/

/-- The event was created. -/
def Kernel.HasEvent (cfg : Config) (k : Kernel β) (eventId : Nat) : Prop :=
  0 < cfg.nTotalEvents ∧ eventId < k.events.nEvents

/-- Among what the history recorded, all the events were signalled, or any of
them. -/
def Woken (waitAll : Bool) (events : List Nat) (seen : List (Entry β)) : Prop :=
  if waitAll then ∀ event ∈ events, .signalled event ∈ seen
  else ∃ event ∈ events, .signalled event ∈ seen

/-- A wait for events, after the history recorded these entries: it goes on
while the task is not woken, and then the wait queue holds the events still to
come. -/
inductive EventWait (cfg : Config) (waitAll : Bool) (events : List Nat)
    (seen : List (Entry β)) (task : Tcb) : Prop
  | waiting
      (notYet : ¬ Woken waitAll events seen)
      (state : task.state = .waitingEvent)
      (mode : task.waitSingleEvent = !waitAll)
      (pending : ∀ event, event / 8 < cfg.eventQueueSize →
        (task.Pending event ↔ event ∈ events ∧ .signalled event ∉ seen))
  | woken
      (woken : Woken waitAll events seen)
      (state : task.state = .ready)

theorem Woken.append
    {waitAll : Bool} {events : List Nat} {seen : List (Entry β)}
    (woken : Woken waitAll events seen) (entries : List (Entry β)) :
    Woken waitAll events (seen ++ entries) := by
  unfold Woken at woken ⊢
  split_ifs at woken ⊢
  · intro event inside
    exact List.mem_append_left _ (woken event inside)
  · obtain ⟨event, inside, signalled⟩ := woken
    exact ⟨event, inside, List.mem_append_left _ signalled⟩

/-- Entries that signal nothing wake nobody. -/
theorem woken_append_iff
    {waitAll : Bool} {events : List Nat} {seen entries : List (Entry β)}
    (same : ∀ event ∈ events, Entry.signalled event ∈ entries →
      .signalled event ∈ seen) :
    Woken waitAll events (seen ++ entries) ↔ Woken waitAll events seen := by
  constructor
  · intro woken
    unfold Woken at woken ⊢
    split_ifs at woken ⊢
    · intro event inside
      rcases List.mem_append.mp (woken event inside) with before | now
      · exact before
      · exact same event inside now
    · obtain ⟨event, inside, signalled⟩ := woken
      rcases List.mem_append.mp signalled with before | now
      · exact ⟨event, inside, before⟩
      · exact ⟨event, inside, same event inside now⟩
  · exact fun woken => woken.append entries

section

variable {cfg : Config} {waitAll : Bool} {events : List Nat}
variable {seen entries : List (Entry β)} {task task' : Tcb}

/-- What leaves the task's wait alone and signals none of its events for the
first time leaves the wait as it is. -/
theorem EventWait.of_eq
    (wait : EventWait cfg waitAll events seen task)
    (same : ∀ event ∈ events, Entry.signalled event ∈ entries →
      .signalled event ∈ seen)
    (state : task'.state = task.state)
    (mode : task'.waitSingleEvent = task.waitSingleEvent)
    (eventQueue : task'.eventQueue = task.eventQueue) :
    EventWait cfg waitAll events (seen ++ entries) task' := by
  cases wait with
  | waiting notYet stateBefore modeBefore pending =>
      refine .waiting (fun woken => notYet ((woken_append_iff same).mp woken))
        (state.trans stateBefore) (mode.trans modeBefore) ?_
      intro event fits
      have unchanged : task'.Pending event ↔ task.Pending event := by
        unfold Tcb.Pending
        rw [eventQueue]
      rw [unchanged, pending event fits, List.mem_append, not_or]
      constructor
      · rintro ⟨inside, before⟩
        exact ⟨inside, before, fun now => before (same event inside now)⟩
      · rintro ⟨inside, before, _⟩
        exact ⟨inside, before⟩
  | woken woken stateBefore =>
      exact .woken (woken.append entries) (state.trans stateBefore)

/-- A wait under one signal. -/
theorem EventWait.signal
    (wait : EventWait cfg waitAll events seen task)
    (fit : ∀ event ∈ events, event / 8 < cfg.eventQueueSize)
    (event : Nat)
    (inside : event / 8 < cfg.eventQueueSize) :
    EventWait cfg waitAll events (seen ++ [.signalled event])
      (task.signalEvent cfg event) := by
  cases wait with
  | woken woken state =>
      have deaf : ¬ (task.Pending event ∧ task.WaitsForEvents) := by
        rintro ⟨_, wrong | wrong⟩ <;> rw [state] at wrong <;> cases wrong
      rw [Tcb.signalEvent_of_not cfg deaf]
      exact .woken (woken.append _) state
  | waiting notYet state mode pending =>
      by_cases isPending : task.Pending event
      · obtain ⟨member, fresh⟩ := (pending event inside).mp isPending
        by_cases completes : task.Completes cfg event
        · rw [Tcb.signalEvent_of_completes cfg isPending (.inl state) completes]
          refine .woken ?_ rfl
          unfold Woken
          cases waitAll with
          | false => exact ⟨event, member, by simp⟩
          | true =>
              have only := completes.resolve_left (by simp [mode])
              intro other otherMember
              by_cases before : Entry.signalled other ∈ seen
              · exact List.mem_append_left _ before
              · have fits := fit other otherMember
                have last := only other fits
                  ((pending other fits).mpr ⟨otherMember, before⟩)
                simp [last]
        · rw [Tcb.signalEvent_of_not_completes cfg isPending (.inl state)
            completes]
          unfold Tcb.Completes at completes
          push Not at completes
          obtain ⟨notSingle, other, fits, otherPending, different⟩ := completes
          obtain ⟨otherMember, otherFresh⟩ := (pending other fits).mp otherPending
          cases waitAll with
          | false => exact absurd mode notSingle
          | true =>
              refine .waiting ?_ state mode ?_
              · intro woken
                have missing := woken other otherMember
                simp [otherFresh, different] at missing
              · intro third thirdFits
                rw [Tcb.pending_unmarkEvent, pending third thirdFits,
                  List.mem_append, List.mem_singleton, Entry.signalled.injEq,
                  not_or]
                tauto
      · have deaf : ¬ (task.Pending event ∧ task.WaitsForEvents) :=
          fun both => isPending both.1
        rw [Tcb.signalEvent_of_not cfg deaf]
        refine EventWait.of_eq (.waiting notYet state mode pending) ?_ rfl rfl rfl
        intro other member now
        rw [List.mem_singleton, Entry.signalled.injEq] at now
        subst now
        by_contra fresh
        exact isPending ((pending other inside).mpr ⟨member, fresh⟩)

/-- A wait while nothing concerns its task. -/
theorem EventWait.quiet
    (wait : EventWait cfg waitAll events seen task)
    (silent : ∀ event, Entry.signalled event ∉ entries)
    (state : task'.state = task.state)
    (mode : task'.waitSingleEvent = task.waitSingleEvent)
    (eventQueue : task'.eventQueue = task.eventQueue) :
    EventWait cfg waitAll events (seen ++ entries) task' :=
  wait.of_eq (fun event _ now => absurd now (silent event)) state mode eventQueue

/-- A task that waits for events waits or is ready. -/
theorem EventWait.state_cases
    (wait : EventWait cfg waitAll events seen task) :
    task.state = .waitingEvent ∨ task.state = .ready := by
  cases wait with
  | waiting notYet state mode pending => exact .inl state
  | woken woken state => exact .inr state

/-! ## One action -/

/-- The action makes the task wait, or suspends, resumes or kills it. -/
def Act.Disturbs (tid : Nat) : Act β → Prop
  | .block actor _ _ => actor = tid
  | .suspend other => other = tid
  | .resume other => other = tid
  | .kill other => other = tid
  | _ => False

/-- A wait goes on under every action that does not disturb its task. -/
theorem EventWait.of_micro
    {k k' : Kernel β} {act : Act β} {tid : Nat}
    (acts : Micro cfg k act k')
    (created : tid < k.tasks.nTasks)
    (undisturbed : ¬ act.Disturbs tid)
    (fit : ∀ event ∈ events, event / 8 < cfg.eventQueueSize)
    (wait : EventWait cfg waitAll events seen (k.tasks.taskList tid)) :
    EventWait cfg waitAll events (seen ++ act.entries)
      (k'.tasks.taskList tid) := by
  have states := wait.state_cases
  rw [acts.taskList created]
  cases acts with
  | signal signals fits =>
      exact wait.signal fit _ (fits.resolve_left (Nat.ne_zero_of_lt created))
  | yield line =>
      refine wait.quiet (by simp [Act.entries]) ?_ ?_ ?_ <;>
        simp only [Act.onTask] <;> split_ifs <;> rfl
  | block other line inside enabled =>
      simp only [Act.onTask]
      rw [if_neg fun same => undisturbed same.symm]
      exact wait.quiet (by simp [Act.entries]) rfl rfl rfl
  | note noted =>
      refine wait.quiet (by simp [Act.entries]) ?_ ?_ ?_ <;>
        simp only [Act.onTask] <;> split_ifs <;> cases noted <;> rfl
  | suspend inside | resume inside | kill inside =>
      simp only [Act.onTask]
      rw [if_neg fun same => undisturbed same.symm]
      exact wait.quiet (by simp [Act.entries]) rfl rfl rfl
  | tick other clockId tickSize inside =>
      have still : (k.tasks.taskList tid).tick cfg clockId tickSize =
          k.tasks.taskList tid := by
        unfold Tcb.tick
        rcases states with state | state <;> simp [state]
      simp only [Act.onTask]
      rw [still, ite_self]
      exact wait.quiet (by simp [Act.entries]) rfl rfl rfl
  | release inside waits found =>
      simp only [Act.onTask]
      rw [if_neg]
      · exact wait.quiet (by simp [Act.entries]) rfl rfl rfl
      · rintro rfl
        rcases states with state | state <;> rw [waits.1] at state <;> cases state
  | _ => exact wait.quiet (by simp [Act.entries]) rfl rfl rfl

/-- A wait goes on along a trace that does not disturb its task, with the
entries the trace records. -/
theorem EventWait.of_trace
    {k k' : Kernel β} {acts : List (Act β)} {tid : Nat}
    (trace : Trace (Micro cfg) k acts k')
    (created : tid < k.tasks.nTasks)
    (undisturbed : ∀ act ∈ acts, ¬ act.Disturbs tid)
    (fit : ∀ event ∈ events, event / 8 < cfg.eventQueueSize)
    (wait : EventWait cfg waitAll events seen (k.tasks.taskList tid)) :
    EventWait cfg waitAll events (seen ++ acts.flatMap Act.entries)
      (k'.tasks.taskList tid) := by
  induction trace generalizing seen with
  | nil k => simpa using wait
  | @cons k middle k' act acts first rest inductionHypothesis =>
      have here := wait.of_micro first created
        (undisturbed act (List.mem_cons_self ..)) fit
      have later := inductionHypothesis (created.trans_le first.nTasks_le)
        (fun act inside => undisturbed act (List.mem_cons_of_mem _ inside)) here
      rwa [List.flatMap_cons, ← List.append_assoc]

end

/-! ## One step -/

/-- The task neither takes a macro in this step nor is suspended, resumed or
killed by it. -/
def Undisturbed (tid : Nat) (s : Sys β) (label : Label β) : Prop :=
  ¬ label.Suspends tid ∧ ¬ label.Resumes tid ∧ ¬ label.Kills s tid ∧
    ∀ op line, label = .task op line → s.kernel.runningTid ≠ tid

section

variable {cfg : Config} {s s' : Sys β} {label : Label β} {tid : Nat}

/-- A turn of a message macro blocks the running task only. -/
theorem Kernel.PostActs.not_blocks
    {k : Kernel β} {queue delay period event line : Nat}
    {msg : Msg β} {async blocked : Bool} {acts : List (Act β)}
    (turn : PostActs cfg k queue delay period msg async event line blocked acts)
    (other : k.runningTid ≠ tid) :
    ∀ act ∈ acts, ¬ act.Disturbs tid := by
  cases turn with
  | blocked sync full =>
      unfold waitEventActs
      split_ifs <;> simp [Act.Disturbs, other]
  | posted room =>
      unfold signalActs
      split_ifs <;> simp [Act.Disturbs]
  | refused notBlocked => simp

theorem Kernel.ReceiveActs.not_blocks
    {k : Kernel β} {queue event line : Nat}
    {async blocked : Bool} {acts : List (Act β)}
    (turn : ReceiveActs cfg k queue async event line blocked acts)
    (other : k.runningTid ≠ tid) :
    ∀ act ∈ acts, ¬ act.Disturbs tid := by
  cases turn with
  | blocked sync nothing =>
      unfold waitEventActs
      split_ifs <;> simp [Act.Disturbs, other]
  | received msg some =>
      unfold signalActs
      split_ifs <;> simp [Act.Disturbs]
  | nothing notBlocked => simp

/-- A task that is between macros goes on without blocking. -/
theorem ResumeActs.not_disturbs
    {k : Kernel β} {frame frame' : Nat → Frame β} {acts : List (Act β)}
    (resumes : ResumeActs cfg k frame acts frame')
    (here : frame tid = .between) :
    (∀ act ∈ acts, ¬ act.Disturbs tid) ∧ frame' tid = .between := by
  by_cases same : k.runningTid = tid
  · subst same
    cases resumes with
    | begin fresh => exact ⟨by simp, Function.update_self ..⟩
    | between goesOn _ => exact ⟨by simp, here⟩
    | post goesOn inPost full turn => rw [here] at inPost; cases inPost
    | receive goesOn inReceive empty turn => rw [here] at inReceive; cases inReceive
    | done goesOn wasPost wasReceive =>
        refine ⟨?_, Function.update_self ..⟩
        unfold Kernel.signalActs
        split_ifs <;> simp [Act.Disturbs]
  · have apart : tid ≠ k.runningTid := Ne.symm same
    cases resumes with
    | begin fresh =>
        exact ⟨by simp, (Function.update_of_ne apart _ _).trans here⟩
    | between goesOn _ => exact ⟨by simp, here⟩
    | post goesOn inPost full turn =>
        exact ⟨turn.not_blocks same, (Function.update_of_ne apart _ _).trans here⟩
    | receive goesOn inReceive empty turn =>
        exact ⟨turn.not_blocks same, (Function.update_of_ne apart _ _).trans here⟩
    | done goesOn wasPost wasReceive =>
        refine ⟨?_, (Function.update_of_ne apart _ _).trans here⟩
        unfold Kernel.signalActs
        split_ifs <;> simp [Act.Disturbs]

/-- A step that leaves the task undisturbed has no action that disturbs it. -/
theorem StepActs.not_disturbs
    {acts : List (Act β)} {frame : Nat → Frame β}
    (shape : StepActs cfg s label acts frame)
    (undisturbed : Undisturbed tid s label)
    (here : s.frame tid = .between) :
    (∀ act ∈ acts, ¬ act.Disturbs tid) ∧ frame tid = .between := by
  have allowed := shape.allowed
  obtain ⟨notSuspended, notResumed, notKilled, notActor⟩ := undisturbed
  by_cases scheduled : label = .osSchedule
  · subst scheduled
    cases shape with
    | sleep idle selects sleeps => exact ⟨by simp [Act.Disturbs], here⟩
    | osSchedule idle selects chosen inside resumes =>
        obtain ⟨quiet, between⟩ := resumes.not_disturbs here
        refine ⟨fun act member => ?_, between⟩
        rcases List.mem_cons.mp member with rfl | later
        · exact not_false
        · exact quiet act later
  · constructor
    · intro act inside disturbs
      have mayOccur := allowed act inside
      cases act with
      | block actor wait line =>
          have same : actor = tid := disturbs
          subst same
          rcases mayOccur with ⟨op, line, labelled, runs, _⟩ | ⟨wrong, _⟩
          · exact notActor op line labelled runs
          · exact scheduled wrong
      | suspend other =>
          have same : other = tid := disturbs
          exact notSuspended (same ▸ mayOccur)
      | resume other =>
          have same : other = tid := disturbs
          exact notResumed (same ▸ mayOccur)
      | kill other =>
          have same : other = tid := disturbs
          exact notKilled (same ▸ mayOccur)
      | _ => exact disturbs
    · cases shape with
      | create | osStart | call => exact here
      | sleep | osSchedule => exact absurd rfl scheduled
      | @task op line acts left runs takes =>
          cases left with
          | none => exact here
          | some left =>
              have apart := (notActor op line rfl).symm
              exact (Function.update_of_ne apart _ _).trans here

end

/-! ## The start of a wait -/

/-- The events a macro waits for without a timeout, and whether for all of
them. -/
def TaskOp.eventWait : TaskOp β → Option (Bool × List Nat)
  | .eventWaitTimeout event timeout =>
      if timeout = 0 then some (false, [event.toNat]) else none
  | .eventWaitMultiple waitAll args => some (waitAll, args.map UInt8.toNat)
  | _ => none

/-- `os_wait_multiple` marks all of its arguments before the closing
`NO_EVENT`. -/
theorem Kernel.markedEvents_eq
    {args : List Nat}
    (some : args ≠ [])
    (known : ∀ event ∈ args, event < noEvent) :
    markedEvents (args ++ [noEvent]) = args := by
  obtain ⟨first, rest, rfl⟩ := List.exists_cons_of_ne_nil some
  have small : ∀ event ∈ first :: rest, event % 256 = event := by
    intro event inside
    have below := known event inside
    unfold noEvent at below
    omega
  have taken : (rest ++ [noEvent]).takeWhile (fun event => event ≠ noEvent) =
      rest := by
    have notLast : ∀ event ∈ rest, decide (event ≠ noEvent) = true := by
      intro event inside
      have below := known event (List.mem_cons_of_mem _ inside)
      exact decide_eq_true (Nat.ne_of_lt below)
    rw [List.takeWhile_append_of_pos notLast]
    simp
  rw [List.cons_append, markedEvents, taken, small first (List.mem_cons_self ..)]
  congr 1
  have unchanged : rest.map (fun event => event % 256) = rest.map id :=
    List.map_congr_left fun event inside =>
      small event (List.mem_cons_of_mem _ inside)
  rw [unchanged, List.map_id]

namespace Tcb

theorem pending_foldl_waitEvent
    (events : List Nat) (single : Bool) (task : Tcb) (event : Nat) :
    (events.foldl (fun task eventId => task.waitEvent eventId single 0)
        task).Pending event ↔ event ∈ events ∨ task.Pending event := by
  induction events generalizing task with
  | nil => simp
  | cons first rest inductionHypothesis =>
      rw [List.foldl_cons, inductionHypothesis, pending_waitEvent,
        List.mem_cons]
      tauto

theorem eventWait_single
    {cfg : Config} {event : Nat} (line : Nat) {task : Tcb}
    (empty : task.NoEvents cfg) :
    EventWait cfg false [event] ([] : List (Entry β))
      { Wait.apply cfg (.event event 0) task with internalState := line } := by
  refine .waiting (by simp [Woken]) rfl rfl fun other fits => ?_
  have absent := (ByteSet.empty_iff _ _).mp empty other fits
  have pending := pending_waitEvent event other true 0 task
  simp only [List.mem_singleton, List.not_mem_nil, not_false_eq_true, and_true]
  exact pending.trans (or_iff_left absent)

theorem eventWait_multiple
    {cfg : Config} {events : List Nat} (waitAll : Bool) (line : Nat) (task : Tcb)
    (some : events ≠ []) :
    EventWait cfg waitAll events ([] : List (Entry β))
      { Wait.apply cfg (.multiple waitAll events) task with
        internalState := line } := by
  obtain ⟨earlier, last, split⟩ :=
    (List.eq_nil_or_concat events).resolve_left some
  refine .waiting ?_ ?_ ?_ fun other fits => ?_
  · cases waitAll with
    | false => simp [Woken]
    | true =>
        intro woken
        have member : last ∈ events := by simp [split]
        exact absurd (woken last member) (List.not_mem_nil)
  · simp [Wait.apply, split, waitEvent]
  · simp [Wait.apply, split, waitEvent, markEvent]
  · have absent := not_pending_clearWaitQueue cfg task fits
    have pending := pending_foldl_waitEvent events (!waitAll)
      (task.clearWaitQueue cfg) other
    simp only [List.not_mem_nil, not_false_eq_true, and_true]
    exact pending.trans (or_iff_left absent)

end Tcb

/-- A macro that waits for created events starts the wait. -/
theorem TaskActs.starts_wait
    {cfg : Config} {k k' : Kernel β} {line : Nat} {op : TaskOp β}
    {acts : List (Act β)} {left : Option (Frame β)}
    {waitAll : Bool} {events : List Nat}
    (takes : TaskActs cfg k line op acts left)
    (trace : Trace (Micro cfg) k acts k')
    (created : k.runningTid < k.tasks.nTasks)
    (idle : (k.tasks.taskList k.runningTid).NoEvents cfg)
    (waits : op.eventWait = some (waitAll, events))
    (some : events ≠ [])
    (known : ∀ event ∈ events, k.HasEvent cfg event)
    (small : k.events.nEvents < 256) :
    left = none ∧
      EventWait cfg waitAll events ([] : List (Entry β))
        (k'.tasks.taskList k.runningTid) ∧
      k'.history = k.history := by
  obtain ⟨first, rest, split⟩ := List.exists_cons_of_ne_nil some
  have available := (known first (by simp [split])).1
  cases takes with
  | eventWaitTimeout event timeout =>
      simp only [TaskOp.eventWait] at waits
      split_ifs at waits with forever
      simp only [Option.some.injEq, Prod.mk.injEq] at waits
      obtain ⟨rfl, rfl⟩ := waits
      have here : 0 < cfg.nTotalEvents ∧ event.toNat < k.events.nEvents :=
        known event.toNat (List.mem_singleton_self _)
      subst forever
      unfold Kernel.waitEventActs at trace
      rw [if_pos here] at trace
      cases trace with
      | cons notes rest =>
          cases rest with
          | cons blocks rest =>
              cases rest
              refine ⟨rfl, ?_, ?_⟩
              · rw [blocks.taskList (created.trans_le notes.nTasks_le),
                  notes.taskList created]
                simp only [Act.onTask, if_true]
                exact Tcb.eventWait_single line idle
              · simp [blocks.history, notes.history, Act.entries]
  | eventWaitMultiple waitAll' args _ =>
      simp only [TaskOp.eventWait, Option.some.injEq, Prod.mk.injEq] at waits
      obtain ⟨rfl, rfl⟩ := waits
      have marked := Kernel.markedEvents_eq some fun event inside => by
        have below := (known event inside).2
        unfold noEvent
        omega
      rw [marked] at trace
      cases trace with
      | cons blocks rest =>
          cases rest
          refine ⟨rfl, ?_, ?_⟩
          · rw [blocks.taskList created]
            simp only [Act.onTask, if_true]
            exact Tcb.eventWait_multiple waitAll' line _ some
          · simp [blocks.history, Act.entries]
  | eventWaitMultipleNone waitAll args none_ => omega
  | _ => cases waits

/-- A task that waits for created events starts a wait between macros. -/
theorem exists_eventWait
    {cfg : Config} {s s' : Sys β}
    {op : TaskOp β} {line : UInt16} {waitAll : Bool} {events : List Nat}
    (reachable : ReachableSys cfg s)
    (waits : op.eventWait = some (waitAll, events))
    (nonempty : events ≠ [])
    (known : ∀ event ∈ events, s.kernel.HasEvent cfg event)
    (starts : step cfg s (.task op line) = .ok s') :
    s.kernel.runningTid < s.kernel.tasks.nTasks ∧
      s'.frame s.kernel.runningTid = .between ∧
      EventWait cfg waitAll events ([] : List (Entry β))
        (s'.kernel.tasks.taskList s.kernel.runningTid) ∧
      s'.kernel.history = s.kernel.history := by
  have available : 0 < cfg.nTotalEvents := by
    obtain ⟨first, rest, split⟩ := List.exists_cons_of_ne_nil nonempty
    exact (known first (by simp [split])).1
  obtain ⟨acts, shape, trace⟩ := step_trace (reachable_sound reachable) starts
  generalize s'.frame = frame at shape
  cases shape with
  | @task _ _ _ left runsNow takes =>
      obtain ⟨created, idle⟩ := (reachable_tasksSound reachable).runs runsNow
      obtain ⟨leftNone, wait, history⟩ := takes.starts_wait trace created
        idle.events waits nonempty known (reachable_nEvents_lt available reachable)
      refine ⟨created, ?_, wait, history⟩
      rw [leftNone]
      exact reachable_runsBetween reachable runsNow

/-! ## Runs -/

/-- A wait goes on along a run that leaves its task undisturbed. -/
theorem EventWait.of_run
    {cfg : Config} {s s' : Sys β} {labels : List (Label β)} {tid : Nat}
    {waitAll : Bool} {events : List Nat} {seen : List (Entry β)}
    (sound : s.kernel.Sound cfg)
    (created : tid < s.kernel.tasks.nTasks)
    (here : s.frame tid = .between)
    (fit : ∀ event ∈ events, event / 8 < cfg.eventQueueSize)
    (wait : EventWait cfg waitAll events seen (s.kernel.tasks.taskList tid))
    (undisturbed : Meets (step cfg) (Undisturbed tid) s labels)
    (runs : run (step cfg) s labels = .ok s') :
    ∃ entries, s'.kernel.history = s.kernel.history ++ entries ∧
      EventWait cfg waitAll events (seen ++ entries)
        (s'.kernel.tasks.taskList tid) := by
  induction labels generalizing s seen with
  | nil =>
      simp only [run_nil, Except.ok.injEq] at runs
      subst runs
      exact ⟨[], by simp, by simpa using wait⟩
  | cons label labels inductionHypothesis =>
      obtain ⟨next, steps, rest⟩ := run_cons_eq_ok_iff.mp runs
      obtain ⟨acts, shape, trace⟩ := step_trace sound steps
      obtain ⟨quiet, between⟩ := shape.not_disturbs undisturbed.1 here
      have history := Micro.history_of_trace trace
      have waitNow := EventWait.of_trace trace created quiet fit wait
      have createdNext := created.trans_le (step_nTasks_le sound steps)
      obtain ⟨later, historyLater, waitLater⟩ := inductionHypothesis
        (step_sound sound steps) createdNext between waitNow
        (undisturbed.2 next steps) rest
      refine ⟨acts.flatMap Act.entries ++ later, ?_, ?_⟩
      · rw [historyLater, history, List.append_assoc]
      · rwa [← List.append_assoc]

end CocoOs
