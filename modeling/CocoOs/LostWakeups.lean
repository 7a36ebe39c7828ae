import CocoOs.BlockedFrames

/-!
# Lost wake-ups

A task blocked inside a message macro listens to the change event of its queue,
and whatever moves a message of the queue signals that event.  So the queue
stays as the task left it for as long as the task waits.  A suspended task hears
no signal: what `os_task_resume` puts back to its wait may have nothing left to
wait for.
-/

namespace CocoOs

open Foundation

variable {β : Type}

/-! ## Listening to an event -/

/-- While the task waits for events, or is suspended from such a wait, the event
alone wakes it. -/
def Tcb.ListensFor (event : Nat) (task : Tcb) : Prop :=
  task.effectiveState = .waitingEvent →
    task.Pending event ∧ task.waitSingleEvent = true

/-- The wait is one of a message macro, for this change event. -/
def Wait.ListensFor (event : Nat) : Wait → Prop
  | .room _ eventId | .message _ eventId => eventId = event
  | _ => False

namespace Tcb

theorem ListensFor.of_eq
    {event : Nat} {task task' : Tcb}
    (listens : task.ListensFor event)
    (effective : task'.effectiveState = .waitingEvent →
      task.effectiveState = .waitingEvent)
    (eventQueue : task'.eventQueue = task.eventQueue)
    (mode : task'.waitSingleEvent = task.waitSingleEvent) :
    task'.ListensFor event := by
  intro waits
  unfold Pending
  rw [eventQueue, mode]
  exact listens (effective waits)

theorem listensFor_of_effectiveState_ne
    (event : Nat) {task : Tcb}
    (other : task.effectiveState ≠ .waitingEvent) :
    task.ListensFor event :=
  fun waits => absurd waits other

theorem listensFor_suspend
    {event : Nat} {task : Tcb}
    (listens : task.ListensFor event) :
    task.suspend.ListensFor event := by
  unfold Tcb.suspend
  split_ifs with active sem
  · exact listensFor_of_effectiveState_ne event (by simp [effectiveState])
  · refine listens.of_eq (fun waits => ?_) rfl rfl
    rw [effectiveState_of_ne active.2]
    simpa [effectiveState] using waits
  · exact listens

theorem listensFor_resume
    {event : Nat} {task : Tcb}
    (listens : task.ListensFor event) :
    task.resume.ListensFor event := by
  unfold Tcb.resume
  split_ifs with suspended
  · refine listens.of_eq (fun waits => ?_) rfl rfl
    simpa [effectiveState, suspended] using waits
  · exact listens

theorem listensFor_tick
    {event : Nat} {task : Tcb}
    (listens : task.ListensFor event)
    (cfg : Config) (clockId tickSize : Nat) :
    (task.tick cfg clockId tickSize).ListensFor event := by
  unfold Tcb.tick
  dsimp only
  split_ifs with timed sameClock due timeout sem
  · exact listensFor_of_effectiveState_ne event (by simp [readySet, effectiveState])
  · exact listensFor_of_effectiveState_ne event (by simp [readySet, effectiveState])
  · exact listens.of_eq id rfl rfl
  · exact listens
  · exact listens.of_eq id rfl rfl
  · exact listens

/-- A signal wakes a task that listens to it, and leaves one that listens to
another event to its wait. -/
theorem listensFor_signalEvent
    {event : Nat} {task : Tcb}
    (listens : task.ListensFor event)
    (cfg : Config) (eventId : Nat) :
    (task.signalEvent cfg eventId).ListensFor event := by
  by_cases hears : task.Pending eventId ∧ task.WaitsForEvents
  · rw [signalEvent_of_waits cfg hears.1 hears.2]
    split_ifs with completes
    · exact listensFor_of_effectiveState_ne event
        (by simp [readySet, effectiveState])
    · intro waits
      have single := (listens waits).2
      exact absurd (.inl single) completes
  · rwa [signalEvent_of_not cfg hears]

end Tcb

/-- An action leaves a task listening, unless it makes the task wait for
something else. -/
theorem Act.listensFor_onTask
    {act : Act β} {tid event : Nat} {task : Tcb}
    (listens : task.ListensFor event)
    (blocks : ∀ wait line, act = .block tid wait line → wait.ListensFor event)
    (cfg : Config) :
    (act.onTask cfg tid task).ListensFor event := by
  cases act with
  | yield actor line =>
      simp only [onTask]
      split_ifs
      · exact listens.of_eq id rfl rfl
      · exact listens
  | block actor wait line =>
      simp only [onTask]
      split_ifs with same
      · subst same
        have messages := blocks wait line rfl
        cases wait with
        | room queue eventId | message queue eventId =>
            have here : eventId = event := messages
            subst here
            intro _
            exact ⟨(Tcb.pending_waitEvent eventId eventId true 0 task).mpr (.inl rfl),
              rfl⟩
        | _ => exact messages.elim
      · exact listens
  | note actor noted =>
      simp only [onTask]
      split_ifs
      · cases noted <;> exact listens.of_eq id rfl rfl
      · exact listens
  | suspend other =>
      simp only [onTask]
      split_ifs
      · exact Tcb.listensFor_suspend listens
      · exact listens
  | resume other =>
      simp only [onTask]
      split_ifs
      · exact Tcb.listensFor_resume listens
      · exact listens
  | kill other | release other =>
      simp only [onTask]
      split_ifs
      · exact Tcb.listensFor_of_effectiveState_ne event
          (by simp [Tcb.kill, Tcb.readySet, Tcb.effectiveState])
      · exact listens
  | tick other clockId tickSize =>
      simp only [onTask]
      split_ifs
      · exact Tcb.listensFor_tick listens cfg clockId tickSize
      · exact listens
  | signal eventId => exact Tcb.listensFor_signalEvent listens cfg eventId
  | _ => exact listens

/-- A task still waits after an action only when it waited before and the action
did not signal its event. -/
theorem Act.silent_of_waiting
    {act : Act β} {tid event : Nat} {task : Tcb} {cfg : Config}
    (listens : task.ListensFor event)
    (notBlocks : ¬ act.Blocks tid)
    (notResumes : act ≠ .resume tid)
    (waits : (act.onTask cfg tid task).state = .waitingEvent) :
    task.state = .waitingEvent ∧ act ≠ .signal event := by
  cases act with
  | signal eventId =>
      simp only [onTask] at waits
      by_cases hears : task.Pending eventId ∧ task.WaitsForEvents
      · rw [Tcb.signalEvent_of_waits cfg hears.1 hears.2] at waits
        split_ifs at waits with completes
        · cases waits
        · have here : task.state = .waitingEvent := waits
          have effective : task.effectiveState = .waitingEvent := by
            rw [Tcb.effectiveState_of_ne (by rw [here]; decide), here]
          exact absurd (.inl (listens effective).2) completes
      · rw [Tcb.signalEvent_of_not cfg hears] at waits
        refine ⟨waits, ?_⟩
        rintro ⟨rfl⟩
        have effective : task.effectiveState = .waitingEvent := by
          rw [Tcb.effectiveState_of_ne (by rw [waits]; decide), waits]
        exact hears ⟨(listens effective).1, .inl waits⟩
  | resume other =>
      simp only [onTask] at waits
      rw [if_neg fun same => notResumes (by rw [same])] at waits
      exact ⟨waits, by simp⟩
  | block actor wait line =>
      simp only [onTask] at waits
      rw [if_neg fun same => notBlocks same.symm] at waits
      exact ⟨waits, by simp⟩
  | yield actor line =>
      simp only [onTask] at waits
      split_ifs at waits <;> exact ⟨waits, by simp⟩
  | note actor noted =>
      simp only [onTask] at waits
      split_ifs at waits
      · cases noted <;> exact ⟨waits, by simp⟩
      · exact ⟨waits, by simp⟩
  | suspend other =>
      simp only [onTask, Tcb.suspend] at waits
      split_ifs at waits <;> exact ⟨waits, by simp⟩
  | kill other | release other =>
      simp only [onTask] at waits
      split_ifs at waits
      · cases waits
      · exact ⟨waits, by simp⟩
  | tick other clockId tickSize =>
      simp only [onTask, Tcb.tick, Tcb.readySet] at waits
      split_ifs at waits <;> exact ⟨waits, by simp⟩
  | _ => exact ⟨waits, by simp⟩

section

variable {cfg : Config} {k k' : Kernel β} {acts : List (Act β)} {tid event : Nat}

theorem Tcb.ListensFor.of_trace
    (listens : (k.tasks.taskList tid).ListensFor event)
    (trace : Trace (Micro cfg) k acts k')
    (created : tid < k.tasks.nTasks)
    (blocks : ∀ act ∈ acts, ∀ wait line, act = .block tid wait line →
      wait.ListensFor event) :
    (k'.tasks.taskList tid).ListensFor event := by
  have both := trace.invariant
    (fun act => ∀ wait line, act = .block tid wait line → wait.ListensFor event)
    (fun k => tid < k.tasks.nTasks ∧ (k.tasks.taskList tid).ListensFor event)
    ?_ blocks ⟨created, listens⟩
  · exact both.2
  · rintro k act k' allowed ⟨createdHere, here⟩ acts
    refine ⟨createdHere.trans_le acts.nTasks_le, ?_⟩
    rw [acts.taskList createdHere]
    exact Act.listensFor_onTask here allowed cfg

/-- Along a trace that neither blocks nor resumes the task, a task that waits at
the end waited all the time, and its event was not signalled. -/
theorem silent_of_waiting
    (trace : Trace (Micro cfg) k acts k')
    (created : tid < k.tasks.nTasks)
    (listens : (k.tasks.taskList tid).ListensFor event)
    (notBlocks : ∀ act ∈ acts, ¬ act.Blocks tid)
    (notResumes : ∀ act ∈ acts, act ≠ .resume tid)
    (waits : (k'.tasks.taskList tid).state = .waitingEvent) :
    (k.tasks.taskList tid).state = .waitingEvent ∧
      ∀ act ∈ acts, act ≠ .signal event := by
  induction trace with
  | nil k => exact ⟨waits, by simp⟩
  | @cons k middle k' act acts first rest inductionHypothesis =>
      have blocksHere := notBlocks act (List.mem_cons_self ..)
      have listensNext : (middle.tasks.taskList tid).ListensFor event := by
        rw [first.taskList created]
        refine Act.listensFor_onTask listens (fun wait line same => ?_) cfg
        subst same
        exact absurd rfl blocksHere
      obtain ⟨waitsNext, silentLater⟩ := inductionHypothesis
        (created.trans_le first.nTasks_le) listensNext
        (fun other inside => notBlocks other (List.mem_cons_of_mem _ inside))
        (fun other inside => notResumes other (List.mem_cons_of_mem _ inside))
        waits
      rw [first.taskList created] at waitsNext
      obtain ⟨waitsHere, silent⟩ := Act.silent_of_waiting listens blocksHere
        (notResumes act (List.mem_cons_self ..)) waitsNext
      refine ⟨waitsHere, fun other inside => ?_⟩
      rcases List.mem_cons.mp inside with rfl | later
      · exact silent
      · exact silentLater other later

end

/-! ## What a blocked task waits on -/

/-- The queue has nothing for a task that waits on this result: no message with
delay 0 for a receiver, no room for a poster. -/
def Kernel.Stuck (k : Kernel β) (queue : Nat) : MsgResult → Prop
  | .empty => ∀ msg ∈ k.contents queue, msg.delay ≠ 0
  | .full => (k.contents queue).length + 1 = (k.queues.msgQList queue).q.size
  | _ => True

instance (k : Kernel β) (queue : Nat) (result : MsgResult) :
    Decidable (k.Stuck queue result) :=
  match result with
  | .empty => inferInstanceAs (Decidable (∀ msg ∈ k.contents queue, msg.delay ≠ 0))
  | .full => inferInstanceAs (Decidable (_ = _))
  | .undef | .defined | .received | .posted => inferInstanceAs (Decidable True)

namespace Kernel

variable {cfg : Config} {k k' : Kernel β} {queue : Nat}

theorem stuck_congr
    (result : MsgResult)
    (contents : k'.contents queue = k.contents queue)
    (size : (k'.queues.msgQList queue).q.size =
      (k.queues.msgQList queue).q.size) :
    k'.Stuck queue result ↔ k.Stuck queue result := by
  cases result <;> simp only [Stuck, contents, size]

/-- A post is refused by a full ring. -/
theorem PostRefused.stuck
    (refused : k.PostRefused cfg queue)
    (sound : k.QueuesSound cfg)
    (ring : k.HasRing cfg queue) :
    k.Stuck queue .full :=
  (sound.ready ring.1 ring.2).holds.full_iff.mp refused.2.2.2

/-- A receive answers that nothing is there when every message is delayed. -/
theorem NothingReady.stuck
    (nothing : k.NothingReady cfg queue)
    (sound : k.QueuesSound cfg)
    (ring : k.HasRing cfg queue) :
    k.Stuck queue .empty := by
  have holds := (sound.ready ring.1 ring.2).holds
  intro msg inside
  rcases nothing.2.2 with met | delayed
  · rw [holds.empty_iff.mp met] at inside
    cases inside
  · rw [OSQueue.msgQAllDelayed_eq holds, Except.ok.injEq, List.all_eq_true]
      at delayed
    exact msg.delayed_eq_true_iff.mp (delayed msg inside)

end Kernel

/-- A trace that does not touch the queue leaves it as stuck as it was. -/
theorem Micro.stuck_of_trace
    {cfg : Config} {k k' : Kernel β} {acts : List (Act β)} {queue : Nat}
    (trace : Trace (Micro cfg) k acts k')
    (sound : k.Sound cfg)
    (ring : k.HasRing cfg queue)
    (untouched : ∀ act ∈ acts, ¬ act.Touches queue)
    (result : MsgResult) :
    k'.Stuck queue result ↔ k.Stuck queue result :=
  Kernel.stuck_congr result
    (Micro.untouched_of_trace trace sound ring untouched).2
    (Micro.size_of_trace trace sound ring.1)

/-! ## The tick of the master clock -/

namespace Kernel

theorem signal_mem_isrSignalActs
    {cfg : Config} {event times : Nat}
    (events : 0 < cfg.nTotalEvents)
    (some : 0 < times) :
    Act.signal (β := β) event ∈ isrSignalActs cfg event times := by
  obtain ⟨earlier, rfl⟩ := Nat.exists_eq_succ_of_ne_zero (Nat.ne_of_gt some)
  unfold isrSignalActs signalActs
  rw [if_pos events]
  exact List.mem_cons_self ..

/-- When messages of a queue become deliverable, `task_tick` signals its change
event. -/
theorem signals_of_taskTick
    {cfg : Config} {k k' : Kernel β} {queue : Nat}
    (sound : k.Sound cfg)
    (ring : k.HasRing cfg queue)
    (expires : 0 < expiring (k.contents queue))
    (returns : k.taskTick cfg 0 1 = .ok k') :
    ∃ acts, Trace (Micro cfg) k acts k' ∧
      .signal (k.queues.msgQList queue).change ∈ acts := by
  obtain ⟨inside, owns⟩ := sound.queues.owner queue ring.1
  have isQueue := sound.queues.ne_noQueue ring.1
  generalize owner : (k.queues.msgQList queue).taskId = tid at inside owns
  have loop := forRange_invariant
    (fun count state => ∃ acts, Trace (Micro cfg) k acts state ∧
      (∀ act ∈ acts, act.Quiet) ∧
      (count ≤ tid → ∀ act ∈ acts, ¬ act.Touches queue) ∧
      (tid < count → .signal (k.queues.msgQList queue).change ∈ acts))
    ⟨[], .nil k, by simp, by simp, by omega⟩ ?_ returns
  · obtain ⟨acts, trace, _, _, signals⟩ := loop
    exact ⟨acts, trace, signals inside⟩
  · rintro index state state' before ⟨acts, trace, quiet, untouched, signals⟩ body
    have same := SameObjects.of_trace trace quiet
    have soundState := sound.of_trace trace
    have bodyTrace := taskTickBody_trace soundState
      (by rw [same.nTasks]; exact before) body
    rw [taskTickActs_sameObjects same cfg 0 1 _ before] at bodyTrace
    refine ⟨_, trace.append bodyTrace, fun act member => ?_, fun upTo act member => ?_,
      fun past => ?_⟩
    · rcases List.mem_append.mp member with earlier | now
      · exact quiet act earlier
      · exact k.quiet_taskTickActs cfg 0 1 index _ act now
    · rcases List.mem_append.mp member with earlier | now
      · exact untouched (by omega) act earlier
      · refine k.not_touches_taskTickActs cfg 0 1 index _ (fun _ own => ?_) act now
        have owned := (sound.queues.owned ring.1.1 index before (own ▸ isQueue)).2
        rw [own, owner] at owned
        omega
    · by_cases earlier : tid < index
      · exact List.mem_append_left _ (signals earlier)
      · have here : index = tid := by omega
        subst here
        apply List.mem_append_right
        have msgQ := msgQ_of_static (same.static index before)
        have kept := (Micro.untouched_of_trace trace sound ring
          (untouched le_rfl)).2
        unfold taskTickActs queueTickActs
        rw [msgQ, owns, kept, if_pos ⟨rfl, isQueue⟩, if_pos ring.1.1]
        refine List.mem_cons_of_mem _ (List.mem_cons_of_mem _ ?_)
        have known := sound.queues.known queue ring.1
        exact signal_mem_isrSignalActs (Nat.zero_lt_of_lt known) expires

end Kernel

/-- Two traces between the same kernels make the same signals. -/
theorem Micro.signal_mem
    {cfg : Config} {k k' : Kernel β} {acts acts' : List (Act β)} {event : Nat}
    (trace : Trace (Micro cfg) k acts k')
    (trace' : Trace (Micro cfg) k acts' k')
    (inside : .signal event ∈ acts) :
    .signal event ∈ acts' := by
  have history := Micro.history_of_trace trace
  rw [Micro.history_of_trace trace', List.append_cancel_left_eq] at history
  rw [← signalled_mem_entries_iff] at inside ⊢
  rwa [history]

/-- Messages none of which expires are still delayed after a tick. -/
theorem delay_ne_zero_of_age
    {messages : List (Msg β)}
    (delayed : ∀ msg ∈ messages, msg.delay ≠ 0)
    (none_ : ¬ 0 < Kernel.expiring messages) :
    ∀ msg ∈ messages.map Msg.age, msg.delay ≠ 0 := by
  intro aged inside
  obtain ⟨msg, member, rfl⟩ := List.mem_map.mp inside
  have some := delayed msg member
  have notOne : msg.delay ≠ 1 := by
    intro one
    apply none_
    exact List.countP_pos_iff.mpr ⟨msg, member, decide_eq_true one⟩
  rw [Msg.age_delay]
  omega

/-- A tick that does not signal the change event of a ring leaves it stuck. -/
theorem step_osTick_stuck
    {cfg : Config} {s s' : Sys β} {acts : List (Act β)} {queue : Nat}
    {result : MsgResult}
    (sound : s.kernel.Sound cfg)
    (ring : s.kernel.HasRing cfg queue)
    (steps : step cfg s (.call .osTick) = .ok s')
    (trace : Trace (Micro cfg) s.kernel acts s'.kernel)
    (silent : ∀ act ∈ acts, act ≠ .signal (s.kernel.queues.msgQList queue).change)
    (stuck : s.kernel.Stuck queue result) :
    s'.kernel.Stuck queue result := by
  have aged := step_osTick_ages sound ring steps
  have size := Micro.size_of_trace trace sound ring.1
  cases result with
  | empty =>
      change ∀ msg ∈ s'.kernel.contents queue, msg.delay ≠ 0
      rw [aged]
      apply delay_ne_zero_of_age stuck
      intro expires
      obtain ⟨k', ticks, rfl⟩ := map_eq_ok_iff.mp steps
      have records : Micro cfg s.kernel .clock _ := .clock s.kernel
      obtain ⟨ticked, ticksTrace, signals⟩ := Kernel.signals_of_taskTick
        (sound.of_micro records) (ring.of_queues rfl) expires ticks
      exact silent _ (Micro.signal_mem (.cons records ticksTrace) trace
        (List.mem_cons_of_mem _ signals)) rfl
  | full =>
      change (s'.kernel.contents queue).length + 1 = _
      rw [aged, List.length_map, size]
      exact stuck
  | _ => trivial

/-! ## Posts and receives -/

namespace Kernel

variable {cfg : Config} {k : Kernel β}

theorem not_touches_waitEventActs
    (cfg : Config) (k : Kernel β) (eventId : Nat) (wait : Wait)
    (line queue : Nat) :
    ∀ act ∈ k.waitEventActs cfg eventId wait line, ¬ act.Touches queue := by
  unfold waitEventActs
  split_ifs <;> simp [Act.Touches]

/-- A turn of a post that moves a message signals the change event. -/
theorem PostActs.signals_of_touches
    {queue other delay period event line : Nat} {msg : Msg β}
    {async blocked : Bool} {acts : List (Act β)} {act : Act β}
    (turn : PostActs cfg k queue delay period msg async event line blocked acts)
    (events : 0 < cfg.nTotalEvents)
    (inside : act ∈ acts)
    (touches : act.Touches other) :
    queue = other ∧ .signal event ∈ acts := by
  cases turn with
  | blocked =>
      rcases List.mem_cons.mp inside with rfl | later
      · exact touches.elim
      · exact absurd touches
          (k.not_touches_waitEventActs cfg event _ line other act later)
  | posted =>
      unfold signalActs at inside ⊢
      rw [if_pos events] at inside ⊢
      simp only [List.mem_cons, List.not_mem_nil, or_false] at inside
      rcases inside with rfl | rfl | rfl
      · exact ⟨touches, by simp⟩
      · exact touches.elim
      · exact touches.elim
  | refused => cases inside

/-- A turn of a receive that moves a message signals the change event. -/
theorem ReceiveActs.signals_of_touches
    {queue other event line : Nat}
    {async blocked : Bool} {acts : List (Act β)} {act : Act β}
    (turn : ReceiveActs cfg k queue async event line blocked acts)
    (events : 0 < cfg.nTotalEvents)
    (inside : act ∈ acts)
    (touches : act.Touches other) :
    queue = other ∧ .signal event ∈ acts := by
  cases turn with
  | blocked =>
      rcases List.mem_cons.mp inside with rfl | later
      · exact touches.elim
      · exact absurd touches
          (k.not_touches_waitEventActs cfg event _ line other act later)
  | received =>
      unfold signalActs at inside ⊢
      rw [if_pos events] at inside ⊢
      simp only [List.mem_cons, List.not_mem_nil, or_false] at inside
      rcases inside with rfl | rfl | rfl
      · exact ⟨touches, by simp⟩
      · exact touches.elim
      · exact touches.elim
  | nothing => cases inside

end Kernel

section

variable {cfg : Config} {s s' : Sys β} {label : Label β}
variable {acts : List (Act β)} {frame : Nat → Frame β}

/-- A macro that moves no message touches no queue. -/
theorem TaskActs.not_touches
    {k : Kernel β} {line : Nat} {op : TaskOp β}
    (takes : TaskActs cfg k line op acts none) (queue : Nat) :
    ∀ act ∈ acts, ¬ act.Touches queue := by
  cases takes with
  | eventWaitTimeout => exact k.not_touches_waitEventActs cfg _ _ line queue
  | eventSignal event =>
      intro act inside
      rcases List.mem_append.mp inside with signals | yields
      · exact Kernel.not_touches_signalActs cfg _ _ queue act signals
      · rw [List.mem_singleton.mp yields]
        exact id
  | semSignal =>
      unfold Kernel.semSignalYieldActs Kernel.semSignalActs
      split_ifs <;> simp [Act.Touches]
  | taskSuspend | taskResume =>
      unfold Kernel.selfYieldActs
      split_ifs <;> simp [Act.Touches]
  | _ => simp [Act.Touches]

/-- Apart from ticks, only posts and receives touch a queue. -/
theorem Act.touches_cases
    {act : Act β} {queue : Nat}
    (allowed : act.Allowed cfg s label)
    (touches : act.Touches queue) :
    label = .call .osTick ∨ ∃ tid, RunsStep s label tid := by
  cases act with
  | age => exact .inl allowed
  | post | receive => exact .inr allowed
  | _ => exact touches.elim

/-- A step other than a tick that moves a message of a queue signals the change
event of the queue. -/
theorem StepActs.signals_of_touches
    {act : Act β} {queue : Nat}
    (shape : StepActs cfg s label acts frame)
    (notTick : label ≠ .call .osTick)
    (framesSound : s.FramesSound cfg)
    (sound : s.kernel.QueuesSound cfg)
    (created : s.kernel.HasQueue cfg queue)
    (inside : act ∈ acts)
    (touches : act.Touches queue) :
    .signal (s.kernel.queues.msgQList queue).change ∈ acts := by
  have events := Nat.zero_lt_of_lt (sound.known queue created)
  obtain ⟨tid, runs⟩ :=
    (Act.touches_cases (shape.allowed act inside) touches).resolve_left notTick
  cases shape with
  | create | osStart | call =>
      rcases runs with ⟨_, _, wrong, _⟩ | ⟨wrong, _⟩ <;> cases wrong
  | sleep =>
      rw [List.mem_singleton.mp inside] at touches
      exact touches.elim
  | @osSchedule k acts frame idle selects chosen within resumes =>
      obtain ⟨_, taskList, _, _, _, queues, _⟩ := Kernel.selectTask_frame selects
      rcases List.mem_cons.mp inside with rfl | member
      · exact touches.elim
      · apply List.mem_cons_of_mem
        cases resumes with
        | begin | between => cases member
        | done =>
            split_ifs at member
            · exact absurd touches
                (Kernel.not_touches_signalActs cfg _ _ queue act member)
            · cases member
        | @post taskId _ _ _ _ acts goesOn here full turn =>
            have inMacro := framesSound _ taskId .full (congrArg Frame.waits here)
            rw [queues] at turn
            obtain ⟨rfl, signals⟩ := turn.signals_of_touches events member touches
            rw [inMacro.finds.change, ← taskList]
            exact signals
        | @receive taskId _ _ _ acts goesOn here empty turn =>
            have inMacro := framesSound _ taskId .empty (congrArg Frame.waits here)
            rw [queues] at turn
            obtain ⟨rfl, signals⟩ := turn.signals_of_touches events member touches
            rw [inMacro.finds.change, ← taskList]
            exact signals
  | @task op line acts left chosen takes =>
      cases left with
      | none => exact absurd touches (takes.not_touches queue act inside)
      | some left =>
          cases takes with
          | @msgPost taskId _ _ _ _ _ acts turn =>
              rcases List.mem_cons.mp inside with rfl | member
              · exact touches.elim
              · obtain ⟨rfl, signals⟩ :=
                  turn.signals_of_touches events member touches
                rw [(Kernel.finds_of_created created).change]
                exact List.mem_cons_of_mem _ signals
          | @msgReceive taskId _ _ _ acts _ turn =>
              rcases List.mem_cons.mp inside with rfl | member
              · exact touches.elim
              · obtain ⟨rfl, signals⟩ :=
                  turn.signals_of_touches events member touches
                rw [(Kernel.finds_of_created created).change]
                exact List.mem_cons_of_mem _ signals

end

/-! ## A task that starts to wait inside a macro -/

/-- The action moves no message, and a wait that it starts is for the event. -/
def Act.OnlyWaits (event : Nat) (act : Act β) : Prop :=
  (∀ queue, ¬ act.Touches queue) ∧
    ∀ tid wait line, act = .block tid wait line → wait.ListensFor event

namespace Kernel

variable {cfg : Config} {k : Kernel β}

theorem onlyWaits_waitEventActs
    (k : Kernel β) (result : MsgResult) (wait : Wait) (eventId line : Nat)
    (messages : wait.ListensFor eventId) :
    ∀ act ∈ Act.note k.runningTid (.msgResult result) ::
      k.waitEventActs cfg eventId wait line, act.OnlyWaits eventId := by
  refine List.forall_mem_cons.mpr ⟨⟨fun _ => id, by simp⟩, fun act inside => ?_⟩
  refine ⟨fun queue => k.not_touches_waitEventActs cfg eventId wait line queue act
    inside, ?_⟩
  rintro tid blocks at_ rfl
  unfold waitEventActs at inside
  split_ifs at inside
  · simp only [List.mem_cons, List.not_mem_nil, or_false, reduceCtorEq, false_or]
      at inside
    cases inside
    exact messages
  · simp at inside

/-- A task yields inside a post of a full queue, and waits for its event. -/
theorem PostActs.entering
    {queue delay period event line : Nat} {msg : Msg β}
    {async : Bool} {acts : List (Act β)}
    (turn : PostActs cfg k queue delay period msg async event line true acts) :
    k.PostRefused cfg queue ∧ ∀ act ∈ acts, act.OnlyWaits event := by
  cases turn with
  | blocked sync full =>
      exact ⟨full, k.onlyWaits_waitEventActs .full (.room queue event) event line rfl⟩

/-- A task yields inside a receive when nothing is ready, and waits for the
event of the queue. -/
theorem ReceiveActs.entering
    {queue event line : Nat} {async : Bool} {acts : List (Act β)}
    (turn : ReceiveActs cfg k queue async event line true acts) :
    k.NothingReady cfg queue ∧ ∀ act ∈ acts, act.OnlyWaits event := by
  cases turn with
  | blocked sync nothing =>
      exact ⟨nothing,
        k.onlyWaits_waitEventActs .empty (.message queue event) event line rfl⟩

theorem PostRefused.of_queues
    {k' : Kernel β} {queue : Nat}
    (refused : k.PostRefused cfg queue)
    (same : k.queues = k'.queues) :
    k'.PostRefused cfg queue := by
  unfold PostRefused at refused ⊢
  rwa [same] at refused

theorem NothingReady.of_queues
    {k' : Kernel β} {queue : Nat}
    (nothing : k.NothingReady cfg queue)
    (same : k.queues = k'.queues) :
    k'.NothingReady cfg queue := by
  unfold NothingReady at nothing ⊢
  rwa [same] at nothing

end Kernel

/-- By these actions a task starts to wait inside a message macro for the queue
of `taskId`: the queue is stuck, the task waited for no event, and nothing but
the wait happens. -/
structure Entering (cfg : Config) (k : Kernel β) (acts : List (Act β))
    (tid taskId : Nat) (result : MsgResult) (event : Nat) : Prop where
  created : tid < k.tasks.nTasks
  finds : k.Finds cfg taskId (k.queues.osMsgQFind cfg taskId) event
  stuck : k.HasRing cfg (k.queues.osMsgQFind cfg taskId) →
    k.Stuck (k.queues.osMsgQFind cfg taskId) result
  awake : (k.tasks.taskList tid).effectiveState ≠ .waitingEvent
  onlyWaits : ∀ act ∈ acts, act.OnlyWaits event

section

variable {cfg : Config} {s s' : Sys β} {label : Label β}
variable {acts : List (Act β)} {frame : Nat → Frame β}
variable {tid taskId : Nat} {result : MsgResult}

/-- A task that goes on inside a macro may start to wait again. -/
theorem ResumeActs.entering
    {k : Kernel β}
    (resumes : ResumeActs cfg k s.frame acts frame)
    (selects : s.kernel.selectTask cfg = .ok k)
    (framesSound : s.FramesSound cfg)
    (sound : s.kernel.QueuesSound cfg)
    (created : k.runningTid < s.kernel.tasks.nTasks)
    (awake : (s.kernel.tasks.taskList k.runningTid).effectiveState ≠
      .waitingEvent)
    (waits : (frame k.runningTid).waits = some (taskId, result)) :
    ∃ event, Entering cfg s.kernel (.select k.runningTid :: acts) k.runningTid
      taskId result event := by
  obtain ⟨_, taskList, _, _, _, queues, _⟩ := Kernel.selectTask_frame selects
  cases resumes with
  | begin | done =>
      rw [Function.update_self] at waits
      cases waits
  | between goesOn here =>
      rw [here] at waits
      cases waits
  | @post target delay period msg blocked acts goesOn here full turn =>
      rw [Function.update_self] at waits
      cases blocked with
      | false => cases waits
      | true =>
          cases waits
          have inMacro := framesSound _ taskId .full (congrArg Frame.waits here)
          obtain ⟨refused, onlyWaits⟩ := turn.entering
          rw [queues] at refused
          rw [taskList] at onlyWaits
          exact ⟨_, created, inMacro.finds,
            (refused.of_queues queues).stuck sound, awake,
            List.forall_mem_cons.mpr ⟨⟨fun _ => id, by simp⟩, onlyWaits⟩⟩
  | @receive target pMsg buffer blocked acts goesOn here empty turn =>
      rw [Function.update_self] at waits
      cases blocked with
      | false => cases waits
      | true =>
          cases waits
          have inMacro := framesSound _ taskId .empty (congrArg Frame.waits here)
          obtain ⟨nothing, onlyWaits⟩ := turn.entering
          rw [queues] at nothing
          rw [taskList] at onlyWaits
          exact ⟨_, created, inMacro.finds,
            (nothing.of_queues queues).stuck sound, awake,
            List.forall_mem_cons.mpr ⟨⟨fun _ => id, by simp⟩, onlyWaits⟩⟩

/-- A macro of the running task may start to wait. -/
theorem TaskActs.entering
    {k : Kernel β} {line : Nat} {op : TaskOp β} {left : Frame β}
    (takes : TaskActs cfg k line op acts (some left))
    (sound : k.QueuesSound cfg)
    (created : k.runningTid < k.tasks.nTasks)
    (awake : (k.tasks.taskList k.runningTid).effectiveState ≠ .waitingEvent)
    (waits : left.waits = some (taskId, result)) :
    ∃ event, Entering cfg k acts k.runningTid taskId result event := by
  cases takes with
  | @msgPost target msg delay period async blocked acts turn =>
      cases blocked with
      | false => cases waits
      | true =>
          cases waits
          obtain ⟨refused, onlyWaits⟩ := turn.entering
          have here : k.PostRefused cfg _ := refused.of_queues rfl
          exact ⟨_, created, Kernel.finds_of_created ⟨here.1, here.2.1⟩,
            here.stuck sound, awake, List.forall_mem_cons.mpr
              ⟨⟨fun _ => id, by simp [Kernel.waitQueueAct]⟩, onlyWaits⟩⟩
  | @msgReceive target pMsg async blocked acts buffer turn =>
      cases blocked with
      | false => cases waits
      | true =>
          cases waits
          obtain ⟨nothing, onlyWaits⟩ := turn.entering
          have here : k.NothingReady cfg _ := nothing.of_queues rfl
          exact ⟨_, created, Kernel.finds_of_created ⟨here.1, here.2.1⟩,
            here.stuck sound, awake, List.forall_mem_cons.mpr
              ⟨⟨fun _ => id, by simp [Kernel.waitQueueAct]⟩, onlyWaits⟩⟩

/-- A task that runs a step and is then in the frame of a message macro starts to
wait in the step. -/
theorem StepActs.entering
    (shape : StepActs cfg s label acts frame)
    (reachable : ReachableSys cfg s)
    (isTask : tid ≠ noTid)
    (runs : s.kernel.runningTid = tid ∨ scheduled cfg s label = some tid)
    (waits : (frame tid).waits = some (taskId, result)) :
    ∃ event, Entering cfg s.kernel acts tid taskId result event := by
  have sound := (reachable_sound reachable).queues
  have between := reachable_runsBetween reachable
  have away : s.kernel.runningTid = tid → frame tid = s.frame tid → False := by
    rintro rfl kept
    rw [kept, between isTask] at waits
    cases waits
  cases shape with
  | create | osStart | call =>
      have running := runs.resolve_right (by simp [scheduled])
      exact (away running rfl).elim
  | @sleep k idle selects sleeps =>
      have chosen := runs.resolve_left (by rw [idle]; exact Ne.symm isTask)
      have same : k.runningTid = tid := by simpa [scheduled, selects] using chosen
      exact absurd (same.symm.trans sleeps) isTask
  | @osSchedule k acts frame idle selects chosenIsTask within resumes =>
      have chosen := runs.resolve_left (by rw [idle]; exact Ne.symm isTask)
      have ready := scheduled_ready chosen isTask
      have same : k.runningTid = tid := by simpa [scheduled, selects] using chosen
      subst same
      rw [(Kernel.selectTask_frame selects).1] at within
      refine resumes.entering selects (reachable_framesSound reachable) sound within
        ?_ waits
      rw [Tcb.effectiveState_of_ne (by rw [ready]; decide), ready]
      decide
  | @task op line acts left chosen takes =>
      have running := runs.resolve_right (by simp [scheduled])
      subst running
      cases left with
      | none => exact (away rfl rfl).elim
      | some left =>
          change (Function.update s.frame s.kernel.runningTid left
            s.kernel.runningTid).waits = _ at waits
          rw [Function.update_self] at waits
          obtain ⟨created, idle⟩ := (reachable_tasksSound reachable).runs chosen
          refine takes.entering sound created ?_ waits
          rcases idle.state with killed | ready
          · rw [Tcb.effectiveState_of_ne (by rw [killed]; decide), killed]
            decide
          · rw [ready]
            decide

/-! ## Every blocked task listens -/

/-- Every task in the frame of a message macro listens to its change event. -/
def Sys.Listening (s : Sys β) : Prop :=
  ∀ tid taskId result, (s.frame tid).waits = some (taskId, result) →
    (s.kernel.tasks.taskList tid).ListensFor
      (s.kernel.tasks.taskList tid).msgChangeEvent

theorem Sys.FramesSound.ne_noTid
    (framesSound : s.FramesSound cfg)
    (sound : s.kernel.Sound cfg)
    (waits : (s.frame tid).waits = some (taskId, result)) :
    tid ≠ noTid :=
  Nat.ne_of_lt ((framesSound tid taskId result waits).created.trans sound.nTasks_lt)

theorem step_listening
    (reachable : ReachableSys cfg s)
    (listening : s.Listening)
    (steps : step cfg s label = .ok s') :
    s'.Listening := by
  have sound := reachable_sound reachable
  have reachable' := reachable.step steps
  have framesSound' := reachable_framesSound reachable'
  obtain ⟨acts, shape, trace⟩ := step_trace sound steps
  intro tid taskId result waits
  have isTask := framesSound'.ne_noTid (reachable_sound reachable') waits
  have finds' := (framesSound' tid taskId result waits).finds
  by_cases runs : s.kernel.runningTid = tid ∨ scheduled cfg s label = some tid
  · obtain ⟨event, entering⟩ := shape.entering reachable isTask runs waits
    have listens := (Tcb.listensFor_of_effectiveState_ne event
      entering.awake).of_trace trace entering.created
        fun act inside => (entering.onlyWaits act inside).2 tid
    rwa [← ((entering.finds.of_trace trace sound).unique finds').2]
  · obtain ⟨notRunning, notChosen⟩ := not_or.mp runs
    rw [shape.keeps_frame notRunning notChosen] at waits
    have inMacro := reachable_framesSound reachable tid taskId result waits
    have listens := (listening tid taskId result waits).of_trace trace
      inMacro.created fun act inside wait line same => by
        subst same
        exact absurd rfl (shape.not_blocks notRunning notChosen _ inside)
    rwa [← ((inMacro.finds.of_trace trace sound).unique finds').2]

/-- In every reachable state a task blocked inside a message macro listens to the
change event of its queue. -/
theorem reachable_listening
    (reachable : ReachableSys cfg s) :
    s.Listening := by
  refine reachable.induction Sys.Listening ?_ ?_
  · exact fun s initial tid taskId result waits =>
      absurd waits (initial.waits_ne tid taskId result)
  · exact fun s label s' reachable listening steps =>
      step_listening reachable listening steps

/-! ## No wake-up is lost -/

/-- A task in state `WAITING_EVENT` that blocked inside a message macro on a queue
of at least two slots has nothing to go on with: inside `msg_receive` the queue
holds no message with delay 0, inside `msg_post` it is full. -/
def Sys.NoLostWakeup (cfg : Config) (s : Sys β) : Prop :=
  ∀ tid taskId result, (s.frame tid).waits = some (taskId, result) →
    (s.kernel.tasks.taskList tid).state = .waitingEvent →
    s.kernel.HasRing cfg (s.kernel.queues.osMsgQFind cfg taskId) →
    s.kernel.Stuck (s.kernel.queues.osMsgQFind cfg taskId) result

/-- The step puts no task back to a wait inside a message macro that its queue
ended while the task was suspended. -/
def ResumesStuck (cfg : Config) (s : Sys β) (label : Label β) : Prop :=
  ∀ tid taskId result, label.Resumes tid →
    (s.frame tid).waits = some (taskId, result) →
    (s.kernel.tasks.taskList tid).state = .suspended →
    (s.kernel.tasks.taskList tid).savedState = .waitingEvent →
    s.kernel.HasRing cfg (s.kernel.queues.osMsgQFind cfg taskId) →
    s.kernel.Stuck (s.kernel.queues.osMsgQFind cfg taskId) result

/-- A step that resumes a task does nothing else, but that it may yield. -/
theorem StepActs.of_resumes
    (shape : StepActs cfg s label acts frame)
    (resumes : label.Resumes tid) :
    frame = s.frame ∧ ∃ yields, acts = .resume tid :: yields ∧
      ∀ act ∈ yields, ∃ actor line, act = .yield actor line := by
  cases shape with
  | call calls =>
      cases calls with
      | osTaskResume id =>
          have same : id.toNat = tid := resumes
          exact ⟨rfl, [], by rw [same], by simp⟩
      | _ => exact resumes.elim
  | @task op line acts left runs takes =>
      cases takes with
      | taskResume id =>
          have same : id.toNat = tid := resumes
          refine ⟨rfl, _, by rw [same], fun act inside => ?_⟩
          unfold Kernel.selfYieldActs at inside
          split_ifs at inside
          · exact ⟨_, _, List.mem_singleton.mp inside⟩
          · cases inside
      | _ => exact resumes.elim
  | _ => exact resumes.elim

theorem StepActs.not_touches_of_resumes
    (shape : StepActs cfg s label acts frame)
    (resumes : label.Resumes tid) (queue : Nat) :
    ∀ act ∈ acts, ¬ act.Touches queue := by
  obtain ⟨_, yields, rfl, only⟩ := shape.of_resumes resumes
  intro act inside
  rcases List.mem_cons.mp inside with rfl | later
  · exact id
  · obtain ⟨actor, line, rfl⟩ := only act later
    exact id

theorem StepActs.state_of_resumes
    {k' : Kernel β}
    (shape : StepActs cfg s label acts frame)
    (resumes : label.Resumes tid)
    (trace : Trace (Micro cfg) s.kernel acts k')
    (created : tid < s.kernel.tasks.nTasks) :
    (k'.tasks.taskList tid).state =
      (s.kernel.tasks.taskList tid).resume.state := by
  obtain ⟨_, yields, rfl, only⟩ := shape.of_resumes resumes
  cases trace with
  | @cons _ resumed _ _ _ first rest =>
      have here := first.taskList created
      simp only [Act.onTask, if_true] at here
      have both := rest.invariant (fun act => ∃ actor line, act = .yield actor line)
        (fun k => tid < k.tasks.nTasks ∧ (k.tasks.taskList tid).state =
          (s.kernel.tasks.taskList tid).resume.state)
        ?_ only ⟨created.trans_le first.nTasks_le, by rw [here]⟩
      · exact both.2
      · rintro k act k' ⟨actor, line, rfl⟩ ⟨createdHere, same⟩ acts
        refine ⟨createdHere.trans_le acts.nTasks_le, ?_⟩
        rw [acts.taskList createdHere, ← same]
        simp only [Act.onTask]
        split_ifs <;> rfl

/-- A step that does not signal the change event of a ring leaves it stuck. -/
theorem step_stuck
    {queue : Nat}
    (reachable : ReachableSys cfg s)
    (steps : step cfg s label = .ok s')
    (shape : StepActs cfg s label acts s'.frame)
    (trace : Trace (Micro cfg) s.kernel acts s'.kernel)
    (ring : s.kernel.HasRing cfg queue)
    (silent : ∀ act ∈ acts, act ≠ .signal (s.kernel.queues.msgQList queue).change)
    (stuck : s.kernel.Stuck queue result) :
    s'.kernel.Stuck queue result := by
  have sound := reachable_sound reachable
  by_cases isTick : label = .call .osTick
  · subst isTick
    exact step_osTick_stuck sound ring steps trace silent stuck
  · refine (Micro.stuck_of_trace trace sound ring ?_ result).mpr stuck
    intro act inside touches
    exact silent _ (shape.signals_of_touches isTick
      (reachable_framesSound reachable) sound.queues ring.1 inside touches) rfl

/-- A step loses no wake-up, unless it resumes a task to a wait that is over. -/
theorem step_noLostWakeup
    (reachable : ReachableSys cfg s)
    (noLost : s.NoLostWakeup cfg)
    (resumesStuck : ResumesStuck cfg s label)
    (steps : step cfg s label = .ok s') :
    s'.NoLostWakeup cfg := by
  have sound := reachable_sound reachable
  have reachable' := reachable.step steps
  have framesSound' := reachable_framesSound reachable'
  obtain ⟨acts, shape, trace⟩ := step_trace sound steps
  intro tid taskId result waits state ring'
  have isTask := framesSound'.ne_noTid (reachable_sound reachable') waits
  have finds' := (framesSound' tid taskId result waits).finds
  -- the queue was a ring before the step
  have before : ∀ {event : Nat}, s.kernel.Finds cfg taskId
      (s.kernel.queues.osMsgQFind cfg taskId) event →
      s.kernel.queues.osMsgQFind cfg taskId =
        s'.kernel.queues.osMsgQFind cfg taskId ∧
      s.kernel.HasRing cfg (s.kernel.queues.osMsgQFind cfg taskId) := by
    intro event finds
    have same := ((finds.of_trace trace sound).unique finds').1
    refine ⟨same, finds.created, ?_⟩
    rw [← Micro.size_of_trace trace sound finds.created, same]
    exact ring'.2
  by_cases runs : s.kernel.runningTid = tid ∨ scheduled cfg s label = some tid
  · obtain ⟨event, entering⟩ := shape.entering reachable isTask runs waits
    obtain ⟨same, ring⟩ := before entering.finds
    rw [← same]
    refine (Micro.stuck_of_trace trace sound ring ?_ result).mpr
      (entering.stuck ring)
    exact fun act inside => (entering.onlyWaits act inside).1 _
  · obtain ⟨notRunning, notChosen⟩ := not_or.mp runs
    rw [shape.keeps_frame notRunning notChosen] at waits
    have inMacro := reachable_framesSound reachable tid taskId result waits
    obtain ⟨same, ring⟩ := before inMacro.finds
    rw [← same]
    by_cases resumes : label.Resumes tid
    · refine (Micro.stuck_of_trace trace sound ring
        (shape.not_touches_of_resumes resumes _) result).mpr ?_
      rw [shape.state_of_resumes resumes trace inMacro.created, Tcb.resume] at state
      split_ifs at state with suspended
      · exact resumesStuck tid taskId result resumes waits suspended state ring
      · exact noLost tid taskId result waits state ring
    · have listens := reachable_listening reachable tid taskId result waits
      obtain ⟨waited, silent⟩ := silent_of_waiting trace inMacro.created listens
        (shape.not_blocks notRunning notChosen)
        (fun act inside same => by
          subst same
          exact resumes (shape.allowed _ inside))
        state
      rw [← inMacro.finds.change] at silent
      exact step_stuck reachable steps shape trace ring silent
        (noLost tid taskId result waits waited ring)

/-- A step that resumes a task to a wait that is over loses its wake-up. -/
theorem resumesStuck_of_noLostWakeup
    (reachable : ReachableSys cfg s)
    (steps : step cfg s label = .ok s')
    (noLost : s'.NoLostWakeup cfg) :
    ResumesStuck cfg s label := by
  have sound := reachable_sound reachable
  obtain ⟨acts, shape, trace⟩ := step_trace sound steps
  intro tid taskId result resumes waits suspended saved ring
  have inMacro := reachable_framesSound reachable tid taskId result waits
  have found := (inMacro.finds.of_trace trace sound).found
  have untouched := shape.not_touches_of_resumes resumes
    (s.kernel.queues.osMsgQFind cfg taskId)
  have ring' := (Micro.untouched_of_trace trace sound ring untouched).1
  have state := shape.state_of_resumes resumes trace inMacro.created
  rw [Tcb.resume, if_pos suspended] at state
  rw [← (shape.of_resumes resumes).1] at waits
  have stuck := noLost tid taskId result waits (state.trans saved)
    (by rwa [found])
  rw [found] at stuck
  exact (Micro.stuck_of_trace trace sound ring untouched result).mp stuck

end

/-! ## Runs -/

/-- From `os_init`, no state of a run has a lost wake-up exactly when every
`os_task_resume` of the run that puts a task back to its wait inside a message
macro finds the queue still without a deliverable message, or still full. -/
theorem noLostWakeup_iff
    {cfg : Config} {s₀ s : Sys β} {labels : List (Label β)}
    (initial : Initial cfg s₀)
    (runs : run (step cfg) s₀ labels = .ok s) :
    (∀ done later s', labels = done ++ later → run (step cfg) s₀ done = .ok s' →
      s'.NoLostWakeup cfg) ↔
    Meets (step cfg) (ResumesStuck cfg) s₀ labels := by
  constructor
  · intro noLost
    refine .of_steps runs fun done label later state next split reaches steps => ?_
    apply resumesStuck_of_noLostWakeup ⟨s₀, done, initial, reaches⟩ steps
    apply noLost (done ++ [label]) later next
    · rw [split, List.append_assoc, List.singleton_append]
    · exact run_append_eq_ok_iff.mpr
        ⟨state, reaches, run_cons_eq_ok_iff.mpr ⟨next, steps, rfl⟩⟩
  · rintro meets done later s' rfl reaches
    have both := (meets.of_append reaches).1.run_invariant
      (fun s => ReachableSys cfg s ∧ s.NoLostWakeup cfg)
      (fun s label next holds allowed steps => ⟨holds.1.step steps,
        step_noLostWakeup holds.1 holds.2 allowed steps⟩)
      ⟨.of_initial initial, fun tid taskId result waits =>
        absurd waits (initial.waits_ne tid taskId result)⟩ reaches
    exact both.2

/-- The receiver of an empty queue is suspended and resumed, and then the other
task posts to it. -/
def suspendedReceiver : List (Label Nat) :=
  setUp 1 2 3 ++
    [.osSchedule, .task (.msgReceive 0 ⟨0, 0, 0, 0⟩ false) 5,
      .call (.osTaskSuspend 0), .call (.osTaskResume 0), .osSchedule,
      .task (.msgPost 0 ⟨1, 0, 0, 7⟩ 0 0 false) 6]

/-- The task that a call resumes is stuck, when it is inside a message macro. -/
def resumesStuckCheck (cfg : Config) (s : Sys β) : Label β → Bool
  | .call (.osTaskResume id) =>
      (s.frame id.toNat).waits.all fun (taskId, result) =>
        decide (s.kernel.Stuck (s.kernel.queues.osMsgQFind cfg taskId) result)
  | .task (.taskResume _) _ => false
  | _ => true

theorem resumesStuck_of_check
    {cfg : Config} {s : Sys β} {label : Label β}
    (checked : resumesStuckCheck cfg s label = true) :
    ResumesStuck cfg s label := by
  intro tid taskId result resumes waits _ _ _
  cases label with
  | call call =>
      cases call with
      | osTaskResume id =>
          have same : id.toNat = tid := resumes
          simp only [resumesStuckCheck, same, waits, Option.all_some,
            decide_eq_true_eq] at checked
          exact checked
      | _ => exact resumes.elim
  | task op line =>
      cases op with
      | taskResume => cases checked
      | _ => exact resumes.elim
  | _ => exact resumes.elim

/-- The receiver is resumed while its queue is still empty, and the post wakes
it. -/
theorem noLostWakeup_setUp :
    ∃ s : Sys Nat,
      run (step (Config.small false)) (Sys.boot (Config.small false))
        suspendedReceiver = .ok s ∧
      s.frame 0 = .receive 0 ⟨0, 0, 0, 0⟩ ∧
      (s.kernel.tasks.taskList 0).state = .ready ∧
      ∀ done later s', suspendedReceiver = done ++ later →
        run (step (Config.small false)) (Sys.boot (Config.small false)) done =
          .ok s' →
        s'.NoLostWakeup (Config.small false) := by
  obtain ⟨s, runs, checked⟩ := exists_of_returnsWith
    (fun s : Sys Nat => decide (s.frame 0 = .receive 0 ⟨0, 0, 0, 0⟩ ∧
      (s.kernel.tasks.taskList 0).state = .ready))
    (run (step (Config.small false)) (Sys.boot (Config.small false))
      suspendedReceiver)
    (by decide +kernel)
  obtain ⟨frame, state⟩ := of_decide_eq_true checked
  refine ⟨s, runs, frame, state, ?_⟩
  refine (noLostWakeup_iff ⟨⟨Kernel.zeroed, rfl⟩, rfl⟩ runs).mpr ?_
  exact .of_check (resumesStuckCheck (Config.small false))
    (fun _ _ checked => resumesStuck_of_check checked) (by decide +kernel)

/-- A message is posted while the receiver is suspended; the resumed receiver
waits beside it. -/
theorem receiver_waits_beside_message :
    ∃ s : Sys Nat, ReachableSys (Config.small false) s ∧
      s.frame 0 = .receive 0 ⟨0, 0, 0, 0⟩ ∧
      (s.kernel.tasks.taskList 0).state = .waitingEvent ∧
      s.kernel.queues.osMsgQFind (Config.small false) 0 = 0 ∧
      (s.kernel.queues.msgQList 0).q.size = 2 ∧
      s.kernel.contents 0 = [⟨1, 0, 0, 7⟩] ∧
      ¬ s.NoLostWakeup (Config.small false) := by
  obtain ⟨s, runs, checked⟩ := exists_of_returnsWith
    (fun s : Sys Nat => decide (s.frame 0 = .receive 0 ⟨0, 0, 0, 0⟩ ∧
      (s.kernel.tasks.taskList 0).state = .waitingEvent ∧
      s.kernel.queues.osMsgQFind (Config.small false) 0 = 0 ∧
      s.kernel.queues.nQueues = 1 ∧ (s.kernel.queues.msgQList 0).q.size = 2 ∧
      s.kernel.contents 0 = [⟨1, 0, 0, 7⟩]))
    (run (step (Config.small false)) (Sys.boot (Config.small false))
      (setUp 1 2 3 ++
        [.osSchedule, .task (.msgReceive 0 ⟨0, 0, 0, 0⟩ false) 5,
          .call (.osTaskSuspend 0), .osSchedule,
          .task (.msgPost 0 ⟨1, 0, 0, 7⟩ 0 0 false) 6,
          .task (.taskWaitId 0 9) 7, .call (.osTaskResume 0)]))
    (by decide +kernel)
  obtain ⟨frame, state, found, count, size, contents⟩ := of_decide_eq_true checked
  refine ⟨s, reachable_of_run runs, frame, state, found, size, contents,
    fun noLost => ?_⟩
  have stuck := noLost 0 0 .empty (by rw [frame]; rfl) state
  rw [found] at stuck
  have ring : s.kernel.HasRing (Config.small false) 0 :=
    ⟨⟨by decide, by rw [count]; decide⟩, size.ge⟩
  apply stuck ring ⟨1, 0, 0, 7⟩
  · rw [contents]
    exact List.mem_singleton_self _
  · rfl

end CocoOs
