import CocoOs.ClockOrder
import CocoOs.Frames
import CocoOs.TaskStatus

/-!
# The tick of the master clock

`os_tick` goes through the tasks one by one.  It ticks the task and then ages
the messages in the queue of the task, and a message that becomes deliverable
signals the change event of the queue at once: to tasks that have been ticked
already and to tasks that have not.  The order shows in the time that
`event_get_timeout` reads after a wait which an event has ended.  The status of
every task is what it is when all tasks are ticked and all events are then
signalled together, so that the times and delays in a state say which tasks any
number of ticks will wake.
-/

namespace CocoOs

open Foundation

variable {β : Type}

/-! ## The status of a task after a list of actions -/

/-- What the actions of a list make of the status of a task. -/
noncomputable def statusAfter
    (tid : Nat) (acts : List (Act β)) (status : Status) : Status :=
  acts.foldl (fun status act => act.onStatus tid status) status

@[simp] theorem statusAfter_nil (tid : Nat) (status : Status) :
    statusAfter (β := β) tid [] status = status := rfl

@[simp] theorem statusAfter_cons
    (tid : Nat) (act : Act β) (acts : List (Act β)) (status : Status) :
    statusAfter tid (act :: acts) status =
      statusAfter tid acts (act.onStatus tid status) := rfl

theorem statusAfter_append
    (tid : Nat) (first second : List (Act β)) (status : Status) :
    statusAfter tid (first ++ second) status =
      statusAfter tid second (statusAfter tid first status) :=
  List.foldl_append

/-- The status of a created task follows the actions of a trace. -/
theorem Micro.status_of_trace
    {cfg : Config} {k k' : Kernel β} {acts : List (Act β)} {tid : Nat}
    (trace : Trace (Micro cfg) k acts k')
    (sound : k.Sound cfg)
    (tasks : k.TasksSound cfg)
    (created : tid < k.tasks.nTasks) :
    (k'.tasks.taskList tid).status cfg =
      statusAfter tid acts ((k.tasks.taskList tid).status cfg) :=
  trace.observe
    (fun k => k.Sound cfg ∧ k.TasksSound cfg ∧ tid < k.tasks.nTasks)
    (fun _ _ _ holds acts =>
      ⟨holds.1.of_micro acts, holds.2.1.of_micro holds.1 acts,
        holds.2.2.trans_le acts.nTasks_le⟩)
    (fun k => (k.tasks.taskList tid).status cfg)
    (fun status act => act.onStatus tid status)
    (fun _ _ _ holds acts =>
      acts.status holds.2.1 holds.1.nTasks_lt holds.2.2)
    ⟨sound, tasks, created⟩

/-- Signals of one event by interrupts are one signal of it, or none. -/
theorem statusAfter_isrSignalActs
    (cfg : Config) (event times tid : Nat) (status : Status) :
    statusAfter (β := β) tid (Kernel.isrSignalActs cfg event times) status =
      status.signal
        { other | 0 < cfg.nTotalEvents ∧ 0 < times ∧ other = event } := by
  induction times generalizing status with
  | zero =>
      have none : { other | 0 < cfg.nTotalEvents ∧ 0 < 0 ∧ other = event } =
          (∅ : Set Nat) := by
        ext other
        simp
      rw [none, Status.signal_empty]
      rfl
  | succ times inductionHypothesis =>
      rw [Kernel.isrSignalActs, statusAfter_append, inductionHypothesis]
      by_cases events : 0 < cfg.nTotalEvents
      · have once : statusAfter (β := β) tid (Kernel.signalActs cfg event isrTid)
            status = status.signal {event} := by
          rw [Kernel.signalActs, if_pos events]
          rfl
        rw [once, Status.signal_signal]
        congr 1
        ext other
        simp only [events, Set.mem_union, Set.mem_singleton_iff,
          Set.mem_ofPred_eq, true_and]
        grind
      · have silent : statusAfter (β := β) tid (Kernel.signalActs cfg event isrTid)
            status = status := by
          rw [Kernel.signalActs, if_neg events]
          rfl
        rw [silent]
        simp [events]

namespace Kernel

/-! ## The events of a tick -/

/-- The event that the tick of a task signals when a number of messages in its
queue expire. -/
def expiryEvents (cfg : Config) (k : Kernel β) (tid expired : Nat) : Set Nat :=
  { event | 0 < cfg.nQueues ∧ (k.tasks.taskList tid).msgQ ≠ noQueue ∧
    0 < cfg.nTotalEvents ∧ 0 < expired ∧
    event = (k.queues.msgQList (k.tasks.taskList tid).msgQ).change }

theorem statusAfter_taskTickActs
    (cfg : Config) (k : Kernel β) (other expired tid : Nat) (status : Status) :
    statusAfter tid (k.taskTickActs cfg 0 1 other expired) status =
      (if tid = other then status.tick 0 1 else status).signal
        (k.expiryEvents cfg other expired) := by
  have silent : ¬ (0 < cfg.nQueues ∧ (k.tasks.taskList other).msgQ ≠ noQueue) →
      k.expiryEvents cfg other expired = ∅ := by
    intro noQueue
    ext event
    simp only [expiryEvents, Set.mem_ofPred_eq, Set.mem_empty_iff_false,
      iff_false]
    exact fun inside => noQueue ⟨inside.1, inside.2.1⟩
  unfold taskTickActs queueTickActs
  rw [statusAfter_cons]
  by_cases hasQueue : (k.tasks.taskList other).msgQ ≠ noQueue
  · rw [if_pos ⟨rfl, hasQueue⟩]
    by_cases queues : 0 < cfg.nQueues
    · rw [if_pos queues, statusAfter_cons, statusAfter_isrSignalActs]
      simp only [expiryEvents, queues, hasQueue, true_and, ne_eq,
        not_false_eq_true]
      rfl
    · rw [if_neg queues, silent fun both => queues both.1, Status.signal_empty]
      rfl
  · rw [if_neg fun both => hasQueue both.2, silent fun both => hasQueue both.2,
      Status.signal_empty]
    rfl

theorem tickActs_succ
    (cfg : Config) (k : Kernel β) (clockId tickSize : Nat)
    (expired : Nat → Nat) (count : Nat) :
    k.tickActs cfg clockId tickSize expired (count + 1) =
      k.tickActs cfg clockId tickSize expired count ++
        k.taskTickActs cfg clockId tickSize count (expired count) := by
  simp [tickActs, List.range_succ]

/-- The tick of the first tasks is a tick of each of them and one signal of all
events. -/
theorem statusAfter_tickActs
    (cfg : Config) (k : Kernel β) (expired : Nat → Nat) (count tid : Nat)
    (status : Status) :
    statusAfter tid (k.tickActs cfg 0 1 expired count) status =
      (if tid < count then status.tick 0 1 else status).signal
        { event | ∃ other < count,
          event ∈ k.expiryEvents cfg other (expired other) } := by
  induction count with
  | zero =>
      have none : { event | ∃ other < 0,
          event ∈ k.expiryEvents cfg other (expired other) } = ∅ := by
        ext event
        simp
      rw [none, Status.signal_empty]
      rfl
  | succ count inductionHypothesis =>
      have joined : { event | ∃ other < count,
            event ∈ k.expiryEvents cfg other (expired other) } ∪
          k.expiryEvents cfg count (expired count) =
          { event | ∃ other < count + 1,
            event ∈ k.expiryEvents cfg other (expired other) } := by
        ext event
        simp only [Set.mem_union, Set.mem_ofPred_eq]
        constructor
        · rintro (⟨other, before, inside⟩ | inside)
          · exact ⟨other, by omega, inside⟩
          · exact ⟨count, by omega, inside⟩
        · rintro ⟨other, before, inside⟩
          by_cases last : other = count
          · exact .inr (last ▸ inside)
          · exact .inl ⟨other, by omega, inside⟩
      rw [tickActs_succ, statusAfter_append, inductionHypothesis,
        statusAfter_taskTickActs, ← joined, ← Status.signal_signal]
      congr 1
      by_cases here : tid = count
      · rw [if_pos here, if_neg (by omega), if_pos (by omega),
          Status.tick_signal]
      · rw [if_neg here]
        by_cases before : tid < count
        · rw [if_pos before, if_pos (by omega)]
        · rw [if_neg before, if_neg (by omega)]

/-! ## The messages that expire -/

/-- The number of messages of a task that expire at the next tick. -/
def expiringOf (k : Kernel β) (tid : Nat) : Nat :=
  expiring (k.contents (k.tasks.taskList tid).msgQ)

section

variable {cfg : Config} {k k' : Kernel β} {queue : Nat}

/-- `os_tick` returns when no queue has a single slot only. -/
theorem hasRing_of_osTick
    {expired : Nat → Nat}
    (sound : k.Sound cfg)
    (trace : Trace (Micro cfg) k
      (k.tickActs cfg 0 1 expired k.tasks.nTasks) k')
    (created : k.HasQueue cfg queue) :
    k.HasRing cfg queue := by
  obtain ⟨before, after, split, _, _⟩ :=
    tickActs_age sound.queues created expired
  rw [split] at trace
  obtain ⟨ticked, first, rest⟩ := trace.exists_middle
  refine ⟨created, ?_⟩
  rw [← Micro.size_of_trace first sound created]
  cases rest with
  | cons ages _ =>
      cases ages with
      | age ready aged =>
          have soundTicked := sound.of_trace first
          have ring := soundTicked.queues.rings queue ⟨created.1, ready.created⟩
          have sized := ring.sized
          have head := ready.valid.head_lt
          by_contra small
          have single := (ring.single (by omega)).1
          omega

/-- The messages of a task are as they were when the tick reaches it. -/
theorem not_touches_earlier
    (sound : k.QueuesSound cfg)
    (queues : 0 < cfg.nQueues)
    {tid : Nat}
    (created : tid < k.tasks.nTasks)
    (hasQueue : (k.tasks.taskList tid).msgQ ≠ noQueue)
    (expired : Nat → Nat) :
    ∀ act ∈ k.tickActs cfg 0 1 expired tid,
      ¬ act.Touches (k.tasks.taskList tid).msgQ := by
  intro act inside
  obtain ⟨other, before, member⟩ := List.mem_flatMap.mp inside
  rw [List.mem_range] at before
  refine k.not_touches_taskTickActs cfg 0 1 other (expired other)
    (fun _ same => ?_) act member
  have owned := (sound.owned queues tid created hasQueue).2
  have otherOwned := (sound.owned queues other (before.trans created)
    (same ▸ hasQueue)).2
  rw [same, owned] at otherOwned
  omega

/-- On the master clock each queue expires the messages that were due before the
tick. -/
theorem taskTick_trace_exact
    (sound : k.Sound cfg)
    (returns : k.taskTick cfg 0 1 = .ok k') :
    Trace (Micro cfg) k
      (k.tickActs cfg 0 1 k.expiringOf k.tasks.nTasks) k' := by
  obtain ⟨expired, some⟩ := taskTick_trace sound returns
  have rings : ∀ queue, k.HasQueue cfg queue → k.HasRing cfg queue :=
    fun queue created => hasRing_of_osTick sound some created
  refine forRange_invariant
    (fun count state => Trace (Micro cfg) k
      (k.tickActs cfg 0 1 k.expiringOf count) state)
    (.nil k) ?_ returns
  intro tid state state' created trace body
  have quiet : ∀ act ∈ k.tickActs cfg 0 1 k.expiringOf tid, act.Quiet := by
    intro act inside
    obtain ⟨other, _, member⟩ := List.mem_flatMap.mp inside
    exact k.quiet_taskTickActs cfg 0 1 other _ act member
  have same := SameObjects.of_trace trace quiet
  have bodyTrace := taskTickBody_trace (sound.of_trace trace)
    (by rw [same.nTasks]; exact created) body
  rw [taskTickActs_sameObjects same cfg 0 1 _ created,
    msgQ_of_static (same.static tid created)] at bodyTrace
  rw [tickActs_succ]
  refine trace.append ?_
  by_cases hasQueue : 0 < cfg.nQueues ∧ (k.tasks.taskList tid).msgQ ≠ noQueue
  · have ring := rings _ ⟨hasQueue.1,
      (sound.queues.owned hasQueue.1 tid created hasQueue.2).1⟩
    have unaged := (Micro.untouched_of_trace trace sound ring
      (not_touches_earlier sound.queues hasQueue.1 created hasQueue.2 _)).2
    rw [unaged] at bodyTrace
    exact bodyTrace
  · have noMatter : ∀ expired, k.taskTickActs cfg 0 1 tid expired =
        [.tick tid 0 1] := by
      intro expired
      unfold taskTickActs queueTickActs
      split_ifs with both queues
      · exact absurd ⟨queues, both.2⟩ hasQueue
      · rfl
      · rfl
    rw [noMatter] at bodyTrace ⊢
    exact bodyTrace

/-- The actions of `os_tick`. -/
theorem osTick_trace
    (sound : k.Sound cfg)
    (returns : k.osTick cfg = .ok k') :
    Trace (Micro cfg) k
      (.clock :: k.tickActs cfg 0 1 k.expiringOf k.tasks.nTasks) k' :=
  have records : Micro cfg k .clock (k.record .ticked) := .clock k
  .cons records (taskTick_trace_exact (sound.of_micro records) returns)

theorem osTick_sameObjects
    (sound : k.Sound cfg)
    (returns : k.osTick cfg = .ok k') :
    SameObjects k k' := by
  refine SameObjects.of_trace (osTick_trace sound returns) fun act inside => ?_
  rcases List.mem_cons.mp inside with rfl | member
  · trivial
  · obtain ⟨other, _, member⟩ := List.mem_flatMap.mp member
    exact k.quiet_taskTickActs cfg 0 1 other _ act member

/-- `os_tick` ages the messages of every queue. -/
theorem osTick_contents
    (sound : k.Sound cfg)
    (returns : k.osTick cfg = .ok k')
    (created : k.HasQueue cfg queue) :
    k'.contents queue = (k.contents queue).map Msg.age := by
  have trace := osTick_trace sound returns
  refine contents_of_osTick sound ?_ trace
  cases trace with
  | cons records rest =>
      cases records with
      | clock =>
          exact hasRing_of_osTick (k := k.record .ticked)
            (sound.of_micro (.clock k)) rest created

/-! ## The abstract tick -/

/-- The change events of the queues with a message that becomes deliverable at
a later tick, where the next tick has the number zero. -/
def due (cfg : Config) (k : Kernel β) (later : Nat) : Set Nat :=
  { event | ∃ queue, k.HasQueue cfg queue ∧
    (k.queues.msgQList queue).change = event ∧
    ∃ msg ∈ k.contents queue, msg.delay = later + 1 }

theorem expiryEvents_eq_due (sound : k.QueuesSound cfg) :
    { event | ∃ other < k.tasks.nTasks,
      event ∈ k.expiryEvents cfg other (k.expiringOf other) } = k.due cfg 0 := by
  have expires : ∀ messages : List (Msg β), 0 < expiring messages ↔
      ∃ msg ∈ messages, msg.delay = 0 + 1 := by
    intro messages
    unfold expiring
    rw [List.countP_pos_iff]
    simp
  ext event
  constructor
  · rintro ⟨tid, created, queues, hasQueue, _, some, rfl⟩
    exact ⟨_, ⟨queues, (sound.owned queues tid created hasQueue).1⟩, rfl,
      (expires _).mp some⟩
  · rintro ⟨queue, created, rfl, some⟩
    obtain ⟨inside, owns⟩ := sound.owner queue created
    refine ⟨_, inside, created.1, ?_, ?_, ?_, ?_⟩
    · rw [owns]
      exact sound.ne_noQueue created
    · exact Nat.zero_lt_of_lt (sound.known queue created)
    · rw [expiringOf, owns]
      exact (expires _).mpr some
    · rw [owns]

/-- A tick brings the later ticks nearer. -/
theorem due_osTick
    (sound : k.Sound cfg)
    (returns : k.osTick cfg = .ok k')
    (later : Nat) :
    k'.due cfg later = k.due cfg (later + 1) := by
  have same := osTick_sameObjects sound returns
  have created : ∀ queue, k'.HasQueue cfg queue ↔ k.HasQueue cfg queue := by
    intro queue
    unfold HasQueue
    rw [same.nQueues]
  ext event
  refine exists_congr fun queue => ?_
  rw [created, same.change]
  refine and_congr_right fun inside => and_congr_right fun _ => ?_
  rw [osTick_contents sound returns inside]
  simp only [List.mem_map, exists_exists_and_eq_and, Msg.age_delay]
  refine exists_congr fun msg => and_congr_right fun _ => ?_
  omega

end

end Kernel

/-- The master clock advances by one tick and the events of a set are
signalled. -/
noncomputable def Tasks.tick (tasks : Tasks) (due : Set Nat) : Tasks where
  statuses := tasks.statuses.map fun status => (status.tick 0 1).signal due
  running := tasks.running

namespace Kernel

variable {cfg : Config} {k k' : Kernel β}

/-- `os_tick` is the abstract tick with the events that are due. -/
theorem osTick_taskView
    (sound : k.Sound cfg)
    (tasks : k.TasksSound cfg)
    (returns : k.osTick cfg = .ok k') :
    k'.taskView cfg = (k.taskView cfg).tick (k.due cfg 0) := by
  have trace := osTick_trace sound returns
  have same := osTick_sameObjects sound returns
  have running : k'.runningTid = k.runningTid := by
    rw [Micro.runningTid_of_trace trace]
    exact foldl_onRunning_of_steady _
      (CallActs.steady (s := ⟨k, fun _ => .between⟩) (.osTick k.expiringOf))
  unfold taskView Tasks.tick
  dsimp only
  rw [running, same.nTasks, List.map_map]
  congr 1
  refine List.map_congr_left fun tid inside => ?_
  have created := List.mem_range.mp inside
  rw [Micro.status_of_trace trace sound tasks created, statusAfter_cons,
    statusAfter_tickActs, expiryEvents_eq_due sound.queues, if_pos created]
  rfl

end Kernel

section

variable {cfg : Config} {s s' : Sys β} {count : Nat}

/-- The statuses after a number of ticks. -/
theorem run_osTick_taskView
    (reachable : ReachableSys cfg s)
    (runs : run (step cfg) s (List.replicate count (.call .osTick)) = .ok s') :
    s'.kernel.taskView cfg =
      (List.range count).foldl
        (fun tasks later => tasks.tick (s.kernel.due cfg later))
        (s.kernel.taskView cfg) := by
  induction count generalizing s with
  | zero =>
      cases Except.ok.inj runs
      rfl
  | succ count inductionHypothesis =>
      rw [List.replicate_succ] at runs
      obtain ⟨t, steps, rest⟩ := run_cons_eq_ok_iff.mp runs
      obtain ⟨k, returns, rfl⟩ := map_eq_ok_iff.mp steps
      have sound := reachable_sound reachable
      have ticked := Kernel.osTick_taskView sound
        (reachable_tasksSound reachable) returns
      rw [inductionHypothesis (reachable.step steps) rest,
        List.range_succ_eq_map, List.foldl_cons, List.foldl_map]
      simp only [ticked, Kernel.due_osTick sound returns]

/-- The messages after a number of ticks. -/
theorem run_osTick_contents
    {queue : Nat}
    (reachable : ReachableSys cfg s)
    (created : s.kernel.HasQueue cfg queue)
    (runs : run (step cfg) s (List.replicate count (.call .osTick)) = .ok s') :
    s'.kernel.contents queue =
      (s.kernel.contents queue).map
        fun msg => { msg with delay := msg.delay - count } := by
  induction count generalizing s with
  | zero =>
      cases Except.ok.inj runs
      exact (List.map_id _).symm
  | succ count inductionHypothesis =>
      rw [List.replicate_succ] at runs
      obtain ⟨t, steps, rest⟩ := run_cons_eq_ok_iff.mp runs
      obtain ⟨k, returns, rfl⟩ := map_eq_ok_iff.mp steps
      have sound := reachable_sound reachable
      have same := Kernel.osTick_sameObjects sound returns
      rw [inductionHypothesis (reachable.step steps)
          ⟨created.1, same.nQueues ▸ created.2⟩ rest,
        Kernel.osTick_contents sound returns created, List.map_map]
      refine List.map_congr_left fun msg _ => ?_
      simp only [Function.comp, Msg.age, Nat.sub_sub, Nat.add_comm 1 count]

/-- Any number of ticks returns as long as the rings have two slots. -/
theorem exists_run_osTick
    (reachable : ReachableSys cfg s)
    (rings : s.kernel.RingsFit cfg)
    (count : Nat) :
    ∃ s', run (step cfg) s (List.replicate count (.call .osTick)) = .ok s' := by
  induction count generalizing s with
  | zero => exact ⟨s, rfl⟩
  | succ count inductionHypothesis =>
      have sound := reachable_sound reachable
      obtain ⟨k, returns⟩ := Kernel.osTick_returns sound rings
      have steps : step cfg s (.call .osTick) = .ok { s with kernel := k } :=
        map_eq_ok_iff.mpr ⟨k, returns, rfl⟩
      have ringsAfter : k.RingsFit cfg := by
        have kept := (Kernel.osTick_trace sound returns).invariant Act.Quiet
          (fun later => later.Sound cfg ∧ later.RingsFit cfg)
          (fun _ _ _ quiet both acts => ⟨both.1.of_micro acts,
            both.2.of_micro both.1.queues acts quiet⟩)
          ?_ ⟨sound, rings⟩
        · exact kept.2
        · refine List.forall_mem_cons.mpr ⟨trivial, fun act inside => ?_⟩
          obtain ⟨tid, _, member⟩ := List.mem_flatMap.mp inside
          exact s.kernel.quiet_taskTickActs cfg 0 1 tid _ act member
      obtain ⟨s', rest⟩ := inductionHypothesis (reachable.step steps) ringsAfter
      exact ⟨s', run_cons_eq_ok_iff.mpr ⟨_, steps, rest⟩⟩

/-- `os_tick` is simultaneous: any number of ticks returns from any reachable
state whose rings have two slots, and then every task has the status it would
have if at each tick all tasks were ticked and then signalled, at once, the
change events of the queues with a message whose delay was up to that tick.  The
messages have aged by the number of ticks. -/
theorem ticks_are_simultaneous
    (reachable : ReachableSys cfg s)
    (count : Nat) :
    (s.kernel.RingsFit cfg → ∃ s',
      run (step cfg) s (List.replicate count (.call .osTick)) = .ok s') ∧
    ∀ s', run (step cfg) s (List.replicate count (.call .osTick)) = .ok s' →
      s'.kernel.taskView cfg =
        (List.range count).foldl
          (fun tasks later => tasks.tick (s.kernel.due cfg later))
          (s.kernel.taskView cfg) ∧
      ∀ queue, s.kernel.HasQueue cfg queue →
        s'.kernel.contents queue =
          (s.kernel.contents queue).map
            fun msg => { msg with delay := msg.delay - count } :=
  ⟨fun rings => exists_run_osTick reachable rings count,
    fun _ runs => ⟨run_osTick_taskView reachable runs,
      fun _ created => run_osTick_contents reachable created runs⟩⟩

end

/-- The first task posts itself a message with a delay of two ticks and waits
for it.  Two ticks return, and the message is deliverable then. -/
theorem ticks_are_simultaneous_setUp :
    ∃ s s' : Sys Nat,
      run (step (Config.small false)) (Sys.boot (Config.small false))
        (setUp 1 2 3 ++ [.osSchedule, .task (.msgPost 0 ⟨1, 0, 0, 7⟩ 2 0 false) 1,
          .task (.msgReceive 0 ⟨0, 0, 0, 0⟩ false) 2]) = .ok s ∧
      run (step (Config.small false)) s (List.replicate 2 (.call .osTick)) =
        .ok s' ∧
      s.kernel.contents 0 = [⟨1, 2, 0, 7⟩] ∧
      s'.kernel.contents 0 = [⟨1, 0, 0, 7⟩] ∧
      s'.kernel.taskView (Config.small false) =
        ((s.kernel.taskView (Config.small false)).tick
          (s.kernel.due (Config.small false) 0)).tick
            (s.kernel.due (Config.small false) 1) := by
  obtain ⟨s, before, checked⟩ := exists_of_returnsWith
    (fun s : Sys Nat =>
      decide (s.kernel.contents 0 = [⟨1, 2, 0, 7⟩] ∧
        s.kernel.queues.nQueues = 1 ∧
        2 ≤ (s.kernel.queues.msgQList 0).q.size ∧
        (s.kernel.queues.msgQList 0).change / 8 <
          (Config.small false).eventQueueSize))
    (run (step (Config.small false)) (Sys.boot (Config.small false))
      (setUp 1 2 3 ++ [.osSchedule, .task (.msgPost 0 ⟨1, 0, 0, 7⟩ 2 0 false) 1,
        .task (.msgReceive 0 ⟨0, 0, 0, 0⟩ false) 2]))
    (by decide +kernel)
  obtain ⟨contents, one, two, fit⟩ := of_decide_eq_true checked
  obtain ⟨returns, ticked⟩ := ticks_are_simultaneous (reachable_of_run before) 2
  obtain ⟨s', after⟩ := returns (.of_one one two fit)
  obtain ⟨view, aged⟩ := ticked s' after
  refine ⟨s, s', before, after, contents, ?_, view⟩
  rw [aged 0 ⟨by decide, by omega⟩, contents]
  rfl

end CocoOs
