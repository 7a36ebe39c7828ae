import CocoOs.BlockedFrames
import CocoOs.ClockOrder
import CocoOs.EventBitmaps
import CocoOs.PriorityScheduling
import CocoOs.RoundRobinScan
import CocoOs.WaitMultiple
import CocoOs.Foundation.Returns

/-!
# When the kernel does not stop

Every assertion of the kernel, every access to an array and every loop around a
message ring is a place where a step may not return.  `Proper` lists what must
hold of the arguments of a step and of the objects created so far.  In a
configuration whose event bitmaps have a bit for each event, and without rings
of a single slot, this list is complete: a run stops at the first step that is
not proper, and at no other.
-/

namespace CocoOs

open Foundation

variable {β : Type}

/-! ## What a step asks for -/

/-- The event bitmaps have a bit for every event of the configuration. -/
def Config.EventsFit (cfg : Config) : Prop :=
  cfg.nTotalEvents ≤ 8 * cfg.eventQueueSize

theorem Config.EventsFit.inside
    {cfg : Config} {event : Nat}
    (fit : cfg.EventsFit)
    (known : event < cfg.nTotalEvents) :
    event / 8 < cfg.eventQueueSize :=
  Nat.div_lt_of_lt_mul (known.trans_le fit)

/-- There is room for the object, and the arguments of a new task are its
own. -/
def Creation.Proper (cfg : Config) (k : Kernel β) : Creation β → Prop
  | .osTaskCreate taskproc _ prio _ poolSize _ =>
      k.running = false ∧ k.tasks.nTasks < cfg.nTasks ∧ taskproc ≠ 0 ∧
      (∀ tid, tid < k.tasks.nTasks →
        (k.tasks.taskList tid).prio ≠ prio.toNat) ∧
      (0 < poolSize.toNat → 0 < cfg.nQueues →
        k.queues.nQueues < cfg.nQueues ∧ k.events.nEvents < cfg.nTotalEvents)
  | .eventCreate => 0 < cfg.nTotalEvents → k.events.nEvents < cfg.nTotalEvents
  | .semBinCreate _ =>
      0 < cfg.nTotalSemaphores → k.sems.nSemaphores < cfg.nTotalSemaphores
  | .semCountingCreate _ _ =>
      0 < cfg.nTotalSemaphores → k.sems.nSemaphores < cfg.nTotalSemaphores

/-- The event is one of the configuration, when it has events. -/
def Config.KnowsEvent (cfg : Config) (event : Nat) : Prop :=
  0 < cfg.nTotalEvents → event < cfg.nTotalEvents

/-- The call names a task that was created, an event or a semaphore of the
configuration.  Nothing is asked of a tick. -/
def Call.Proper (cfg : Config) (k : Kernel β) : Call → Prop
  | .osTick => True
  | .osSubTick _ => True
  | .osSubNTick _ _ => True
  | .eventIsrSignal event => cfg.KnowsEvent event.toNat
  | .semIsrSignal sem => cfg.HasSem sem
  | .osTaskSuspend tid => tid.toNat < k.tasks.nTasks
  | .osTaskResume tid => tid.toNat < k.tasks.nTasks
  | .osTaskKill tid => tid.toNat < k.tasks.nTasks

/-- The arguments of `event_wait_multiple`: at least one, of which the marked
ones are inside the event bitmaps, and none too many. -/
def WaitsProper (cfg : Config) (args : List Nat) : Prop :=
  args ≠ [] ∧ (Kernel.leadingEvents args.tail).length ≤ cfg.nTotalEvents ∧
    ∀ event ∈ Kernel.markedEvents args, event / 8 < cfg.eventQueueSize

/-- A time is positive, and a task, event or semaphore is there.  Nothing is
asked of a wait for one event or of a message macro. -/
def TaskOp.Proper (cfg : Config) (k : Kernel β) : TaskOp β → Prop
  | .taskWaitId _ ticks => 0 < ticks.toNat
  | .taskSuspend id => id.toNat < k.tasks.nTasks
  | .taskResume id => id.toNat < k.tasks.nTasks
  | .eventWaitTimeout _ _ => True
  | .eventWaitMultiple _ args =>
      0 < cfg.nTotalEvents → WaitsProper cfg (args.map UInt8.toNat)
  | .eventSignal event => cfg.KnowsEvent event.toNat
  | .semWait sem => cfg.HasSem sem
  | .semSignal sem => cfg.HasSem sem
  | .msgPost _ _ _ _ _ => True
  | .msgReceive _ _ _ => True
  | .taskClose => True

/-- What the code asserts or relies on when it takes a step. -/
def Proper (cfg : Config) (s : Sys β) : Label β → Prop
  | .create creation => creation.Proper cfg s.kernel
  | .osStart => True
  | .osSchedule =>
      s.kernel.runningTid = noTid ∧
        (cfg.roundRobin = true → 0 < s.kernel.tasks.nTasks)
  | .call call => call.Proper cfg s.kernel
  | .task op _ => s.kernel.runningTid ≠ noTid ∧ op.Proper cfg s.kernel

/-! ## Creation -/

theorem EventTable.returns_eventCreate_iff (cfg : Config) (events : EventTable) :
    Returns (events.eventCreate cfg) ↔
      (0 < cfg.nTotalEvents → events.nEvents < cfg.nTotalEvents) := by
  unfold eventCreate
  rw [returns_skip_iff]
  simp only [returns_guard_iff, returns_ok, and_true]

theorem SemTable.returns_osSemCreate_iff
    (cfg : Config) (sems : SemTable) (max initial : Nat) :
    Returns (sems.osSemCreate cfg max initial) ↔
      (0 < cfg.nTotalSemaphores → sems.nSemaphores < cfg.nTotalSemaphores) := by
  unfold osSemCreate
  rw [returns_skip_iff]
  simp only [returns_guard_iff, returns_ok, and_true]

namespace Kernel

theorem returns_osMsgQCreate_iff
    (cfg : Config) (k : Kernel β)
    (buffer : Nat → Msg β) (nMessages msgSize taskId : Nat) :
    Returns (k.osMsgQCreate cfg buffer nMessages msgSize taskId) ↔
      (0 < cfg.nQueues →
        k.queues.nQueues < cfg.nQueues ∧
          k.events.nEvents < cfg.nTotalEvents) := by
  unfold osMsgQCreate
  rw [returns_skip_iff]
  refine imp_congr_right fun queues => ?_
  have events : 0 < cfg.nTotalEvents := by
    unfold Config.nTotalEvents
    omega
  rw [returns_guard_iff, returns_bind_ok_iff,
    EventTable.returns_eventCreate_iff]
  exact and_congr_right fun _ => ⟨fun room => room events, fun room _ => room⟩

theorem returns_osTaskCreate_iff
    (cfg : Config) (k : Kernel β)
    (taskproc data prio : Nat)
    (msgPool : Nat → Msg β) (poolSize msgSize : Nat) :
    Returns (k.osTaskCreate cfg taskproc data prio msgPool poolSize msgSize) ↔
      k.running = false ∧ k.tasks.nTasks < cfg.nTasks ∧ taskproc ≠ 0 ∧
      (∀ tid, tid < k.tasks.nTasks → (k.tasks.taskList tid).prio ≠ prio) ∧
      (0 < poolSize → 0 < cfg.nQueues →
        k.queues.nQueues < cfg.nQueues ∧
          k.events.nEvents < cfg.nTotalEvents) := by
  unfold osTaskCreate
  by_cases pool : 0 < poolSize
  · simp only [returns_guard_iff, pool, if_true, returns_bind_ok_iff,
      returns_osMsgQCreate_iff, prioUnused_iff, true_imp_iff]
  · simp only [returns_guard_iff, pool, if_false, ok_bind, returns_ok,
      prioUnused_iff, false_imp_iff]

end Kernel

theorem returns_creationStep_iff
    (cfg : Config) (k : Kernel β) (creation : Creation β) :
    Returns (creationStep cfg k creation) ↔ creation.Proper cfg k := by
  cases creation with
  | osTaskCreate taskproc data prio msgPool poolSize msgSize =>
      exact returns_map_iff.trans
        (k.returns_osTaskCreate_iff cfg _ _ _ _ _ _)
  | eventCreate =>
      exact returns_map_iff.trans (k.events.returns_eventCreate_iff cfg)
  | semBinCreate initial =>
      exact returns_map_iff.trans (k.sems.returns_osSemCreate_iff cfg _ _)
  | semCountingCreate max initial =>
      exact returns_map_iff.trans (k.sems.returns_osSemCreate_iff cfg _ _)

/-! ## Calls -/

namespace TaskTable

theorem returns_osTaskSuspend_iff (tasks : TaskTable) (tid : Nat) :
    Returns (tasks.osTaskSuspend tid) ↔ tid < tasks.nTasks := by
  simp only [osTaskSuspend, returns_guard_iff, returns_ok, and_true]

theorem returns_osTaskResume_iff (tasks : TaskTable) (tid : Nat) :
    Returns (tasks.osTaskResume tid) ↔ tid < tasks.nTasks := by
  simp only [osTaskResume, returns_guard_iff, returns_ok, and_true]

theorem returns_osTaskKill_iff (tasks : TaskTable) (tid : Nat) :
    Returns (tasks.osTaskKill tid) ↔ tid < tasks.nTasks := by
  simp only [osTaskKill, returns_guard_iff, returns_ok, and_true]

end TaskTable

namespace Kernel

variable {cfg : Config} {k : Kernel β}

/-- A signal returns when its event is one of the configuration. -/
theorem returns_signal_iff
    (fit : cfg.EventsFit)
    (k : Kernel β) (event : Nat) (tid : Kernel β → Nat) :
    Returns (k.osSignalEvent cfg event >>= fun k =>
      k.osEventSetSignalingTid cfg event (tid k)) ↔ cfg.KnowsEvent event := by
  rw [osSignalEvent_eq]
  unfold osEventSetSignalingTid Config.KnowsEvent
  by_cases events : 0 < cfg.nTotalEvents
  · rw [if_pos events]
    simp only [events, if_true, forall_const]
    constructor
    · intro returns
      obtain ⟨_, _, second⟩ := returns_bind_iff.mp returns
      exact (returns_guard_iff.mp second).1
    · intro known
      rw [if_pos (.inr (fit.inside known)), ok_bind, if_pos known]
      exact returns_ok _
  · simp [events]

theorem returns_eventIsrSignal_iff
    (fit : cfg.EventsFit)
    (k : Kernel β) (event : Nat) :
    Returns (k.eventIsrSignal cfg event) ↔ cfg.KnowsEvent event :=
  returns_signal_iff fit k event fun _ => isrTid

end Kernel

theorem returns_callStep_iff
    {cfg : Config} {k : Kernel β}
    (fit : cfg.EventsFit)
    (sound : k.Sound cfg)
    (rings : k.RingsFit cfg)
    (call : Call) :
    Returns (callStep cfg k call) ↔ call.Proper cfg k := by
  have subTick : ∀ clockId ticks : Nat, clockId ≠ 0 →
      Returns (k.taskTick cfg clockId ticks) := by
    intro clockId ticks sub
    rw [k.taskTick_sub cfg sub]
    exact returns_ok _
  cases call with
  | osTick => exact iff_of_true (Kernel.osTick_returns sound rings) trivial
  | osSubTick id =>
      refine iff_of_true (returns_skip_iff.mpr ?_) trivial
      exact subTick id.toNat 1
  | osSubNTick id nTicks =>
      refine iff_of_true (returns_skip_iff.mpr ?_) trivial
      exact subTick id.toNat nTicks.toNat
  | eventIsrSignal event => exact k.returns_eventIsrSignal_iff fit event.toNat
  | semIsrSignal sem =>
      simp only [callStep, returns_guard_iff, returns_ok, and_true]
      rfl
  | osTaskSuspend tid =>
      exact returns_map_iff.trans (k.tasks.returns_osTaskSuspend_iff tid.toNat)
  | osTaskResume tid =>
      exact returns_map_iff.trans (k.tasks.returns_osTaskResume_iff tid.toNat)
  | osTaskKill tid =>
      exact returns_map_iff.trans (k.tasks.returns_osTaskKill_iff tid.toNat)

/-! ## Waiting for several events -/

namespace Kernel

theorem leadingEvents_concat (args : List Nat) :
    leadingEvents (args ++ [noEvent]) = leadingEvents args := by
  unfold leadingEvents
  induction args with
  | nil => simp
  | cons event rest inductionHypothesis =>
      rw [List.cons_append, List.takeWhile_cons, List.takeWhile_cons,
        inductionHypothesis]

/-- The validating loop that ends at `NO_EVENT` has not run out of its
counter. -/
theorem length_le_of_waitMultipleScan
    {cfg : Config} {unread : List Nat} {count : Nat}
    (room : count ≤ cfg.nTotalEvents)
    (returns : waitMultipleScan cfg unread count = .ok noEvent) :
    count + (leadingEvents unread).length ≤ cfg.nTotalEvents := by
  induction unread generalizing count with
  | nil => cases returns
  | cons event rest inductionHypothesis =>
      unfold waitMultipleScan at returns
      by_cases more : event ≠ noEvent ∧ count + 1 ≤ cfg.nTotalEvents
      · rw [if_pos more] at returns
        have later := inductionHypothesis more.2 returns
        have leading : leadingEvents (event :: rest) =
            event :: leadingEvents rest := by
          unfold leadingEvents
          rw [List.takeWhile_cons, if_pos (decide_eq_true more.1)]
        rw [leading, List.length_cons]
        omega
      · rw [if_neg more, Except.ok.injEq] at returns
        have none : leadingEvents (event :: rest) = [] := by
          unfold leadingEvents
          rw [List.takeWhile_cons, if_neg (by simp [returns])]
        rw [none]
        exact room

/-- `os_wait_multiple`, with the `NO_EVENT` that the macro appends. -/
theorem returns_osWaitMultiple_iff
    {cfg : Config} {k : Kernel β} {args : List Nat}
    (waitForAll : Bool)
    (created : k.runningTid < k.tasks.nTasks)
    (small : ∀ event ∈ args, event % 256 = event) :
    Returns (k.osWaitMultiple cfg waitForAll (args ++ [noEvent])) ↔
      (0 < cfg.nTotalEvents → WaitsProper cfg args) := by
  unfold osWaitMultiple
  rw [returns_skip_iff]
  refine imp_congr_right fun events => ?_
  have createdHere : k.osGetRunningTid <
      (k.tasks.osTaskClearWaitQueue cfg k.osGetRunningTid).nTasks := created
  cases args with
  | nil =>
      refine iff_of_false ?_ fun proper => proper.1 rfl
      simp [waitMultipleScan]
  | cons first rest =>
      rw [List.cons_append]
      dsimp only
      have marked : markedEvents (first :: rest) = first :: leadingEvents rest := by
        rw [markedEvents, small first (List.mem_cons_self ..)]
        congr 1
        refine (List.map_congr_left fun event inside => ?_).trans (List.map_id _)
        exact small event (List.mem_cons_of_mem _
          ((List.takeWhile_subset _) inside))
      rw [returns_bind_iff]
      constructor
      · rintro ⟨last, scan, rest_⟩
        obtain ⟨rfl, marks⟩ := returns_guard_iff.mp rest_
        obtain ⟨tasks, marks, _⟩ := returns_bind_iff.mp marks
        have room := length_le_of_waitMultipleScan (Nat.zero_le _) scan
        rw [leadingEvents_concat, Nat.zero_add] at room
        refine ⟨List.cons_ne_nil _ _, room, ?_⟩
        have fits := (waitMultipleMark_cases marks).2.2.1
        have same : markedEvents (first :: (rest ++ [noEvent])) =
            markedEvents (first :: rest) := by
          have taken := leadingEvents_concat rest
          unfold leadingEvents at taken
          rw [markedEvents, markedEvents, taken]
        rwa [same] at fits
      · rintro ⟨_, room, fits⟩
        rw [marked] at fits
        have inside : noEvent ∈ rest ++ [noEvent] := by simp
        obtain ⟨later, split⟩ := exists_eq_leadingEvents_append inside
        rw [leadingEvents_concat] at split
        have absent := noEvent_not_mem_leadingEvents rest
        have smallLeading : ∀ event ∈ first :: leadingEvents rest,
            event % 256 = event := by
          intro event member
          apply small
          rcases List.mem_cons.mp member with rfl | member
          · exact List.mem_cons_self
          · exact List.mem_cons_of_mem _ ((List.takeWhile_subset _) member)
        rw [split]
        refine ⟨noEvent, waitMultipleScan_of_absent absent
          (by simpa [leadingEvents] using room) later, ?_⟩
        rw [if_pos rfl, ← List.cons_append,
          waitMultipleMark_of_absent waitForAll createdHere absent smallLeading
            fits]
        exact returns_ok _

end Kernel

/-! ## Waiting for one event and the messages -/

/-- The kernel has a bit for each of its events and every queue is a ring of
more than one slot. -/
structure Kernel.Fit (cfg : Config) (k : Kernel β) : Prop where
  sound : k.Sound cfg
  rings : k.RingsFit cfg
  events : 0 < cfg.nTotalEvents → k.events.nEvents ≤ cfg.nTotalEvents

namespace Kernel

variable {cfg : Config} {k : Kernel β}

theorem returns_osWaitSingleEvent
    (fit : cfg.EventsFit)
    (known : 0 < cfg.nTotalEvents → k.events.nEvents ≤ cfg.nTotalEvents)
    (created : k.runningTid < k.tasks.nTasks)
    (event timeout line : Nat) :
    Returns (k.osWaitSingleEvent cfg event timeout line) := by
  unfold osWaitSingleEvent osWaitEvent
  rw [returns_bind_ok_iff, returns_skip_iff]
  rintro ⟨events, before⟩
  have inside := fit.inside (before.trans_le (known events))
  have here : k.osGetRunningTid < k.tasks.nTasks := created
  dsimp only
  rw [TaskTable.osTaskWaitEvent_eq, if_pos here, if_pos inside, ok_bind]
  exact returns_ok _

theorem returns_blockOnChange
    (fit : cfg.EventsFit)
    (known : 0 < cfg.nTotalEvents → k.events.nEvents ≤ cfg.nTotalEvents)
    (created : k.runningTid < k.tasks.nTasks)
    (result : MsgResult) (event line : Nat) :
    Returns (k.blockOnChange cfg result event line) := by
  unfold blockOnChange
  refine returns_osWaitSingleEvent fit ?_ ?_ event 0 line
  · exact known
  · exact created

theorem returns_osMsgPost
    (fits : k.Fit cfg)
    (msg : Msg β) (queue delay period : Nat) :
    Returns (k.osMsgPost cfg msg queue delay period) := by
  by_cases queues : 0 < cfg.nQueues
  · by_cases undefined : k.queues.nQueues ≤ queue
    · unfold osMsgPost
      rw [if_pos queues, if_pos undefined]
      exact returns_ok _
    · have inside := Nat.not_le.mp undefined
      have ready := fits.sound.queues.ready ⟨queues, inside⟩
        (fits.rings.two queue ⟨queues, inside⟩)
      have size := ready.holds.fits
      by_cases full :
          (k.contents queue).length + 1 = (k.queues.msgQList queue).q.size
      · exact ⟨_, osMsgPost_of_full queues inside ready.holds full msg delay
          period⟩
      · obtain ⟨_, _, _, _, posts⟩ := osMsgPost_of_room queues inside ready.holds
          (by omega) msg delay period
        exact ⟨_, posts⟩
  · unfold osMsgPost
    rw [if_neg queues]
    exact returns_ok _

theorem returns_osMsgReceive
    (fits : k.Fit cfg)
    (pMsg : Msg β) (queue : Nat) :
    Returns (k.osMsgReceive cfg pMsg queue) := by
  by_cases queues : 0 < cfg.nQueues
  · by_cases undefined : k.queues.nQueues ≤ queue
    · unfold osMsgReceive
      rw [if_pos queues, if_pos undefined]
      exact returns_ok _
    · have inside := Nat.not_le.mp undefined
      have ready := fits.sound.queues.ready ⟨queues, inside⟩
        (fits.rings.two queue ⟨queues, inside⟩)
      cases found : OSQueue.firstReady (k.contents queue) with
      | none =>
          exact ⟨_, osMsgReceive_of_none queues inside ready.holds found pMsg⟩
      | some split =>
          obtain ⟨skipped, msg, later⟩ := split
          obtain ⟨_, _, _, _, receives⟩ :=
            osMsgReceive_of_some queues inside ready.holds found pMsg
          exact ⟨_, receives⟩
  · unfold osMsgReceive
    rw [if_neg queues]
    exact returns_ok _

theorem returns_signalChange
    (fit : cfg.EventsFit)
    {done : Bool} {event : Nat}
    (known : done = true → cfg.KnowsEvent event)
    (k : Kernel β) :
    Returns (k.signalChange cfg done event) := by
  unfold signalChange
  rw [returns_skip_iff]
  exact fun isDone =>
    (returns_signal_iff fit k event osGetRunningTid).mpr (known isDone)

/-- The event is the change event of the queue, if there is such a queue. -/
def ChangeOf (cfg : Config) (k : Kernel β) (queue event : Nat) : Prop :=
  k.HasQueue cfg queue → (k.queues.msgQList queue).change = event

theorem Fit.knowsChange
    (fits : k.Fit cfg)
    {queue event : Nat}
    (change : k.ChangeOf cfg queue event)
    (exists_ : k.HasQueue cfg queue) :
    cfg.KnowsEvent event :=
  fun _ => change exists_ ▸ fits.sound.queues.known queue exists_

/-- The change event that a message macro looks up. -/
theorem changeOf_osMsgQEventGet (cfg : Config) (k : Kernel β) (queue : Nat) :
    k.ChangeOf cfg queue (k.queues.osMsgQEventGet cfg queue) := by
  rintro ⟨queues, inside⟩
  rw [QueueTable.osMsgQEventGet, if_pos queues, if_neg (Nat.not_le.mpr inside)]

theorem returns_msgPostTurn
    (fit : cfg.EventsFit)
    (fits : k.Fit cfg)
    (created : k.runningTid < k.tasks.nTasks)
    {taskId event : Nat}
    (change : k.ChangeOf cfg (k.queues.osMsgQFind cfg taskId) event)
    (msg : Msg β) (delay period : Nat) (async : Bool) (line : Nat) :
    Returns (k.msgPostTurn cfg taskId msg delay period async event line) := by
  unfold msgPostTurn
  refine (returns_osMsgPost fits msg _ delay period).bind ?_
  rintro ⟨result, armed, k'⟩ posts
  dsimp only
  split_ifs with blocks
  · rw [returns_bind_ok_iff]
    rcases osMsgPost_cases posts with ⟨_, rfl⟩ | ⟨posted, _⟩
    · exact returns_blockOnChange fit fits.events created result event line
    · rw [posted] at blocks
      cases blocks.1
  · rw [returns_bind_ok_iff]
    apply returns_signalChange fit
    intro done
    rcases osMsgPost_cases posts with ⟨notPosted, _⟩ | ⟨_, queues, inside, _⟩
    · exact absurd (of_decide_eq_true done) notPosted
    · exact fits.knowsChange change ⟨queues, inside⟩

theorem returns_msgReceiveTurn
    (fit : cfg.EventsFit)
    (fits : k.Fit cfg)
    (created : k.runningTid < k.tasks.nTasks)
    {taskId event : Nat}
    (change : k.ChangeOf cfg (k.queues.osMsgQFind cfg taskId) event)
    (pMsg : Msg β) (async : Bool) (line : Nat) :
    Returns (k.msgReceiveTurn cfg taskId pMsg async event line) := by
  unfold msgReceiveTurn
  refine (returns_osMsgReceive fits pMsg _).bind ?_
  rintro ⟨result, buffer, k'⟩ receives
  dsimp only
  split_ifs with blocks
  · rw [returns_bind_ok_iff]
    rcases osMsgReceive_cases receives with ⟨_, _, rfl⟩ | ⟨received, _⟩
    · exact returns_blockOnChange fit fits.events created result event line
    · rw [received] at blocks
      cases blocks.1
  all_goals
    rw [returns_bind_ok_iff]
    apply returns_signalChange fit
    intro done
    rcases osMsgReceive_cases receives with
      ⟨notReceived, _⟩ | ⟨_, queues, inside, _⟩
    · exact absurd (of_decide_eq_true done) notReceived
    · exact fits.knowsChange change ⟨queues, inside⟩

/-- Noting the queue in the task control block changes nothing that is asked
for. -/
theorem Fit.setWaitQueue (fits : k.Fit cfg) (taskId : Nat) :
    (k.setWaitQueue cfg taskId).Fit cfg where
  sound := fits.sound.of_micro (k.setWaitQueue_micro cfg taskId)
  rings := ⟨fits.rings.two, fits.rings.fit⟩
  events := fits.events

end Kernel

/-! ## Scheduling -/

namespace TaskTable

/-- Over a table without tasks the loop of `next_ready_task` never meets the
number of tasks: it ends at a stale entry, or outside the array. -/
theorem nextReadyTaskLoop_of_noTask
    {cfg : Config} {tasks : TaskTable} {fuel index : Nat} {found : Option Nat}
    (noTask : tasks.nTasks = 0)
    (returns : tasks.nextReadyTaskLoop cfg fuel index index = .ok found) :
    ∃ tid, found = some tid ∧ tid < cfg.nTasks := by
  induction fuel generalizing index with
  | zero => cases returns
  | succ fuel inductionHypothesis =>
      have small := cfg.nTasks_lt
      unfold nextReadyTaskLoop at returns
      obtain ⟨inside, returns⟩ := guard_eq_ok_iff.mp returns
      have counter : (index + 1) % 256 = index + 1 := Nat.mod_eq_of_lt (by omega)
      have notMet : index + 1 ≠ tasks.nTasks := by omega
      dsimp only at returns
      by_cases ready : (tasks.taskList index).state = .ready
      · rw [if_pos ready] at returns
        exact ⟨index, (Except.ok.inj returns).symm, inside⟩
      · rw [if_neg ready, if_neg notMet, counter, if_pos notMet] at returns
        exact inductionHypothesis returns

end TaskTable

namespace Kernel

variable {cfg : Config} {k k' : Kernel β}

/-- The task the scheduler chooses over a table with a task in it is one of
them. -/
theorem selectTask_inside
    (sound : k.Sound cfg)
    (some : cfg.roundRobin = true → 0 < k.tasks.nTasks) :
    ∃ k', k.selectTask cfg = .ok k' ∧
      (k'.runningTid ≠ noTid → k'.runningTid < k'.tasks.nTasks) := by
  unfold selectTask
  by_cases roundRobin : cfg.roundRobin = true
  · obtain ⟨tid, tasks, returns, _, first⟩ :=
      TaskTable.nextReadyTask_exact sound.tasks (some roundRobin)
    rw [if_pos roundRobin, returns]
    refine ⟨_, rfl, fun runs => ?_⟩
    have inOrder := List.mem_of_find?_eq_some (first runs)
    rw [TaskTable.ringOrder_eq sound.tasks] at inOrder
    have created := TaskTable.ringFrom_lt _ (some roundRobin) _ _ tid inOrder
    exact created.trans_le (TaskTable.nextReadyTask_frame returns).1.ge
  · rw [if_neg roundRobin]
    refine ⟨_, rfl, fun runs => ?_⟩
    rcases k.tasks.highestPrioReadyTask_cases with ⟨none, _⟩ | ⟨ready, _⟩
    · exact absurd none runs
    · exact ready.1

/-- A choice by round robin over a table without tasks is none of them. -/
theorem selectTask_of_noTask
    (roundRobin : cfg.roundRobin = true)
    (noTask : k.tasks.nTasks = 0)
    (selects : k.selectTask cfg = .ok k') :
    k'.runningTid ≠ noTid := by
  have small := cfg.nTasks_lt
  unfold selectTask at selects
  rw [if_pos roundRobin] at selects
  obtain ⟨⟨tid, tasks⟩, returns, result⟩ := bind_eq_ok_iff.mp selects
  rw [← Except.ok.inj result]
  have start : k.tasks.scanStart = 0 := by
    unfold TaskTable.scanStart
    split_ifs <;> omega
  unfold TaskTable.nextReadyTask at returns
  change (k.tasks.nextReadyTaskLoop cfg 256 k.tasks.scanStart 0 >>= _) = _
    at returns
  rw [start] at returns
  obtain ⟨found, loop, ends⟩ := bind_eq_ok_iff.mp returns
  obtain ⟨index, rfl, inside⟩ := TaskTable.nextReadyTaskLoop_of_noTask noTask loop
  simp only [Except.ok.injEq, Prod.mk.injEq, Option.getD_some] at ends
  rw [← ends.1]
  unfold noTid
  dsimp only
  omega

end Kernel

/-! ## Steps -/

/-- The state is sound and fits the configuration. -/
structure Sys.Fit (cfg : Config) (s : Sys β) : Prop where
  reachable : ReachableSys cfg s
  kernel : s.kernel.Fit cfg

section

variable {cfg : Config} {s : Sys β}

/-- The task that runs is in the task table. -/
theorem Sys.Fit.created
    (fits : s.Fit cfg)
    (runs : s.kernel.runningTid ≠ noTid) :
    s.kernel.runningTid < s.kernel.tasks.nTasks :=
  ((reachable_tasksSound fits.reachable).runs runs).1

theorem returns_taskStep_iff
    (fit : cfg.EventsFit)
    (fits : s.Fit cfg)
    (runs : s.kernel.runningTid ≠ noTid)
    (op : TaskOp β) (line : Nat) :
    Returns (taskStep cfg s line op) ↔ op.Proper cfg s.kernel := by
  have created := fits.created runs
  have running : s.kernel.osGetRunningTid < s.kernel.tasks.nTasks := created
  cases op with
  | taskWaitId id ticks =>
      refine returns_map_iff.trans ?_
      unfold Kernel.osWaitTicks Kernel.onTasks TaskTable.osTaskWaitTimeSet
      rw [returns_bind_ok_iff, returns_map_iff, returns_guard_iff,
        returns_guard_iff]
      exact ⟨fun both => both.2.1, fun some => ⟨running, some, returns_ok _⟩⟩
  | taskSuspend id =>
      refine returns_map_iff.trans ?_
      unfold Kernel.osSuspendTask Kernel.onTasks
      rw [returns_bind_ok_iff, returns_map_iff]
      exact s.kernel.tasks.returns_osTaskSuspend_iff id.toNat
  | taskResume id =>
      refine returns_map_iff.trans ?_
      unfold Kernel.osResumeTask Kernel.onTasks
      rw [returns_bind_ok_iff, returns_map_iff]
      exact s.kernel.tasks.returns_osTaskResume_iff id.toNat
  | eventWaitTimeout event timeout =>
      refine returns_map_iff.trans (iff_of_true ?_ trivial)
      exact Kernel.returns_osWaitSingleEvent fit fits.kernel.events created _ _ _
  | eventWaitMultiple waitAll args =>
      refine returns_map_iff.trans ?_
      unfold Kernel.osWaitMultipleEvents
      rw [returns_bind_ok_iff]
      apply Kernel.returns_osWaitMultiple_iff waitAll created
      intro event inside
      obtain ⟨byte, _, rfl⟩ := List.mem_map.mp inside
      exact Nat.mod_eq_of_lt byte.toNat_lt
  | eventSignal event =>
      refine returns_map_iff.trans (Iff.trans ?_ (Kernel.returns_signal_iff fit
        s.kernel event.toNat Kernel.osGetRunningTid))
      unfold Kernel.osSignalEventMacro
      rw [returns_bind_iff, returns_bind_iff]
      simp only [returns_bind_ok_iff]
  | semWait sem =>
      refine returns_guard_iff.trans ?_
      rw [returns_map_iff]
      refine ⟨And.left, fun inside => ⟨inside, ?_⟩⟩
      unfold Kernel.osWaitSem Kernel.onTasks TaskTable.taskWaitSemSet
      rw [if_pos running]
      split_ifs
      · exact returns_ok _
      · exact returns_ok _
  | semSignal sem =>
      exact returns_guard_iff.trans ⟨And.left, fun inside => ⟨inside, returns_ok _⟩⟩
  | msgPost taskId msg delay period async =>
      refine returns_map_iff.trans (iff_of_true ?_ trivial)
      exact Kernel.returns_msgPostTurn fit (fits.kernel.setWaitQueue _) created
        (Kernel.changeOf_osMsgQEventGet cfg _ _) msg _ _ async line
  | msgReceive taskId pMsg async =>
      refine returns_map_iff.trans (iff_of_true ?_ trivial)
      exact Kernel.returns_msgReceiveTurn fit (fits.kernel.setWaitQueue _) created
        (Kernel.changeOf_osMsgQEventGet cfg _ _) pMsg async line
  | taskClose =>
      refine returns_map_iff.trans (iff_of_true ?_ trivial)
      unfold Kernel.osEnd Kernel.onTasks
      rw [returns_bind_ok_iff, returns_map_iff]
      exact (s.kernel.tasks.returns_osTaskKill_iff _).mpr running

/-- The task that was chosen goes on. -/
theorem returns_resumeStep
    (fit : cfg.EventsFit)
    (fits : s.kernel.Fit cfg)
    (created : s.kernel.runningTid < s.kernel.tasks.nTasks)
    (inMacro : ∀ taskId result,
      (s.frame s.kernel.runningTid).waits = some (taskId, result) →
        s.kernel.InMacro cfg s.kernel.runningTid taskId result) :
    Returns (resumeStep cfg s) := by
  unfold resumeStep Kernel.osGetRunningTid
  dsimp only
  split_ifs with atTop
  · exact returns_ok _
  · cases here : s.frame s.kernel.runningTid with
    | between => exact returns_ok _
    | post taskId msg delay period =>
        have inside := inMacro taskId .full (by rw [here]; rfl)
        refine returns_map_iff.mpr ?_
        unfold Kernel.osMsgQPostResume Kernel.osGetRunningTid
        dsimp only
        rw [if_pos inside.noted]
        exact Kernel.returns_msgPostTurn fit fits created
          (fun _ => inside.finds.change) msg delay period false _
    | receive taskId pMsg =>
        have inside := inMacro taskId .empty (by rw [here]; rfl)
        refine returns_map_iff.mpr ?_
        unfold Kernel.osMsgQReceiveResume Kernel.osGetRunningTid
        dsimp only
        rw [if_pos inside.noted]
        exact Kernel.returns_msgReceiveTurn fit fits created
          (fun _ => inside.finds.change) pMsg false _

theorem returns_scheduleStep_iff
    (fit : cfg.EventsFit)
    (fits : s.Fit cfg)
    (idle : s.kernel.runningTid = noTid) :
    Returns (scheduleStep cfg s) ↔
      (cfg.roundRobin = true → 0 < s.kernel.tasks.nTasks) := by
  have sound := fits.kernel.sound
  unfold scheduleStep
  constructor
  · intro returns roundRobin
    by_contra none
    have noTask : s.kernel.tasks.nTasks = 0 := by omega
    obtain ⟨k, selects, rest⟩ := returns_bind_iff.mp returns
    have runs := Kernel.selectTask_of_noTask roundRobin noTask selects
    dsimp only at rest
    rw [if_pos runs, (Kernel.selectTask_frame selects).1, noTask] at rest
    exact Nat.not_lt_zero _ (returns_guard_iff.mp rest).1
  · intro some
    obtain ⟨k, selects, inside⟩ := Kernel.selectTask_inside sound some
    refine returns_bind_iff.mpr ⟨k, selects, ?_⟩
    dsimp only
    refine returns_skip_iff.mpr fun runs => ?_
    have created := inside runs
    rw [if_pos created]
    have acts : Micro cfg s.kernel (.select k.runningTid) k :=
      .select idle selects inside
    apply returns_resumeStep fit ?_ created
    · intro taskId result waits
      exact (reachable_framesSound fits.reachable k.runningTid taskId result
        waits).of_micro sound.queues acts (by simp)
    · refine ⟨sound.of_micro acts,
        fits.kernel.rings.of_micro sound.queues acts trivial, ?_⟩
      rw [(Kernel.selectTask_frame selects).2.2.2.1]
      exact fits.kernel.events

/-- A step from a state that fits returns exactly when it is proper. -/
theorem returns_step_iff
    (fit : cfg.EventsFit)
    (fits : s.Fit cfg)
    (label : Label β) :
    Returns (step cfg s label) ↔ Proper cfg s label := by
  cases label with
  | create creation =>
      exact returns_map_iff.trans (returns_creationStep_iff cfg s.kernel creation)
  | osStart => exact iff_of_true (returns_ok _) trivial
  | osSchedule =>
      exact returns_guard_iff.trans
        (and_congr_right fun idle => returns_scheduleStep_iff fit fits idle)
  | call call =>
      exact returns_map_iff.trans
        (returns_callStep_iff fit fits.kernel.sound fits.kernel.rings call)
  | task op line =>
      exact returns_guard_iff.trans
        (and_congr_right fun runs => returns_taskStep_iff fit fits runs op _)

/-! ## Runs -/

/-- The step creates no queue of a single slot, whose ring would be full and
empty at once. -/
def Label.TwoSlots : Label β → Prop
  | .create (.osTaskCreate _ _ _ _ poolSize _) => poolSize ≠ 1
  | _ => True

/-- A new queue is a ring when its pool has more than one slot. -/
theorem two_of_creationStep
    {k k' : Kernel β} {creation : Creation β}
    (creates : creationStep cfg k creation = .ok k')
    (two : (Label.create creation).TwoSlots)
    (rings : ∀ queue, k.HasQueue cfg queue →
      2 ≤ (k.queues.msgQList queue).q.size)
    {queue : Nat} (exists_ : k'.HasQueue cfg queue) :
    2 ≤ (k'.queues.msgQList queue).q.size := by
  have same : k'.queues = k.queues → 2 ≤ (k'.queues.msgQList queue).q.size := by
    intro same
    rw [same]
    exact rings queue ⟨exists_.1, same ▸ exists_.2⟩
  cases creation with
  | osTaskCreate taskproc data prio msgPool poolSize msgSize =>
      obtain ⟨⟨tid, made⟩, returns, rfl⟩ := map_eq_ok_iff.mp creates
      obtain ⟨_, _, _, _, msgQ, kq, source, rfl⟩ :=
        Kernel.osTaskCreate_cases returns
      rcases source with ⟨_, _, rfl⟩ | ⟨some, queueCreates⟩
      · exact same rfl
      · rcases Kernel.osMsgQCreate_cases queueCreates with
          ⟨_, _, rfl⟩ | ⟨_, _, change, events, _, _, rfl⟩
        · exact same rfl
        · have notOne : poolSize.toNat ≠ 1 := fun one =>
            two (UInt8.toNat_inj.mp one)
          by_cases last : queue = k.queues.nQueues
          · dsimp only
            rw [last, Function.update_self]
            dsimp only
            omega
          · dsimp only
            rw [Function.update_of_ne last]
            have inside : queue < k.queues.nQueues + 1 := exists_.2
            exact rings queue ⟨exists_.1, by omega⟩
  | eventCreate | semBinCreate initial | semCountingCreate max initial =>
      obtain ⟨made, _, rfl⟩ := map_eq_ok_iff.mp creates
      exact same rfl

theorem Sys.Fit.of_two
    (fit : cfg.EventsFit)
    (reachable : ReachableSys cfg s)
    (two : ∀ queue, s.kernel.HasQueue cfg queue →
      2 ≤ (s.kernel.queues.msgQList queue).q.size) :
    s.Fit cfg where
  reachable := reachable
  kernel :=
    { sound := reachable_sound reachable
      rings := ⟨two, fun queue exists_ =>
        fit.inside ((reachable_sound reachable).queues.known queue exists_)⟩
      events := fun some => reachable_nEvents_le some reachable }

theorem step_fit
    {s' : Sys β} {label : Label β}
    (fit : cfg.EventsFit)
    (fits : s.Fit cfg)
    (two : label.TwoSlots)
    (steps : step cfg s label = .ok s') :
    s'.Fit cfg := by
  have reachable' := fits.reachable.step steps
  by_cases creation : ∃ creation, label = .create creation
  · obtain ⟨creation, rfl⟩ := creation
    obtain ⟨k, creates, rfl⟩ := map_eq_ok_iff.mp steps
    exact .of_two fit reachable' fun queue exists_ =>
      two_of_creationStep creates two fits.kernel.rings.two exists_
  · obtain ⟨acts, shape, trace⟩ := step_trace fits.kernel.sound steps
    have quiet := shape.quiet fun other same => creation ⟨other, same⟩
    have kept := trace.invariant Act.Quiet
      (fun later => later.Sound cfg ∧ later.RingsFit cfg)
      (fun _ _ _ allowed both acts => ⟨both.1.of_micro acts,
        both.2.of_micro both.1.queues acts allowed⟩)
      quiet ⟨fits.kernel.sound, fits.kernel.rings⟩
    exact .of_two fit reachable' kept.2.two

/-- Without message pools of a single slot, and with a bit for every event, a run
of the kernel fails no assertion, leaves no array and ends every loop exactly
when each of its steps is proper in the state it is taken in. -/
theorem runs_exactly_when_proper
    {labels : List (Label β)}
    (fit : cfg.EventsFit)
    (initial : Initial cfg s)
    (two : ∀ label ∈ labels, label.TwoSlots) :
    (∃ s', run (step cfg) s labels = .ok s') ↔
      Meets (step cfg) (Proper cfg) s labels := by
  refine returns_run_iff (fun s => s.Fit cfg) ?_ ?_ ?_ two
  · exact fun s label fits _ => returns_step_iff fit fits label
  · exact fun s label s' fits two steps => step_fit fit fits two steps
  · refine .of_two fit (.of_initial initial) fun queue exists_ => ?_
    obtain ⟨⟨k, fresh⟩, _⟩ := initial
    have none := exists_.2
    rw [fresh] at none
    simp [Kernel.osInit, QueueTable.osMsgQInit, exists_.1] at none

end

/-- A task posts a message, a tick makes it deliverable and another receives it:
every step is proper.  A sleep of no ticks is not. -/
theorem runs_exactly_when_proper_setUp :
    Meets (step (Config.small false)) (Proper (Config.small false))
      (Sys.boot (Config.small false) : Sys Nat)
      (setUp 1 2 3 ++ [.osSchedule, .task (.msgPost 0 ⟨1, 0, 0, 7⟩ 1 0 false) 1,
        .task (.taskWaitId 0 5) 2, .call .osTick, .osSchedule,
        .task (.msgReceive 0 ⟨0, 0, 0, 0⟩ false) 3]) ∧
    ¬ Meets (step (Config.small false)) (Proper (Config.small false))
      (Sys.boot (Config.small false) : Sys Nat)
      (setUp 1 2 3 ++ [.osSchedule, .task (.taskWaitId 0 0) 1]) := by
  have fit : (Config.small false).EventsFit := by
    unfold Config.EventsFit
    decide
  have initial : Initial (Config.small false)
      (Sys.boot (Config.small false) : Sys Nat) :=
    ⟨⟨Kernel.zeroed, rfl⟩, rfl⟩
  constructor
  · refine (runs_exactly_when_proper fit initial ?_).mp
      (exists_of_isOk _ (by decide +kernel))
    simp [setUp, Label.TwoSlots]
  · intro meets
    obtain ⟨s, runs⟩ := (runs_exactly_when_proper fit initial
      (by simp [setUp, Label.TwoSlots])).mpr meets
    have stops : (run (step (Config.small false))
        (Sys.boot (Config.small false) : Sys Nat)
        (setUp 1 2 3 ++ [.osSchedule, .task (.taskWaitId 0 0) 1])).isOk =
          false := by decide +kernel
    rw [runs] at stops
    cases stops

end CocoOs
