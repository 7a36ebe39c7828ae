import CocoOs.Actions

/-!
# Payloads are only copied

The kernel never looks at the payload of a message.  Rewriting every payload of
a state, of its history and of the label rewrites the payloads of the state a
step leaves and changes nothing else.  So every run is the image of a run in
which each message carries, beside its payload, the position of the label that
posted it.
-/

namespace CocoOs

open Foundation

variable {β γ : Type}

/-! ## Rewriting payloads -/

/-- The message with another payload. -/
def Msg.map (f : β → γ) (msg : Msg β) : Msg γ where
  signal := msg.signal
  delay := msg.delay
  reload := msg.reload
  payload := f msg.payload

@[simp] theorem Msg.map_delay (f : β → γ) (msg : Msg β) :
    (msg.map f).delay = msg.delay := rfl

@[simp] theorem Msg.map_reload (f : β → γ) (msg : Msg β) :
    (msg.map f).reload = msg.reload := rfl

def OSQueue.map (f : β → γ) (q : OSQueue β) : OSQueue γ where
  list := fun index => (q.list index).map f
  messageSize := q.messageSize
  head := q.head
  tail := q.tail
  size := q.size

def OSMsgQ.map (f : β → γ) (queue : OSMsgQ β) : OSMsgQ γ where
  q := queue.q.map f
  taskId := queue.taskId
  change := queue.change

def QueueTable.map (f : β → γ) (queues : QueueTable β) : QueueTable γ where
  msgQList := fun queue => (queues.msgQList queue).map f
  nQueues := queues.nQueues

def Entry.map (f : β → γ) : Entry β → Entry γ
  | .signalled event => .signalled event
  | .posted queue msg => .posted queue (msg.map f)
  | .received queue msg => .received queue (msg.map f)
  | .ticked => .ticked

/-- The kernel with other payloads. -/
def Kernel.map (f : β → γ) (k : Kernel β) : Kernel γ where
  tasks := k.tasks
  events := k.events
  sems := k.sems
  queues := k.queues.map f
  running := k.running
  runningTid := k.runningTid
  history := k.history.map (Entry.map f)

@[simp] theorem Kernel.map_tasks (f : β → γ) (k : Kernel β) :
    (k.map f).tasks = k.tasks := rfl

@[simp] theorem Kernel.map_queues (f : β → γ) (k : Kernel β) :
    (k.map f).queues = k.queues.map f := rfl

@[simp] theorem Kernel.map_running (f : β → γ) (k : Kernel β) :
    (k.map f).running = k.running := rfl

def Frame.map (f : β → γ) : Frame β → Frame γ
  | .between => .between
  | .post taskId msg delay period => .post taskId (msg.map f) delay period
  | .receive taskId pMsg => .receive taskId (pMsg.map f)

/-- The system with other payloads. -/
def Sys.map (f : β → γ) (s : Sys β) : Sys γ where
  kernel := s.kernel.map f
  frame := fun tid => (s.frame tid).map f

def TaskOp.map (f : β → γ) : TaskOp β → TaskOp γ
  | .taskWaitId id ticks => .taskWaitId id ticks
  | .taskSuspend id => .taskSuspend id
  | .taskResume id => .taskResume id
  | .eventWaitTimeout event timeout => .eventWaitTimeout event timeout
  | .eventWaitMultiple waitAll args => .eventWaitMultiple waitAll args
  | .eventSignal event => .eventSignal event
  | .semWait sem => .semWait sem
  | .semSignal sem => .semSignal sem
  | .msgPost taskId msg delay period async =>
      .msgPost taskId (msg.map f) delay period async
  | .msgReceive taskId pMsg async => .msgReceive taskId (pMsg.map f) async
  | .taskClose => .taskClose

def Creation.map (f : β → γ) : Creation β → Creation γ
  | .osTaskCreate taskproc data prio msgPool poolSize msgSize =>
      .osTaskCreate taskproc data prio (fun index => (msgPool index).map f)
        poolSize msgSize
  | .eventCreate => .eventCreate
  | .semBinCreate initial => .semBinCreate initial
  | .semCountingCreate max initial => .semCountingCreate max initial

/-- The label with other payloads. -/
def Label.map (f : β → γ) : Label β → Label γ
  | .create creation => .create (creation.map f)
  | .osStart => .osStart
  | .osSchedule => .osSchedule
  | .call request => .call request
  | .task op line => .task (op.map f) line

/-! ## One queue -/

section Rewriting

variable (f : β → γ)

namespace OSQueue

theorem write_map (q : OSQueue β) (index : Nat) (msg : Msg β) :
    (q.map f).write index (msg.map f) =
      (q.write index msg).map (OSQueue.map f) := by
  have slots : Function.update (fun i => (q.list i).map f) index (msg.map f) =
      fun i => (Function.update q.list index msg i).map f := by
    funext i
    by_cases same : i = index
    · subst same
      simp
    · simp [same]
  unfold write OSQueue.map
  rw [slots]
  split <;> rfl

theorem queuePush_map (q : OSQueue β) (msg : Msg β) :
    (q.map f).queuePush (msg.map f) =
      (q.queuePush msg).map (Prod.map id (OSQueue.map f)) := by
  have written := q.write_map f q.head msg
  unfold queuePush
  by_cases empty : q.size = 0
  · simp [OSQueue.map, empty]
  · by_cases full : q.head = q.tail
    · simp [OSQueue.map, empty, full]
    · rw [if_neg (show ¬ (q.map f).size = 0 from empty),
        if_neg (show ¬ (q.map f).head = (q.map f).tail from full), if_neg empty,
        if_neg full, bind_mapped]
      exact written ▸ mapped_bind _ _ _

theorem allDelayedLoop_map (q : OSQueue β) (fuel nextMessage : Nat) :
    (q.map f).allDelayedLoop fuel nextMessage =
      q.allDelayedLoop fuel nextMessage := by
  induction fuel generalizing nextMessage with
  | zero => rfl
  | succ fuel inductionHypothesis =>
      unfold allDelayedLoop
      dsimp only
      rw [inductionHypothesis]
      rfl

/-- The delivery with other payloads. -/
def Delivery.map (f : β → γ) (delivery : Delivery β) : Delivery γ where
  slot := delivery.slot.map f
  msg := delivery.msg.map f
  tail := delivery.tail
  q := delivery.q.map f

theorem receiveLoop_map (fuel tail : Nat) (q : OSQueue β) :
    receiveLoop fuel tail (q.map f) =
      (receiveLoop fuel tail q).map (Delivery.map f) := by
  induction fuel generalizing tail q with
  | zero => rfl
  | succ fuel inductionHypothesis =>
      have slot : (q.map f).list ((tail + 1) % (q.map f).size) =
          (q.list ((tail + 1) % q.size)).map f := rfl
      unfold receiveLoop
      dsimp only
      rw [slot]
      generalize q.list ((tail + 1) % q.size) = slot
      by_cases ready : slot.delay = 0
      · by_cases periodic : 0 < slot.reload
        · have rearmed : (q.map f).write (q.map f).head
                { slot.map f with delay := slot.reload, reload := slot.reload } =
              (q.write q.head
                { slot with delay := slot.reload, reload := slot.reload }).map
                  (OSQueue.map f) :=
            q.write_map f q.head { slot with delay := slot.reload }
          simp only [Msg.map_delay, Msg.map_reload, ready, periodic,
            not_true_eq_false, and_self, or_true, if_true]
          rw [rearmed, mapped_bind, bind_mapped]
          rfl
        · simp only [Msg.map_delay, Msg.map_reload, ready, periodic,
            not_true_eq_false, and_false, false_and, or_self, if_true, if_false]
          rfl
      · have rotated : (q.map f).write (q.map f).head (slot.map f) =
            (q.write q.head slot).map (OSQueue.map f) :=
          q.write_map f q.head slot
        simp only [Msg.map_delay, Msg.map_reload, ready, not_false_eq_true,
          true_or, false_and, if_true, if_false]
        rw [rotated, mapped_bind, bind_mapped]
        congr 1
        funext written
        exact inductionHypothesis ((tail + 1) % q.size)
          { written with head := (written.head + 1) % written.size }

end OSQueue

/-! ## The queue table -/

namespace QueueTable

theorem setQueue_map (queues : QueueTable β) (queue : Nat) (q : OSQueue β) :
    (queues.map f).setQueue queue (q.map f) =
      (queues.setQueue queue q).map f := by
  unfold setQueue QueueTable.map
  congr 1
  funext other
  by_cases same : other = queue
  · subst same
    simp [OSMsgQ.map]
  · simp [same]

/-- An initialised queue. -/
def initialised (entry : OSMsgQ β) : OSMsgQ β where
  q := { entry.q with head := 0, tail := 0, size := 0, messageSize := 0 }
  taskId := 0
  change := 0

theorem osMsgQInit_map (cfg : Config) (queues : QueueTable β) :
    (queues.map f).osMsgQInit cfg = (queues.osMsgQInit cfg).map f := by
  unfold osMsgQInit
  split_ifs with some
  · unfold QueueTable.map
    congr 1
    funext queue
    refine (forEach_update_apply cfg.nQueues (fun _ => initialised)
      (fun queue => (queues.msgQList queue).map f) queue).trans ?_
    refine Eq.trans ?_ (congrArg (OSMsgQ.map f) (forEach_update_apply
      cfg.nQueues (fun _ => initialised) queues.msgQList queue).symm)
    split_ifs <;> rfl
  · rfl

theorem osMsgQFindFrom_map
    (queues : QueueTable β) (taskId remaining queue : Nat) :
    (queues.map f).osMsgQFindFrom taskId remaining queue =
      queues.osMsgQFindFrom taskId remaining queue := by
  induction remaining generalizing queue with
  | zero => rfl
  | succ remaining inductionHypothesis =>
      unfold osMsgQFindFrom
      rw [inductionHypothesis]
      rfl

@[simp] theorem osMsgQFind_map
    (cfg : Config) (queues : QueueTable β) (taskId : Nat) :
    (queues.map f).osMsgQFind cfg taskId = queues.osMsgQFind cfg taskId := by
  unfold osMsgQFind
  rw [osMsgQFindFrom_map]
  rfl

end QueueTable

/-! ## Queues of the kernel -/

namespace Kernel

theorem record_map (k : Kernel β) (entry : Entry β) :
    (k.map f).record (entry.map f) = (k.record entry).map f := by
  simp [record, Kernel.map]

theorem setRing_map (k : Kernel β) (queue : Nat) (q : OSQueue β) :
    (k.map f).setRing queue (q.map f) = (k.setRing queue q).map f := by
  unfold setRing Kernel.map
  dsimp only
  rw [k.queues.setQueue_map f queue q]

theorem osMsgQCreate_map
    (cfg : Config) (k : Kernel β)
    (buffer : Nat → Msg β) (nMessages msgSize taskId : Nat) :
    (k.map f).osMsgQCreate cfg (fun index => (buffer index).map f) nMessages
        msgSize taskId =
      (k.osMsgQCreate cfg buffer nMessages msgSize taskId).map
        (Prod.map id (Kernel.map f)) := by
  unfold osMsgQCreate
  by_cases queues : 0 < cfg.nQueues
  · by_cases room : k.queues.nQueues < cfg.nQueues
    · rw [if_pos queues, if_pos queues, if_pos room,
        if_pos (show (k.map f).queues.nQueues < cfg.nQueues from room),
        bind_mapped]
      congr 1
      funext created
      simp only [ok_map, Prod.map, id, Except.ok.injEq, Prod.mk.injEq]
      refine ⟨rfl, ?_⟩
      unfold Kernel.map QueueTable.map
      congr 2
      funext queue
      by_cases same : queue = k.queues.nQueues
      · subst same
        simp [OSMsgQ.map, OSQueue.map]
      · simp [same]
    · simp [queues, room, Kernel.map, QueueTable.map]
  · simp [queues]

theorem osMsgPost_map
    (cfg : Config) (k : Kernel β) (msg : Msg β) (queue delay period : Nat) :
    (k.map f).osMsgPost cfg (msg.map f) queue delay period =
      (k.osMsgPost cfg msg queue delay period).map
        (Prod.map id (Prod.map (Msg.map f) (Kernel.map f))) := by
  unfold osMsgPost
  by_cases queues : 0 < cfg.nQueues
  · by_cases undefined : k.queues.nQueues ≤ queue
    · simp [queues, undefined, Kernel.map, QueueTable.map]
    · rw [if_pos queues, if_pos queues, if_neg undefined,
        if_neg (show ¬ (k.map f).queues.nQueues ≤ queue from undefined),
        bind_mapped]
      have pushes := (k.queues.msgQList queue).q.queuePush_map f
        { msg with delay := delay, reload := period }
      dsimp only
      refine (congrArg (· >>= _) pushes).trans ?_
      rw [mapped_bind]
      congr 1
      funext ⟨result, q⟩
      simp only [Prod.map, id]
      have ring := k.setRing_map f queue q
      unfold setRing at ring
      rw [ring]
      by_cases posted : result = .posted
      · rw [if_pos posted, if_pos posted]
        exact congrArg
          (fun k' => Except.ok (result, (msg.map f).armed delay period, k'))
          ((k.setRing queue q).record_map f
            (.posted queue (msg.armed delay period)))
      · rw [if_neg posted, if_neg posted, ok_map]
        rfl
  · simp [queues]

theorem osMsgReceive_map
    (cfg : Config) (k : Kernel β) (pMsg : Msg β) (queue : Nat) :
    (k.map f).osMsgReceive cfg (pMsg.map f) queue =
      (k.osMsgReceive cfg pMsg queue).map
        (Prod.map id (Prod.map (Msg.map f) (Kernel.map f))) := by
  unfold osMsgReceive
  by_cases queues : 0 < cfg.nQueues
  · by_cases undefined : k.queues.nQueues ≤ queue
    · simp [queues, undefined, Kernel.map, QueueTable.map]
    · rw [if_pos queues, if_pos queues, if_neg undefined,
        if_neg (show ¬ (k.map f).queues.nQueues ≤ queue from undefined)]
      have delayed : ((k.map f).queues.msgQList queue).q.msgQAllDelayed =
          (k.queues.msgQList queue).q.msgQAllDelayed :=
        OSQueue.allDelayedLoop_map f _ _ _
      have loops : OSQueue.receiveLoop ((k.map f).queues.msgQList queue).q.size
            ((k.map f).queues.msgQList queue).q.tail
            ((k.map f).queues.msgQList queue).q =
          (OSQueue.receiveLoop (k.queues.msgQList queue).q.size
            (k.queues.msgQList queue).q.tail
            (k.queues.msgQList queue).q).map (OSQueue.Delivery.map f) :=
        OSQueue.receiveLoop_map f _ _ _
      dsimp only
      rw [delayed, loops]
      by_cases empty : ((k.queues.msgQList queue).q.tail + 1) %
          (k.queues.msgQList queue).q.size = (k.queues.msgQList queue).q.head
      · rw [if_pos empty]
        exact if_pos empty
      · rw [if_neg empty]
        refine (if_neg empty).trans ?_
        rw [bind_mapped]
        congr 1
        funext allDelayed
        cases allDelayed with
        | true => rfl
        | false =>
            simp only [Bool.false_eq_true, if_false]
            rw [mapped_bind, bind_mapped]
            congr 1
            funext delivery
            have ring := k.setRing_map f queue
              { delivery.q with tail := delivery.tail }
            refine (congrArg (fun k' : Kernel γ => Except.ok (MsgResult.received,
              delivery.msg.map f,
              k'.record (.received queue (delivery.slot.map f)))) ring).trans ?_
            exact congrArg
              (fun k' => Except.ok (MsgResult.received, delivery.msg.map f, k'))
              (record_map f _ (.received queue delivery.slot))
  · simp [queues]

/-! ## Events -/

theorem osSignalEvent_map (cfg : Config) (k : Kernel β) (eventId : Nat) :
    (k.map f).osSignalEvent cfg eventId =
      (k.osSignalEvent cfg eventId).map (Kernel.map f) := by
  have signals : (k.map f).signalled cfg eventId =
      (k.signalled cfg eventId).map f := by
    simp [signalled, Kernel.map, Entry.map]
  have fits : (k.map f).SignalFits cfg eventId ↔ k.SignalFits cfg eventId :=
    Iff.rfl
  rw [osSignalEvent_eq, osSignalEvent_eq, signals]
  simp only [fits]
  split_ifs <;> rfl

theorem osEventSetSignalingTid_map
    (cfg : Config) (k : Kernel β) (eventId tid : Nat) :
    (k.map f).osEventSetSignalingTid cfg eventId tid =
      (k.osEventSetSignalingTid cfg eventId tid).map (Kernel.map f) := by
  unfold osEventSetSignalingTid
  split_ifs <;> rfl

theorem eventIsrSignal_map (cfg : Config) (k : Kernel β) (eventId : Nat) :
    (k.map f).eventIsrSignal cfg eventId =
      (k.eventIsrSignal cfg eventId).map (Kernel.map f) := by
  unfold eventIsrSignal
  rw [osSignalEvent_map, mapped_bind, bind_mapped]
  congr 1
  funext signalled
  exact osEventSetSignalingTid_map f cfg signalled eventId isrTid

theorem osWaitEvent_map
    (cfg : Config) (k : Kernel β) (tid eventId : Nat)
    (waitSingleEvent : Bool) (timeout : Nat) :
    (k.map f).osWaitEvent cfg tid eventId waitSingleEvent timeout none =
      (k.osWaitEvent cfg tid eventId waitSingleEvent timeout none).map
        (Kernel.map f) := by
  unfold osWaitEvent
  by_cases known : 0 < cfg.nTotalEvents ∧ eventId < k.events.nEvents
  · rw [if_pos known, bind_mapped]
    exact if_pos known
  · rw [if_neg known]
    exact if_neg known

theorem osWaitMultiple_map
    (cfg : Config) (k : Kernel β) (waitForAll : Bool) (args : List Nat) :
    (k.map f).osWaitMultiple cfg waitForAll args =
      (k.osWaitMultiple cfg waitForAll args).map (Kernel.map f) := by
  unfold osWaitMultiple
  by_cases events : 0 < cfg.nTotalEvents
  · cases args with
    | nil => simp [events]
    | cons first unread =>
        simp only [events, if_true]
        rw [bind_mapped]
        congr 1
        funext event
        by_cases last : event = noEvent
        · rw [if_pos last, if_pos last, bind_mapped]
          rfl
        · simp [last]
  · simp [events]

/-! ## Clocks -/

theorem msgQTickBody_map
    (cfg : Config) (queue nextMessage : Nat) (k : Kernel β) :
    (k.map f).msgQTickBody cfg queue nextMessage =
      (k.msgQTickBody cfg queue nextMessage).map (Kernel.map f) := by
  unfold msgQTickBody
  by_cases waits : 0 < ((k.queues.msgQList queue).q.list nextMessage).delay
  · refine (if_pos waits).trans ?_
    dsimp only
    rw [if_pos waits, bind_mapped]
    have written := (k.queues.msgQList queue).q.write_map f nextMessage
      ((k.queues.msgQList queue).q.list nextMessage).age
    refine (congrArg (· >>= _) written).trans ?_
    rw [mapped_bind]
    congr 1
    funext q
    have ring := k.setRing_map f queue q
    unfold setRing at ring
    rw [ring]
    by_cases expires :
        ((k.queues.msgQList queue).q.list nextMessage).delay - 1 = 0
    · rw [if_pos expires]
      refine (if_pos expires).trans ?_
      rw [QueueTable.setQueue_change, QueueTable.setQueue_change]
      exact eventIsrSignal_map f cfg (k.setRing queue q) _
    · rw [if_neg expires]
      exact if_neg expires
  · refine (if_neg waits).trans ?_
    dsimp only
    rw [if_neg waits]
    rfl

theorem msgQTickLoop_map
    (cfg : Config) (queue head fuel nextMessage : Nat) (k : Kernel β) :
    (k.map f).msgQTickLoop cfg queue head fuel nextMessage =
      (k.msgQTickLoop cfg queue head fuel nextMessage).map (Kernel.map f) := by
  induction fuel generalizing nextMessage k with
  | zero =>
      unfold msgQTickLoop
      split_ifs
      · rfl
      · rw [msgQTickBody_map, mapped_bind, bind_mapped]
        rfl
  | succ fuel inductionHypothesis =>
      unfold msgQTickLoop
      split_ifs
      · rfl
      · rw [msgQTickBody_map, mapped_bind, bind_mapped]
        congr 1
        funext ticked
        exact inductionHypothesis _ ticked

theorem osMsgQTick_map (cfg : Config) (k : Kernel β) (queue : Nat) :
    (k.map f).osMsgQTick cfg queue =
      (k.osMsgQTick cfg queue).map (Kernel.map f) := by
  unfold osMsgQTick
  split_ifs
  · exact msgQTickLoop_map f cfg queue _ _ _ k
  · rfl

theorem taskTick_map (cfg : Config) (k : Kernel β) (clockId tickSize : Nat) :
    (k.map f).taskTick cfg clockId tickSize =
      (k.taskTick cfg clockId tickSize).map (Kernel.map f) := by
  refine forRange_map (Kernel.map f) (fun tid ticking => ?_) k.tasks.nTasks k
  unfold taskTickBody
  simp only [map_tasks]
  by_cases master : clockId = 0
  · rw [if_pos master, if_pos master]
    by_cases queue : ((ticking.tasks.modify tid
        (Tcb.tick cfg clockId tickSize)).taskList tid).msgQ ≠ noQueue
    · refine (if_pos queue).trans ?_
      refine Eq.trans ?_ (congrArg (Except.map (map f)) (if_pos queue).symm)
      exact osMsgQTick_map f cfg
        (ticking.modifyTask tid (Tcb.tick cfg clockId tickSize)) _
    · refine (if_neg queue).trans ?_
      refine Eq.trans ?_ (congrArg (Except.map (map f)) (if_neg queue).symm)
      rfl
  · rw [if_neg master, if_neg master]
    rfl

theorem osTick_map (cfg : Config) (k : Kernel β) :
    (k.map f).osTick cfg = (k.osTick cfg).map (Kernel.map f) := by
  unfold osTick
  rw [← taskTick_map, ← record_map]
  rfl

/-! ## Creation and scheduling -/

theorem osInit_map (cfg : Config) (k : Kernel β) :
    osInit cfg (k.map f) = (osInit cfg k).map f := by
  have queues := k.queues.osMsgQInit_map f cfg
  unfold osInit Kernel.map
  simp only [List.map_nil]
  rw [queues]

theorem osTaskCreate_map
    (cfg : Config) (k : Kernel β) (taskproc data prio : Nat)
    (msgPool : Nat → Msg β) (poolSize msgSize : Nat) :
    (k.map f).osTaskCreate cfg taskproc data prio
        (fun index => (msgPool index).map f) poolSize msgSize =
      (k.osTaskCreate cfg taskproc data prio msgPool poolSize msgSize).map
        (Prod.map id (Kernel.map f)) := by
  unfold osTaskCreate
  simp only [map_tasks, map_running]
  by_cases stopped : k.running = false
  · by_cases room : k.tasks.nTasks < cfg.nTasks
    · by_cases proc : taskproc ≠ 0
      · by_cases unused : prioUnused k.tasks prio k.tasks.nTasks = true
        · simp only [if_pos stopped, if_pos room, if_pos proc, if_pos unused]
          refine (if_pos unused).trans ?_
          by_cases pool : 0 < poolSize
          · simp only [if_pos pool]
            rw [bind_mapped]
            refine (congrArg (· >>= _) (osMsgQCreate_map f cfg (k.modifyTask
              k.tasks.nTasks (createdTcb taskproc prio k.tasks.nTasks))
              msgPool poolSize msgSize k.tasks.nTasks)).trans ?_
            rw [mapped_bind]
            rfl
          · simp only [if_neg pool]
            rfl
        · simp [stopped, room, proc, unused]
      · simp [stopped, room, proc]
    · simp [stopped, room]
  · simp [stopped]

theorem selectTask_map (cfg : Config) (k : Kernel β) :
    (k.map f).selectTask cfg = (k.selectTask cfg).map (Kernel.map f) := by
  unfold selectTask
  by_cases turns : cfg.roundRobin = true
  · rw [if_pos turns, if_pos turns, bind_mapped]
    rfl
  · rw [if_neg turns, if_neg turns]
    rfl

/-! ## Macros -/

theorem onTasks_map (k : Kernel β) (tasks : Outcome TaskTable) :
    (k.map f).onTasks tasks = (k.onTasks tasks).map (Kernel.map f) := by
  cases tasks <;> rfl

theorem osWaitSingleEvent_map
    (cfg : Config) (k : Kernel β) (x timeout line : Nat) :
    (k.map f).osWaitSingleEvent cfg x timeout line =
      (k.osWaitSingleEvent cfg x timeout line).map (Kernel.map f) := by
  unfold osWaitSingleEvent
  rw [osWaitEvent_map, mapped_bind, bind_mapped]
  rfl

theorem signalChange_map
    (cfg : Config) (k : Kernel β) (done : Bool) (event : Nat) :
    (k.map f).signalChange cfg done event =
      (k.signalChange cfg done event).map (Kernel.map f) := by
  unfold signalChange
  cases done with
  | false => rfl
  | true =>
      simp only [if_true]
      rw [osSignalEvent_map, mapped_bind, bind_mapped]
      congr 1
      funext signalled
      exact osEventSetSignalingTid_map f cfg signalled event _

theorem msgPostTurn_map
    (cfg : Config) (k : Kernel β) (taskId : Nat) (msg : Msg β)
    (delay period : Nat) (async : Bool) (event line : Nat) :
    (k.map f).msgPostTurn cfg taskId (msg.map f) delay period async event line =
      (k.msgPostTurn cfg taskId msg delay period async event line).map
        (Prod.map id (Kernel.map f)) := by
  unfold msgPostTurn
  refine (congrArg (· >>= _) (osMsgPost_map f cfg k msg _ delay period)).trans ?_
  rw [mapped_bind, bind_mapped]
  congr 1
  · exact congrArg (fun queue => k.osMsgPost cfg msg queue delay period)
      (QueueTable.osMsgQFind_map f cfg k.queues taskId)
  · funext ⟨result, armed, posted⟩
    dsimp only [Prod.map, id]
    by_cases blocks : result = .full ∧ async = false
    · rw [if_pos blocks, if_pos blocks, bind_mapped]
      refine (congrArg (· >>= _) (osWaitSingleEvent_map f cfg
        (posted.modifyRunning fun task => { task with msgResult := result })
        event 0 line)).trans ?_
      rw [mapped_bind]
      rfl
    · rw [if_neg blocks, if_neg blocks, signalChange_map, mapped_bind,
        bind_mapped]
      rfl

theorem msgReceiveTurn_map
    (cfg : Config) (k : Kernel β) (taskId : Nat) (pMsg : Msg β)
    (async : Bool) (event line : Nat) :
    (k.map f).msgReceiveTurn cfg taskId (pMsg.map f) async event line =
      (k.msgReceiveTurn cfg taskId pMsg async event line).map
        (Prod.map id (Prod.map (Msg.map f) (Kernel.map f))) := by
  unfold msgReceiveTurn
  refine (congrArg (· >>= _) (osMsgReceive_map f cfg k pMsg _)).trans ?_
  rw [mapped_bind, bind_mapped]
  congr 1
  · exact congrArg (fun queue => k.osMsgReceive cfg pMsg queue)
      (QueueTable.osMsgQFind_map f cfg k.queues taskId)
  · funext ⟨result, buffer, received⟩
    dsimp only [Prod.map, id]
    by_cases blocks : result = .empty ∧ async = false
    · rw [if_pos blocks, if_pos blocks, bind_mapped]
      refine (congrArg (· >>= _) (osWaitSingleEvent_map f cfg
        (received.modifyRunning fun task => { task with msgResult := result })
        event 0 line)).trans ?_
      rw [mapped_bind]
      rfl
    · rw [if_neg blocks, if_neg blocks, signalChange_map, mapped_bind,
        bind_mapped]
      by_cases empty : result = .empty
      · simp only [empty, if_true]
        rfl
      · simp only [empty, if_false]
        rfl

theorem osSignalSemNoSchedule_map (cfg : Config) (k : Kernel β) (sem : Int) :
    (k.map f).osSignalSemNoSchedule cfg sem =
      (k.osSignalSemNoSchedule cfg sem).map f := by
  unfold osSignalSemNoSchedule
  by_cases waiting : k.tasks.osTaskWaitingThisSemaphore sem = true
  · rw [if_pos waiting]
    exact if_pos waiting
  · rw [if_neg waiting]
    exact if_neg waiting

theorem osSignalSem_map
    (cfg : Config) (k : Kernel β) (sem : Int) (line : Nat) :
    (k.map f).osSignalSem cfg sem line = (k.osSignalSem cfg sem line).map f := by
  unfold osSignalSem
  by_cases waiting : k.tasks.osTaskWaitingThisSemaphore sem = true
  · rw [if_pos waiting]
    exact if_pos waiting
  · rw [if_neg waiting]
    exact if_neg waiting

theorem osWaitSem_map
    (cfg : Config) (k : Kernel β) (sem : Int) (line : Nat) :
    (k.map f).osWaitSem cfg sem line =
      (k.osWaitSem cfg sem line).map (Kernel.map f) := by
  unfold osWaitSem
  by_cases positive : k.sems.osSemLargerThanZero cfg sem = true
  · rw [if_pos positive]
    exact if_pos positive
  · rw [if_neg positive, bind_mapped]
    refine (if_neg positive).trans ?_
    refine (congrArg (· >>= _) (k.onTasks_map f _)).trans ?_
    rw [mapped_bind]
    rfl

theorem yieldIfSelf_map (k : Kernel β) (id line : Nat) :
    (k.map f).yieldIfSelf id line = (k.yieldIfSelf id line).map f := by
  unfold yieldIfSelf
  by_cases self : id = k.osGetRunningTid
  · rw [if_pos self]
    exact if_pos self
  · rw [if_neg self]
    exact if_neg self

theorem setWaitQueue_map (cfg : Config) (k : Kernel β) (taskId : Nat) :
    (k.map f).setWaitQueue cfg taskId = (k.setWaitQueue cfg taskId).map f := by
  have find := QueueTable.osMsgQFind_map f cfg k.queues taskId
  unfold setWaitQueue
  rw [show (k.map f).queues = k.queues.map f from rfl, find]
  rfl

theorem osMsgQPost_map
    (cfg : Config) (k : Kernel β) (taskId : Nat) (msg : Msg β)
    (delay period : Nat) (async : Bool) (line : Nat) :
    (k.map f).osMsgQPost cfg taskId (msg.map f) delay period async line =
      (k.osMsgQPost cfg taskId msg delay period async line).map
        (Prod.map id (Kernel.map f)) := by
  unfold osMsgQPost
  rw [← msgPostTurn_map, ← setWaitQueue_map]
  simp only [map_queues, QueueTable.osMsgQFind_map]
  rfl

theorem osMsgQPostResume_map
    (cfg : Config) (k : Kernel β) (taskId : Nat) (msg : Msg β)
    (delay period line : Nat) :
    (k.map f).osMsgQPostResume cfg taskId (msg.map f) delay period line =
      (k.osMsgQPostResume cfg taskId msg delay period line).map
        (Prod.map id (Kernel.map f)) := by
  unfold osMsgQPostResume
  by_cases full :
      (k.tasks.taskList k.osGetRunningTid).msgResult = .full
  · rw [if_pos full]
    refine (if_pos full).trans ?_
    exact msgPostTurn_map f cfg k taskId msg delay period false _ line
  · rw [if_neg full]
    refine (if_neg full).trans ?_
    rw [signalChange_map, mapped_bind, bind_mapped]
    rfl

theorem osMsgQReceive_map
    (cfg : Config) (k : Kernel β) (taskId : Nat) (pMsg : Msg β)
    (async : Bool) (line : Nat) :
    (k.map f).osMsgQReceive cfg taskId (pMsg.map f) async line =
      (k.osMsgQReceive cfg taskId pMsg async line).map
        (Prod.map id (Prod.map (Msg.map f) (Kernel.map f))) := by
  unfold osMsgQReceive
  rw [← msgReceiveTurn_map, ← setWaitQueue_map]
  simp only [map_queues, QueueTable.osMsgQFind_map]
  rfl

theorem osMsgQReceiveResume_map
    (cfg : Config) (k : Kernel β) (taskId : Nat) (pMsg : Msg β) (line : Nat) :
    (k.map f).osMsgQReceiveResume cfg taskId (pMsg.map f) line =
      (k.osMsgQReceiveResume cfg taskId pMsg line).map
        (Prod.map id (Prod.map (Msg.map f) (Kernel.map f))) := by
  unfold osMsgQReceiveResume
  by_cases empty :
      (k.tasks.taskList k.osGetRunningTid).msgResult = .empty
  · rw [if_pos empty]
    refine (if_pos empty).trans ?_
    exact msgReceiveTurn_map f cfg k taskId pMsg false _ line
  · rw [if_neg empty]
    refine (if_neg empty).trans ?_
    rw [signalChange_map, mapped_bind, bind_mapped]
    rfl

end Kernel

/-! ## One step -/

theorem callStep_map (cfg : Config) (k : Kernel β) (call : Call) :
    callStep cfg (k.map f) call = (callStep cfg k call).map (Kernel.map f) := by
  cases call with
  | osTick => exact k.osTick_map f cfg
  | osSubTick id =>
      simp only [callStep, Kernel.osSubTick]
      split_ifs
      · exact k.taskTick_map f cfg id.toNat 1
      · rfl
  | osSubNTick id nTicks =>
      simp only [callStep, Kernel.osSubNTick]
      split_ifs
      · exact k.taskTick_map f cfg id.toNat nTicks.toNat
      · rfl
  | eventIsrSignal event => exact k.eventIsrSignal_map f cfg event.toNat
  | semIsrSignal sem =>
      simp only [callStep, Kernel.osSignalSemNoSchedule_map]
      split_ifs <;> rfl
  | osTaskSuspend tid | osTaskResume tid | osTaskKill tid =>
      exact k.onTasks_map f _

theorem creationStep_map
    (cfg : Config) (k : Kernel β) (creation : Creation β) :
    creationStep cfg (k.map f) (creation.map f) =
      (creationStep cfg k creation).map (Kernel.map f) := by
  cases creation with
  | osTaskCreate taskproc data prio msgPool poolSize msgSize =>
      refine (congrArg (Except.map Prod.snd) (k.osTaskCreate_map f cfg taskproc
        data prio.toNat msgPool poolSize.toNat msgSize.toNat)).trans ?_
      simp only [creationStep]
      rw [map_mapped, map_mapped]
      rfl
  | eventCreate | semBinCreate initial | semCountingCreate max initial =>
      simp only [Creation.map, creationStep]
      rw [map_mapped]
      rfl

theorem leaveMacro_map
    (s : Sys β) (tid : Nat) (frame : Frame β) (left : Bool × Kernel β) :
    (s.map f).leaveMacro tid (frame.map f) (Prod.map id (Kernel.map f) left) =
      (s.leaveMacro tid frame left).map f := by
  have frames : ∀ frame' : Frame β,
      Function.update (fun other => (s.frame other).map f) tid (frame'.map f) =
        fun other => (Function.update s.frame tid frame' other).map f := by
    intro frame'
    funext other
    by_cases same : other = tid
    · subst same
      simp
    · simp [same]
  obtain ⟨blocked, k⟩ := left
  cases blocked with
  | true => exact congrArg (Sys.mk (k.map f)) (frames frame)
  | false => exact congrArg (Sys.mk (k.map f)) (frames .between)

theorem taskStep_map
    (cfg : Config) (s : Sys β) (line : Nat) (op : TaskOp β) :
    taskStep cfg (s.map f) line (op.map f) =
      (taskStep cfg s line op).map (Sys.map f) := by
  have within : ∀ {computation : Outcome (Kernel β)}
      {computation' : Outcome (Kernel γ)},
      computation' = computation.map (Kernel.map f) →
      (computation'.map fun k => { s.map f with kernel := k }) =
        (computation.map fun k => { s with kernel := k }).map (Sys.map f) := by
    rintro computation _ rfl
    rw [map_mapped, map_mapped]
    rfl
  cases op with
  | taskWaitId id ticks =>
      refine within ?_
      unfold Kernel.osWaitTicks
      rw [bind_mapped]
      refine (congrArg (· >>= _) (s.kernel.onTasks_map f _)).trans ?_
      rw [mapped_bind]
      rfl
  | taskSuspend id | taskResume id =>
      refine within ?_
      first | unfold Kernel.osSuspendTask | unfold Kernel.osResumeTask
      rw [bind_mapped]
      refine (congrArg (· >>= _) (s.kernel.onTasks_map f _)).trans ?_
      rw [mapped_bind]
      congr 1
      funext k
      exact congrArg Except.ok (k.yieldIfSelf_map f id.toNat line)
  | eventWaitTimeout event timeout =>
      exact within (s.kernel.osWaitSingleEvent_map f cfg _ _ line)
  | eventWaitMultiple waitAll args =>
      refine within ?_
      unfold Kernel.osWaitMultipleEvents
      rw [bind_mapped]
      refine (congrArg (· >>= _)
        (s.kernel.osWaitMultiple_map f cfg waitAll _)).trans ?_
      rw [mapped_bind]
      rfl
  | eventSignal event =>
      refine within ?_
      unfold Kernel.osSignalEventMacro
      rw [bind_mapped]
      refine (congrArg (· >>= _)
        (s.kernel.osSignalEvent_map f cfg event.toNat)).trans ?_
      rw [mapped_bind]
      congr 1
      funext signalled
      rw [bind_mapped]
      refine (congrArg (· >>= _)
        (signalled.osEventSetSignalingTid_map f cfg event.toNat _)).trans ?_
      rw [mapped_bind]
      rfl
  | semWait sem =>
      simp only [TaskOp.map, taskStep]
      split_ifs with inside
      · exact within (s.kernel.osWaitSem_map f cfg sem line)
      · rfl
  | semSignal sem =>
      simp only [TaskOp.map, taskStep]
      split_ifs with inside
      · exact congrArg (fun k => Except.ok { s.map f with kernel := k })
          (s.kernel.osSignalSem_map f cfg sem line)
      · rfl
  | msgPost taskId msg delay period async =>
      simp only [TaskOp.map, taskStep]
      refine (congrArg (Except.map _) (s.kernel.osMsgQPost_map f cfg taskId.toNat
        msg delay.toNat period.toNat async line)).trans ?_
      rw [map_mapped, map_mapped]
      congr 1
      funext left
      exact leaveMacro_map f s _
        (.post taskId.toNat msg delay.toNat period.toNat) left
  | msgReceive taskId pMsg async =>
      simp only [TaskOp.map, taskStep]
      refine (congrArg (Except.map _) (s.kernel.osMsgQReceive_map f cfg
        taskId.toNat pMsg async line)).trans ?_
      rw [map_mapped, map_mapped]
      congr 1
      funext left
      obtain ⟨blocked, buffer, k⟩ := left
      exact leaveMacro_map f s _ (.receive taskId.toNat buffer) (blocked, k)
  | taskClose =>
      refine within ?_
      unfold Kernel.osEnd
      rw [bind_mapped]
      refine (congrArg (· >>= _) (s.kernel.onTasks_map f _)).trans ?_
      rw [mapped_bind]
      rfl

theorem resumeStep_map (cfg : Config) (s : Sys β) :
    resumeStep cfg (s.map f) = (resumeStep cfg s).map (Sys.map f) := by
  have running : (s.map f).kernel.osGetRunningTid = s.kernel.osGetRunningTid :=
    rfl
  have tasks : (s.map f).kernel.tasks = s.kernel.tasks := rfl
  unfold resumeStep
  simp only [running, tasks]
  split_ifs with fresh
  · exact congrArg Except.ok
      (leaveMacro_map f s _ .between (false, s.kernel))
  · have here : (s.map f).frame s.kernel.osGetRunningTid =
        (s.frame s.kernel.osGetRunningTid).map f := rfl
    rw [here]
    cases s.frame s.kernel.osGetRunningTid with
    | between => rfl
    | post taskId msg delay period =>
        simp only [Frame.map]
        refine (congrArg (Except.map _) (s.kernel.osMsgQPostResume_map f cfg
          taskId msg delay period _)).trans ?_
        rw [map_mapped, map_mapped]
        congr 1
        funext left
        exact leaveMacro_map f s _ (.post taskId msg delay period) left
    | receive taskId pMsg =>
        simp only [Frame.map]
        refine (congrArg (Except.map _) (s.kernel.osMsgQReceiveResume_map f cfg
          taskId pMsg _)).trans ?_
        rw [map_mapped, map_mapped]
        congr 1
        funext left
        obtain ⟨blocked, buffer, k⟩ := left
        exact leaveMacro_map f s _ (.receive taskId buffer) (blocked, k)

/-- A step does to other payloads what it does to these. -/
theorem step_map (cfg : Config) (s : Sys β) (label : Label β) :
    step cfg (s.map f) (label.map f) = (step cfg s label).map (Sys.map f) := by
  cases label with
  | create creation =>
      simp only [Label.map, step]
      refine (congrArg (Except.map _)
        (creationStep_map f cfg s.kernel creation)).trans ?_
      rw [map_mapped, map_mapped]
      rfl
  | osStart => rfl
  | osSchedule =>
      have idle : (s.map f).kernel.runningTid = s.kernel.runningTid := rfl
      simp only [Label.map, step, idle]
      split_ifs
      · unfold scheduleStep
        rw [bind_mapped]
        refine (congrArg (· >>= _) (s.kernel.selectTask_map f cfg)).trans ?_
        rw [mapped_bind]
        congr 1
        funext k
        by_cases runs : k.runningTid ≠ noTid
        · rw [if_pos runs]
          refine (if_pos runs).trans ?_
          by_cases inside : k.runningTid < k.tasks.nTasks
          · rw [if_pos inside]
            refine (if_pos inside).trans ?_
            exact resumeStep_map f cfg { s with kernel := k }
          · rw [if_neg inside]
            exact if_neg inside
        · rw [if_neg runs]
          exact if_neg runs
      · rfl
  | call request =>
      simp only [Label.map, step]
      refine (congrArg (Except.map _)
        (callStep_map f cfg s.kernel request)).trans ?_
      rw [map_mapped, map_mapped]
      rfl
  | task op line =>
      have runs : (s.map f).kernel.runningTid = s.kernel.runningTid := rfl
      simp only [Label.map, step, runs]
      split_ifs
      · exact taskStep_map f cfg s line.toNat op
      · rfl

theorem initial_map
    {cfg : Config} {s : Sys β}
    (initial : Initial cfg s) :
    Initial cfg (s.map f) := by
  obtain ⟨⟨k, kernel⟩, frame⟩ := initial
  refine ⟨⟨k.map f, ?_⟩, ?_⟩
  · rw [Kernel.osInit_map, ← kernel]
    rfl
  · funext tid
    simp [Sys.map, frame, Frame.map]

end Rewriting

/-! ## Messages with the position of their label -/

/-- The labels of a run, in which every message carries the position of its
label beside its payload. -/
def tagged (labels : List (Label β)) : List (Label (β × Nat)) :=
  labels.zipIdx.map fun (label, position) =>
    label.map fun payload => (payload, position)

theorem Label.map_fst_tag (label : Label β) (tag : Nat) :
    (label.map fun payload => (payload, tag)).map Prod.fst = label := by
  cases label with
  | create creation => cases creation <;> rfl
  | task op line => cases op <;> rfl
  | _ => rfl

/-- Dropping the positions gives the labels back. -/
theorem map_fst_tagged (labels : List (Label β)) :
    (tagged labels).map (Label.map Prod.fst) = labels := by
  unfold tagged
  rw [List.map_map]
  have dropped : ∀ entry : Label β × Nat,
      (Label.map Prod.fst ∘ fun (label, position) =>
        label.map fun payload => (payload, position)) entry = entry.1 :=
    fun entry => entry.1.map_fst_tag entry.2
  rw [funext dropped]
  exact List.zipIdx_map_fst 0 labels

theorem Entry.map_map (f : β → γ) (g : γ → β) (inverse : ∀ x, g (f x) = x)
    (entry : Entry β) : (entry.map f).map g = entry := by
  cases entry with
  | posted queue msg | received queue msg =>
      simp [Entry.map, Msg.map, inverse]
  | _ => rfl

theorem Kernel.map_fst_tag (k : Kernel β) (tag : Nat) :
    (k.map fun payload => (payload, tag)).map Prod.fst = k := by
  have entries : k.history.map
      (Entry.map Prod.fst ∘ Entry.map fun payload => (payload, tag)) =
        k.history := by
    have same : (Entry.map Prod.fst ∘
        Entry.map fun payload : β => (payload, tag)) = id :=
      funext fun entry => entry.map_map _ _ fun _ => rfl
    rw [same, List.map_id]
  unfold Kernel.map
  rw [List.map_map, entries]
  rfl

theorem Sys.map_fst_tag (s : Sys β) (tag : Nat) :
    (s.map fun payload => (payload, tag)).map Prod.fst = s := by
  have frames : (fun tid =>
      ((s.frame tid).map fun payload => (payload, tag)).map Prod.fst) =
        s.frame := by
    funext tid
    cases s.frame tid <;> rfl
  unfold Sys.map
  rw [Kernel.map_fst_tag]
  exact congrArg (Sys.mk s.kernel) frames

/-- Every run is the image of a run of tagged messages. -/
theorem exists_tagged_run
    {cfg : Config} {s₀ s : Sys β} {labels : List (Label β)}
    (initial : Initial cfg s₀)
    (runs : run (step cfg) s₀ labels = .ok s) :
    ∃ t₀ t : Sys (β × Nat), Initial cfg t₀ ∧ t₀.map Prod.fst = s₀ ∧
      run (step cfg) t₀ (tagged labels) = .ok t ∧ t.map Prod.fst = s := by
  have erased := Sys.map_fst_tag s₀ 0
  have image := run_map (Sys.map Prod.fst) (Label.map Prod.fst)
    (step_map (Prod.fst : β × Nat → β) cfg)
    (s₀.map fun payload => (payload, 0)) (tagged labels)
  rw [map_fst_tagged, erased, runs] at image
  obtain ⟨t, taggedRuns, same⟩ := map_eq_ok_iff.mp image.symm
  exact ⟨_, t, initial_map _ initial, erased, taggedRuns, same⟩

end CocoOs
