import CocoOs.QueueOps
import CocoOs.Kernel
import CocoOs.Foundation.Transition

/-!
# The message ring refines a list of messages

Any sequence of `os_msg_post`, `os_msg_receive` and `os_msgQ_tick` on one queue
answers as the same sequence of operations on a list does.  Each call is first
compared with its list operation on its own; the run follows by induction over
the sequence.
-/

namespace CocoOs

open Foundation

variable {β : Type}

/-- A call of one of the functions of a queue. -/
inductive QueueOp (β : Type)
  | osMsgPost (msg : Msg β) (delay period : UInt32)
  | osMsgReceive (msg : Msg β)
  | osMsgQTick

/-- What a caller sees of a call: its result, its message buffer and whether
the change event of the queue was signalled meanwhile. -/
structure Answer (β : Type) where
  result : Option MsgResult
  msg : Option (Msg β)
  signalled : Bool
  deriving DecidableEq

/-! ## The list -/

/-- The operations on a list of messages that a queue of `size` slots stands
for. -/
def listStep (size : Nat) (messages : List (Msg β)) :
    QueueOp β → Answer β × List (Msg β)
  | .osMsgPost msg delay period =>
      let msg := msg.armed delay.toNat period.toNat
      if messages.length = size - 1 then
        (⟨some .full, some msg, false⟩, messages)
      else (⟨some .posted, some msg, false⟩, messages ++ [msg])
  | .osMsgReceive buffer =>
      match OSQueue.firstReady messages with
      | none => (⟨some .empty, some buffer, false⟩, messages)
      | some (skipped, msg, later) =>
          (⟨some .received, some msg.rearmed, false⟩,
            later ++ skipped ++ msg.putBack)
  | .osMsgQTick =>
      (⟨none, none, messages.any fun msg => msg.delay = 1⟩,
        messages.map Msg.age)

/-- One operation on a list, with the answers so far. -/
def listTurn (size : Nat) (s : List (Answer β) × List (Msg β))
    (op : QueueOp β) : List (Answer β) × List (Msg β) :=
  let (answer, messages) := listStep size s.2 op
  (s.1 ++ [answer], messages)

/-! ## The queue -/

/-- The entry records a signal of the event. -/
def Entry.signals (event : Nat) : Entry β → Bool
  | .signalled other => other = event
  | _ => false

/-- The change event of the queue was signalled between two states. -/
def Kernel.changeSignalled (k k' : Kernel β) (queue : Nat) : Bool :=
  (k'.history.drop k.history.length).any
    (Entry.signals (k.queues.msgQList queue).change)

/-- A call on a queue of the kernel. -/
def queueStep (cfg : Config) (queue : Nat) (k : Kernel β) :
    QueueOp β → Outcome (Answer β × Kernel β)
  | .osMsgPost msg delay period =>
      (k.osMsgPost cfg msg queue delay.toNat period.toNat).map
        fun (result, msg, k') =>
          (⟨some result, some msg, k.changeSignalled k' queue⟩, k')
  | .osMsgReceive msg =>
      (k.osMsgReceive cfg msg queue).map fun (result, msg, k') =>
        (⟨some result, some msg, k.changeSignalled k' queue⟩, k')
  | .osMsgQTick =>
      (k.osMsgQTick cfg queue).map fun k' =>
        (⟨none, none, k.changeSignalled k' queue⟩, k')

/-- One call, with the answers so far. -/
def queueTurn (cfg : Config) (queue : Nat)
    (s : List (Answer β) × Kernel β) (op : QueueOp β) :
    Outcome (List (Answer β) × Kernel β) :=
  (queueStep cfg queue s.2 op).map fun (answer, k) => (s.1 ++ [answer], k)

/-- What a call leaves alone. -/
structure QueueFrame (queue : Nat) (answer : Answer β) (k k' : Kernel β) :
    Prop where
  /-- A refused post and an empty receive change nothing at all. -/
  refused : answer.result = some .full ∨ answer.result = some .empty → k' = k
  size : (k'.queues.msgQList queue).q.size = (k.queues.msgQList queue).q.size
  messageSize : (k'.queues.msgQList queue).q.messageSize =
    (k.queues.msgQList queue).q.messageSize
  change : (k'.queues.msgQList queue).change = (k.queues.msgQList queue).change
  taskId : (k'.queues.msgQList queue).taskId = (k.queues.msgQList queue).taskId
  nQueues : k'.queues.nQueues = k.queues.nQueues
  others : ∀ other, other ≠ queue →
    k'.queues.msgQList other = k.queues.msgQList other
  /-- A tick moves neither index and writes only slots that hold a message. -/
  ticked : answer.result = none →
    (k'.queues.msgQList queue).q.head = (k.queues.msgQList queue).q.head ∧
    (k'.queues.msgQList queue).q.tail = (k.queues.msgQList queue).q.tail ∧
    ∀ index,
      (∀ position, position < (k.contents queue).length →
        index ≠ ((k.queues.msgQList queue).q.tail + 1 + position) %
          (k.queues.msgQList queue).q.size) →
      (k'.queues.msgQList queue).q.list index =
        (k.queues.msgQList queue).q.list index

/-! ## One call -/

namespace Kernel

/-- Only a change of the history can be a signal. -/
theorem changeSignalled_eq_false
    (k k' : Kernel β) (queue : Nat) (entries : List (Entry β))
    (history : k'.history = k.history ++ entries)
    (silent : ∀ entry ∈ entries, ∀ event, entry.signals event = false) :
    k.changeSignalled k' queue = false := by
  unfold changeSignalled
  rw [history, List.drop_left, List.any_eq_false]
  intro entry inside
  simp [silent entry inside]

theorem changeSignalled_replicate
    (k : Kernel β) (queue times : Nat) {k' : Kernel β}
    (history : k'.history = k.history ++
      List.replicate times (.signalled (k.queues.msgQList queue).change)) :
    k.changeSignalled k' queue = decide (0 < times) := by
  unfold changeSignalled
  rw [history, List.drop_left, List.any_replicate]
  by_cases positive : 0 < times
  · have nonzero : times ≠ 0 := by omega
    simp [positive, nonzero, Entry.signals]
  · have zero : times = 0 := by omega
    simp [zero]

/-- Some message expires exactly when the number of expiring ones is not
zero. -/
theorem any_eq_expiring (messages : List (Msg β)) :
    (messages.any fun msg => decide (msg.delay = 1)) =
      decide (0 < expiring messages) := by
  rw [Bool.eq_iff_iff, decide_eq_true_iff, List.any_eq_true, expiring,
    List.countP_pos_iff]

/-- Replacing the ring of a queue leaves everything else of the queues. -/
theorem queueFrame_setRing
    (k k' : Kernel β) (queue : Nat) (q : OSQueue β) (answer : Answer β)
    (queues : k'.queues = k.queues.setQueue queue q)
    (refused : answer.result = some .full ∨ answer.result = some .empty →
      k' = k)
    (size : q.size = (k.queues.msgQList queue).q.size)
    (messageSize : q.messageSize = (k.queues.msgQList queue).q.messageSize)
    (ticked : answer.result = none →
      q.head = (k.queues.msgQList queue).q.head ∧
      q.tail = (k.queues.msgQList queue).q.tail ∧
      ∀ index,
        (∀ position, position < (k.contents queue).length →
          index ≠ ((k.queues.msgQList queue).q.tail + 1 + position) %
            (k.queues.msgQList queue).q.size) →
        q.list index = (k.queues.msgQList queue).q.list index) :
    QueueFrame queue answer k k' where
  refused := refused
  size := by rw [queues, QueueTable.setQueue_q, size]
  messageSize := by rw [queues, QueueTable.setQueue_q, messageSize]
  change := by rw [queues, QueueTable.setQueue_change]
  taskId := by rw [queues, QueueTable.setQueue_taskId]
  nQueues := by rw [queues, QueueTable.setQueue_nQueues]
  others := by
    intro other different
    rw [queues, QueueTable.setQueue_of_ne _ _ different]
  ticked := by
    rw [queues, QueueTable.setQueue_q]
    exact ticked

end Kernel

open Kernel in
/-- `os_msg_post` answers as the list does. -/
theorem queueStep_osMsgPost
    {cfg : Config} {k : Kernel β} {queue : Nat}
    (queues : 0 < cfg.nQueues)
    (ready : k.QueueReady cfg queue)
    (msg : Msg β) (delay period : UInt32) :
    ∃ answer k', queueStep cfg queue k (.osMsgPost msg delay period) =
        .ok (answer, k') ∧
      (answer, k'.contents queue) =
        listStep (k.queues.msgQList queue).q.size (k.contents queue)
          (.osMsgPost msg delay period) ∧
      QueueFrame queue answer k k' ∧ k'.QueueReady cfg queue := by
  have holds := ready.holds
  have fits := holds.fits
  by_cases full :
      (k.contents queue).length + 1 = (k.queues.msgQList queue).q.size
  · have silent := k.changeSignalled_eq_false k queue []
      (List.append_nil _).symm (by simp)
    have atLimit : (k.contents queue).length =
        (k.queues.msgQList queue).q.size - 1 := by omega
    refine ⟨⟨some .full, some (msg.armed delay.toNat period.toNat), false⟩, k,
      ?_, ?_, ?_, ready⟩
    · simp only [queueStep, osMsgPost_of_full queues ready.created holds full,
        ok_map, silent]
    · simp only [listStep, atLimit, if_true]
    · refine queueFrame_setRing k k queue (k.queues.msgQList queue).q _
        (QueueTable.setQueue_self _ _).symm (fun _ => rfl) rfl rfl ?_
      intro isTick
      cases isTick
  · have room : (k.contents queue).length + 1 <
        (k.queues.msgQList queue).q.size := by omega
    have belowLimit : (k.contents queue).length ≠
        (k.queues.msgQList queue).q.size - 1 := by omega
    obtain ⟨q', holds', size', messageSize', returns⟩ :=
      osMsgPost_of_room queues ready.created holds room msg delay.toNat
        period.toNat
    have silent := k.changeSignalled_eq_false
      ((k.setRing queue q').record
        (.posted queue (msg.armed delay.toNat period.toNat)))
      queue [.posted queue (msg.armed delay.toNat period.toNat)] rfl
      (by simp [Entry.signals])
    have after : ((k.setRing queue q').record
        (.posted queue (msg.armed delay.toNat period.toNat))).contents queue =
          k.contents queue ++ [msg.armed delay.toNat period.toNat] := by
      simpa [contents, record, setRing] using holds'.contents_eq
    refine ⟨⟨some .posted, some (msg.armed delay.toNat period.toNat), false⟩,
      (k.setRing queue q').record
        (.posted queue (msg.armed delay.toNat period.toNat)), ?_, ?_, ?_, ?_⟩
    · simp only [queueStep, returns, ok_map, silent]
    · simp only [listStep, belowLimit, if_false, after]
    · refine queueFrame_setRing k _ queue q' _ rfl ?_ size' messageSize' ?_
      · intro isRefused
        simp at isRefused
      · intro isTick
        cases isTick
    · refine ⟨ready.created, ?_, ?_⟩
      · simpa [record, setRing] using holds'.valid
      · simpa [record, setRing] using ready.known

open Kernel in
/-- `os_msg_receive` answers as the list does. -/
theorem queueStep_osMsgReceive
    {cfg : Config} {k : Kernel β} {queue : Nat}
    (queues : 0 < cfg.nQueues)
    (ready : k.QueueReady cfg queue)
    (pMsg : Msg β) :
    ∃ answer k', queueStep cfg queue k (.osMsgReceive pMsg) =
        .ok (answer, k') ∧
      (answer, k'.contents queue) =
        listStep (k.queues.msgQList queue).q.size (k.contents queue)
          (.osMsgReceive pMsg) ∧
      QueueFrame queue answer k k' ∧ k'.QueueReady cfg queue := by
  have holds := ready.holds
  cases found : OSQueue.firstReady (k.contents queue) with
  | none =>
      have silent := k.changeSignalled_eq_false k queue []
        (List.append_nil _).symm (by simp)
      refine ⟨⟨some .empty, some pMsg, false⟩, k, ?_, ?_, ?_, ready⟩
      · simp only [queueStep,
          osMsgReceive_of_none queues ready.created holds found, ok_map, silent]
      · simp only [listStep, found]
      · refine queueFrame_setRing k k queue (k.queues.msgQList queue).q _
          (QueueTable.setQueue_self _ _).symm (fun _ => rfl) rfl rfl ?_
        intro isTick
        cases isTick
  | some split =>
      obtain ⟨skipped, msg, later⟩ := split
      obtain ⟨q', holds', size', messageSize', returns⟩ :=
        osMsgReceive_of_some queues ready.created holds found pMsg
      have silent := k.changeSignalled_eq_false
        ((k.setRing queue q').record (.received queue msg)) queue
        [.received queue msg] rfl (by simp [Entry.signals])
      have after :
          ((k.setRing queue q').record (.received queue msg)).contents queue =
            later ++ skipped ++ msg.putBack := by
        simpa [contents, record, setRing] using holds'.contents_eq
      refine ⟨⟨some .received, some msg.rearmed, false⟩,
        (k.setRing queue q').record (.received queue msg), ?_, ?_, ?_, ?_⟩
      · simp only [queueStep, returns, ok_map, silent]
      · simp only [listStep, found, after]
      · refine queueFrame_setRing k _ queue q' _ rfl ?_ size' messageSize' ?_
        · intro isRefused
          simp at isRefused
        · intro isTick
          cases isTick
      · refine ⟨ready.created, ?_, ?_⟩
        · simpa [record, setRing] using holds'.valid
        · simpa [record, setRing] using ready.known

open Kernel in
/-- `os_msgQ_tick` answers as the list does, unless a message expires and the
change event does not fit the event bitmaps. -/
theorem queueStep_osMsgQTick
    {cfg : Config} {k : Kernel β} {queue : Nat}
    (queues : 0 < cfg.nQueues)
    (ready : k.QueueReady cfg queue) :
    (∃ answer k', queueStep cfg queue k .osMsgQTick = .ok (answer, k') ∧
      (answer, k'.contents queue) =
        listStep (k.queues.msgQList queue).q.size (k.contents queue)
          .osMsgQTick ∧
      QueueFrame queue answer k k' ∧ k'.QueueReady cfg queue) ∨
    (queueStep cfg queue k .osMsgQTick = .error .bounds ∧
      (∃ msg ∈ k.contents queue, msg.delay = 1) ∧ 0 < k.tasks.nTasks ∧
      cfg.eventQueueSize ≤ (k.queues.msgQList queue).change / 8) := by
  obtain ⟨q', aged, returns⟩ := osMsgQTick_eq queues ready.holds
  rcases signalTimes_cases ready.known (expiring (k.contents queue))
      (k.setRing queue q') with
    ⟨k', signals, history, queuesEq, _⟩ | ⟨stops, positive, some, narrow⟩
  · left
    have signalledEq : k.changeSignalled k' queue =
        decide (0 < expiring (k.contents queue)) :=
      k.changeSignalled_replicate queue _ history
    have after : k'.contents queue = (k.contents queue).map Msg.age := by
      unfold contents
      rw [queuesEq, setRing_queues, QueueTable.setQueue_q]
      exact aged.holds.contents_eq
    refine ⟨⟨none, none, decide (0 < expiring (k.contents queue))⟩, k',
      ?_, ?_, ?_, ?_⟩
    · simp only [queueStep, returns, signals, ok_map, signalledEq]
    · simp only [listStep, after, any_eq_expiring]
    · refine queueFrame_setRing k k' queue q' _ queuesEq ?_ aged.size
        aged.messageSize ?_
      · intro isRefused
        simp at isRefused
      · intro _
        exact ⟨aged.head, aged.tail, aged.untouched⟩
    · refine ⟨?_, ?_, ?_⟩
      · rw [queuesEq]
        exact ready.created
      · rw [queuesEq, setRing_queues, QueueTable.setQueue_q]
        exact aged.holds.valid
      · rw [queuesEq, setRing_queues, QueueTable.setQueue_change]
        exact ready.known
  · right
    refine ⟨?_, ?_, some, narrow⟩
    · simp only [queueStep, returns, stops, error_map]
    · obtain ⟨msg, inside, expires⟩ := List.countP_pos_iff.mp positive
      exact ⟨msg, inside, by simpa using expires⟩

/-- A call answers as the list does, or is a tick that stops at a change event
outside the event bitmaps. -/
theorem queueStep_refines
    {cfg : Config} {k : Kernel β} {queue : Nat}
    (queues : 0 < cfg.nQueues)
    (ready : k.QueueReady cfg queue)
    (op : QueueOp β) :
    (∃ answer k', queueStep cfg queue k op = .ok (answer, k') ∧
      (answer, k'.contents queue) =
        listStep (k.queues.msgQList queue).q.size (k.contents queue) op ∧
      QueueFrame queue answer k k' ∧ k'.QueueReady cfg queue) ∨
    (op = .osMsgQTick ∧ queueStep cfg queue k op = .error .bounds ∧
      (∃ msg ∈ k.contents queue, msg.delay = 1) ∧ 0 < k.tasks.nTasks ∧
      cfg.eventQueueSize ≤ (k.queues.msgQList queue).change / 8) := by
  cases op with
  | osMsgPost msg delay period =>
      exact .inl (queueStep_osMsgPost queues ready msg delay period)
  | osMsgReceive pMsg => exact .inl (queueStep_osMsgReceive queues ready pMsg)
  | osMsgQTick =>
      rcases queueStep_osMsgQTick queues ready with answers | stops
      · exact .inl answers
      · exact .inr ⟨rfl, stops⟩

/-! ## Runs of calls -/

/-- A run of calls gives the answers, and leaves the contents, of the run of
list operations. -/
theorem queueRun_refines
    {cfg : Config} {k k' : Kernel β} {queue size : Nat}
    (queues : 0 < cfg.nQueues)
    (ready : k.QueueReady cfg queue)
    (sized : (k.queues.msgQList queue).q.size = size)
    {earlier answers : List (Answer β)}
    {ops : List (QueueOp β)}
    (runs : run (queueTurn cfg queue) (earlier, k) ops = .ok (answers, k')) :
    (answers, k'.contents queue) =
        ops.foldl (listTurn size) (earlier, k.contents queue) ∧
      k'.QueueReady cfg queue ∧
      (k'.queues.msgQList queue).q.size = size ∧
      (k'.queues.msgQList queue).change = (k.queues.msgQList queue).change := by
  induction ops generalizing earlier k with
  | nil =>
      simp only [run_nil, Except.ok.injEq, Prod.mk.injEq] at runs
      obtain ⟨rfl, rfl⟩ := runs
      exact ⟨rfl, ready, sized, rfl⟩
  | cons op ops inductionHypothesis =>
      obtain ⟨⟨soFar, next⟩, turn, rest⟩ := run_cons_eq_ok_iff.mp runs
      rcases queueStep_refines queues ready op with
        ⟨answer, k₁, returns, refines, frame, ready₁⟩ | ⟨_, stops, _⟩
      · simp only [queueTurn, returns, ok_map, Except.ok.injEq,
          Prod.mk.injEq] at turn
        obtain ⟨rfl, rfl⟩ := turn
        obtain ⟨agree, readyAfter, sizeAfter, changeAfter⟩ :=
          inductionHypothesis ready₁ (frame.size.trans sized) rest
        refine ⟨?_, readyAfter, sizeAfter, changeAfter.trans frame.change⟩
        rw [agree, List.foldl_cons]
        congr 1
        rw [sized] at refines
        simp only [listTurn, ← refines]
      · simp [queueTurn, stops] at turn

/-- A queue that was just created is ready and empty. -/
theorem Kernel.queueReady_of_created
    {cfg : Config} {k k' : Kernel β}
    {buffer : Nat → Msg β} {nMessages msgSize taskId queue : Nat}
    (queues : 0 < cfg.nQueues)
    (two : 2 ≤ nMessages)
    (created : k.osMsgQCreate cfg buffer nMessages msgSize taskId =
      .ok (queue, k')) :
    k'.QueueReady cfg queue ∧ k'.contents queue = [] ∧
      (k'.queues.msgQList queue).q.size = nMessages := by
  have events : 0 < cfg.nTotalEvents := by
    unfold Config.nTotalEvents
    omega
  unfold osMsgQCreate EventTable.eventCreate at created
  simp only [queues, events, if_true, guard_eq_ok_iff, bind_eq_ok_iff,
    Except.ok.injEq, Prod.mk.injEq] at created
  obtain ⟨_, ⟨change, events'⟩, ⟨knownBefore, changeEq, _⟩, rfl, rfl⟩ := created
  have empty : Ring.Represents nMessages buffer 0 1 [] := by
    have start := Ring.Represents.nil buffer (show 0 < nMessages by omega)
    rwa [Nat.mod_eq_of_lt (by omega)] at start
  refine ⟨⟨?_, ?_, ?_⟩, ?_, ?_⟩
  · exact Nat.lt_succ_self _
  · simp only [Function.update_self]
    exact ⟨by simp only; omega, by simp only; omega⟩
  · simp only [Function.update_self]
    omega
  · simp only [contents, Function.update_self]
    exact empty.eq_contents
  · simp only [Function.update_self]

/-- The message ring refines a list of messages.  After any sequence of calls
on a queue created with at least two slots, the answers and the contents are
those of the list operations; every further call answers as the list does and
touches nothing else, or is a tick whose change event lies outside the event
bitmaps. -/
theorem queue_refines_list
    {cfg : Config} {k₀ k k₁ : Kernel β}
    {buffer : Nat → Msg β} {nMessages : UInt8} {msgSize : UInt16}
    {taskId queue : Nat}
    (queues : 0 < cfg.nQueues)
    (two : 2 ≤ nMessages.toNat)
    (created : k₀.osMsgQCreate cfg buffer nMessages.toNat msgSize.toNat taskId =
      .ok (queue, k))
    {ops : List (QueueOp β)} {answers : List (Answer β)}
    (runs : run (queueTurn cfg queue) ([], k) ops = .ok (answers, k₁)) :
    (answers, k₁.contents queue) =
        ops.foldl (listTurn nMessages.toNat) ([], []) ∧
      ∀ op,
        (∃ answer k₂, queueStep cfg queue k₁ op = .ok (answer, k₂) ∧
          (answer, k₂.contents queue) =
            listStep nMessages.toNat (k₁.contents queue) op ∧
          QueueFrame queue answer k₁ k₂) ∨
        (op = .osMsgQTick ∧ queueStep cfg queue k₁ op = .error .bounds ∧
          (∃ msg ∈ k₁.contents queue, msg.delay = 1) ∧ 0 < k₁.tasks.nTasks ∧
          cfg.eventQueueSize ≤ (k₁.queues.msgQList queue).change / 8) := by
  obtain ⟨ready, empty, sized⟩ :=
    Kernel.queueReady_of_created queues two created
  obtain ⟨agree, ready₁, sized₁, _⟩ :=
    queueRun_refines queues ready sized runs
  rw [empty] at agree
  refine ⟨agree, fun op => ?_⟩
  rcases queueStep_refines queues ready₁ op with
    ⟨answer, k₂, returns, refines, frame, _⟩ | stops
  · left
    rw [sized₁] at refines
    exact ⟨answer, k₂, returns, refines, frame⟩
  · exact .inr stops

/-- A queue of the given number of slots, created right after `os_init`. -/
def createdQueue (slots : UInt8) : Outcome (Nat × Kernel Nat) :=
  (Kernel.osInit (Config.small true) Kernel.zeroed).osMsgQCreate
    (Config.small true) (fun _ => ⟨0, 0, 0, 0⟩) slots.toNat (20 : UInt16).toNat 0

/-- A run in which a full ring wraps around a delayed message. -/
theorem queue_refines_list_three_slots :
    ∃ queue k answers k₁,
      createdQueue 3 = .ok (queue, k) ∧
      run (queueTurn (Config.small true) queue) ([], k)
          [.osMsgPost ⟨1, 0, 0, 10⟩ 2 0, .osMsgPost ⟨2, 0, 0, 11⟩ 0 4,
            .osMsgReceive ⟨0, 0, 0, 0⟩, .osMsgQTick,
            .osMsgReceive ⟨0, 0, 0, 0⟩] = .ok (answers, k₁) ∧
      (answers, k₁.contents queue) =
        [.osMsgPost ⟨1, 0, 0, 10⟩ 2 0, .osMsgPost ⟨2, 0, 0, 11⟩ 0 4,
          .osMsgReceive ⟨0, 0, 0, 0⟩, .osMsgQTick,
          .osMsgReceive ⟨0, 0, 0, 0⟩].foldl (listTurn 3) ([], []) := by
  obtain ⟨⟨answers, k₁⟩, both⟩ := exists_of_isOk
    (createdQueue 3 >>= fun created =>
      run (queueTurn (Config.small true) created.1) ([], created.2)
        [.osMsgPost ⟨1, 0, 0, 10⟩ 2 0, .osMsgPost ⟨2, 0, 0, 11⟩ 0 4,
          .osMsgReceive ⟨0, 0, 0, 0⟩, .osMsgQTick,
          .osMsgReceive ⟨0, 0, 0, 0⟩])
    (by decide +kernel)
  obtain ⟨⟨queue, k⟩, created, runs⟩ := bind_eq_ok_iff.mp both
  exact ⟨queue, k, answers, k₁, created, runs,
    (queue_refines_list (by decide) (by decide) created runs).1⟩

/-- A periodic message does not reach the destination as it stood in the queue:
its delay has already been set to its reload. -/
theorem received_periodic_ne_queued :
    ∃ msg destination : Msg Nat,
      (createdQueue 2 >>= fun (queue, k) =>
        queueStep (Config.small true) queue k (.osMsgPost ⟨1, 0, 0, 10⟩ 0 5) >>=
          fun (_, k₁) =>
            (queueStep (Config.small true) queue k₁
              (.osMsgReceive ⟨0, 0, 0, 0⟩)).map
                fun (answer, _) => (k₁.contents queue, answer)) =
        .ok ([msg], ⟨some .received, some destination, false⟩) ∧
      destination ≠ msg := by
  refine ⟨⟨1, 0, 5, 10⟩, ⟨1, 5, 5, 10⟩, ?_, by decide⟩
  rfl

end CocoOs
