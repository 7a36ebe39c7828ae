import CocoOs.RingQueue
import CocoOs.Signal

/-!
# The queue functions of the kernel on lists of messages

`os_msg_post`, `os_msg_receive` and `os_msgQ_tick` in terms of the list of
messages a queue holds.  A tick rewrites the ring of its queue and signals the
change event once for every message that becomes deliverable; the signals do
not touch the queues, so they can all be thought of as coming after the
rewriting.
-/

namespace CocoOs

open Foundation

variable {β : Type}

/-! ## Rewriting one ring -/

namespace QueueTable

@[simp] theorem setQueue_nQueues
    (queues : QueueTable β) (queue : Nat) (q : OSQueue β) :
    (queues.setQueue queue q).nQueues = queues.nQueues := rfl

@[simp] theorem setQueue_q
    (queues : QueueTable β) (queue : Nat) (q : OSQueue β) :
    ((queues.setQueue queue q).msgQList queue).q = q := by
  simp [setQueue]

theorem setQueue_of_ne
    (queues : QueueTable β) (q : OSQueue β)
    {queue other : Nat} (different : other ≠ queue) :
    (queues.setQueue queue q).msgQList other = queues.msgQList other := by
  simp [setQueue, different]

@[simp] theorem setQueue_change
    (queues : QueueTable β) (queue : Nat) (q : OSQueue β) (other : Nat) :
    ((queues.setQueue queue q).msgQList other).change =
      (queues.msgQList other).change := by
  by_cases same : other = queue
  · subst same
    simp [setQueue]
  · rw [queues.setQueue_of_ne q same]

@[simp] theorem setQueue_taskId
    (queues : QueueTable β) (queue : Nat) (q : OSQueue β) (other : Nat) :
    ((queues.setQueue queue q).msgQList other).taskId =
      (queues.msgQList other).taskId := by
  by_cases same : other = queue
  · subst same
    simp [setQueue]
  · rw [queues.setQueue_of_ne q same]

@[simp] theorem setQueue_self (queues : QueueTable β) (queue : Nat) :
    queues.setQueue queue (queues.msgQList queue).q = queues := by
  simp [setQueue]

@[simp] theorem setQueue_setQueue
    (queues : QueueTable β) (queue : Nat) (first second : OSQueue β) :
    (queues.setQueue queue first).setQueue queue second =
      queues.setQueue queue second := by
  simp [setQueue]

end QueueTable

namespace Kernel

/-- The messages of a queue of the kernel. -/
def contents (k : Kernel β) (queue : Nat) : List (Msg β) :=
  (k.queues.msgQList queue).q.contents

/-- Put a ring in the place of the ring of a queue. -/
def setRing (k : Kernel β) (queue : Nat) (q : OSQueue β) : Kernel β :=
  { k with queues := k.queues.setQueue queue q }

@[simp] theorem setRing_queues (k : Kernel β) (queue : Nat) (q : OSQueue β) :
    (k.setRing queue q).queues = k.queues.setQueue queue q := rfl

@[simp] theorem setRing_self (k : Kernel β) (queue : Nat) :
    k.setRing queue (k.queues.msgQList queue).q = k := by
  simp [setRing]

@[simp] theorem setRing_setRing
    (k : Kernel β) (queue : Nat) (first second : OSQueue β) :
    (k.setRing queue first).setRing queue second = k.setRing queue second := by
  simp [setRing]

/-! ## Signals and rings -/

/-- `event_ISR_signal` does not read the queues. -/
theorem eventIsrSignal_setRing
    (cfg : Config) (k : Kernel β) (queue : Nat) (q : OSQueue β) (event : Nat) :
    (k.setRing queue q).eventIsrSignal cfg event =
      (k.eventIsrSignal cfg event).map fun k' => k'.setRing queue q := by
  have sameTasks : (k.setRing queue q).SignalFits cfg event ↔
      k.SignalFits cfg event := Iff.rfl
  rw [eventIsrSignal_eq, eventIsrSignal_eq]
  simp only [sameTasks]
  split_ifs <;> rfl

theorem eventIsrSignal_queues
    {cfg : Config} {k k' : Kernel β} {event : Nat}
    (returns : k.eventIsrSignal cfg event = .ok k') :
    k'.queues = k.queues := by
  rw [eventIsrSignal_eq] at returns
  split_ifs at returns
  · exact Except.ok.inj returns ▸ rfl
  · exact Except.ok.inj returns ▸ rfl

theorem signalTimes_queues
    {cfg : Config} {event times : Nat} {k k' : Kernel β}
    (returns : signalTimes cfg event times k = .ok k') :
    k'.queues = k.queues := by
  induction times generalizing k with
  | zero =>
      simp only [signalTimes, Except.ok.injEq] at returns
      exact returns ▸ rfl
  | succ times inductionHypothesis =>
      rw [signalTimes, bind_eq_ok_iff] at returns
      obtain ⟨signalled, first, later⟩ := returns
      rw [inductionHypothesis later, eventIsrSignal_queues first]

theorem signalTimes_setRing
    (cfg : Config) (event times : Nat)
    (k : Kernel β) (queue : Nat) (q : OSQueue β) :
    signalTimes cfg event times (k.setRing queue q) =
      (signalTimes cfg event times k).map fun k' => k'.setRing queue q := by
  induction times generalizing k with
  | zero => rfl
  | succ times inductionHypothesis =>
      rw [signalTimes, signalTimes, eventIsrSignal_setRing]
      cases k.eventIsrSignal cfg event with
      | error stopped => rfl
      | ok signalled => exact inductionHypothesis signalled

/-! ## Ticking -/

/-- What a master clock tick does to the ring of a queue with these messages:
their delays drop by one and nothing else changes. -/
structure AgedRing (q q' : OSQueue β) (messages : List (Msg β)) : Prop where
  holds : q'.Holds (messages.map Msg.age)
  size : q'.size = q.size
  messageSize : q'.messageSize = q.messageSize
  head : q'.head = q.head
  tail : q'.tail = q.tail
  untouched : ∀ index,
    (∀ position, position < messages.length →
      index ≠ (q.tail + 1 + position) % q.size) →
    q'.list index = q.list index

/-- The number of messages the next tick makes deliverable. -/
def expiring (messages : List (Msg β)) : Nat :=
  messages.countP fun msg => msg.delay = 1

/-- One iteration of `os_msgQ_tick`: the message in the slot ages, and its
expiry is signalled. -/
theorem msgQTickBody_eq
    (cfg : Config) (k : Kernel β) (queue : Nat)
    {index : Nat} {q : OSQueue β}
    (ring : (k.queues.msgQList queue).q = q)
    (inside : index < q.size) :
    k.msgQTickBody cfg queue index =
      signalTimes cfg (k.queues.msgQList queue).change
        (if (q.list index).delay = 1 then 1 else 0)
        (k.setRing queue
          { q with
            list := Function.update q.list index (q.list index).age }) := by
  subst ring
  unfold msgQTickBody
  by_cases ready : ((k.queues.msgQList queue).q.list index).delay = 0
  · have unchanged :
        ((k.queues.msgQList queue).q.list index).age =
          (k.queues.msgQList queue).q.list index :=
      Msg.age_of_ready ready
    simp only [ready, unchanged, Nat.lt_irrefl, if_false, Function.update_eq_self,
      Nat.zero_ne_one, signalTimes]
    rw [setRing_self]
  · have positive : 0 < ((k.queues.msgQList queue).q.list index).delay := by
      omega
    simp only [positive, if_true, OSQueue.write_of_lt _ inside, ok_bind]
    by_cases last : ((k.queues.msgQList queue).q.list index).delay = 1
    · simp only [last, if_true, signalTimes, Nat.sub_self,
        QueueTable.setQueue_change]
      have aged :
          { (k.queues.msgQList queue).q.list index with delay := 0 } =
            ((k.queues.msgQList queue).q.list index).age := by
        simp [Msg.age, last]
      rw [aged]
      exact (bind_ok _).symm
    · have notYet : ((k.queues.msgQList queue).q.list index).delay - 1 ≠ 0 := by
        omega
      simp only [last, notYet, if_false, signalTimes]
      rfl

/-- The walk of `os_msgQ_tick` over the messages it has still to visit, after
it has aged the ones before them. -/
theorem msgQTickLoop_eq
    (cfg : Config)
    (queue fuel : Nat)
    (q : OSQueue β)
    (visited : List (Msg β))
    {ahead : List (Msg β)}
    (holds : q.Holds (visited ++ ahead))
    (enough : ahead.length ≤ fuel) :
    ∃ q', q'.Holds (visited ++ ahead.map Msg.age) ∧
      q'.size = q.size ∧ q'.messageSize = q.messageSize ∧
      q'.head = q.head ∧ q'.tail = q.tail ∧
      (∀ index,
        (∀ position, position < (visited ++ ahead).length →
          index ≠ (q.tail + 1 + position) % q.size) →
        q'.list index = q.list index) ∧
      ∀ k : Kernel β, (k.queues.msgQList queue).q = q →
        k.msgQTickLoop cfg queue q.head fuel
            ((q.tail + 1 + visited.length) % q.size) =
          signalTimes cfg (k.queues.msgQList queue).change (expiring ahead)
            (k.setRing queue q') := by
  induction ahead generalizing visited fuel q with
  | nil =>
      rw [List.append_nil] at holds
      refine ⟨q, by simpa using holds, rfl, rfl, rfl, rfl, fun _ _ => rfl, ?_⟩
      intro k ring
      unfold msgQTickLoop
      rw [if_pos holds.head_eq.symm]
      subst ring
      simp [expiring, signalTimes]
  | cons msg ahead inductionHypothesis =>
      have fits := holds.fits
      have lengthEq : (visited ++ msg :: ahead).length =
          visited.length + (ahead.length + 1) := by simp
      rw [lengthEq] at fits
      have notHead : (q.tail + 1 + visited.length) % q.size ≠ q.head := by
        rw [holds.head_eq, lengthEq]
        intro met
        have equal := Ring.slot_injective (by omega) (by omega) met
        omega
      have slot : q.list ((q.tail + 1 + visited.length) % q.size) = msg := by
        rw [holds.slot_eq visited.length (by omega)]
        simp
      have indexInside : (q.tail + 1 + visited.length) % q.size < q.size :=
        Nat.mod_lt _ holds.size_pos
      -- the ring after this iteration, and the list it holds
      obtain ⟨aged, agedEq⟩ : ∃ aged : OSQueue β, aged =
          { q with
            list := Function.update q.list
              ((q.tail + 1 + visited.length) % q.size) msg.age } :=
        ⟨_, rfl⟩
      have agedHolds : aged.Holds ((visited ++ [msg.age]) ++ ahead) := by
        have replaced := holds.set visited.length (by omega) msg.age
        have listEq : (visited ++ msg :: ahead).set visited.length msg.age =
            (visited ++ [msg.age]) ++ ahead := by simp
        rw [listEq] at replaced
        rw [agedEq]
        exact replaced
      obtain ⟨fuel, rfl⟩ : ∃ prior, fuel = prior + 1 :=
        ⟨fuel - 1, by simp at enough; omega⟩
      obtain ⟨q', holds', size', messageSize', head', tail', untouched',
        returns'⟩ :=
        inductionHypothesis fuel aged _ agedHolds (by simpa using enough)
      rw [agedEq] at size' messageSize' head' tail' returns'
      refine ⟨q', by simpa using holds', size', messageSize', head', tail',
        ?_, ?_⟩
      · intro index outside
        rw [untouched' index ?_, agedEq]
        · have apart := outside visited.length (by omega)
          exact Function.update_of_ne apart _ _
        · intro position before
          rw [agedEq]
          apply outside position
          simpa using before
      · intro k ring
        unfold msgQTickLoop
        rw [if_neg notHead, k.msgQTickBody_eq cfg queue ring indexInside, slot,
          ← agedEq]
        have expiringEq : expiring (msg :: ahead) =
            (if msg.delay = 1 then 1 else 0) + expiring ahead := by
          simp [expiring, List.countP_cons, Nat.add_comm]
        have laterEq : k.setRing queue q' =
            (k.setRing queue aged).setRing queue q' := by simp
        rw [expiringEq, signalTimes_add, laterEq,
          signalTimes_setRing _ _ _ (k.setRing queue aged)]
        cases stepped : signalTimes cfg (k.queues.msgQList queue).change
            (if msg.delay = 1 then 1 else 0) (k.setRing queue aged) with
        | error stopped => rfl
        | ok signalled =>
            have queuesEq := signalTimes_queues stepped
            have ringEq : (signalled.queues.msgQList queue).q = aged := by
              rw [queuesEq, setRing_queues, QueueTable.setQueue_q]
            have changeEq : (signalled.queues.msgQList queue).change =
                (k.queues.msgQList queue).change := by
              rw [queuesEq, setRing_queues, QueueTable.setQueue_change]
            have continues := returns' signalled (ringEq.trans agedEq)
            rw [changeEq, List.length_append, List.length_singleton] at continues
            simp only [ok_bind, ok_map, ringEq]
            rw [← continues, agedEq]
            simp only [Ring.advance_mod]

/-- `os_msgQ_tick` ages the messages of its queue, and signals the change event
once for each message that becomes deliverable. -/
theorem osMsgQTick_eq
    {cfg : Config} {k : Kernel β} {queue : Nat} {messages : List (Msg β)}
    (queues : 0 < cfg.nQueues)
    (holds : (k.queues.msgQList queue).q.Holds messages) :
    ∃ q', AgedRing (k.queues.msgQList queue).q q' messages ∧
      k.osMsgQTick cfg queue =
        signalTimes cfg (k.queues.msgQList queue).change (expiring messages)
          (k.setRing queue q') := by
  obtain ⟨q', holds', size', messageSize', head', tail', untouched', returns'⟩ :=
    msgQTickLoop_eq cfg queue (k.queues.msgQList queue).q.size
      (k.queues.msgQList queue).q [] holds (Nat.le_of_lt holds.fits)
  refine ⟨q', ⟨holds', size', messageSize', head', tail', untouched'⟩, ?_⟩
  unfold osMsgQTick
  rw [if_pos queues]
  exact returns' k rfl

/-! ## Posting -/

/-- A full queue refuses the message and nothing changes. -/
theorem osMsgPost_of_full
    {cfg : Config} {k : Kernel β} {queue : Nat} {messages : List (Msg β)}
    (queues : 0 < cfg.nQueues)
    (created : queue < k.queues.nQueues)
    (holds : (k.queues.msgQList queue).q.Holds messages)
    (full : messages.length + 1 = (k.queues.msgQList queue).q.size)
    (msg : Msg β) (delay period : Nat) :
    k.osMsgPost cfg msg queue delay period =
      .ok (.full, msg.armed delay period, k) := by
  unfold osMsgPost
  rw [if_pos queues, if_neg (Nat.not_le.mpr created)]
  simp only [OSQueue.queuePush_of_full holds full, ok_bind]
  simp [Msg.armed]

/-- A queue with room appends the message. -/
theorem osMsgPost_of_room
    {cfg : Config} {k : Kernel β} {queue : Nat} {messages : List (Msg β)}
    (queues : 0 < cfg.nQueues)
    (created : queue < k.queues.nQueues)
    (holds : (k.queues.msgQList queue).q.Holds messages)
    (room : messages.length + 1 < (k.queues.msgQList queue).q.size)
    (msg : Msg β) (delay period : Nat) :
    ∃ q', q'.Holds (messages ++ [msg.armed delay period]) ∧
      q'.size = (k.queues.msgQList queue).q.size ∧
      q'.messageSize = (k.queues.msgQList queue).q.messageSize ∧
      k.osMsgPost cfg msg queue delay period =
        .ok (.posted, msg.armed delay period,
          (k.setRing queue q').record (.posted queue (msg.armed delay period))) := by
  obtain ⟨q', pushed, holds', size', messageSize'⟩ :=
    OSQueue.queuePush_of_room holds room (msg.armed delay period)
  refine ⟨q', holds', size', messageSize', ?_⟩
  unfold osMsgPost
  rw [if_pos queues, if_neg (Nat.not_le.mpr created)]
  unfold Msg.armed at pushed
  simp only [pushed, ok_bind, if_true]
  rfl

/-- All that `os_msg_post` can do to the kernel. -/
theorem osMsgPost_cases
    {cfg : Config} {k k' : Kernel β} {queue delay period : Nat}
    {msg armed : Msg β} {result : MsgResult}
    (returns : k.osMsgPost cfg msg queue delay period =
      .ok (result, armed, k')) :
    (result ≠ .posted ∧ k' = k) ∨
    (result = .posted ∧ 0 < cfg.nQueues ∧ queue < k.queues.nQueues ∧
      armed = msg.armed delay period ∧
      ∃ q, k' = (k.setRing queue q).record (.posted queue armed)) := by
  unfold osMsgPost at returns
  split_ifs at returns with queues undefined
  · simp only [Except.ok.injEq, Prod.mk.injEq] at returns
    obtain ⟨rfl, _, rfl⟩ := returns
    exact .inl ⟨by decide, rfl⟩
  · rw [bind_eq_ok_iff] at returns
    obtain ⟨⟨pushed, q⟩, pushes, returns⟩ := returns
    dsimp only at returns
    by_cases posted : pushed = .posted
    · right
      rw [if_pos posted] at returns
      simp only [Except.ok.injEq, Prod.mk.injEq] at returns
      obtain ⟨rfl, rfl, rfl⟩ := returns
      exact ⟨posted, queues, Nat.not_le.mp undefined, rfl, q, rfl⟩
    · left
      rw [if_neg posted] at returns
      simp only [Except.ok.injEq, Prod.mk.injEq] at returns
      obtain ⟨rfl, _, rfl⟩ := returns
      refine ⟨posted, ?_⟩
      have unchanged : q = (k.queues.msgQList queue).q := by
        unfold OSQueue.queuePush at pushes
        split_ifs at pushes
        · simp_all
        · simp_all
        · simp only [bind_eq_ok_iff, Except.ok.injEq, Prod.mk.injEq] at pushes
          obtain ⟨_, _, same, _⟩ := pushes
          exact absurd same.symm posted
      subst unchanged
      exact setRing_self k queue
  · simp only [Except.ok.injEq, Prod.mk.injEq] at returns
    obtain ⟨rfl, _, rfl⟩ := returns
    exact .inl ⟨by decide, rfl⟩

/-! ## Receiving -/

/-- A queue with no deliverable message is left alone, and so is the
destination. -/
theorem osMsgReceive_of_none
    {cfg : Config} {k : Kernel β} {queue : Nat} {messages : List (Msg β)}
    (queues : 0 < cfg.nQueues)
    (created : queue < k.queues.nQueues)
    (holds : (k.queues.msgQList queue).q.Holds messages)
    (none : OSQueue.firstReady messages = none)
    (pMsg : Msg β) :
    k.osMsgReceive cfg pMsg queue = .ok (.empty, pMsg, k) := by
  have allDelayed : messages.all Msg.delayed = true := by
    rw [List.all_eq_true]
    exact (OSQueue.firstReady_eq_none_iff messages).mp none
  unfold osMsgReceive
  rw [if_pos queues, if_neg (Nat.not_le.mpr created)]
  by_cases empty : ((k.queues.msgQList queue).q.tail + 1) %
      (k.queues.msgQList queue).q.size = (k.queues.msgQList queue).q.head
  · simp [empty]
  · simp [empty, OSQueue.msgQAllDelayed_eq holds, allDelayed]

/-- The first deliverable message is delivered; the delayed ones before it move
to the end, and a periodic message is put back behind them. -/
theorem osMsgReceive_of_some
    {cfg : Config} {k : Kernel β} {queue : Nat}
    {messages skipped later : List (Msg β)} {msg : Msg β}
    (queues : 0 < cfg.nQueues)
    (created : queue < k.queues.nQueues)
    (holds : (k.queues.msgQList queue).q.Holds messages)
    (found : OSQueue.firstReady messages = some (skipped, msg, later))
    (pMsg : Msg β) :
    ∃ q', q'.Holds (later ++ skipped ++ msg.putBack) ∧
      q'.size = (k.queues.msgQList queue).q.size ∧
      q'.messageSize = (k.queues.msgQList queue).q.messageSize ∧
      k.osMsgReceive cfg pMsg queue =
        .ok (.received, msg.rearmed,
          (k.setRing queue q').record (.received queue msg)) := by
  obtain ⟨split, skippedDelayed, ready⟩ :=
    (OSQueue.firstReady_eq_some_iff messages skipped later msg).mp found
  subst split
  have notEmpty : ((k.queues.msgQList queue).q.tail + 1) %
      (k.queues.msgQList queue).q.size ≠ (k.queues.msgQList queue).q.head := by
    intro met
    have empty := holds.empty_iff.mp met
    simp at empty
  have someReady :
      (skipped ++ msg :: later).all Msg.delayed = false := by
    simp [ready]
  have enough : skipped.length < (k.queues.msgQList queue).q.size := by
    have fits := holds.fits
    simp only [List.length_append, List.length_cons] at fits
    omega
  obtain ⟨delivery, returns, slot, buffer, size', messageSize', holds'⟩ :=
    OSQueue.receiveLoop_eq _ _ _ holds skippedDelayed ready enough
  refine ⟨{ delivery.q with tail := delivery.tail }, ?_, size', messageSize', ?_⟩
  · unfold OSQueue.Holds
    simpa [size'] using holds'
  · unfold osMsgReceive
    rw [if_pos queues, if_neg (Nat.not_le.mpr created)]
    simp only [notEmpty, if_false, OSQueue.msgQAllDelayed_eq holds, someReady,
      ok_bind, Bool.false_eq_true, returns, slot, buffer]
    rfl

/-- All that `os_msg_receive` can do to the kernel. -/
theorem osMsgReceive_cases
    {cfg : Config} {k k' : Kernel β} {queue : Nat}
    {pMsg buffer : Msg β} {result : MsgResult}
    (returns : k.osMsgReceive cfg pMsg queue = .ok (result, buffer, k')) :
    (result ≠ .received ∧ buffer = pMsg ∧ k' = k) ∨
    (result = .received ∧ 0 < cfg.nQueues ∧ queue < k.queues.nQueues ∧
      ∃ q msg, k' = (k.setRing queue q).record (.received queue msg)) := by
  unfold osMsgReceive at returns
  dsimp only at returns
  split_ifs at returns with queues undefined empty
  · simp only [Except.ok.injEq, Prod.mk.injEq] at returns
    obtain ⟨rfl, rfl, rfl⟩ := returns
    exact .inl ⟨by decide, rfl, rfl⟩
  · simp only [Except.ok.injEq, Prod.mk.injEq] at returns
    obtain ⟨rfl, rfl, rfl⟩ := returns
    exact .inl ⟨by decide, rfl, rfl⟩
  · rw [bind_eq_ok_iff] at returns
    obtain ⟨allDelayed, _, returns⟩ := returns
    split_ifs at returns with nothing
    · simp only [Except.ok.injEq, Prod.mk.injEq] at returns
      obtain ⟨rfl, rfl, rfl⟩ := returns
      exact .inl ⟨by decide, rfl, rfl⟩
    · simp only [bind_eq_ok_iff, Except.ok.injEq, Prod.mk.injEq] at returns
      obtain ⟨delivery, _, rfl, rfl, rfl⟩ := returns
      exact .inr ⟨rfl, queues, Nat.not_le.mp undefined, _, _, rfl⟩
  · simp only [Except.ok.injEq, Prod.mk.injEq] at returns
    obtain ⟨rfl, rfl, rfl⟩ := returns
    exact .inl ⟨by decide, rfl, rfl⟩

/-! ## When the macros block -/

/-- What `os_msg_post` has found when it answers that the queue is full. -/
def PostRefused (cfg : Config) (k : Kernel β) (queue : Nat) : Prop :=
  0 < cfg.nQueues ∧ queue < k.queues.nQueues ∧
    (k.queues.msgQList queue).q.size ≠ 0 ∧
    (k.queues.msgQList queue).q.head = (k.queues.msgQList queue).q.tail

theorem postRefused_of_full
    {cfg : Config} {k k' : Kernel β} {queue delay period : Nat}
    {msg armed : Msg β}
    (returns : k.osMsgPost cfg msg queue delay period =
      .ok (.full, armed, k')) :
    k.PostRefused cfg queue := by
  unfold osMsgPost at returns
  split_ifs at returns with queues undefined
  · cases returns
  · rw [bind_eq_ok_iff] at returns
    obtain ⟨⟨pushed, q⟩, pushes, returns⟩ := returns
    dsimp only at returns
    have refused : pushed = .full := by
      split_ifs at returns with posted
      · simp only [Except.ok.injEq, Prod.mk.injEq] at returns
        exact returns.1
      · simp only [Except.ok.injEq, Prod.mk.injEq] at returns
        exact returns.1
    subst refused
    unfold OSQueue.queuePush at pushes
    split_ifs at pushes with empty met
    · cases pushes
    · exact ⟨queues, Nat.not_le.mp undefined, empty, met⟩
    · simp only [bind_eq_ok_iff, Except.ok.injEq, Prod.mk.injEq] at pushes
      obtain ⟨_, _, wrong, _⟩ := pushes
      cases wrong
  · cases returns

/-- What `os_msg_receive` has found when it answers that the queue is empty. -/
def NothingReady (cfg : Config) (k : Kernel β) (queue : Nat) : Prop :=
  0 < cfg.nQueues ∧ queue < k.queues.nQueues ∧
    (((k.queues.msgQList queue).q.tail + 1) % (k.queues.msgQList queue).q.size =
        (k.queues.msgQList queue).q.head ∨
      (k.queues.msgQList queue).q.msgQAllDelayed = .ok true)

theorem nothingReady_of_empty
    {cfg : Config} {k k' : Kernel β} {queue : Nat} {pMsg buffer : Msg β}
    (returns : k.osMsgReceive cfg pMsg queue = .ok (.empty, buffer, k')) :
    k.NothingReady cfg queue := by
  unfold osMsgReceive at returns
  dsimp only at returns
  split_ifs at returns with queues undefined empty
  · cases returns
  · exact ⟨queues, Nat.not_le.mp undefined, .inl empty⟩
  · rw [bind_eq_ok_iff] at returns
    obtain ⟨allDelayed, answers, returns⟩ := returns
    split_ifs at returns with nothing
    · exact ⟨queues, Nat.not_le.mp undefined, .inr (nothing ▸ answers)⟩
    · simp only [bind_eq_ok_iff, Except.ok.injEq, Prod.mk.injEq] at returns
      obtain ⟨_, _, wrong, _⟩ := returns
      cases wrong
  · cases returns

/-! ## A queue ready for use -/

/-- The queue was created, its indices are inside its ring and its change event
is one of the kernel's. -/
structure QueueReady (cfg : Config) (k : Kernel β) (queue : Nat) : Prop where
  created : queue < k.queues.nQueues
  valid : (k.queues.msgQList queue).q.Valid
  known : (k.queues.msgQList queue).change < cfg.nTotalEvents

theorem QueueReady.holds
    {cfg : Config} {k : Kernel β} {queue : Nat}
    (ready : k.QueueReady cfg queue) :
    (k.queues.msgQList queue).q.Holds (k.contents queue) :=
  ready.valid.holds

/-- `os_msg_post` on a queue that is ready. -/
theorem QueueReady.post_cases
    {cfg : Config} {k k' : Kernel β} {queue delay period : Nat}
    {msg armed : Msg β} {result : MsgResult}
    (ready : k.QueueReady cfg queue)
    (queues : 0 < cfg.nQueues)
    (returns : k.osMsgPost cfg msg queue delay period =
      .ok (result, armed, k')) :
    armed = msg.armed delay period ∧
    ((result = .full ∧ k' = k ∧
      (k.contents queue).length + 1 = (k.queues.msgQList queue).q.size) ∨
    (result = .posted ∧
      (k.contents queue).length + 1 < (k.queues.msgQList queue).q.size ∧
      ∃ q', q'.Holds (k.contents queue ++ [armed]) ∧
        q'.size = (k.queues.msgQList queue).q.size ∧
        k' = (k.setRing queue q').record (.posted queue armed))) := by
  have fits := ready.holds.fits
  by_cases full :
      (k.contents queue).length + 1 = (k.queues.msgQList queue).q.size
  · rw [osMsgPost_of_full queues ready.created ready.holds full] at returns
    simp only [Except.ok.injEq, Prod.mk.injEq] at returns
    obtain ⟨rfl, rfl, rfl⟩ := returns
    exact ⟨rfl, .inl ⟨rfl, rfl, full⟩⟩
  · have room : (k.contents queue).length + 1 <
        (k.queues.msgQList queue).q.size := by omega
    obtain ⟨q', holds', size', _, posts⟩ :=
      osMsgPost_of_room queues ready.created ready.holds room msg delay period
    rw [posts] at returns
    simp only [Except.ok.injEq, Prod.mk.injEq] at returns
    obtain ⟨rfl, rfl, rfl⟩ := returns
    exact ⟨rfl, .inr ⟨rfl, room, q', holds', size', rfl⟩⟩

/-- `os_msg_receive` on a queue that is ready. -/
theorem QueueReady.receive_cases
    {cfg : Config} {k k' : Kernel β} {queue : Nat}
    {pMsg buffer : Msg β} {result : MsgResult}
    (ready : k.QueueReady cfg queue)
    (queues : 0 < cfg.nQueues)
    (returns : k.osMsgReceive cfg pMsg queue = .ok (result, buffer, k')) :
    (result = .empty ∧ buffer = pMsg ∧ k' = k ∧
      OSQueue.firstReady (k.contents queue) = none) ∨
    (result = .received ∧ ∃ skipped msg later q',
      OSQueue.firstReady (k.contents queue) = some (skipped, msg, later) ∧
      buffer = msg.rearmed ∧
      q'.Holds (later ++ skipped ++ msg.putBack) ∧
      q'.size = (k.queues.msgQList queue).q.size ∧
      k' = (k.setRing queue q').record (.received queue msg)) := by
  cases found : OSQueue.firstReady (k.contents queue) with
  | none =>
      rw [osMsgReceive_of_none queues ready.created ready.holds found] at returns
      simp only [Except.ok.injEq, Prod.mk.injEq] at returns
      obtain ⟨rfl, rfl, rfl⟩ := returns
      exact .inl ⟨rfl, rfl, rfl, rfl⟩
  | some split =>
      obtain ⟨skipped, msg, later⟩ := split
      obtain ⟨q', holds', size', _, receives⟩ :=
        osMsgReceive_of_some queues ready.created ready.holds found pMsg
      rw [receives] at returns
      simp only [Except.ok.injEq, Prod.mk.injEq] at returns
      obtain ⟨rfl, rfl, rfl⟩ := returns
      exact .inr ⟨rfl, skipped, msg, later, q', rfl, rfl, holds', size', rfl⟩

end Kernel

end CocoOs
