import CocoOs.Event

/-!
# Message queues (`os_msgqueue.c`)

The ring buffer of messages and its functions.  A message slot holds a whole
message: the byte loops of the source copy `messageSize` bytes, which is one
slot.  Loops that walk the ring carry fuel; a walk that has not met the head
after `size` slots has come back to where it started and never ends.
-/

namespace CocoOs

open Foundation

variable {β : Type}

/-! ## One queue -/

namespace OSQueue

/-- Write a message slot. -/
def write (q : OSQueue β) (index : Nat) (msg : Msg β) : Outcome (OSQueue β) :=
  if index < q.size then
    .ok { q with list := Function.update q.list index msg }
  else .error .bounds

/-- `queue_push`. -/
def queuePush (queue : OSQueue β) (msg : Msg β) :
    Outcome (MsgResult × OSQueue β) :=
  if queue.size = 0 then .ok (.undef, queue)
  else if queue.head = queue.tail then .ok (.full, queue)
  else do
    let queue ← queue.write queue.head msg
    .ok (.posted, { queue with head := (queue.head + 1) % queue.size })

/-- The loop of `MsgQAllDelayed`. -/
def allDelayedLoop (q : OSQueue β) : Nat → Nat → Outcome Bool
  | fuel, nextMessage =>
      if nextMessage = q.head then .ok true
      else if (q.list nextMessage).delay = 0 then .ok false
      else
        match fuel with
        | 0 => .error .divergence
        | fuel + 1 => allDelayedLoop q fuel ((nextMessage + 1) % q.size)

/-- `MsgQAllDelayed`. -/
def msgQAllDelayed (q : OSQueue β) : Outcome Bool :=
  q.allDelayedLoop q.size ((q.tail + 1) % q.size)

/-- What the loop of `os_msg_receive` leaves: the delivered message as it stood
in its slot, the destination buffer, the local `tail` and the queue. -/
structure Delivery (β : Type) where
  slot : Msg β
  msg : Msg β
  tail : Nat
  q : OSQueue β

/-- The `while ( found == 0 )` loop of `os_msg_receive`. -/
def receiveLoop : Nat → Nat → OSQueue β → Outcome (Delivery β)
  | 0, _, _ => .error .divergence
  | fuel + 1, tail, q => do
      let tail := (tail + 1) % q.size
      let slot := q.list tail
      let messagePeriodic := 0 < slot.reload
      let messageTimedOut := slot.delay = 0
      let msg :=
        if messageTimedOut ∧ messagePeriodic then
          { slot with delay := slot.reload }
        else slot
      let q ←
        if ¬ messageTimedOut ∨ (messagePeriodic ∧ messageTimedOut) then do
          let q ← q.write q.head msg
          .ok { q with head := (q.head + 1) % q.size }
        else .ok q
      if messageTimedOut then
        .ok { slot := slot, msg := msg, tail := tail, q := q }
      else receiveLoop fuel tail q

end OSQueue

namespace QueueTable

/-- Rewrite the ring of one queue. -/
def setQueue (queues : QueueTable β) (queue : Nat) (q : OSQueue β) :
    QueueTable β :=
  { queues with
    msgQList :=
      Function.update queues.msgQList queue
        { queues.msgQList queue with q := q } }

/-- `os_msgQ_init`. -/
def osMsgQInit (cfg : Config) (queues : QueueTable β) : QueueTable β :=
  if 0 < cfg.nQueues then
    { nQueues := 0
      msgQList :=
        forEach cfg.nQueues
          (fun i msgQList =>
            Function.update msgQList i
              { q :=
                  { (msgQList i).q with
                    head := 0, tail := 0, size := 0, messageSize := 0 }
                taskId := 0
                change := 0 })
          queues.msgQList }
  else queues

/-- The loop of `os_msgQ_find`. -/
def osMsgQFindFrom (queues : QueueTable β) (taskId : Nat) : Nat → Nat → Nat
  | 0, _ => noQueue
  | remaining + 1, queue =>
      if (queues.msgQList queue).taskId = taskId then queue
      else osMsgQFindFrom queues taskId remaining (queue + 1)

/-- `os_msgQ_find`. -/
def osMsgQFind (cfg : Config) (queues : QueueTable β) (taskId : Nat) : Nat :=
  if 0 < cfg.nQueues then queues.osMsgQFindFrom taskId queues.nQueues 0
  else noQueue

/-- `os_msgQ_event_get`. -/
def osMsgQEventGet (cfg : Config) (queues : QueueTable β) (queue : Nat) : Nat :=
  if 0 < cfg.nQueues then
    if queues.nQueues ≤ queue then noEvent else (queues.msgQList queue).change
  else noEvent

end QueueTable

/-! ## Queues of the kernel -/

namespace Kernel

/-- `os_msgQ_create`. -/
def osMsgQCreate
    (cfg : Config) (k : Kernel β)
    (buffer : Nat → Msg β) (nMessages msgSize taskId : Nat) :
    Outcome (Nat × Kernel β) :=
  if 0 < cfg.nQueues then
    if k.queues.nQueues < cfg.nQueues then do
      let (change, events) ← k.events.eventCreate cfg
      let created : OSMsgQ β :=
        { q :=
            { list := buffer
              head := 1
              tail := 0
              size := nMessages
              messageSize := msgSize }
          taskId := taskId
          change := change }
      .ok (k.queues.nQueues,
        { k with
          events := events
          queues :=
            { msgQList :=
                Function.update k.queues.msgQList k.queues.nQueues created
              nQueues := k.queues.nQueues + 1 } })
    else .error .assertion
  else .ok (0, k)

/-- `os_msg_post`.  The second result is the caller's message, whose delay and
reload are overwritten. -/
def osMsgPost
    (cfg : Config) (k : Kernel β)
    (msg : Msg β) (queue delay period : Nat) :
    Outcome (MsgResult × Msg β × Kernel β) :=
  if 0 < cfg.nQueues then
    if k.queues.nQueues ≤ queue then .ok (.undef, msg, k)
    else do
      let msg := { msg with delay := delay, reload := period }
      let (result, q) ← (k.queues.msgQList queue).q.queuePush msg
      let k := { k with queues := k.queues.setQueue queue q }
      if result = .posted then
        .ok (result, msg, k.record (.posted queue msg))
      else .ok (result, msg, k)
  else .ok (.undef, msg, k)

/-- `os_msg_receive`.  The second result is the destination buffer. -/
def osMsgReceive
    (cfg : Config) (k : Kernel β)
    (msg : Msg β) (queue : Nat) :
    Outcome (MsgResult × Msg β × Kernel β) :=
  if 0 < cfg.nQueues then
    if k.queues.nQueues ≤ queue then .ok (.undef, msg, k)
    else
      let q := (k.queues.msgQList queue).q
      if (q.tail + 1) % q.size = q.head then .ok (.empty, msg, k)
      else do
        let allDelayed ← q.msgQAllDelayed
        if allDelayed then .ok (.empty, msg, k)
        else do
          let delivery ← OSQueue.receiveLoop q.size q.tail q
          let q := { delivery.q with tail := delivery.tail }
          let k := { k with queues := k.queues.setQueue queue q }
          .ok (.received, delivery.msg, k.record (.received queue delivery.slot))
  else .ok (.undef, msg, k)

/-- The body of the loop of `os_msgQ_tick`. -/
def msgQTickBody (cfg : Config) (queue nextMessage : Nat) (k : Kernel β) :
    Outcome (Kernel β) :=
  let q := (k.queues.msgQList queue).q
  let pMsg := q.list nextMessage
  if 0 < pMsg.delay then do
    let pMsg := { pMsg with delay := pMsg.delay - 1 }
    let q ← q.write nextMessage pMsg
    let k := { k with queues := k.queues.setQueue queue q }
    if pMsg.delay = 0 then
      k.eventIsrSignal cfg (k.queues.msgQList queue).change
    else .ok k
  else .ok k

/-- The loop of `os_msgQ_tick`, whose `head` is read once. -/
def msgQTickLoop (cfg : Config) (queue head : Nat) :
    Nat → Nat → Kernel β → Outcome (Kernel β)
  | fuel, nextMessage, k =>
      if nextMessage = head then .ok k
      else do
        let k ← k.msgQTickBody cfg queue nextMessage
        match fuel with
        | 0 => .error .divergence
        | fuel + 1 =>
            msgQTickLoop cfg queue head fuel
              ((nextMessage + 1) % (k.queues.msgQList queue).q.size) k

/-- `os_msgQ_tick`. -/
def osMsgQTick (cfg : Config) (k : Kernel β) (queue : Nat) :
    Outcome (Kernel β) :=
  if 0 < cfg.nQueues then
    let q := (k.queues.msgQList queue).q
    k.msgQTickLoop cfg queue q.head q.size ((q.tail + 1) % q.size)
  else .ok k

end Kernel

end CocoOs
