import CocoOs.Task

/-!
# Events (`os_event.c`)

Event creation, waiting and signalling.  Waiting and signalling go through to
the task table, so these functions act on the whole kernel.
-/

namespace CocoOs

open Foundation

/-! ## Events alone -/

namespace EventTable

/-- `event_create`.  The counter is an 8-bit integer. -/
def eventCreate (cfg : Config) (events : EventTable) :
    Outcome (Nat × EventTable) :=
  if 0 < cfg.nTotalEvents then
    if events.nEvents < cfg.nTotalEvents then
      let events :=
        { events with
          eventList :=
            Function.update events.eventList events.nEvents
              { id := events.nEvents, signaledByTid := noTid }
          nEvents := (events.nEvents + 1) % 256 }
      .ok ((events.nEvents + 255) % 256, events)
    else .error .assertion
  else .ok (0, events)

/-- `os_event_init`. -/
def osEventInit (cfg : Config) (events : EventTable) : EventTable :=
  if 0 < cfg.nTotalEvents then { events with nEvents := 0 } else events

/-- Record who signalled an event. -/
def setSignaledByTid (events : EventTable) (eventId tid : Nat) : EventTable :=
  { events with
    eventList :=
      Function.update events.eventList eventId
        { events.eventList eventId with signaledByTid := tid } }

/-- `event_signaling_taskId_get`. -/
def eventSignalingTaskIdGet (cfg : Config) (events : EventTable)
    (eventId : Nat) : Outcome Nat :=
  if 0 < cfg.nTotalEvents then
    if eventId < cfg.nTotalEvents then
      .ok (events.eventList eventId).signaledByTid
    else .error .bounds
  else .ok 0

/-- `event_last_signaled_get`. -/
def eventLastSignaledGet (cfg : Config) (events : EventTable) : Nat :=
  if 0 < cfg.nTotalEvents then events.lastSignaledEvent else noEvent

end EventTable

namespace Kernel

variable {β : Type}

/-- `os_get_running_tid`. -/
def osGetRunningTid (k : Kernel β) : Nat := k.runningTid

/-! ## Waiting and signalling -/

/-- `os_wait_event`. -/
def osWaitEvent
    (cfg : Config) (k : Kernel β)
    (tid eventId : Nat) (waitSingleEvent : Bool) (timeout : Nat)
    (callBack : Option (Kernel β → Outcome (Kernel β))) :
    Outcome (Kernel β) :=
  if 0 < cfg.nTotalEvents ∧ eventId < k.events.nEvents then do
    let k := { k with events := k.events.setSignaledByTid eventId noTid }
    let tasks ←
      k.tasks.osTaskWaitEvent cfg tid eventId waitSingleEvent timeout
    let k := { k with tasks := tasks }
    match callBack with
    | none => .ok k
    | some callBack => callBack k
  else .ok k

/-- `os_signal_event`. -/
def osSignalEvent (cfg : Config) (k : Kernel β) (eventId : Nat) :
    Outcome (Kernel β) :=
  if 0 < cfg.nTotalEvents then do
    let k := { k with events := { k.events with lastSignaledEvent := eventId } }
    let tasks ← k.tasks.osTaskSignalEvent cfg eventId
    .ok ({ k with tasks := tasks }.record (.signalled eventId))
  else .ok k

/-- `os_event_set_signaling_tid`. -/
def osEventSetSignalingTid (cfg : Config) (k : Kernel β) (eventId tid : Nat) :
    Outcome (Kernel β) :=
  if 0 < cfg.nTotalEvents then
    if eventId < cfg.nTotalEvents then
      .ok { k with events := k.events.setSignaledByTid eventId tid }
    else .error .bounds
  else .ok k

/-- `event_ISR_signal`, the macro `OS_INT_SIGNAL_EVENT`. -/
def eventIsrSignal (cfg : Config) (k : Kernel β) (eventId : Nat) :
    Outcome (Kernel β) := do
  let k ← k.osSignalEvent cfg eventId
  k.osEventSetSignalingTid cfg eventId isrTid

/-! ## Waiting for several events -/

/-- The validating loop of `os_wait_multiple`, over the arguments not yet read.
It returns the last argument it reads; reading past the last argument is
undefined. -/
def waitMultipleScan (cfg : Config) : List Nat → Nat → Outcome Nat
  | [], _ => .error .bounds
  | event :: rest, count =>
      let count := count + 1
      if event ≠ noEvent ∧ count ≤ cfg.nTotalEvents then
        waitMultipleScan cfg rest count
      else .ok event

/-- The loop of `os_wait_multiple` that marks the events. -/
def waitMultipleMark (cfg : Config) (runningTid : Nat) (waitForAll : Bool) :
    List Nat → TaskTable → Outcome TaskTable
  | [], _ => .error .bounds
  | event :: rest, tasks => do
      let tasks ← tasks.osTaskWaitEvent cfg runningTid (event % 256)
        (!waitForAll) 0
      match rest with
      | [] => .error .bounds
      | next :: _ =>
          if next ≠ noEvent then
            waitMultipleMark cfg runningTid waitForAll rest tasks
          else .ok tasks

/-- `os_wait_multiple`.  The arguments are all those after `waitForAll`. -/
def osWaitMultiple
    (cfg : Config) (k : Kernel β) (waitForAll : Bool) (args : List Nat) :
    Outcome (Kernel β) :=
  if 0 < cfg.nTotalEvents then
    match args with
    | [] => .error .bounds
    | _ :: unread => do
        let event ← waitMultipleScan cfg unread 0
        if event = noEvent then do
          let runningTid := k.osGetRunningTid
          let tasks := k.tasks.osTaskClearWaitQueue cfg runningTid
          let tasks ← waitMultipleMark cfg runningTid waitForAll args tasks
          .ok { k with tasks := tasks }
        else .error .assertion
  else .ok k

end Kernel

end CocoOs
