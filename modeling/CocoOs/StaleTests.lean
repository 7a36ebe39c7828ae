import CocoOs.Interrupts

/-!
# Interrupts between a test and what follows from it

A macro that may wait asks first: whether the semaphore is positive, whether a
task is queued, whether a message is deliverable or the queue has room; a wait
for an event drops the note of its last signaller.  A handler that comes then
does what it would have done before the macro, unless what the macro has found
does not hold any more.  The callback of `msg_receive_ex` comes at such a
moment, when the queue has been found empty and the task does not wait yet.
-/

namespace CocoOs

open Foundation

variable {β : Type}

/-! ## Where handlers come in -/

/-- What a macro has done when a handler comes in between its test and what
follows from it, and what follows.  Not every macro gets there. -/
def TaskOp.opening (cfg : Config) (s : Sys β) (line : Nat) :
    TaskOp β → Option (Kernel β × (Kernel β → Outcome (Sys β)))
  | .eventWaitTimeout event timeout =>
      if 0 < cfg.nTotalEvents ∧ event.toNat < s.kernel.events.nEvents then
        let events := s.kernel.events.setSignaledByTid event.toNat noTid
        some ({ s.kernel with events := events }, fun k => do
          let k ← k.onTasks
            (k.tasks.osTaskWaitEvent cfg k.osGetRunningTid event.toNat true
              timeout.toNat)
          .ok { s with kernel := k.osYield line })
      else none
  | .semWait sem =>
      if cfg.HasSem sem then
        let positive := s.kernel.sems.osSemLargerThanZero cfg sem
        some (s.kernel, fun k =>
          if positive then
            let sems := k.sems.osSemDecrement cfg sem
            .ok { s with kernel := { k with sems := sems } }
          else do
            let k ← k.onTasks (k.tasks.taskWaitSemSet k.osGetRunningTid sem)
            .ok { s with kernel := k.osYield line })
      else none
  | .semSignal sem =>
      if cfg.HasSem sem then
        let waiting := s.kernel.tasks.osTaskWaitingThisSemaphore sem
        some (s.kernel, fun k =>
          if waiting then
            let tasks := k.tasks.osTaskReleaseWaitingTask cfg sem
            .ok { s with kernel := { k with tasks := tasks }.osYield line }
          else
            let sems := k.sems.osSemIncrement cfg sem
            .ok { s with kernel := { k with sems := sems } })
      else none
  | .msgPost taskId msg delay period false =>
      let k := s.kernel.setWaitQueue cfg taskId.toNat
      let queue := k.queues.osMsgQFind cfg taskId.toNat
      let event := k.queues.osMsgQEventGet cfg queue
      match k.osMsgPost cfg msg queue delay.toNat period.toNat with
      | .ok (.full, _, k) =>
          some (k.modifyRunning fun task => { task with msgResult := .full },
            fun k => (k.osWaitSingleEvent cfg event 0 line).map fun k =>
              s.leaveMacro s.kernel.osGetRunningTid
                (.post taskId.toNat msg delay.toNat period.toNat) (true, k))
      | _ => none
  | .msgReceive taskId pMsg false =>
      let k := s.kernel.setWaitQueue cfg taskId.toNat
      let queue := k.queues.osMsgQFind cfg taskId.toNat
      let event := k.queues.osMsgQEventGet cfg queue
      match k.osMsgReceive cfg pMsg queue with
      | .ok (.empty, pMsg, k) =>
          some (k.modifyRunning fun task => { task with msgResult := .empty },
            fun k => (k.osWaitSingleEvent cfg event 0 line).map fun k =>
              s.leaveMacro s.kernel.osGetRunningTid (.receive taskId.toNat pMsg)
                (true, k))
      | _ => none
  | _ => none

/-- What a macro has found by its opening. -/
def TaskOp.Finds (cfg : Config) (k : Kernel β) : TaskOp β → Prop
  | .eventWaitTimeout event _ =>
      (k.events.eventList event.toNat).signaledByTid = noTid
  | .semWait sem => k.sems.osSemLargerThanZero cfg sem = true
  | .semSignal sem => k.tasks.osTaskWaitingThisSemaphore sem = true
  | .msgPost taskId _ _ _ _ =>
      k.PostRefused cfg (k.queues.osMsgQFind cfg taskId.toNat)
  | .msgReceive taskId _ _ =>
      k.NothingReady cfg (k.queues.osMsgQFind cfg taskId.toNat)
  | _ => True

/-- The steps of the system, in which handlers may make calls at the opening of
a macro. -/
inductive OpenedLabel (β : Type)
  | plain (label : Label β)
  | task (op : TaskOp β) (line : UInt16) (calls : List Call)

/-- The step function of the system with handlers at openings. -/
def openedStep (cfg : Config) (s : Sys β) :
    OpenedLabel β → Outcome (Sys β)
  | .plain label => step cfg s label
  | .task op line calls =>
      if s.kernel.runningTid ≠ noTid then
        match op.opening cfg s line.toNat with
        | some (begun, rest) => run (callStep cfg) begun calls >>= rest
        | none => taskStep cfg s line.toNat op
      else .error .disabled

/-- The calls of the handlers and then the step. -/
def OpenedLabel.expand (cfg : Config) (s : Sys β) :
    OpenedLabel β → List (Label β)
  | .plain label => [label]
  | .task op line calls =>
      if s.kernel.runningTid ≠ noTid then
        match op.opening cfg s line.toNat with
        | some _ => calls.map Label.call ++ [.task op line]
        | none => [.task op line]
      else [.task op line]

/-- What the macro has found still holds after the calls, and what it has not
found still does not. -/
def OpenedLabel.Fresh (cfg : Config) (s : Sys β) : OpenedLabel β → Prop
  | .plain _ => True
  | .task op line calls =>
      ∀ begun rest k, op.opening cfg s line.toNat = some (begun, rest) →
        run (callStep cfg) begun calls = .ok k →
        (op.Finds cfg k ↔ op.Finds cfg begun)

/-- The run in which the handlers come before the macros. -/
def beforeMacros (cfg : Config) :
    Sys β → List (OpenedLabel β) → List (Label β)
  | _, [] => []
  | s, label :: labels =>
      label.expand cfg s ++
        match openedStep cfg s label with
        | .ok next => beforeMacros cfg next labels
        | .error _ => []

/-! ## What calls leave as it was -/

/-- Only creation adds events. -/
theorem Micro.nEvents
    {cfg : Config} {k k' : Kernel β} {act : Act β}
    (acts : Micro cfg k act k')
    (quiet : act.Quiet) :
    k'.events.nEvents = k.events.nEvents := by
  rcases acts.nEvents_cases with same | ⟨creation, rfl, _⟩
  · exact same
  · exact quiet.elim

namespace Kernel

/-- The objects and the running task are the same. -/
structure Continues (k k' : Kernel β) : Prop where
  objects : SameObjects k k'
  runningTid : k'.runningTid = k.runningTid
  nEvents : k'.events.nEvents = k.events.nEvents

variable {cfg : Config} {k k' : Kernel β}

theorem Continues.refl (k : Kernel β) : Continues k k := ⟨.refl k, rfl, rfl⟩

/-- Calls leave the objects and the running task as they were. -/
theorem continues_of_run
    {s : Sys β} {calls : List Call}
    (reachable : ReachableSys cfg s)
    (returns : run (callStep cfg) s.kernel calls = .ok k') :
    Continues s.kernel k' := by
  induction calls generalizing s with
  | nil =>
      cases Except.ok.inj returns
      exact .refl s.kernel
  | cons call calls inductionHypothesis =>
      obtain ⟨k, first, later⟩ := run_cons_eq_ok_iff.mp returns
      let next : Sys β := { s with kernel := k }
      have steps : step cfg s (.call call) = .ok next :=
        map_eq_ok_iff.mpr ⟨k, first, rfl⟩
      obtain ⟨objects, runningTid, nEvents⟩ :=
        inductionHypothesis (s := next) (reachable.step steps) later
      obtain ⟨acts, shape, trace⟩ := step_trace (reachable_sound reachable) steps
      have sameEvents := trace.invariant Act.Quiet
        (fun k => k.events.nEvents = s.kernel.events.nEvents)
        (fun k act k' quiet same acts => (acts.nEvents quiet).trans same)
        (shape.quiet nofun) rfl
      have sameObjects := step_sameObjects (reachable_sound reachable) steps nofun
      exact ⟨sameObjects.trans objects,
        runningTid.trans (step_call_runningTid reachable steps),
        nEvents.trans sameEvents⟩

theorem SameObjects.osMsgQFind
    (same : SameObjects k k') (cfg : Config) (taskId : Nat) :
    k'.queues.osMsgQFind cfg taskId = k.queues.osMsgQFind cfg taskId := by
  have scan : ∀ remaining queue,
      k'.queues.osMsgQFindFrom taskId remaining queue =
        k.queues.osMsgQFindFrom taskId remaining queue := by
    intro remaining
    induction remaining with
    | zero => exact fun _ => rfl
    | succ remaining inductionHypothesis =>
        intro queue
        rw [QueueTable.osMsgQFindFrom, QueueTable.osMsgQFindFrom, same.taskId,
          inductionHypothesis]
  unfold QueueTable.osMsgQFind
  rw [same.nQueues, scan]

theorem SameObjects.osMsgQEventGet
    (same : SameObjects k k') (cfg : Config) (queue : Nat) :
    k'.queues.osMsgQEventGet cfg queue = k.queues.osMsgQEventGet cfg queue := by
  unfold QueueTable.osMsgQEventGet
  rw [same.nQueues, same.change]

/-! ## What a macro has written -/

/-- The second kernel is the first with another note of who signalled an event
last. -/
def Renoted (eventId : Nat) (k k' : Kernel β) : Prop :=
  ∃ signaller,
    k' = { k with events := k.events.setSignaledByTid eventId signaller }

theorem setSignaledByTid_self
    (events : EventTable) (eventId tid tid' : Nat) :
    (events.setSignaledByTid eventId tid).setSignaledByTid eventId tid' =
      events.setSignaledByTid eventId tid' := by
  unfold EventTable.setSignaledByTid
  simp

theorem setSignaledByTid_comm
    (events : EventTable) {eventId other : Nat} (different : other ≠ eventId)
    (tid tid' : Nat) :
    (events.setSignaledByTid eventId tid).setSignaledByTid other tid' =
      (events.setSignaledByTid other tid').setSignaledByTid eventId tid := by
  unfold EventTable.setSignaledByTid
  simp only [Function.update_of_ne different,
    Function.update_of_ne (Ne.symm different)]
  rw [Function.update_comm different]

theorem Renoted.isrSignalled
    {eventId : Nat} (renoted : Renoted eventId k k') (other : Nat) :
    Renoted eventId (k.isrSignalled cfg other) (k'.isrSignalled cfg other) := by
  obtain ⟨signaller, rfl⟩ := renoted
  let noted : EventTable := { k.events with lastSignaledEvent := other }
  by_cases same : other = eventId
  · subst same
    refine ⟨isrTid, ?_⟩
    have last := (setSignaledByTid_self noted other signaller isrTid).trans
      (setSignaledByTid_self noted other isrTid isrTid).symm
    exact congrArg (fun events =>
      { k.signalled cfg other with events := events }) last
  · refine ⟨signaller, ?_⟩
    have apart := setSignaledByTid_comm noted same signaller isrTid
    exact congrArg (fun events =>
      { k.signalled cfg other with events := events }) apart

/-- No call reads who signalled an event. -/
theorem Renoted.blind
    (cfg : Config) (allowed : Kernel β → Call → Prop) (eventId : Nat) :
    Blind cfg allowed (Renoted eventId) where
  nTasks := by
    rintro k _ ⟨signaller, rfl⟩
    rfl
  queues := by
    rintro k _ ⟨signaller, rfl⟩
    rfl
  seen := by
    rintro k _ ⟨signaller, rfl⟩ tid
    exact ⟨rfl, rfl, rfl, rfl, rfl⟩
  record := by
    rintro k _ ⟨signaller, rfl⟩ entry
    exact ⟨signaller, rfl⟩
  setQueue := by
    rintro k _ ⟨signaller, rfl⟩ queue q
    exact ⟨signaller, rfl⟩
  isrSignalled := Renoted.isrSignalled
  increment := by
    rintro k _ ⟨signaller, rfl⟩ sem
    exact ⟨signaller, rfl⟩
  tick := by
    rintro k _ ⟨signaller, rfl⟩ tid clockId tickSize
    exact ⟨signaller, rfl⟩
  release := by
    rintro k _ ⟨signaller, rfl⟩ tid
    exact ⟨signaller, rfl⟩
  suspend := by
    rintro k _ ⟨signaller, rfl⟩ tid _
    exact ⟨signaller, rfl⟩
  resume := by
    rintro k _ ⟨signaller, rfl⟩ tid
    exact ⟨signaller, rfl⟩
  kill := by
    rintro k _ ⟨signaller, rfl⟩ tid
    exact ⟨signaller, rfl⟩

theorem blind_eq (cfg : Config) (allowed : Kernel β → Call → Prop) :
    Blind cfg allowed Eq where
  nTasks same := same ▸ rfl
  queues same := same ▸ rfl
  seen same _ := same ▸ ⟨rfl, rfl, rfl, rfl, rfl⟩
  record same _ := same ▸ rfl
  setQueue same _ _ := same ▸ rfl
  isrSignalled same _ := same ▸ rfl
  increment same _ := same ▸ rfl
  tick same _ _ _ := same ▸ rfl
  release same _ := same ▸ rfl
  suspend same _ _ := same ▸ rfl
  resume same _ := same ▸ rfl
  kill same _ := same ▸ rfl

/-- What a message macro notes before it waits. -/
def waitNotes (cfg : Config) (k : Kernel β) (taskId : Nat) (result : MsgResult) :
    Mark :=
  let queue := k.queues.osMsgQFind cfg taskId
  .waiting queue (k.queues.osMsgQEventGet cfg queue) result

end Kernel

/-- The second kernel is the first with what the macro, begun in the given
kernel, writes before its opening. -/
def TaskOp.Apart (cfg : Config) (k : Kernel β) :
    TaskOp β → Kernel β → Kernel β → Prop
  | .eventWaitTimeout event _ => Kernel.Renoted event.toNat
  | .msgPost taskId _ _ _ _ =>
      Kernel.Marked k.runningTid (k.waitNotes cfg taskId.toNat .full)
        k.runningTid
  | .msgReceive taskId _ _ =>
      Kernel.Marked k.runningTid (k.waitNotes cfg taskId.toNat .empty)
        k.runningTid
  | _ => Eq

theorem TaskOp.blind_apart (cfg : Config) (k : Kernel β) (op : TaskOp β) :
    Kernel.Blind cfg
      (fun k' call => call.Suspends k.runningTid →
        (k'.tasks.taskList k.runningTid).state ≠ .waitingSem)
      (op.Apart cfg k) := by
  cases op with
  | eventWaitTimeout event _ => exact Kernel.Renoted.blind cfg _ event.toNat
  | msgPost taskId => exact Kernel.Marked.blind cfg _ _ _
  | msgReceive taskId => exact Kernel.Marked.blind cfg _ _ _
  | _ => exact Kernel.blind_eq cfg _

namespace Kernel

variable {cfg : Config} {k k' : Kernel β} {queue : Nat}

theorem osMsgReceive_of_nothingReady
    (nothing : k.NothingReady cfg queue) (pMsg : Msg β) :
    k.osMsgReceive cfg pMsg queue = .ok (.empty, pMsg, k) := by
  obtain ⟨queues, created, empty⟩ := nothing
  unfold osMsgReceive
  rw [if_pos queues, if_neg (Nat.not_le.mpr created)]
  dsimp only
  split_ifs with met
  · rfl
  · rw [empty.resolve_left met]
    rfl

theorem osMsgPost_of_postRefused
    (refused : k.PostRefused cfg queue) (msg : Msg β) (delay period : Nat) :
    k.osMsgPost cfg msg queue delay period =
      .ok (.full, msg.armed delay period, k) := by
  obtain ⟨queues, created, sized, met⟩ := refused
  unfold osMsgPost OSQueue.queuePush
  rw [if_pos queues, if_neg (Nat.not_le.mpr created)]
  dsimp only
  rw [if_neg sized, if_pos met]
  simp [Msg.armed]

/-- `OS_MSG_Q_RECEIVE` goes on when there is a message. -/
theorem osMsgQReceive_runningTid
    {taskId line : Nat} {pMsg : Msg β} {async : Bool}
    {left : Bool × Msg β × Kernel β}
    (ready : ¬ k.NothingReady cfg (k.queues.osMsgQFind cfg taskId))
    (returns : k.osMsgQReceive cfg taskId pMsg async line = .ok left) :
    left.2.2.runningTid = k.runningTid := by
  obtain ⟨⟨result, buffer, k₁⟩, receives, rest⟩ := bind_eq_ok_iff.mp returns
  have ready' : ¬ (k.setWaitQueue cfg taskId).NothingReady cfg
      (k.queues.osMsgQFind cfg taskId) := ready
  have some : result ≠ .empty := fun wrong =>
    ready' ((empty_iff_nothingReady receives).mp wrong)
  have same : k₁.runningTid = k.runningTid := by
    rcases osMsgReceive_cases receives with
      ⟨_, _, rfl⟩ | ⟨_, _, _, q, msg, rfl⟩ <;> rfl
  dsimp only at rest
  rw [if_neg fun both => some both.1] at rest
  obtain ⟨k₂, signals, rest⟩ := bind_eq_ok_iff.mp rest
  rw [← Except.ok.inj rest]
  exact (signalChange_runningTid signals).trans same

/-- `OS_MSG_Q_POST` goes on when there is room. -/
theorem osMsgQPost_runningTid
    {taskId delay period line : Nat} {msg : Msg β} {async : Bool}
    {left : Bool × Kernel β}
    (room : ¬ k.PostRefused cfg (k.queues.osMsgQFind cfg taskId))
    (returns : k.osMsgQPost cfg taskId msg delay period async line = .ok left) :
    left.2.runningTid = k.runningTid := by
  obtain ⟨⟨result, armed, k₁⟩, posts, rest⟩ := bind_eq_ok_iff.mp returns
  have room' : ¬ (k.setWaitQueue cfg taskId).PostRefused cfg
      (k.queues.osMsgQFind cfg taskId) := room
  have taken : result ≠ .full := fun wrong =>
    room' ((full_iff_postRefused posts).mp wrong)
  have same : k₁.runningTid = k.runningTid := by
    rcases osMsgPost_cases posts with ⟨_, rfl⟩ | ⟨_, _, _, _, q, rfl⟩ <;> rfl
  dsimp only at rest
  rw [if_neg fun both => taken both.1] at rest
  obtain ⟨k₂, signals, rest⟩ := bind_eq_ok_iff.mp rest
  rw [← Except.ok.inj rest]
  exact (signalChange_runningTid signals).trans same

end Kernel

/-! ## What follows from the test -/

section

variable {cfg : Config} {s s' : Sys β} {line : Nat} {begun k k' : Kernel β}
variable {rest : Kernel β → Outcome (Sys β)}

/-- `OS_MSG_Q_RECEIVE` gets to its opening when it finds nothing. -/
theorem opening_msgReceive
    {taskId : UInt8} {pMsg : Msg β} {async : Bool}
    (opens : (TaskOp.msgReceive taskId pMsg async).opening cfg s line =
      some (begun, rest)) :
    async = false ∧
      begun = s.kernel.marked s.kernel.runningTid
        (s.kernel.waitNotes cfg taskId.toNat .empty) s.kernel.runningTid ∧
      s.kernel.NothingReady cfg (s.kernel.queues.osMsgQFind cfg taskId.toNat) ∧
      rest = fun k =>
        (k.osWaitSingleEvent cfg (s.kernel.queues.osMsgQEventGet cfg
          (s.kernel.queues.osMsgQFind cfg taskId.toNat)) 0 line).map fun k =>
            s.leaveMacro s.kernel.osGetRunningTid (.receive taskId.toNat pMsg)
              (true, k) := by
  cases async with
  | true => cases opens
  | false =>
      unfold TaskOp.opening at opens
      dsimp only at opens
      split at opens
      · next buffer k receives =>
          have nothing := Kernel.nothingReady_of_empty receives
          rw [Kernel.osMsgReceive_of_nothingReady nothing, Except.ok.injEq,
            Prod.mk.injEq, Prod.mk.injEq] at receives
          obtain ⟨_, rfl, rfl⟩ := receives
          obtain ⟨rfl, rfl⟩ := Prod.mk.inj (Option.some.inj opens)
          refine ⟨rfl, ?_, nothing, rfl⟩
          unfold Kernel.modifyRunning Kernel.setWaitQueue Kernel.modifyRunning
            Kernel.osGetRunningTid Kernel.marked
          dsimp only
          rw [TaskTable.modify_modify]
          rfl
      · cases opens

/-- `OS_MSG_Q_POST` gets to its opening when it is refused. -/
theorem opening_msgPost
    {taskId : UInt8} {msg : Msg β} {delay period : UInt32} {async : Bool}
    (opens : (TaskOp.msgPost taskId msg delay period async).opening cfg s line =
      some (begun, rest)) :
    async = false ∧
      begun = s.kernel.marked s.kernel.runningTid
        (s.kernel.waitNotes cfg taskId.toNat .full) s.kernel.runningTid ∧
      s.kernel.PostRefused cfg (s.kernel.queues.osMsgQFind cfg taskId.toNat) ∧
      rest = fun k =>
        (k.osWaitSingleEvent cfg (s.kernel.queues.osMsgQEventGet cfg
          (s.kernel.queues.osMsgQFind cfg taskId.toNat)) 0 line).map fun k =>
            s.leaveMacro s.kernel.osGetRunningTid
              (.post taskId.toNat msg delay.toNat period.toNat) (true, k) := by
  cases async with
  | true => cases opens
  | false =>
      unfold TaskOp.opening at opens
      dsimp only at opens
      split at opens
      · next armed k posts =>
          have refused := Kernel.postRefused_of_full posts
          rw [Kernel.osMsgPost_of_postRefused refused, Except.ok.injEq,
            Prod.mk.injEq, Prod.mk.injEq] at posts
          obtain ⟨_, rfl, rfl⟩ := posts
          obtain ⟨rfl, rfl⟩ := Prod.mk.inj (Option.some.inj opens)
          refine ⟨rfl, ?_, refused, rfl⟩
          unfold Kernel.modifyRunning Kernel.setWaitQueue Kernel.modifyRunning
            Kernel.osGetRunningTid Kernel.marked
          dsimp only
          rw [TaskTable.modify_modify]
          rfl
      · cases opens

/-- By its opening a macro has written what sets the two kernels apart. -/
theorem opening_apart
    {op : TaskOp β}
    (opens : op.opening cfg s line = some (begun, rest))
    (created : s.kernel.runningTid < s.kernel.tasks.nTasks) :
    op.Apart cfg s.kernel s.kernel begun := by
  cases op with
  | eventWaitTimeout event timeout =>
      obtain ⟨_, same⟩ := Option.ite_none_right_eq_some.mp opens
      cases same
      exact ⟨noTid, rfl⟩
  | semWait sem =>
      obtain ⟨_, same⟩ := Option.ite_none_right_eq_some.mp opens
      cases same
      exact rfl
  | semSignal sem =>
      obtain ⟨_, same⟩ := Option.ite_none_right_eq_some.mp opens
      cases same
      exact rfl
  | msgPost => exact ⟨(opening_msgPost opens).2.1, rfl, created⟩
  | msgReceive => exact ⟨(opening_msgReceive opens).2.1, rfl, created⟩
  | _ => cases opens

/-- The rest of a message macro that blocks, behind the calls of a handler. -/
theorem blockOnChange_marked
    (line : Nat) {taskId : Nat} {result : MsgResult} {k₁ k₂ : Kernel β}
    (same : Kernel.Continues s.kernel k₁)
    (marked : Kernel.Marked s.kernel.runningTid
      (s.kernel.waitNotes cfg taskId result) s.kernel.runningTid k₁ k₂) :
    (k₁.setWaitQueue cfg taskId).blockOnChange cfg result
        (k₁.queues.osMsgQEventGet cfg (k₁.queues.osMsgQFind cfg taskId)) line =
      k₂.osWaitSingleEvent cfg (s.kernel.queues.osMsgQEventGet cfg
        (s.kernel.queues.osMsgQFind cfg taskId)) 0 line := by
  have noted : (k₁.setWaitQueue cfg taskId).modifyRunning
      (fun task => { task with msgResult := result }) = k₂ := by
    rw [marked.marked]
    unfold Kernel.modifyRunning Kernel.setWaitQueue Kernel.modifyRunning
      Kernel.osGetRunningTid Kernel.marked
    dsimp only
    rw [TaskTable.modify_modify, same.objects.osMsgQFind,
      same.objects.osMsgQEventGet, same.runningTid]
    rfl
  unfold Kernel.blockOnChange
  rw [noted, same.objects.osMsgQFind, same.objects.osMsgQEventGet]

/-- If what the macro has found still holds, it does what it would do if it
began after the calls. -/
theorem rest_eq
    {op : TaskOp β} {k₁ k₂ : Kernel β}
    (opens : op.opening cfg s line = some (begun, rest))
    (same : Kernel.Continues s.kernel k₁)
    (apart : op.Apart cfg s.kernel k₁ k₂)
    (fresh : op.Finds cfg k₂ ↔ op.Finds cfg begun) :
    rest k₂ = taskStep cfg { s with kernel := k₁ } line op := by
  cases op with
  | eventWaitTimeout event timeout =>
      obtain ⟨known, same⟩ := Option.ite_none_right_eq_some.mp opens
      cases same
      obtain ⟨signaller, rfl⟩ := apart
      have known' : 0 < cfg.nTotalEvents ∧ event.toNat < k₁.events.nEvents :=
        ⟨known.1, known.2.trans_eq same.nEvents.symm⟩
      have dropped : signaller = noTid := by
        simpa [TaskOp.Finds, EventTable.setSignaledByTid] using fresh
      subst dropped
      unfold taskStep Kernel.osWaitSingleEvent Kernel.osWaitEvent
        Kernel.osGetRunningTid
      dsimp only
      rw [if_pos known']
      cases k₁.tasks.osTaskWaitEvent cfg k₁.runningTid event.toNat true
        timeout.toNat <;> rfl
  | semWait sem =>
      obtain ⟨inside, begins⟩ := Option.ite_none_right_eq_some.mp opens
      cases begins
      obtain rfl : k₁ = k₂ := apart
      have test : k₁.sems.osSemLargerThanZero cfg sem =
          s.kernel.sems.osSemLargerThanZero cfg sem := Bool.eq_iff_iff.mpr fresh
      unfold taskStep Kernel.osWaitSem
      dsimp only
      rw [if_pos inside, test]
      split_ifs
      · rfl
      · cases k₁.onTasks (k₁.tasks.taskWaitSemSet k₁.osGetRunningTid sem) <;> rfl
  | semSignal sem =>
      obtain ⟨inside, begins⟩ := Option.ite_none_right_eq_some.mp opens
      cases begins
      obtain rfl : k₁ = k₂ := apart
      have test : k₁.tasks.osTaskWaitingThisSemaphore sem =
          s.kernel.tasks.osTaskWaitingThisSemaphore sem :=
        Bool.eq_iff_iff.mpr fresh
      unfold taskStep Kernel.osSignalSem
      dsimp only
      rw [if_pos inside, test]
      split_ifs <;> rfl
  | msgPost taskId msg delay period async =>
      obtain ⟨rfl, rfl, refused, rfl⟩ := opening_msgPost opens
      have blocks := blockOnChange_marked line same apart
      obtain ⟨rfl, _, _⟩ := apart
      have refused' : (k₁.setWaitQueue cfg taskId.toNat).PostRefused cfg
          (k₁.queues.osMsgQFind cfg taskId.toNat) := fresh.mpr refused
      unfold taskStep Kernel.osMsgQPost Kernel.msgPostTurn
      dsimp only
      have answers := Kernel.osMsgPost_of_postRefused refused' msg delay.toNat
        period.toNat
      have running : k₁.osGetRunningTid = s.kernel.osGetRunningTid :=
        same.runningTid
      rw [show (k₁.setWaitQueue cfg taskId.toNat).queues = k₁.queues from rfl,
        answers, running]
      simp only [ok_bind, and_self, if_true]
      rw [blocks]
      generalize Kernel.osWaitSingleEvent cfg _ _ 0 line = waits
      cases waits <;> rfl
  | msgReceive taskId pMsg async =>
      obtain ⟨rfl, rfl, nothing, rfl⟩ := opening_msgReceive opens
      have blocks := blockOnChange_marked line same apart
      obtain ⟨rfl, _, _⟩ := apart
      have nothing' : (k₁.setWaitQueue cfg taskId.toNat).NothingReady cfg
          (k₁.queues.osMsgQFind cfg taskId.toNat) := fresh.mpr nothing
      unfold taskStep Kernel.osMsgQReceive Kernel.msgReceiveTurn
      dsimp only
      have running : k₁.osGetRunningTid = s.kernel.osGetRunningTid :=
        same.runningTid
      rw [show (k₁.setWaitQueue cfg taskId.toNat).queues = k₁.queues from rfl,
        Kernel.osMsgReceive_of_nothingReady nothing', running]
      simp only [ok_bind, and_self, if_true]
      rw [blocks]
      generalize Kernel.osWaitSingleEvent cfg _ _ 0 line = waits
      cases waits <;> rfl
  | _ => cases opens

/-- Without handlers the parts make up the macro. -/
theorem opening_rest
    {op : TaskOp β}
    (opens : op.opening cfg s line = some (begun, rest))
    (created : s.kernel.runningTid < s.kernel.tasks.nTasks) :
    rest begun = taskStep cfg s line op :=
  rest_eq opens (.refl s.kernel) (opening_apart opens created) Iff.rfl

/-- A macro that waits at the end of the test gives up the processor. -/
theorem runningTid_of_osWaitSingleEvent
    {k : Kernel β} {event timeout : Nat} {blocked : Kernel β → Sys β}
    (kernel : ∀ k, (blocked k).kernel = k)
    (waits : (k.osWaitSingleEvent cfg event timeout line).map blocked = .ok s') :
    s'.kernel.runningTid = noTid := by
  obtain ⟨k', returns, rfl⟩ := map_eq_ok_iff.mp waits
  obtain ⟨_, _, same⟩ := bind_eq_ok_iff.mp returns
  rw [kernel, ← Except.ok.inj same]
  rfl

/-- Registering a waiter leaves the events alone. -/
theorem events_of_waitEvent
    {k : Kernel β} {event timeout : Nat}
    (waits : (do
      let k ← k.onTasks
        (k.tasks.osTaskWaitEvent cfg k.osGetRunningTid event true timeout)
      .ok { s with kernel := k.osYield line }) = .ok s') :
    s'.kernel.events = k.events := by
  obtain ⟨k', registers, rest⟩ := bind_eq_ok_iff.mp waits
  obtain ⟨tasks, _, rfl⟩ := map_eq_ok_iff.mp registers
  rw [← Except.ok.inj rest]
  rfl

/-- If what the macro has found does not hold any more, it does something
else. -/
theorem rest_ne
    {op : TaskOp β} {k₁ k₂ : Kernel β}
    (opens : op.opening cfg s line = some (begun, rest))
    (runs : s.kernel.runningTid ≠ noTid)
    (same : Kernel.Continues s.kernel k₁)
    (apart : op.Apart cfg s.kernel k₁ k₂)
    (stale : ¬ (op.Finds cfg k₂ ↔ op.Finds cfg begun))
    (returns : rest k₂ = .ok s') :
    taskStep cfg { s with kernel := k₁ } line op ≠ .ok s' := by
  intro returns'
  have runs' : k₁.runningTid ≠ noTid := by rwa [same.runningTid]
  cases op with
  | eventWaitTimeout event timeout =>
      obtain ⟨known, same⟩ := Option.ite_none_right_eq_some.mp opens
      cases same
      obtain ⟨signaller, rfl⟩ := apart
      -- after the calls the macro would drop the note again
      have dropped := rest_eq opens same ⟨noTid, rfl⟩
        (by simp [TaskOp.Finds, EventTable.setSignaledByTid])
      rw [← dropped] at returns'
      have notes := (events_of_waitEvent returns).symm.trans
        (events_of_waitEvent returns')
      have signallers := congrArg
        (fun events => (events.eventList event.toNat).signaledByTid) notes
      apply stale
      simpa [TaskOp.Finds, EventTable.setSignaledByTid] using signallers
  | semWait sem =>
      obtain ⟨inside, begins⟩ := Option.ite_none_right_eq_some.mp opens
      cases begins
      obtain rfl : k₁ = k₂ := apart
      unfold taskStep Kernel.osWaitSem at returns'
      dsimp only at returns returns'
      rw [if_pos inside] at returns'
      by_cases positive : s.kernel.sems.osSemLargerThanZero cfg sem = true
      · have zero : ¬ k₁.sems.osSemLargerThanZero cfg sem = true :=
          fun still => stale (iff_of_true still positive)
        rw [if_pos positive] at returns
        rw [if_neg zero] at returns'
        obtain ⟨k, waits, rfl⟩ := map_eq_ok_iff.mp returns'
        obtain ⟨_, _, yields⟩ := bind_eq_ok_iff.mp waits
        cases yields
        exact runs' (congrArg (fun s => s.kernel.runningTid) (Except.ok.inj returns))
      · have signalled : k₁.sems.osSemLargerThanZero cfg sem = true :=
          by_contra fun still => stale (iff_of_false still positive)
        rw [if_neg positive] at returns
        rw [if_pos signalled] at returns'
        obtain ⟨_, _, yields⟩ := bind_eq_ok_iff.mp returns
        cases yields
        exact runs' (congrArg (fun s => s.kernel.runningTid) (Except.ok.inj returns'))
  | semSignal sem =>
      obtain ⟨inside, begins⟩ := Option.ite_none_right_eq_some.mp opens
      cases begins
      obtain rfl : k₁ = k₂ := apart
      unfold taskStep Kernel.osSignalSem at returns'
      dsimp only at returns returns'
      rw [if_pos inside] at returns'
      by_cases waiting : s.kernel.tasks.osTaskWaitingThisSemaphore sem = true
      · have released : ¬ k₁.tasks.osTaskWaitingThisSemaphore sem = true :=
          fun still => stale (iff_of_true still waiting)
        rw [if_pos waiting] at returns
        rw [if_neg released, ← Except.ok.inj returns] at returns'
        exact runs' (congrArg (fun s => s.kernel.runningTid) (Except.ok.inj returns'))
      · have queued : k₁.tasks.osTaskWaitingThisSemaphore sem = true :=
          by_contra fun still => stale (iff_of_false still waiting)
        rw [if_neg waiting] at returns
        rw [if_pos queued, ← Except.ok.inj returns] at returns'
        exact runs'
          (congrArg (fun s => s.kernel.runningTid) (Except.ok.inj returns')).symm
  | msgPost taskId msg delay period async =>
      obtain ⟨rfl, rfl, refused, rfl⟩ := opening_msgPost opens
      have idle := runningTid_of_osWaitSingleEvent (fun _ => rfl) returns
      obtain ⟨rfl, _, _⟩ := apart
      obtain ⟨left, posts, rfl⟩ := map_eq_ok_iff.mp returns'
      have room : ¬ k₁.PostRefused cfg (k₁.queues.osMsgQFind cfg taskId.toNat) :=
        fun still => stale (iff_of_true still refused)
      have goesOn := Kernel.osMsgQPost_runningTid room posts
      rw [leaveMacro_runningTid] at idle
      exact runs' (goesOn.symm.trans idle)
  | msgReceive taskId pMsg async =>
      obtain ⟨rfl, rfl, nothing, rfl⟩ := opening_msgReceive opens
      have idle := runningTid_of_osWaitSingleEvent (fun _ => rfl) returns
      obtain ⟨rfl, _, _⟩ := apart
      obtain ⟨⟨blocked, buffer, k⟩, receives, rfl⟩ := map_eq_ok_iff.mp returns'
      have ready : ¬ k₁.NothingReady cfg (k₁.queues.osMsgQFind cfg taskId.toNat) :=
        fun still => stale (iff_of_true still nothing)
      have goesOn := Kernel.osMsgQReceive_runningTid ready receives
      dsimp only at idle
      rw [leaveMacro_runningTid] at idle
      exact runs' (goesOn.symm.trans idle)
  | _ => cases opens

/-- Calls before the macro and calls at its opening leave what it writes by
then between them. -/
theorem related_calls
    {op : TaskOp β}
    (reachable : ReachableSys cfg s)
    (runs : s.kernel.runningTid ≠ noTid)
    (opens : op.opening cfg s line = some (begun, rest))
    (calls : List Call) :
    Related (fun k₁ k₂ => Kernel.Continues s.kernel k₁ ∧ op.Apart cfg s.kernel k₁ k₂)
      (run (callStep cfg) s.kernel calls) (run (callStep cfg) begun calls) := by
  have tasks := reachable_tasksSound reachable
  have created := (tasks.runs runs).1
  have related := (op.blind_apart cfg s.kernel).run_of_not_queued
    (opening_apart opens created) reachable created (tasks.running_state runs) calls
  exact related.strengthen fun k₁ _ returns _ apart =>
    ⟨Kernel.continues_of_run reachable returns, apart⟩

/-- The run of the calls and then of the macro. -/
theorem run_calls_task
    {op : TaskOp β} {line : UInt16} {calls : List Call} {k₁ : Kernel β}
    (runs : s.kernel.runningTid ≠ noTid)
    (same : Kernel.Continues s.kernel k₁)
    (returns : run (callStep cfg) s.kernel calls = .ok k₁) :
    run (step cfg) s (calls.map Label.call ++ [.task op line]) =
      taskStep cfg { s with kernel := k₁ } line.toNat op := by
  have runs' : k₁.runningTid ≠ noTid := by rwa [same.runningTid]
  rw [run_append, run_calls, returns]
  refine (run_cons ..).trans ?_
  unfold step
  dsimp only
  rw [if_pos runs']
  exact bind_pure _

/-- Calls at the opening of a macro may come before it, if what it has found
holds after them. -/
theorem openedStep_eq_run
    {label : OpenedLabel β}
    (reachable : ReachableSys cfg s)
    (fresh : label.Fresh cfg s) :
    openedStep cfg s label = run (step cfg) s (label.expand cfg s) := by
  cases label with
  | plain label => exact ((run_cons ..).trans (bind_pure _)).symm
  | task op line calls =>
      unfold openedStep OpenedLabel.expand
      dsimp only
      by_cases runs : s.kernel.runningTid ≠ noTid
      · rw [if_pos runs, if_pos runs]
        cases opens : op.opening cfg s line.toNat with
        | none =>
            refine Eq.symm ((run_cons ..).trans ?_)
            exact (congrArg (· >>= pure) (if_pos runs)).trans (bind_pure _)
        | some parts =>
            obtain ⟨begun, rest⟩ := parts
            have related := related_calls reachable runs opens calls
            dsimp only
            generalize before : run (callStep cfg) s.kernel calls = first at related
            generalize atOpening : run (callStep cfg) begun calls = second at related
            cases related with
            | stop stopped =>
                rw [run_append, run_calls, before]
                rfl
            | value both =>
                rw [run_calls_task runs both.1 before]
                exact rest_eq opens both.1 both.2
                  (fresh begun rest _ opens atOpening)
      · rw [if_neg runs, if_neg runs]
        refine Eq.symm ((run_cons ..).trans ?_)
        exact congrArg (· >>= pure) (if_neg runs)

/-- A handler at the opening of a macro does what it would do before the macro
exactly when what the macro has found holds after its calls. -/
theorem stale_tests_seen
    {label : OpenedLabel β}
    (reachable : ReachableSys cfg s)
    (steps : openedStep cfg s label = .ok s') :
    run (step cfg) s (label.expand cfg s) = .ok s' ↔ label.Fresh cfg s := by
  constructor
  · intro plain
    cases label with
    | plain label => trivial
    | task op line calls =>
        intro begun rest k opens atOpening
        by_contra stale
        unfold openedStep at steps
        unfold OpenedLabel.expand at plain
        dsimp only at steps plain
        split_ifs at steps plain with runs
        rw [opens] at steps plain
        dsimp only at steps plain
        rw [atOpening] at steps
        have related := related_calls reachable runs opens calls
        generalize before : run (callStep cfg) s.kernel calls = first at related
        rw [atOpening] at related
        cases related with
        | value both =>
            rw [run_calls_task runs both.1 before] at plain
            exact rest_ne opens runs both.1 both.2 stale steps plain
  · intro fresh
    rw [← openedStep_eq_run reachable fresh]
    exact steps

end

/-- The second task finds the semaphore zero, a handler signals it, and the task
waits for it all the same. -/
theorem stale_tests_seen_setUp :
    ∃ s s' : Sys Nat,
      run (step (Config.small false)) (Sys.boot (Config.small false))
        (setUp 1 2 3 ++ [.osSchedule, .task (.semWait 0) 5,
          .task (.taskWaitId 0 9) 6, .osSchedule]) = .ok s ∧
      openedStep (Config.small false) s
        (.task (.semWait 0) 7 [.semIsrSignal 0]) = .ok s' ∧
      run (step (Config.small false)) s
        ((OpenedLabel.task (.semWait 0) 7 [.semIsrSignal 0]).expand
          (Config.small false) s) ≠ .ok s' ∧
      ¬ (OpenedLabel.task (.semWait 0) 7 [.semIsrSignal 0]).Fresh
        (Config.small false) s ∧
      (s'.kernel.tasks.taskList 1).WaitsForSem 0 ∧
      s'.kernel.sems.osSemValueGet (Config.small false) 0 = 1 := by
  obtain ⟨s, ⟨s', k⟩, before, both, checked⟩ := exists_pair_of_returnsWith
    (run (step (Config.small false)) (Sys.boot (Config.small false))
      (setUp 1 2 3 ++ [.osSchedule, .task (.semWait 0) 5,
        .task (.taskWaitId 0 9) 6, .osSchedule]))
    (fun s => do
      let s' ← openedStep (Config.small false) s
        (.task (.semWait 0) 7 [.semIsrSignal 0])
      let k ← run (callStep (Config.small false)) s.kernel [.semIsrSignal 0]
      .ok (s', k))
    (fun states : Sys Nat × Sys Nat × Kernel Nat =>
      decide (states.1.kernel.sems.osSemLargerThanZero (Config.small false) 0 ≠
          states.2.2.sems.osSemLargerThanZero (Config.small false) 0 ∧
        (states.2.1.kernel.tasks.taskList 1).WaitsForSem 0 ∧
        states.2.1.kernel.sems.osSemValueGet (Config.small false) 0 = 1))
    (by decide +kernel)
  obtain ⟨turned, waits, value⟩ := of_decide_eq_true checked
  obtain ⟨_, steps, rest⟩ := bind_eq_ok_iff.mp both
  obtain ⟨_, handled, same⟩ := bind_eq_ok_iff.mp rest
  cases same
  have stale : ¬ (OpenedLabel.task (.semWait 0) 7 [.semIsrSignal 0]).Fresh
      (Config.small false) s := by
    intro fresh
    have inside : (Config.small false).HasSem 0 := by decide
    have found := fresh s.kernel _ k
      (Option.ite_none_right_eq_some.mpr ⟨inside, rfl⟩) handled
    exact turned (Bool.eq_iff_iff.mpr found).symm
  have seen := stale_tests_seen (reachable_of_run before) steps
  exact ⟨s, s', before, steps, fun plain => stale (seen.mp plain), stale, waits,
    value⟩

section

variable {cfg : Config} {s : Sys β}

/-- Handlers between the tests of macros and what follows from them add no runs,
as long as what the macros have found holds after the calls. -/
theorem fresh_tests_add_no_runs
    {labels : List (OpenedLabel β)}
    (reachable : ReachableSys cfg s)
    (fresh : Meets (openedStep cfg) (fun s label => label.Fresh cfg s) s labels) :
    run (openedStep cfg) s labels =
      run (step cfg) s (beforeMacros cfg s labels) := by
  induction labels generalizing s with
  | nil => rfl
  | cons label labels inductionHypothesis =>
      have moved := openedStep_eq_run reachable fresh.1
      rw [run_cons, beforeMacros, run_append, ← moved]
      cases taken : openedStep cfg s label with
      | error stopped => rfl
      | ok next =>
          have reachable' : ReachableSys cfg next :=
            reachable.run (moved ▸ taken)
          exact inductionHypothesis reachable' (fresh.2 next taken)

end

/-- The first task finds its queue empty, and its callback signals an event. -/
theorem fresh_tests_add_no_runs_setUp :
    ∃ s t : Sys Nat,
      run (step (Config.small false)) (Sys.boot (Config.small false))
        (setUp 1 2 3 ++ [.osSchedule]) = .ok s ∧
      run (openedStep (Config.small false)) s
        [.task (.msgReceive 0 ⟨0, 0, 0, 0⟩ false) 7 [.eventIsrSignal 1],
          .plain .osSchedule] = .ok t ∧
      run (step (Config.small false)) s
        (beforeMacros (Config.small false) s
          [.task (.msgReceive 0 ⟨0, 0, 0, 0⟩ false) 7 [.eventIsrSignal 1],
            .plain .osSchedule]) = .ok t ∧
      t.kernel.runningTid = 1 := by
  obtain ⟨s, t, before, after, checked⟩ := exists_pair_of_returnsWith
    (run (step (Config.small false)) (Sys.boot (Config.small false))
      (setUp 1 2 3 ++ [.osSchedule]))
    (fun s => run (openedStep (Config.small false)) s
      [.task (.msgReceive 0 ⟨0, 0, 0, 0⟩ false) 7 [.eventIsrSignal 1],
        .plain .osSchedule])
    (fun states : Sys Nat × Sys Nat =>
      decide (states.2.kernel.runningTid = 1) &&
        returnsWith (fun k : Kernel Nat =>
          let queue := k.queues.osMsgQFind (Config.small false) 0
          let q := (k.queues.msgQList queue).q
          decide (queue < k.queues.nQueues ∧ (q.tail + 1) % q.size = q.head))
          (run (callStep (Config.small false))
            (states.1.kernel.marked states.1.kernel.runningTid
              (states.1.kernel.waitNotes (Config.small false)
                (0 : UInt8).toNat .empty)
              states.1.kernel.runningTid) [.eventIsrSignal 1]))
    (by decide +kernel)
  obtain ⟨chosen, empty⟩ := (Bool.and_eq_true ..).mp checked
  have fresh : (OpenedLabel.task (.msgReceive 0 ⟨0, 0, 0, 0⟩ false) 7
      [.eventIsrSignal 1]).Fresh (Config.small false) s := by
    intro begun rest k opens handled
    obtain ⟨_, rfl, nothing, _⟩ := opening_msgReceive opens
    refine iff_of_true ?_ nothing
    dsimp only at empty
    rw [handled] at empty
    obtain ⟨inside, met⟩ := of_decide_eq_true empty
    exact ⟨by decide, inside, .inl met⟩
  have allFresh : Meets (openedStep (Config.small false))
      (fun s label => label.Fresh (Config.small false) s) s
      [.task (.msgReceive 0 ⟨0, 0, 0, 0⟩ false) 7 [.eventIsrSignal 1],
        .plain .osSchedule] :=
    ⟨fresh, fun _ _ => ⟨trivial, fun _ _ => trivial⟩⟩
  have plain := fresh_tests_add_no_runs (reachable_of_run before) allFresh
  exact ⟨s, t, before, after, plain ▸ after, of_decide_eq_true chosen⟩

end CocoOs
