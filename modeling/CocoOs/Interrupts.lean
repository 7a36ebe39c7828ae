import CocoOs.Marks

/-!
# Interrupts before a yield

A macro is several calls of the kernel, and an interrupt may come between any
two of them.  Here it comes when a macro has done its work, in the last moment
before it gives up the processor.  What the handler then does it may as well do
right after the macro, with one exception: a task that it suspends in the middle
of `sem_wait` is not made to start again, and goes on without the semaphore.
-/

namespace CocoOs

open Foundation

variable {β : Type}

/-! ## The macros up to their yield -/

namespace Kernel

/-- `blockOnChange` up to its yield. -/
def waitOnChange
    (cfg : Config) (k : Kernel β) (result : MsgResult) (event : Nat) :
    Outcome (Kernel β) :=
  let k := k.modifyRunning fun task => { task with msgResult := result }
  k.osWaitEvent cfg k.osGetRunningTid event true 0 none

/-- A turn of the loop of `OS_MSG_Q_POST` up to its yield.  The first result
tells whether there is one. -/
def msgPostUntilYield
    (cfg : Config) (k : Kernel β)
    (taskId : Nat) (msg : Msg β) (delay period : Nat) (async : Bool)
    (event : Nat) : Outcome (Bool × Kernel β) := do
  let (osPosted, _, k) ←
    k.osMsgPost cfg msg (k.queues.osMsgQFind cfg taskId) delay period
  if osPosted = .full ∧ async = false then do
    let k ← k.waitOnChange cfg osPosted event
    .ok (true, k)
  else do
    let k ← k.signalChange cfg (osPosted = .posted) event
    .ok (false, k)

/-- A turn of the loop of `OS_MSG_Q_RECEIVE` up to its yield. -/
def msgReceiveUntilYield
    (cfg : Config) (k : Kernel β)
    (taskId : Nat) (pMsg : Msg β) (async : Bool) (event : Nat) :
    Outcome (Bool × Msg β × Kernel β) := do
  let (osReceived, pMsg, k) ←
    k.osMsgReceive cfg pMsg (k.queues.osMsgQFind cfg taskId)
  if osReceived = .empty ∧ async = false then do
    let k ← k.waitOnChange cfg osReceived event
    .ok (true, pMsg, k)
  else do
    let pMsg :=
      if osReceived = .empty then { pMsg with signal := noMsgId } else pMsg
    let k ← k.signalChange cfg (osReceived = .received) event
    .ok (false, pMsg, k)

end Kernel

/-- How a task leaves a macro: it goes on, yields, or ends with `OS_END`. -/
inductive Leave
  | goesOn
  | yields (line : Nat)
  | ends

namespace Leave

/-- The task gives up the processor, unless it goes on. -/
def giveUp (k : Kernel β) : Leave → Kernel β
  | .goesOn => k
  | .yields line => k.osYield line
  | .ends => k.osFreeTid

/-- A task that names itself yields. -/
def ifSelf (k : Kernel β) (id line : Nat) : Leave :=
  if id = k.osGetRunningTid then .yields line else .goesOn

/-- A task that blocks in a message macro yields. -/
def ifBlocked (blocked : Bool) (line : Nat) : Leave :=
  if blocked then .yields line else .goesOn

/-- The rest of a macro, with what the handlers call before the task gives up the
processor. -/
def finish (cfg : Config) (calls : List Call) :
    Leave × Sys β → Outcome (Sys β)
  | (.goesOn, s) => .ok s
  | (leave, s) =>
      (run (callStep cfg) s.kernel calls).map
        fun k => { s with kernel := leave.giveUp k }

end Leave

/-- A macro of the running task up to where it gives up the processor. -/
def TaskOp.untilYield (cfg : Config) (s : Sys β) (line : Nat) :
    TaskOp β → Outcome (Leave × Sys β)
  | .taskWaitId id ticks =>
      (s.kernel.onTasks (s.kernel.tasks.osTaskWaitTimeSet
        s.kernel.osGetRunningTid id.toNat ticks.toNat)).map
          fun k => (.yields line, { s with kernel := k })
  | .taskSuspend id =>
      (s.kernel.onTasks (s.kernel.tasks.osTaskSuspend id.toNat)).map
        fun k => (.ifSelf k id.toNat line, { s with kernel := k })
  | .taskResume id =>
      (s.kernel.onTasks (s.kernel.tasks.osTaskResume id.toNat)).map
        fun k => (.ifSelf k id.toNat line, { s with kernel := k })
  | .eventWaitTimeout event timeout =>
      (s.kernel.osWaitEvent cfg s.kernel.osGetRunningTid event.toNat true
        timeout.toNat none).map fun k => (.yields line, { s with kernel := k })
  | .eventWaitMultiple waitAll args =>
      (s.kernel.osWaitMultiple cfg waitAll
        (args.map UInt8.toNat ++ [noEvent])).map
          fun k => (.yields line, { s with kernel := k })
  | .eventSignal event => do
      let k ← s.kernel.osSignalEvent cfg event.toNat
      let k ← k.osEventSetSignalingTid cfg event.toNat k.osGetRunningTid
      .ok (.yields line, { s with kernel := k })
  | .semWait sem =>
      if cfg.HasSem sem then
        if s.kernel.sems.osSemLargerThanZero cfg sem then
          .ok (.goesOn, { s with kernel :=
            { s.kernel with sems := s.kernel.sems.osSemDecrement cfg sem } })
        else
          (s.kernel.onTasks (s.kernel.tasks.taskWaitSemSet
            s.kernel.osGetRunningTid sem)).map
              fun k => (.yields line, { s with kernel := k })
      else .error .bounds
  | .semSignal sem =>
      if cfg.HasSem sem then
        if s.kernel.tasks.osTaskWaitingThisSemaphore sem then
          .ok (.yields line, { s with kernel :=
            { s.kernel with
              tasks := s.kernel.tasks.osTaskReleaseWaitingTask cfg sem } })
        else
          .ok (.goesOn, { s with kernel :=
            { s.kernel with sems := s.kernel.sems.osSemIncrement cfg sem } })
      else .error .bounds
  | .msgPost taskId msg delay period async =>
      let event := s.kernel.queues.osMsgQEventGet cfg
        (s.kernel.queues.osMsgQFind cfg taskId.toNat)
      ((s.kernel.setWaitQueue cfg taskId.toNat).msgPostUntilYield cfg
        taskId.toNat msg delay.toNat period.toNat async event).map
          fun left => (.ifBlocked left.1 line,
            s.leaveMacro s.kernel.osGetRunningTid
              (.post taskId.toNat msg delay.toNat period.toNat) left)
  | .msgReceive taskId pMsg async =>
      let event := s.kernel.queues.osMsgQEventGet cfg
        (s.kernel.queues.osMsgQFind cfg taskId.toNat)
      ((s.kernel.setWaitQueue cfg taskId.toNat).msgReceiveUntilYield cfg
        taskId.toNat pMsg async event).map
          fun (blocked, pMsg, k) => (.ifBlocked blocked line,
            s.leaveMacro s.kernel.osGetRunningTid (.receive taskId.toNat pMsg)
              (blocked, k))
  | .taskClose =>
      (s.kernel.onTasks (s.kernel.tasks.osTaskKill
        s.kernel.osGetRunningTid)).map fun k => (.ends, { s with kernel := k })

/-- What a task that the scheduler has chosen does before it blocks again in the
message macro in which it was blocked. -/
def resumeUntilYield (cfg : Config) (s : Sys β) : Outcome (Leave × Sys β) :=
  let tid := s.kernel.osGetRunningTid
  let task := s.kernel.tasks.taskList tid
  if task.internalState = 0 then .ok (.goesOn, s.setFrame tid .between)
  else
    match s.frame tid with
    | .between => .ok (.goesOn, s)
    | .post taskId msg delay period =>
        if task.msgResult = .full then
          (s.kernel.msgPostUntilYield cfg taskId msg delay period false
            task.msgChangeEvent).map fun left =>
              (.ifBlocked left.1 task.internalState,
                s.leaveMacro tid (.post taskId msg delay period) left)
        else
          (s.kernel.signalChange cfg (task.msgResult = .posted)
            task.msgChangeEvent).map fun k =>
              (.goesOn, s.leaveMacro tid (.post taskId msg delay period) (false, k))
    | .receive taskId pMsg =>
        if task.msgResult = .empty then
          (s.kernel.msgReceiveUntilYield cfg taskId pMsg false
            task.msgChangeEvent).map fun (blocked, pMsg, k) =>
              (.ifBlocked blocked task.internalState,
                s.leaveMacro tid (.receive taskId pMsg) (blocked, k))
        else
          (s.kernel.signalChange cfg (task.msgResult = .received)
            task.msgChangeEvent).map fun k =>
              (.goesOn, s.leaveMacro tid (.receive taskId pMsg) (false, k))

namespace Kernel

theorem blockOnChange_eq
    (cfg : Config) (k : Kernel β) (result : MsgResult) (event line : Nat) :
    k.blockOnChange cfg result event line =
      (k.waitOnChange cfg result event).map fun k => k.osYield line :=
  bind_pure_comp (fun k : Kernel β => k.osYield line)
    (k.waitOnChange cfg result event)

theorem msgPostTurn_eq
    (cfg : Config) (k : Kernel β)
    (taskId : Nat) (msg : Msg β) (delay period : Nat) (async : Bool)
    (event line : Nat) :
    k.msgPostTurn cfg taskId msg delay period async event line =
      (k.msgPostUntilYield cfg taskId msg delay period async event).map
        fun left => (left.1, if left.1 then left.2.osYield line else left.2) := by
  unfold msgPostTurn msgPostUntilYield
  cases k.osMsgPost cfg msg (k.queues.osMsgQFind cfg taskId) delay period with
  | error stopped => rfl
  | ok posted =>
      obtain ⟨osPosted, _, k'⟩ := posted
      simp only [ok_bind]
      split_ifs
      · rw [blockOnChange_eq]
        cases k'.waitOnChange cfg osPosted event <;> rfl
      · cases k'.signalChange cfg _ event <;> rfl

theorem msgReceiveTurn_eq
    (cfg : Config) (k : Kernel β)
    (taskId : Nat) (pMsg : Msg β) (async : Bool) (event line : Nat) :
    k.msgReceiveTurn cfg taskId pMsg async event line =
      (k.msgReceiveUntilYield cfg taskId pMsg async event).map
        fun left => (left.1, left.2.1,
          if left.1 then left.2.2.osYield line else left.2.2) := by
  unfold msgReceiveTurn msgReceiveUntilYield
  cases k.osMsgReceive cfg pMsg (k.queues.osMsgQFind cfg taskId) with
  | error stopped => rfl
  | ok received =>
      obtain ⟨osReceived, buffer, k'⟩ := received
      simp only [ok_bind]
      split_ifs
      · rw [blockOnChange_eq]
        cases k'.waitOnChange cfg osReceived event <;> rfl
      · cases k'.signalChange cfg _ event <;> rfl
      · cases k'.signalChange cfg _ event <;> rfl

end Kernel

theorem Leave.finish_ifSelf
    (cfg : Config) (s : Sys β) (id line : Nat) :
    finish cfg [] (ifSelf s.kernel id line, s) =
      .ok { s with kernel := s.kernel.yieldIfSelf id line } := by
  unfold ifSelf Kernel.yieldIfSelf
  split_ifs <;> rfl

/-- A macro is what it does up to its yield, and the yield. -/
theorem taskStep_eq
    (cfg : Config) (s : Sys β) (line : Nat) (op : TaskOp β) :
    taskStep cfg s line op = op.untilYield cfg s line >>= Leave.finish cfg [] := by
  cases op with
  | taskWaitId id ticks =>
      unfold taskStep TaskOp.untilYield Kernel.osWaitTicks
      dsimp only
      cases s.kernel.onTasks (s.kernel.tasks.osTaskWaitTimeSet
        s.kernel.osGetRunningTid id.toNat ticks.toNat) <;> rfl
  | taskSuspend id =>
      unfold taskStep TaskOp.untilYield Kernel.osSuspendTask
      dsimp only
      cases s.kernel.onTasks (s.kernel.tasks.osTaskSuspend id.toNat) with
      | error stopped => rfl
      | ok k => exact (Leave.finish_ifSelf cfg { s with kernel := k } id.toNat line).symm
  | taskResume id =>
      unfold taskStep TaskOp.untilYield Kernel.osResumeTask
      dsimp only
      cases s.kernel.onTasks (s.kernel.tasks.osTaskResume id.toNat) with
      | error stopped => rfl
      | ok k => exact (Leave.finish_ifSelf cfg { s with kernel := k } id.toNat line).symm
  | eventWaitTimeout event timeout =>
      unfold taskStep TaskOp.untilYield Kernel.osWaitSingleEvent
      dsimp only
      cases s.kernel.osWaitEvent cfg s.kernel.osGetRunningTid event.toNat true
        timeout.toNat none <;> rfl
  | eventWaitMultiple waitAll args =>
      unfold taskStep TaskOp.untilYield Kernel.osWaitMultipleEvents
      dsimp only
      cases s.kernel.osWaitMultiple cfg waitAll
        (args.map UInt8.toNat ++ [noEvent]) <;> rfl
  | eventSignal event =>
      unfold taskStep TaskOp.untilYield Kernel.osSignalEventMacro
      dsimp only
      cases s.kernel.osSignalEvent cfg event.toNat with
      | error stopped => rfl
      | ok k =>
          simp only [ok_bind]
          cases k.osEventSetSignalingTid cfg event.toNat k.osGetRunningTid <;> rfl
  | semWait sem =>
      unfold taskStep TaskOp.untilYield Kernel.osWaitSem
      dsimp only
      split_ifs
      · rfl
      · cases s.kernel.onTasks (s.kernel.tasks.taskWaitSemSet
          s.kernel.osGetRunningTid sem) <;> rfl
      · rfl
  | semSignal sem =>
      unfold taskStep TaskOp.untilYield Kernel.osSignalSem
      dsimp only
      split_ifs <;> rfl
  | msgPost taskId msg delay period async =>
      unfold taskStep TaskOp.untilYield Kernel.osMsgQPost
      dsimp only
      rw [Kernel.msgPostTurn_eq]
      cases (s.kernel.setWaitQueue cfg taskId.toNat).msgPostUntilYield cfg
        taskId.toNat msg delay.toNat period.toNat async _ with
      | error stopped => rfl
      | ok left =>
          obtain ⟨blocked, k⟩ := left
          cases blocked <;> rfl
  | msgReceive taskId pMsg async =>
      unfold taskStep TaskOp.untilYield Kernel.osMsgQReceive
      dsimp only
      rw [Kernel.msgReceiveTurn_eq]
      cases (s.kernel.setWaitQueue cfg taskId.toNat).msgReceiveUntilYield cfg
        taskId.toNat pMsg async _ with
      | error stopped => rfl
      | ok left =>
          obtain ⟨blocked, buffer, k⟩ := left
          cases blocked <;> rfl
  | taskClose =>
      unfold taskStep TaskOp.untilYield Kernel.osEnd
      dsimp only
      cases s.kernel.onTasks (s.kernel.tasks.osTaskKill
        s.kernel.osGetRunningTid) <;> rfl

theorem resumeStep_eq (cfg : Config) (s : Sys β) :
    resumeStep cfg s = resumeUntilYield cfg s >>= Leave.finish cfg [] := by
  unfold resumeStep resumeUntilYield
  dsimp only
  by_cases starts :
      (s.kernel.tasks.taskList s.kernel.osGetRunningTid).internalState = 0
  · rw [if_pos starts, if_pos starts]
    rfl
  · rw [if_neg starts, if_neg starts]
    cases s.frame s.kernel.osGetRunningTid with
    | between => rfl
    | post taskId msg delay period =>
        unfold Kernel.osMsgQPostResume
        dsimp only
        split_ifs
        · rw [Kernel.msgPostTurn_eq]
          cases s.kernel.msgPostUntilYield cfg taskId msg delay period false _ with
          | error stopped => rfl
          | ok left =>
              obtain ⟨blocked, k⟩ := left
              cases blocked <;> rfl
        · cases s.kernel.signalChange cfg _ _ <;> rfl
    | receive taskId pMsg =>
        unfold Kernel.osMsgQReceiveResume
        dsimp only
        split_ifs
        · rw [Kernel.msgReceiveTurn_eq]
          cases s.kernel.msgReceiveUntilYield cfg taskId pMsg false _ with
          | error stopped => rfl
          | ok left =>
              obtain ⟨blocked, buffer, k⟩ := left
              cases blocked <;> rfl
        · cases s.kernel.signalChange cfg _ _ <;> rfl

/-! ## The running task -/

namespace Kernel

variable {cfg : Config} {k k' : Kernel β}

theorem osWaitEvent_runningTid
    {tid event timeout : Nat} {single : Bool}
    (returns : k.osWaitEvent cfg tid event single timeout none = .ok k') :
    k'.runningTid = k.runningTid := by
  unfold osWaitEvent at returns
  split_ifs at returns
  · obtain ⟨tasks, _, same⟩ := bind_eq_ok_iff.mp returns
    rw [← Except.ok.inj same]
  · rw [← Except.ok.inj returns]

theorem signalChange_runningTid
    {done : Bool} {event : Nat}
    (returns : k.signalChange cfg done event = .ok k') :
    k'.runningTid = k.runningTid := by
  unfold signalChange at returns
  split_ifs at returns
  · obtain ⟨k₁, signals, notes⟩ := bind_eq_ok_iff.mp returns
    rw [← osSignalEvent_runningTid signals]
    unfold osEventSetSignalingTid at notes
    split_ifs at notes <;> rw [← Except.ok.inj notes]
  · rw [← Except.ok.inj returns]

theorem msgPostUntilYield_runningTid
    {taskId delay period event : Nat} {msg : Msg β} {async : Bool}
    {left : Bool × Kernel β}
    (returns : k.msgPostUntilYield cfg taskId msg delay period async event =
      .ok left) :
    left.2.runningTid = k.runningTid := by
  obtain ⟨⟨osPosted, armed, k₁⟩, posts, rest⟩ := bind_eq_ok_iff.mp returns
  have same : k₁.runningTid = k.runningTid := by
    rcases osMsgPost_cases posts with ⟨_, rfl⟩ | ⟨_, _, _, _, q, rfl⟩ <;> rfl
  dsimp only at rest
  split_ifs at rest
  · obtain ⟨k₂, waits, rest⟩ := bind_eq_ok_iff.mp rest
    rw [← Except.ok.inj rest]
    exact (osWaitEvent_runningTid waits).trans same
  · obtain ⟨k₂, signals, rest⟩ := bind_eq_ok_iff.mp rest
    rw [← Except.ok.inj rest]
    exact (signalChange_runningTid signals).trans same

theorem msgReceiveUntilYield_runningTid
    {taskId event : Nat} {pMsg : Msg β} {async : Bool}
    {left : Bool × Msg β × Kernel β}
    (returns : k.msgReceiveUntilYield cfg taskId pMsg async event = .ok left) :
    left.2.2.runningTid = k.runningTid := by
  obtain ⟨⟨osReceived, buffer, k₁⟩, receives, rest⟩ := bind_eq_ok_iff.mp returns
  have same : k₁.runningTid = k.runningTid := by
    rcases osMsgReceive_cases receives with ⟨_, _, rfl⟩ | ⟨_, _, _, q, msg, rfl⟩ <;> rfl
  dsimp only at rest
  split_ifs at rest
  all_goals
    obtain ⟨k₂, acts, rest⟩ := bind_eq_ok_iff.mp rest
    rw [← Except.ok.inj rest]
  · exact (osWaitEvent_runningTid acts).trans same
  · exact (signalChange_runningTid acts).trans same
  · exact (signalChange_runningTid acts).trans same

theorem onTasks_runningTid
    {tasks : Outcome TaskTable}
    (returns : k.onTasks tasks = .ok k') :
    k'.runningTid = k.runningTid := by
  obtain ⟨_, _, rfl⟩ := onTasks_eq_ok_iff.mp returns
  rfl

end Kernel

section

variable {cfg : Config} {s t : Sys β} {leave : Leave}

theorem leaveMacro_runningTid
    (s : Sys β) (tid : Nat) (frame : Frame β) (left : Bool × Kernel β) :
    (s.leaveMacro tid frame left).kernel.runningTid = left.2.runningTid := by
  unfold Sys.leaveMacro
  split_ifs <;> rfl

/-- The task still runs when it gives up the processor. -/
theorem TaskOp.untilYield_runningTid
    {line : Nat} {op : TaskOp β}
    (reaches : op.untilYield cfg s line = .ok (leave, t)) :
    t.kernel.runningTid = s.kernel.runningTid := by
  cases op with
  | taskWaitId | taskSuspend | taskResume | taskClose =>
      obtain ⟨k, returns, same⟩ := map_eq_ok_iff.mp reaches
      cases same
      exact Kernel.onTasks_runningTid returns
  | eventWaitTimeout event timeout =>
      obtain ⟨k, returns, same⟩ := map_eq_ok_iff.mp reaches
      cases same
      exact Kernel.osWaitEvent_runningTid returns
  | eventWaitMultiple waitAll args =>
      obtain ⟨k, returns, same⟩ := map_eq_ok_iff.mp reaches
      cases same
      rcases Kernel.osWaitMultiple_cases returns with ⟨_, rfl⟩ | ⟨_, _, _, _, rfl⟩
      · rfl
      · rfl
  | eventSignal event =>
      obtain ⟨k₁, signals, rest⟩ := bind_eq_ok_iff.mp reaches
      obtain ⟨k₂, notes, same⟩ := bind_eq_ok_iff.mp rest
      cases same
      rw [← Kernel.osSignalEvent_runningTid signals]
      unfold Kernel.osEventSetSignalingTid at notes
      split_ifs at notes <;> rw [← Except.ok.inj notes]
  | semWait sem =>
      unfold untilYield at reaches
      dsimp only at reaches
      split_ifs at reaches
      · cases reaches
        rfl
      · obtain ⟨k, returns, same⟩ := map_eq_ok_iff.mp reaches
        cases same
        exact Kernel.onTasks_runningTid returns
  | semSignal sem =>
      unfold untilYield at reaches
      dsimp only at reaches
      split_ifs at reaches <;>
      · cases reaches
        rfl
  | msgPost taskId msg delay period async =>
      obtain ⟨left, returns, same⟩ := map_eq_ok_iff.mp reaches
      cases same
      rw [leaveMacro_runningTid]
      have running := Kernel.msgPostUntilYield_runningTid returns
      exact running
  | msgReceive taskId pMsg async =>
      obtain ⟨left, returns, same⟩ := map_eq_ok_iff.mp reaches
      cases same
      rw [leaveMacro_runningTid]
      have running := Kernel.msgReceiveUntilYield_runningTid returns
      exact running

theorem resumeUntilYield_runningTid
    (reaches : resumeUntilYield cfg s = .ok (leave, t)) :
    t.kernel.runningTid = s.kernel.runningTid := by
  unfold resumeUntilYield at reaches
  dsimp only at reaches
  by_cases starts :
      (s.kernel.tasks.taskList s.kernel.osGetRunningTid).internalState = 0
  · rw [if_pos starts] at reaches
    cases reaches
    rfl
  · rw [if_neg starts] at reaches
    cases frame : s.frame s.kernel.osGetRunningTid with
    | between =>
        rw [frame] at reaches
        cases reaches
        rfl
    | post taskId msg delay period =>
        rw [frame] at reaches
        dsimp only at reaches
        split_ifs at reaches
        · obtain ⟨left, returns, same⟩ := map_eq_ok_iff.mp reaches
          cases same
          rw [leaveMacro_runningTid]
          exact Kernel.msgPostUntilYield_runningTid returns
        · obtain ⟨k, signals, same⟩ := map_eq_ok_iff.mp reaches
          cases same
          rw [leaveMacro_runningTid]
          exact Kernel.signalChange_runningTid signals
    | receive taskId pMsg =>
        rw [frame] at reaches
        dsimp only at reaches
        split_ifs at reaches
        · obtain ⟨left, returns, same⟩ := map_eq_ok_iff.mp reaches
          cases same
          rw [leaveMacro_runningTid]
          exact Kernel.msgReceiveUntilYield_runningTid returns
        · obtain ⟨k, signals, same⟩ := map_eq_ok_iff.mp reaches
          cases same
          rw [leaveMacro_runningTid]
          exact Kernel.signalChange_runningTid signals

end

/-! ## The system with interrupts inside macros -/

/-- The steps of the system, in which handlers may make calls before a task
gives up the processor: in a macro, or when a task that was chosen blocks again
in its message macro. -/
inductive InterruptedLabel (β : Type)
  | plain (label : Label β)
  | task (op : TaskOp β) (line : UInt16) (calls : List Call)
  | osSchedule (calls : List Call)

namespace InterruptedLabel

/-- The step without interrupts. -/
def label : InterruptedLabel β → Label β
  | .plain label => label
  | .task op line _ => .task op line
  | .osSchedule _ => .osSchedule

/-- The calls of the handlers. -/
def calls : InterruptedLabel β → List Call
  | .plain _ => []
  | .task _ _ calls => calls
  | .osSchedule calls => calls

/-- The step up to where the task gives up the processor. -/
def reach (cfg : Config) (s : Sys β) :
    InterruptedLabel β → Outcome (Leave × Sys β)
  | .plain label => (step cfg s label).map fun t => (.goesOn, t)
  | .task op line _ =>
      if s.kernel.runningTid ≠ noTid then op.untilYield cfg s line.toNat
      else .error .disabled
  | .osSchedule _ =>
      if s.kernel.runningTid = noTid then do
        let k ← s.kernel.selectTask cfg
        let s := { s with kernel := k }
        if k.runningTid ≠ noTid then
          if k.runningTid < k.tasks.nTasks then resumeUntilYield cfg s
          else .error .assertion
        else .ok (.goesOn, s)
      else .error .disabled

/-- The step without interrupts and then the calls, if the task gives up the
processor. -/
def expand (cfg : Config) (s : Sys β) (label : InterruptedLabel β) :
    List (Label β) :=
  label.label ::
    match label.reach cfg s with
    | .ok (.yields _, _) => label.calls.map Label.call
    | .ok (.ends, _) => label.calls.map Label.call
    | _ => []

end InterruptedLabel

/-- The step function of the system with interrupts inside macros. -/
def interruptedStep (cfg : Config) (s : Sys β) (label : InterruptedLabel β) :
    Outcome (Sys β) :=
  label.reach cfg s >>= Leave.finish cfg label.calls

/-- The run in which the handlers come after the yields. -/
def afterYields (cfg : Config) :
    Sys β → List (InterruptedLabel β) → List (Label β)
  | _, [] => []
  | s, label :: labels =>
      label.expand cfg s ++
        match interruptedStep cfg s label with
        | .ok next => afterYields cfg next labels
        | .error _ => []

/-- No handler suspends the running task while it is queued at the semaphore it
waits for. -/
def SparesWaiter (cfg : Config) (s : Sys β) : InterruptedLabel β → Prop
  | .task (.semWait sem) line calls =>
      ∀ next, step cfg s (.task (.semWait sem) line) = .ok next →
        Meets (callStep cfg) (fun k call => call.Suspends s.kernel.runningTid →
          (k.tasks.taskList s.kernel.runningTid).state ≠ .waitingSem)
          next.kernel calls
  | _ => True

section

variable {cfg : Config} {s s' t : Sys β} {leave : Leave}
variable {label : InterruptedLabel β}

theorem InterruptedLabel.step_eq
    (cfg : Config) (s : Sys β) (label : InterruptedLabel β) :
    step cfg s label.label = label.reach cfg s >>= Leave.finish cfg [] := by
  cases label with
  | plain label =>
      unfold reach InterruptedLabel.label
      dsimp only
      cases step cfg s label <;> rfl
  | task op line calls =>
      unfold reach InterruptedLabel.label step
      dsimp only
      split_ifs
      · exact taskStep_eq cfg s line.toNat op
      · rfl
  | osSchedule calls =>
      unfold reach InterruptedLabel.label step scheduleStep
      dsimp only
      split_ifs
      · cases s.kernel.selectTask cfg with
        | error stopped => rfl
        | ok k =>
            simp only [ok_bind]
            split_ifs
            · exact resumeStep_eq cfg { s with kernel := k }
            · rfl
            · rfl
      · rfl

/-- Where a task gives up the processor it is the one that took the step, and was
not queued at a semaphore before. -/
theorem InterruptedLabel.reach_running
    (reachable : ReachableSys cfg s)
    (reaches : label.reach cfg s = .ok (leave, t))
    (givesUp : leave ≠ .goesOn) :
    t.kernel.runningTid < s.kernel.tasks.nTasks ∧
      (s.kernel.tasks.taskList t.kernel.runningTid).state ≠ .waitingSem := by
  have tasks := reachable_tasksSound reachable
  cases label with
  | plain label =>
      obtain ⟨next, _, same⟩ := map_eq_ok_iff.mp reaches
      cases same
      exact absurd rfl givesUp
  | task op line calls =>
      obtain ⟨runs, reached⟩ := guard_eq_ok_iff.mp reaches
      rw [TaskOp.untilYield_runningTid reached]
      exact ⟨(tasks.runs runs).1, tasks.running_state runs⟩
  | osSchedule calls =>
      obtain ⟨idle, rest⟩ := guard_eq_ok_iff.mp reaches
      obtain ⟨k, selects, resumes⟩ := bind_eq_ok_iff.mp rest
      obtain ⟨nTasks, taskList, _⟩ := Kernel.selectTask_frame selects
      dsimp only at resumes
      split_ifs at resumes with chosen created
      · have ready := Kernel.selectTask_ready selects chosen
        have notQueued : (s.kernel.tasks.taskList k.runningTid).state ≠
            .waitingSem := by
          rw [ready]
          decide
        rw [resumeUntilYield_runningTid resumes]
        exact ⟨nTasks ▸ created, notQueued⟩
      · cases resumes
        exact absurd rfl givesUp

/-- The kernel when the task has given up the processor. -/
theorem InterruptedLabel.step_label
    (reaches : label.reach cfg s = .ok (leave, t)) :
    step cfg s label.label =
      .ok { t with kernel := leave.giveUp t.kernel } := by
  rw [step_eq, reaches]
  cases leave <;> rfl

theorem giveUp_tasks_nTasks (k : Kernel β) (leave : Leave) :
    (leave.giveUp k).tasks.nTasks = k.tasks.nTasks := by
  cases leave <;> rfl

/-- The calls of the handlers before the task gives up the processor, and after
it. -/
theorem Leave.finish_eq_run
    {calls : List Call}
    (givesUp : leave ≠ .goesOn)
    (created : t.kernel.runningTid < t.kernel.tasks.nTasks)
    (queued : Meets (callStep cfg)
      (fun k call => call.Suspends t.kernel.runningTid →
        (k.tasks.taskList t.kernel.runningTid).state ≠ .waitingSem)
      (leave.giveUp t.kernel) calls) :
    finish cfg calls (leave, t) =
      run (step cfg) { t with kernel := leave.giveUp t.kernel }
        (calls.map Label.call) := by
  have moved : (run (callStep cfg) t.kernel calls).map leave.giveUp =
      run (callStep cfg) (leave.giveUp t.kernel) calls := by
    cases leave with
    | goesOn => exact absurd rfl givesUp
    | yields line => exact Kernel.map_osYield_run created queued
    | ends => exact Kernel.map_osFreeTid_run created queued
  have unfolded : finish cfg calls (leave, t) =
      (run (callStep cfg) t.kernel calls).map
        fun k => { t with kernel := leave.giveUp k } := by
    cases leave with
    | goesOn => exact absurd rfl givesUp
    | yields line => rfl
    | ends => rfl
  rw [unfolded, run_calls, ← moved]
  cases run (callStep cfg) t.kernel calls <;> rfl

/-- Only a suspension in the middle of a `sem_wait` is seen. -/
theorem meets_of_sparesWaiter
    (reachable : ReachableSys cfg s)
    (spares : SparesWaiter cfg s label)
    (reaches : label.reach cfg s = .ok (leave, t))
    (givesUp : leave ≠ .goesOn) :
    Meets (callStep cfg)
      (fun k call => call.Suspends t.kernel.runningTid →
        (k.tasks.taskList t.kernel.runningTid).state ≠ .waitingSem)
      (leave.giveUp t.kernel) label.calls := by
  obtain ⟨created, notQueued⟩ :=
    InterruptedLabel.reach_running reachable reaches givesUp
  have steps := InterruptedLabel.step_label reaches
  have sound := reachable_sound reachable
  by_cases waits : ∃ sem, label.label.WaitsSem sem
  · obtain ⟨sem, waits⟩ := waits
    cases label with
    | plain label =>
        obtain ⟨next, _, same⟩ := map_eq_ok_iff.mp reaches
        cases same
        exact absurd rfl givesUp
    | task op line calls =>
        have running := TaskOp.untilYield_runningTid (guard_eq_ok_iff.mp reaches).2
        rw [running]
        cases op with
        | semWait other => exact spares _ steps
        | _ => exact waits.elim
    | osSchedule calls => exact waits.elim
  · let next : Sys β := { t with kernel := leave.giveUp t.kernel }
    have reachable' : ReachableSys cfg next := reachable.step steps
    exact meets_not_queued reachable'
      (created.trans_le (step_nTasks_le sound steps))
      (step_not_queued reachable created notQueued
        (fun sem wrong => waits ⟨sem, wrong⟩) steps) label.calls

/-- The calls of the handlers may come after the yield, unless they suspend the
task while it is queued at a semaphore. -/
theorem interruptedStep_eq_run
    (reachable : ReachableSys cfg s)
    (spares : SparesWaiter cfg s label) :
    interruptedStep cfg s label = run (step cfg) s (label.expand cfg s) := by
  cases reached : label.reach cfg s with
  | error stopped =>
      rw [InterruptedLabel.expand, run_cons, label.step_eq, interruptedStep, reached]
      rfl
  | ok both =>
      obtain ⟨leave, t⟩ := both
      have steps := InterruptedLabel.step_label reached
      have moved := fun givesUp : leave ≠ .goesOn =>
        Leave.finish_eq_run givesUp
          (by
            rw [← giveUp_tasks_nTasks t.kernel leave]
            exact (InterruptedLabel.reach_running reachable reached givesUp).1.trans_le
              (step_nTasks_le (reachable_sound reachable) steps))
          (meets_of_sparesWaiter reachable spares reached givesUp)
      rw [interruptedStep, InterruptedLabel.expand, run_cons, steps, ok_bind, reached]
      cases leave with
      | goesOn => rfl
      | yields line => exact moved nofun
      | ends => exact moved nofun

/-- Interrupts before a yield add no runs: a run in which handlers make calls
before tasks give up the processor is the run in which they make them right
after, unless a handler suspends a task in the middle of a `sem_wait`. -/
theorem interrupts_before_yields
    {labels : List (InterruptedLabel β)}
    (reachable : ReachableSys cfg s)
    (spares : Meets (interruptedStep cfg) (SparesWaiter cfg) s labels) :
    run (interruptedStep cfg) s labels =
      run (step cfg) s (afterYields cfg s labels) := by
  induction labels generalizing s with
  | nil => rfl
  | cons label labels inductionHypothesis =>
      have moved := interruptedStep_eq_run reachable spares.1
      rw [run_cons, afterYields, run_append, ← moved]
      cases taken : interruptedStep cfg s label with
      | error stopped => rfl
      | ok next =>
          have reachable' : ReachableSys cfg next :=
            reachable.run (moved ▸ taken)
          exact inductionHypothesis reachable' (spares.2 next taken)

end

/-- A handler signals the event that the task has just begun to wait for, before
the task gives up the processor. -/
theorem interrupts_before_yields_setUp :
    ∃ s t : Sys Nat,
      run (step (Config.small false)) (Sys.boot (Config.small false))
        (setUp 1 2 3 ++ [.osSchedule]) = .ok s ∧
      run (interruptedStep (Config.small false)) s
        [.task (.semWait 0) 5 [.osTick],
          .task (.eventWaitTimeout 1 0) 7 [.eventIsrSignal 1],
          .osSchedule []] = .ok t ∧
      run (step (Config.small false)) s
        (afterYields (Config.small false) s
          [.task (.semWait 0) 5 [.osTick],
            .task (.eventWaitTimeout 1 0) 7 [.eventIsrSignal 1],
            .osSchedule []]) = .ok t ∧
      t.kernel.runningTid = 0 := by
  obtain ⟨s, t, before, after, checked⟩ := exists_pair_of_returnsWith
    (run (step (Config.small false)) (Sys.boot (Config.small false))
      (setUp 1 2 3 ++ [.osSchedule]))
    (fun s => run (interruptedStep (Config.small false)) s
      [.task (.semWait 0) 5 [.osTick],
        .task (.eventWaitTimeout 1 0) 7 [.eventIsrSignal 1],
        .osSchedule []])
    (fun states : Sys Nat × Sys Nat => decide (states.2.kernel.runningTid = 0))
    (by decide +kernel)
  have spares : ∀ label ∈
      [InterruptedLabel.task (.semWait 0) 5 [.osTick],
        .task (.eventWaitTimeout 1 0) 7 [.eventIsrSignal 1], .osSchedule []],
      ∀ state : Sys Nat, SparesWaiter (Config.small false) state label := by
    simp only [List.forall_mem_cons]
    refine ⟨fun _ next _ => ⟨nofun, fun _ _ => trivial⟩, fun _ => trivial,
      fun _ => trivial, nofun⟩
  have plain := interrupts_before_yields (reachable_of_run before)
    (.of_forall spares s)
  exact ⟨s, t, before, after, plain ▸ after, of_decide_eq_true checked⟩

section

variable {cfg : Config} {s s' t : Sys β}

/-! ## In the middle of a `sem_wait` -/

/-- A handler that suspends a task queued at a semaphore makes it start over. -/
theorem meets_not_startsOver_iff
    {tid : Nat} {calls : List Call} :
    Meets (step cfg) (fun s label => ¬ StartsOver tid s label) s
        (calls.map Label.call) ↔
      Meets (callStep cfg) (fun k call => call.Suspends tid →
        (k.tasks.taskList tid).state ≠ .waitingSem) s.kernel calls := by
  induction calls generalizing s with
  | nil => exact Iff.rfl
  | cons call calls inductionHypothesis =>
      refine and_congr ?_ ⟨fun later k returns => ?_, fun later next steps => ?_⟩
      · cases call <;> exact not_and
      · exact (inductionHypothesis (s := { s with kernel := k })).mp
          (later _ (map_eq_ok_iff.mpr ⟨k, returns, rfl⟩))
      · obtain ⟨k, returns, rfl⟩ := map_eq_ok_iff.mp steps
        exact inductionHypothesis.mpr (later k returns)

/-- A task that blocks in `sem_wait` yields there. -/
theorem reach_of_semWait
    {sem : Int} {line : UInt16}
    (steps : step cfg s (.task (.semWait sem) line) = .ok t)
    (blocked : t.kernel.runningTid = noTid)
    (calls : List Call) :
    s.kernel.runningTid ≠ noTid ∧
      ∃ t', (InterruptedLabel.task (.semWait sem) line calls).reach cfg s =
          .ok (.yields line.toNat, t') ∧
        t'.kernel.runningTid = s.kernel.runningTid ∧
        t = { t' with kernel := t'.kernel.osYield line.toNat } := by
  obtain ⟨runs, _⟩ := guard_eq_ok_iff.mp steps
  refine ⟨runs, ?_⟩
  have unfolded := InterruptedLabel.step_eq cfg s (.task (.semWait sem) line calls)
  cases reached : (InterruptedLabel.task (.semWait sem) line calls).reach cfg s with
  | error stopped =>
      rw [reached] at unfolded
      cases unfolded.symm.trans steps
  | ok both =>
      obtain ⟨leave, t'⟩ := both
      have steps' := InterruptedLabel.step_label reached
      obtain rfl := Except.ok.inj (steps.symm.trans steps')
      have running := TaskOp.untilYield_runningTid (guard_eq_ok_iff.mp reached).2
      have reached' := (guard_eq_ok_iff.mp reached).2
      unfold TaskOp.untilYield at reached'
      dsimp only at reached'
      split_ifs at reached'
      · cases reached'
        exact absurd blocked (running ▸ runs)
      · obtain ⟨k, _, same⟩ := map_eq_ok_iff.mp reached'
        cases same
        exact ⟨_, rfl, running, rfl⟩

/-- The handlers spare the waiter when no suspension makes it start over. -/
theorem sparesWaiter_iff
    {sem : Int} {line : UInt16} {calls : List Call}
    (steps : step cfg s (.task (.semWait sem) line) = .ok t) :
    SparesWaiter cfg s (.task (.semWait sem) line calls) ↔
      Meets (step cfg) (fun s' label => ¬ StartsOver s.kernel.runningTid s' label)
        t (calls.map Label.call) := by
  rw [meets_not_startsOver_iff]
  constructor
  · intro spares
    exact spares t steps
  · intro meets next steps'
    obtain rfl := Except.ok.inj (steps.symm.trans steps')
    exact meets

/-- A handler that makes its calls in the middle of a `sem_wait`, when the task is
queued and has not yielded, leaves what it leaves right after the yield, but for
the line of the task.  With the calls after the yield, a task that they suspend
while it is queued starts over; in the middle of the macro it goes on behind the
`sem_wait` it was not granted.  So the two are the same exactly when no such
suspension occurs. -/
theorem sem_wait_interrupted
    {sem : Int} {line : UInt16} {calls : List Call}
    (reachable : ReachableSys cfg s)
    (waits : step cfg s (.task (.semWait sem) line) = .ok t)
    (blocked : t.kernel.runningTid = noTid)
    (isLine : line ≠ 0)
    (interrupted :
      interruptedStep cfg s (.task (.semWait sem) line calls) = .ok s') :
    ∃ after, run (step cfg) t (calls.map Label.call) = .ok after ∧
      s' = { after with
        kernel := after.kernel.marked s.kernel.runningTid (.atLine line.toNat)
          noTid } ∧
      (s' = after ↔
        SparesWaiter cfg s (.task (.semWait sem) line calls)) := by
  obtain ⟨runs, t', reaches, running, rfl⟩ := reach_of_semWait waits blocked calls
  rw [interruptedStep, reaches] at interrupted
  obtain ⟨k, handled, rfl⟩ := map_eq_ok_iff.mp interrupted
  have sound := reachable_sound reachable
  have tasks := reachable_tasksSound reachable
  have created := (tasks.runs runs).1.trans_le (step_nTasks_le sound waits)
  have marked : Kernel.Marked s.kernel.runningTid (.atLine line.toNat) noTid
      t'.kernel (t'.kernel.osYield line.toNat) :=
    ⟨by rw [Kernel.osYield_eq, running], running, created⟩
  have related : Related _ (run (callStep cfg) t'.kernel calls)
      (run (callStep cfg) (t'.kernel.osYield line.toNat) calls) :=
    marked.run_callStep_atLine calls
  rw [show run (callStep cfg) t'.kernel calls = .ok k from handled] at related
  generalize later : run (callStep cfg) (t'.kernel.osYield line.toNat) calls =
    result at related
  cases related with
  | @value _ k' both =>
      obtain ⟨line', both⟩ := both
      have after : run (step cfg) { t' with kernel := t'.kernel.osYield line.toNat }
          (calls.map Label.call) = .ok { t' with kernel := k' } := by
        rw [run_calls, later]
        rfl
      have idle : k'.runningTid = noTid := by
        rw [both.marked]
        rfl
      have same : k.osYield line.toNat =
          k'.marked s.kernel.runningTid (.atLine line.toNat) noTid := by
        rw [Kernel.osYield_eq, both.marked, Kernel.marked_atLine_atLine, both.runs]
      have stored := step_yields reachable waits rfl runs nofun blocked
      have place := run_internalState (reachable.step waits) created
        (by rw [blocked]; exact Ne.symm runs)
        (.of_forall (fun label inside state => by
          obtain ⟨call, _, rfl⟩ := List.mem_map.mp inside
          exact nofun) _) after
      rw [stored, ← sparesWaiter_iff waits] at place
      refine ⟨_, after, ?_, ?_⟩
      · unfold Leave.giveUp
        dsimp only
        rw [same]
      · unfold Leave.giveUp
        dsimp only
        rw [same]
        constructor
        · intro unchanged
          by_contra suspended
          have zero := place.2 suspended
          have unmarked : k'.marked s.kernel.runningTid (.atLine line.toNat)
              k'.runningTid = k' := by
            rw [idle]
            exact congrArg Sys.kernel unchanged
          rw [Kernel.marked_atLine_eq_self_iff.mp unmarked] at zero
          exact isLine (UInt16.toNat_inj.mp zero)
        · intro spares
          have kept := Kernel.marked_atLine_eq_self_iff.mpr (place.1 spares)
          rw [idle] at kept
          rw [kept]

end

/-- The second task blocks in `sem_wait` on line 7, and a handler suspends it
before it gives up the processor. -/
theorem sem_wait_interrupted_setUp :
    ∃ s s' t after : Sys Nat,
      run (step (Config.small false)) (Sys.boot (Config.small false))
        (setUp 1 2 3 ++ [.osSchedule, .task (.semWait 0) 5,
          .task (.taskWaitId 0 9) 6, .osSchedule]) = .ok s ∧
      interruptedStep (Config.small false) s
        (.task (.semWait 0) 7 [.osTaskSuspend 1]) = .ok s' ∧
      step (Config.small false) s (.task (.semWait 0) 7) = .ok t ∧
      run (step (Config.small false)) t [.call (.osTaskSuspend 1)] = .ok after ∧
      s' ≠ after ∧
      ¬ SparesWaiter (Config.small false) s
        (.task (.semWait 0) 7 [.osTaskSuspend 1]) := by
  obtain ⟨s, ⟨s', t⟩, before, both, checked⟩ := exists_pair_of_returnsWith
    (run (step (Config.small false)) (Sys.boot (Config.small false))
      (setUp 1 2 3 ++ [.osSchedule, .task (.semWait 0) 5,
        .task (.taskWaitId 0 9) 6, .osSchedule]))
    (fun s => do
      let s' ← interruptedStep (Config.small false) s
        (.task (.semWait 0) 7 [.osTaskSuspend 1])
      let t ← step (Config.small false) s (.task (.semWait 0) 7)
      .ok (s', t))
    (fun states : Sys Nat × Sys Nat × Sys Nat =>
      decide (states.2.2.kernel.runningTid = noTid ∧
        states.1.kernel.runningTid = 1 ∧
        (states.2.2.kernel.tasks.taskList 1).state = .waitingSem))
    (by decide +kernel)
  obtain ⟨blocked, runsNow, queued⟩ := of_decide_eq_true checked
  obtain ⟨_, interrupted, rest⟩ := bind_eq_ok_iff.mp both
  obtain ⟨_, waits, same⟩ := bind_eq_ok_iff.mp rest
  cases same
  obtain ⟨after, later, _, seen⟩ := sem_wait_interrupted (reachable_of_run before)
    waits blocked (by decide) interrupted
  have suspended : ¬ SparesWaiter (Config.small false) s
      (.task (.semWait 0) 7 [.osTaskSuspend 1]) := by
    intro spares
    refine (spares _ waits).1 ?_ ?_
    · rw [runsNow]
      rfl
    · rw [runsNow]
      exact queued
  exact ⟨s, s', t, after, before, interrupted, waits, later,
    fun unchanged => suspended (seen.mp unchanged), suspended⟩

end CocoOs
