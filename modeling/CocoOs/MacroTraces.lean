import CocoOs.FunctionTraces

/-!
# Macros as traces

The macros of a task procedure, each as the list of actions it takes when it
returns.  A wait is a single action: the macro that marks what the task waits
for is the macro that yields.
-/

namespace CocoOs

open Foundation

variable {β : Type}

/-! ## Waiting for events -/

namespace TaskTable

/-- `os_task_wait_event` rewrites the task that waits. -/
theorem osTaskWaitEvent_eq
    (cfg : Config) (tasks : TaskTable)
    (tid eventId : Nat) (waitSingleEvent : Bool) (timeout : Nat) :
    tasks.osTaskWaitEvent cfg tid eventId waitSingleEvent timeout =
      if tid < tasks.nTasks then
        if eventId / 8 < cfg.eventQueueSize then
          .ok (tasks.modify tid
            (Tcb.waitEvent eventId waitSingleEvent timeout))
        else .error .bounds
      else .error .assertion := by
  unfold osTaskWaitEvent osTaskWaitTimeSet
  by_cases created : tid < tasks.nTasks
  · by_cases fits : eventId / 8 < cfg.eventQueueSize
    · by_cases timed : timeout ≠ 0
      · have positive : 0 < timeout := Nat.pos_of_ne_zero timed
        simp only [created, fits, timed, positive, modify_nTasks, if_true,
          ok_bind, modify_modify, not_false_eq_true, ne_eq]
        congr 2
        funext task
        simp [Tcb.waitEvent, timed]
      · simp only [created, fits, timed, if_true, if_false, modify_modify]
        congr 2
        funext task
        simp [Tcb.waitEvent, timed]
    · simp [created, fits]
  · simp [created]

end TaskTable

namespace Kernel

/-- The events `os_wait_multiple` marks: its first argument, and those after it
up to the first `NO_EVENT`. -/
def markedEvents : List Nat → List Nat
  | [] => []
  | event :: rest =>
      event % 256 ::
        (rest.takeWhile fun event => event ≠ noEvent).map fun event => event % 256

/-- The marking loop of `os_wait_multiple` is a fold over the marked events. -/
theorem waitMultipleMark_cases
    {cfg : Config} {runningTid : Nat} {waitForAll : Bool}
    {args : List Nat} {tasks tasks' : TaskTable}
    (returns : waitMultipleMark cfg runningTid waitForAll args tasks =
      .ok tasks') :
    args ≠ [] ∧ runningTid < tasks.nTasks ∧
      (∀ event ∈ markedEvents args, event / 8 < cfg.eventQueueSize) ∧
      tasks' = tasks.modify runningTid fun task =>
        (markedEvents args).foldl
          (fun task event => task.waitEvent event (!waitForAll) 0) task := by
  induction args generalizing tasks with
  | nil => cases returns
  | cons event rest inductionHypothesis =>
      unfold waitMultipleMark at returns
      rw [TaskTable.osTaskWaitEvent_eq] at returns
      simp only [bind_eq_ok_iff, guard_eq_ok_iff, Except.ok.injEq] at returns
      obtain ⟨marked, ⟨created, fits, rfl⟩, returns⟩ := returns
      refine ⟨List.cons_ne_nil event rest, created, ?_⟩
      cases rest with
      | nil => cases returns
      | cons next later =>
          dsimp only at returns
          by_cases more : next ≠ noEvent
          · rw [if_pos more] at returns
            obtain ⟨_, _, laterFit, result⟩ := inductionHypothesis returns
            have listEq : markedEvents (event :: next :: later) =
                event % 256 :: markedEvents (next :: later) := by
              simp [markedEvents, more]
            rw [listEq]
            constructor
            · intro other inside
              rcases List.mem_cons.mp inside with rfl | inLater
              · exact fits
              · exact laterFit other inLater
            · rw [result, TaskTable.modify_modify]
              rfl
          · rw [if_neg more] at returns
            have listEq : markedEvents (event :: next :: later) =
                [event % 256] := by
              simp [markedEvents, not_not.mp more]
            rw [listEq]
            constructor
            · intro other inside
              rw [List.mem_singleton.mp inside]
              exact fits
            · rw [← Except.ok.inj returns]
              rfl

/-- `os_wait_multiple` clears the wait queue of the running task and marks the
events, when there are events at all. -/
theorem osWaitMultiple_cases
    {cfg : Config} {k k' : Kernel β} {waitForAll : Bool} {args : List Nat}
    (returns : k.osWaitMultiple cfg waitForAll args = .ok k') :
    (cfg.nTotalEvents = 0 ∧ k' = k) ∨
    (0 < cfg.nTotalEvents ∧ args ≠ [] ∧ k.runningTid < k.tasks.nTasks ∧
      (Wait.multiple waitForAll (markedEvents args)).Enabled cfg k ∧
      k' = k.modifyTask k.runningTid
        ((Wait.multiple waitForAll (markedEvents args)).apply cfg)) := by
  unfold osWaitMultiple at returns
  by_cases events : 0 < cfg.nTotalEvents
  · right
    rw [if_pos events] at returns
    cases args with
    | nil => cases returns
    | cons first unread =>
        simp only [bind_eq_ok_iff] at returns
        obtain ⟨last, _, returns⟩ := returns
        rw [guard_eq_ok_iff, bind_eq_ok_iff] at returns
        obtain ⟨_, tasks, marks, result⟩ := returns
        obtain ⟨_, created, fits, tasksEq⟩ := waitMultipleMark_cases marks
        refine ⟨events, List.cons_ne_nil first unread, created,
          ⟨by simp [markedEvents], fits⟩, ?_⟩
        rw [← Except.ok.inj result, tasksEq]
        unfold TaskTable.osTaskClearWaitQueue
        rw [TaskTable.modify_modify]
        rfl
  · left
    rw [if_neg events] at returns
    exact ⟨by omega, (Except.ok.inj returns).symm⟩

/-- The actions of a macro that waits for one event and yields. -/
def waitEventActs (cfg : Config) (k : Kernel β) (eventId : Nat) (wait : Wait)
    (line : Nat) : List (Act β) :=
  if 0 < cfg.nTotalEvents ∧ eventId < k.events.nEvents then
    [.signaller eventId noTid, .block k.runningTid wait line]
  else [.yield k.runningTid line]

/-- `OS_WAIT_SINGLE_EVENT`, under the name of the wait it is part of. -/
theorem osWaitSingleEvent_trace
    {cfg : Config} {k k' : Kernel β} {eventId timeout line : Nat}
    (wait : Wait)
    (same : wait.apply cfg = Tcb.waitEvent eventId true timeout)
    (enabled : Wait.EventFits cfg k eventId →
      wait.Enabled cfg
        { k with events := k.events.setSignaledByTid eventId noTid })
    (returns : k.osWaitSingleEvent cfg eventId timeout line = .ok k') :
    Trace (Micro cfg) k (k.waitEventActs cfg eventId wait line) k' := by
  unfold osWaitSingleEvent osWaitEvent at returns
  unfold waitEventActs
  by_cases known : 0 < cfg.nTotalEvents ∧ eventId < k.events.nEvents
  · simp only [known, and_self, if_true, bind_eq_ok_iff,
      TaskTable.osTaskWaitEvent_eq, guard_eq_ok_iff, Except.ok.injEq] at returns
    obtain ⟨waiting, ⟨tasks, ⟨created, fits, rfl⟩, rfl⟩, rfl⟩ := returns
    rw [if_pos known]
    refine .cons (.signaller k eventId noTid) (.single ?_)
    have blocks : Micro cfg _ (.block k.runningTid wait line) _ := .block
      { k with events := k.events.setSignaledByTid eventId noTid } wait line
      created (enabled ⟨known.2, fits⟩)
    unfold blocked at blocks
    rw [same] at blocks
    exact blocks
  · simp only [known, if_false, ok_bind, Except.ok.injEq] at returns
    rw [if_neg known, ← returns]
    exact .single (.yield k line)

/-! ## Messages -/

/-- The actions of one turn of `OS_MSG_Q_POST`, by whether the task blocks. -/
inductive PostActs (cfg : Config) (k : Kernel β)
    (queue delay period : Nat) (msg : Msg β) (async : Bool) (event line : Nat) :
    Bool → List (Act β) → Prop
  | blocked
      (sync : async = false)
      (full : k.PostRefused cfg queue) :
      PostActs cfg k queue delay period msg async event line true
        (.note k.runningTid (.msgResult .full) ::
          k.waitEventActs cfg event (.room queue event) line)
  | posted
      (room : ¬ k.PostRefused cfg queue) :
      PostActs cfg k queue delay period msg async event line false
        (.post queue (msg.armed delay period) ::
          signalActs cfg event k.runningTid)
  | refused
      (notBlocked : async = true ∨ ¬ k.PostRefused cfg queue) :
      PostActs cfg k queue delay period msg async event line false []

/-- `os_msg_post` answers that the queue is full exactly when it refuses. -/
theorem full_iff_postRefused
    {cfg : Config} {k k' : Kernel β} {queue delay period : Nat}
    {msg armed : Msg β} {result : MsgResult}
    (returns : k.osMsgPost cfg msg queue delay period =
      .ok (result, armed, k')) :
    result = .full ↔ k.PostRefused cfg queue := by
  constructor
  · rintro rfl
    exact postRefused_of_full returns
  · rintro ⟨queues, inside, sized, met⟩
    unfold osMsgPost OSQueue.queuePush at returns
    simp only [queues, if_true, Nat.not_le.mpr inside, if_false, sized, met,
      ok_bind] at returns
    simp only [reduceCtorEq, if_false, Except.ok.injEq, Prod.mk.injEq] at returns
    exact returns.1.symm

theorem blockOnChange_trace
    {cfg : Config} {k k' : Kernel β} {result : MsgResult} {event line : Nat}
    (wait : Wait)
    (same : wait.apply cfg = Tcb.waitEvent event true 0)
    (enabled : ∀ noted : Kernel β, noted.queues = k.queues →
      Wait.EventFits cfg noted event → wait.Enabled cfg noted)
    (returns : k.blockOnChange cfg result event line = .ok k') :
    Trace (Micro cfg) k
      (.note k.runningTid (.msgResult result) ::
        k.waitEventActs cfg event wait line) k' := by
  unfold blockOnChange at returns
  refine .cons (.note k (.msgResult result)) ?_
  exact osWaitSingleEvent_trace wait same
    (fun fits => enabled _ rfl fits) returns

theorem msgPostTurn_trace
    {cfg : Config} {k k' : Kernel β}
    {taskId delay period event line : Nat} {msg : Msg β} {async blocked : Bool}
    (returns : k.msgPostTurn cfg taskId msg delay period async event line =
      .ok (blocked, k')) :
    ∃ acts, PostActs cfg k (k.queues.osMsgQFind cfg taskId) delay period msg
        async event line blocked acts ∧
      Trace (Micro cfg) k acts k' := by
  unfold msgPostTurn at returns
  obtain ⟨⟨result, armed, k₁⟩, posts, returns⟩ := bind_eq_ok_iff.mp returns
  dsimp only at returns
  have refusedIff := full_iff_postRefused posts
  by_cases blocks : result = .full ∧ async = false
  · rw [if_pos blocks, bind_eq_ok_iff] at returns
    obtain ⟨k₂, waits, result'⟩ := returns
    simp only [Except.ok.injEq, Prod.mk.injEq] at result'
    obtain ⟨rfl, rfl⟩ := result'
    obtain ⟨rfl, sync⟩ := blocks
    have full := refusedIff.mp rfl
    rcases osMsgPost_cases posts with ⟨_, rfl⟩ | ⟨posted, _⟩
    · refine ⟨_, .blocked sync full, ?_⟩
      refine blockOnChange_trace _ rfl (fun noted queues fits => ⟨fits, ?_⟩) waits
      unfold PostRefused
      rw [queues]
      exact full
    · cases posted
  · rw [if_neg blocks, bind_eq_ok_iff] at returns
    obtain ⟨k₂, signals, result'⟩ := returns
    simp only [Except.ok.injEq, Prod.mk.injEq] at result'
    obtain ⟨rfl, rfl⟩ := result'
    unfold signalChange at signals
    by_cases posted : result = .posted
    · subst posted
      simp only [decide_true, if_true] at signals
      obtain ⟨k₃, first, later⟩ := bind_eq_ok_iff.mp signals
      rcases osMsgPost_cases posts with ⟨wrong, _⟩ | ⟨_, _, _, rfl, q, _⟩
      · exact absurd rfl wrong
      · refine ⟨_, .posted (fun full => ?_), .cons (.post posts) ?_⟩
        · cases refusedIff.mpr full
        have actor : k₃.osGetRunningTid = k.runningTid := by
          rw [osGetRunningTid, osSignalEvent_runningTid first]
          rcases osMsgPost_cases posts with ⟨_, rfl⟩ | ⟨_, _, _, _, q, rfl⟩ <;>
            rfl
        rw [actor] at later
        exact signal_trace first later
    · have notPosted : ¬ (decide (result = .posted) = true) := by
        simpa using posted
      rw [if_neg notPosted] at signals
      refine ⟨[], .refused ?_, ?_⟩
      · by_cases sync : async = false
        · exact .inr fun full => blocks ⟨refusedIff.mpr full, sync⟩
        · exact .inl (by simpa using sync)
      · rcases osMsgPost_cases posts with ⟨_, rfl⟩ | ⟨wrong, _⟩
        · exact Except.ok.inj signals ▸ .nil _
        · exact absurd wrong posted

/-- The actions of one turn of `OS_MSG_Q_RECEIVE`, by whether the task
blocks. -/
inductive ReceiveActs (cfg : Config) (k : Kernel β)
    (queue : Nat) (async : Bool) (event line : Nat) :
    Bool → List (Act β) → Prop
  | blocked
      (sync : async = false)
      (nothing : k.NothingReady cfg queue) :
      ReceiveActs cfg k queue async event line true
        (.note k.runningTid (.msgResult .empty) ::
          k.waitEventActs cfg event (.message queue event) line)
  | received (msg : Msg β)
      (some : ¬ k.NothingReady cfg queue) :
      ReceiveActs cfg k queue async event line false
        (.receive queue msg :: signalActs cfg event k.runningTid)
  | nothing
      (notBlocked : async = true ∨ ¬ k.NothingReady cfg queue) :
      ReceiveActs cfg k queue async event line false []

/-- `os_msg_receive` answers that the queue is empty exactly when nothing is
ready. -/
theorem empty_iff_nothingReady
    {cfg : Config} {k k' : Kernel β} {queue : Nat}
    {pMsg buffer : Msg β} {result : MsgResult}
    (returns : k.osMsgReceive cfg pMsg queue = .ok (result, buffer, k')) :
    result = .empty ↔ k.NothingReady cfg queue := by
  constructor
  · rintro rfl
    exact nothingReady_of_empty returns
  · rintro ⟨queues, inside, nothing⟩
    unfold osMsgReceive at returns
    dsimp only at returns
    rw [if_pos queues, if_neg (Nat.not_le.mpr inside)] at returns
    split_ifs at returns with empty
    · simp only [Except.ok.injEq, Prod.mk.injEq] at returns
      exact returns.1.symm
    · have allDelayed := nothing.resolve_left empty
      simp only [allDelayed, ok_bind, if_true, Except.ok.injEq, Prod.mk.injEq]
        at returns
      exact returns.1.symm

theorem msgReceiveTurn_trace
    {cfg : Config} {k k' : Kernel β}
    {taskId event line : Nat} {pMsg buffer : Msg β} {async blocked : Bool}
    (returns : k.msgReceiveTurn cfg taskId pMsg async event line =
      .ok (blocked, buffer, k')) :
    ∃ acts, ReceiveActs cfg k (k.queues.osMsgQFind cfg taskId) async event line
        blocked acts ∧
      Trace (Micro cfg) k acts k' := by
  unfold msgReceiveTurn at returns
  obtain ⟨⟨result, received, k₁⟩, receives, returns⟩ :=
    bind_eq_ok_iff.mp returns
  dsimp only at returns
  have emptyIff := empty_iff_nothingReady receives
  by_cases blocks : result = .empty ∧ async = false
  · rw [if_pos blocks, bind_eq_ok_iff] at returns
    obtain ⟨k₂, waits, result'⟩ := returns
    simp only [Except.ok.injEq, Prod.mk.injEq] at result'
    obtain ⟨rfl, _, rfl⟩ := result'
    obtain ⟨rfl, sync⟩ := blocks
    have nothing := emptyIff.mp rfl
    rcases osMsgReceive_cases receives with ⟨_, _, rfl⟩ | ⟨wrong, _⟩
    · refine ⟨_, .blocked sync nothing, ?_⟩
      refine blockOnChange_trace _ rfl (fun noted queues fits => ⟨fits, ?_⟩) waits
      unfold NothingReady
      rw [queues]
      exact nothing
    · cases wrong
  · rw [if_neg blocks, bind_eq_ok_iff] at returns
    obtain ⟨k₂, signals, result'⟩ := returns
    simp only [Except.ok.injEq, Prod.mk.injEq] at result'
    obtain ⟨rfl, _, rfl⟩ := result'
    unfold signalChange at signals
    rcases osMsgReceive_cases receives with
      ⟨notReceived, _, rfl⟩ | ⟨rfl, _, _, q, msg, rfl⟩
    · have skips : ¬ (decide (result = .received) = true) := by
        simpa using notReceived
      rw [if_neg skips] at signals
      refine ⟨[], .nothing ?_, Except.ok.inj signals ▸ .nil _⟩
      by_cases sync : async = false
      · exact .inr fun nothing => blocks ⟨emptyIff.mpr nothing, sync⟩
      · exact .inl (by simpa using sync)
    · simp only [decide_true, if_true] at signals
      obtain ⟨k₃, first, later⟩ := bind_eq_ok_iff.mp signals
      have actor : k₃.osGetRunningTid = k.runningTid := by
        rw [osGetRunningTid, osSignalEvent_runningTid first]
        rfl
      rw [actor] at later
      refine ⟨_, .received msg (fun nothing => ?_),
        .cons (.receive receives rfl) (signal_trace first later)⟩
      cases emptyIff.mpr nothing

/-- The action of a message macro that notes what it will wait for. -/
def waitQueueAct (cfg : Config) (k : Kernel β) (taskId : Nat) : Act β :=
  .note k.runningTid
    (.waitQueue (k.queues.osMsgQFind cfg taskId)
      (k.queues.osMsgQEventGet cfg (k.queues.osMsgQFind cfg taskId)))

theorem setWaitQueue_micro (cfg : Config) (k : Kernel β) (taskId : Nat) :
    Micro cfg k (k.waitQueueAct cfg taskId) (k.setWaitQueue cfg taskId) :=
  .note k (.waitQueue _ _)

theorem osMsgQPost_trace
    {cfg : Config} {k k' : Kernel β}
    {taskId delay period line : Nat} {msg : Msg β} {async blocked : Bool}
    (returns : k.osMsgQPost cfg taskId msg delay period async line =
      .ok (blocked, k')) :
    ∃ acts, PostActs cfg (k.setWaitQueue cfg taskId)
        (k.queues.osMsgQFind cfg taskId) delay period msg async
        (k.queues.osMsgQEventGet cfg (k.queues.osMsgQFind cfg taskId)) line
        blocked acts ∧
      Trace (Micro cfg) k (k.waitQueueAct cfg taskId :: acts) k' := by
  obtain ⟨acts, shape, trace⟩ := msgPostTurn_trace returns
  exact ⟨acts, shape, .cons (k.setWaitQueue_micro cfg taskId) trace⟩

theorem osMsgQReceive_trace
    {cfg : Config} {k k' : Kernel β}
    {taskId line : Nat} {pMsg buffer : Msg β} {async blocked : Bool}
    (returns : k.osMsgQReceive cfg taskId pMsg async line =
      .ok (blocked, buffer, k')) :
    ∃ acts, ReceiveActs cfg (k.setWaitQueue cfg taskId)
        (k.queues.osMsgQFind cfg taskId) async
        (k.queues.osMsgQEventGet cfg (k.queues.osMsgQFind cfg taskId)) line
        blocked acts ∧
      Trace (Micro cfg) k (k.waitQueueAct cfg taskId :: acts) k' := by
  obtain ⟨acts, shape, trace⟩ := msgReceiveTurn_trace returns
  exact ⟨acts, shape, .cons (k.setWaitQueue_micro cfg taskId) trace⟩

end Kernel

end CocoOs
