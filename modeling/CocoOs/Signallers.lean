import CocoOs.LastSignal

/-!
# Who signalled an event

A record per event holds who signalled it last.  Every wait for the event
resets the record, so that a woken task reads who woke it exactly when no other
task starts to wait for the event before it goes on.
-/

namespace CocoOs

open Foundation

variable {β : Type}

/-! ## What an action writes -/

/-- What an action writes to the record of an event. -/
def Act.names (eventId : Nat) : Act β → Option Nat
  | .signaller other tid => if other = eventId then some tid else none
  | _ => none

/-- Apart from creation an action changes the record of an event only by
naming a signaller. -/
theorem Micro.signaledByTid
    {cfg : Config} {k k' : Kernel β} {act : Act β}
    (eventId : Nat)
    (quiet : act.Quiet)
    (acts : Micro cfg k act k') :
    (k'.events.eventList eventId).signaledByTid =
      (act.names eventId).getD (k.events.eventList eventId).signaledByTid := by
  cases acts with
  | create => exact quiet.elim
  | select idle selects inside =>
      rw [(Kernel.selectTask_frame selects).2.2.2.1]
      rfl
  | signaller other tid =>
      simp only [EventTable.setSignaledByTid, Act.names]
      by_cases same : other = eventId
      · subst same
        simp
      · rw [if_neg same, Function.update_of_ne (Ne.symm same)]
        rfl
  | post returns =>
      rcases Kernel.osMsgPost_cases returns with
        ⟨_, rfl⟩ | ⟨_, _, _, _, q, rfl⟩ <;> rfl
  | receive returns _ =>
      rcases Kernel.osMsgReceive_cases returns with
        ⟨_, _, rfl⟩ | ⟨_, _, _, q, msg, rfl⟩ <;> rfl
  | _ => rfl

/-- Among the actions every signal of the event is followed by the name of the
issuer, and nothing else is written to its record. -/
structure Paired (eventId issuer : Nat) (acts : List (Act β)) : Prop where
  signalled : .signal eventId ∈ acts →
    lastOf (Act.names eventId) acts = some issuer
  silent : .signal eventId ∉ acts → lastOf (Act.names eventId) acts = none

namespace Paired

variable {eventId issuer : Nat} {acts first second : List (Act β)}

theorem nil : Paired eventId issuer ([] : List (Act β)) :=
  ⟨fun wrong => absurd wrong List.not_mem_nil, fun _ => rfl⟩

theorem append
    (earlier : Paired eventId issuer first)
    (later : Paired eventId issuer second) :
    Paired eventId issuer (first ++ second) := by
  refine ⟨fun signalled => ?_, fun silent => ?_⟩
  · rw [lastOf_append]
    by_cases now : Act.signal eventId ∈ second
    · rw [later.signalled now]
      rfl
    · have before := (List.mem_append.mp signalled).resolve_right now
      rw [later.silent now, earlier.signalled before]
      rfl
  · rw [List.mem_append, not_or] at silent
    rw [lastOf_append, later.silent silent.2, earlier.silent silent.1]
    rfl

/-- An action that neither signals the event nor writes its record. -/
theorem cons
    {act : Act β}
    (notSignal : act ≠ .signal eventId)
    (notName : act.names eventId = none)
    (later : Paired eventId issuer acts) :
    Paired eventId issuer (act :: acts) := by
  have single : Paired eventId issuer [act] := by
    refine ⟨fun signalled => ?_, fun _ => ?_⟩
    · exact absurd (List.mem_singleton.mp signalled).symm notSignal
    · rw [lastOf_cons, notName]
      rfl
  exact single.append later

theorem signalActs (cfg : Config) (eventId event issuer : Nat) :
    Paired eventId issuer (Kernel.signalActs (β := β) cfg event issuer) := by
  unfold Kernel.signalActs
  split_ifs
  · by_cases same : event = eventId
    · subst same
      exact ⟨fun _ => by simp [lastOf, Act.names], fun silent => by simp at silent⟩
    · refine ⟨fun signalled => ?_, fun _ => ?_⟩
      · simp only [List.mem_cons, Act.signal.injEq, reduceCtorEq, List.not_mem_nil,
          or_false] at signalled
        exact absurd signalled.symm same
      · simp [lastOf, Act.names, same]
  · exact nil

theorem isrSignalActs (cfg : Config) (eventId event times : Nat) :
    Paired eventId isrTid (Kernel.isrSignalActs (β := β) cfg event times) := by
  induction times with
  | zero => exact nil
  | succ times inductionHypothesis =>
      exact (signalActs cfg eventId event isrTid).append inductionHypothesis

theorem tickActs
    (cfg : Config) (k : Kernel β) (clockId tickSize eventId : Nat)
    (expired : Nat → Nat) (count : Nat) :
    Paired eventId isrTid (k.tickActs cfg clockId tickSize expired count) := by
  unfold Kernel.tickActs
  induction List.range count with
  | nil => exact nil
  | cons tid tids inductionHypothesis =>
      rw [List.flatMap_cons]
      refine append ?_ inductionHypothesis
      unfold Kernel.taskTickActs Kernel.queueTickActs
      apply cons (by simp) rfl
      split_ifs
      · exact cons (by simp) rfl (isrSignalActs cfg eventId _ _)
      · exact nil
      · exact nil

end Paired

/-! ## Waits for the event -/

/-- The single event a macro may wait for. -/
def TaskOp.awaits (cfg : Config) (k : Kernel β) : TaskOp β → Option Nat
  | .eventWaitTimeout event _ => some event.toNat
  | .msgPost taskId _ _ _ _ =>
      some (k.queues.osMsgQEventGet cfg (k.queues.osMsgQFind cfg taskId.toNat))
  | .msgReceive taskId _ _ =>
      some (k.queues.osMsgQEventGet cfg (k.queues.osMsgQFind cfg taskId.toNat))
  | _ => none

/-- A task that goes on inside a message macro finds no reason to leave it, and
waits for the event once more. -/
def WaitsAgain (cfg : Config) (k : Kernel β) (task : Tcb) (eventId : Nat) :
    Frame β → Prop
  | .between => False
  | .post taskId _ _ _ =>
      task.internalState ≠ 0 ∧ task.msgResult = .full ∧
        k.PostRefused cfg (k.queues.osMsgQFind cfg taskId) ∧
        task.msgChangeEvent = eventId
  | .receive taskId _ =>
      task.internalState ≠ 0 ∧ task.msgResult = .empty ∧
        k.NothingReady cfg (k.queues.osMsgQFind cfg taskId) ∧
        task.msgChangeEvent = eventId

/-- Whether a task waits again is a matter of the queues. -/
theorem waitsAgain_of_queues
    {cfg : Config} {k k' : Kernel β} {task : Tcb} {eventId : Nat}
    {frame : Frame β}
    (same : k'.queues = k.queues) :
    WaitsAgain cfg k task eventId frame ↔
      WaitsAgain cfg k' task eventId frame := by
  cases frame with
  | between => exact Iff.rfl
  | post | receive =>
      simp only [WaitsAgain, Kernel.PostRefused, Kernel.NothingReady, same]

/-- The creation makes an event, for itself or for the queue of a task. -/
def Creation.makesEvent (cfg : Config) : Creation β → Prop
  | .osTaskCreate _ _ _ _ poolSize _ => 0 < poolSize.toNat ∧ 0 < cfg.nQueues
  | .eventCreate => 0 < cfg.nTotalEvents
  | _ => False

/-- The step resets the record of the event: the task that runs it starts to
wait for the event, by itself or inside a message macro, or the step creates
the event. -/
def ResetsRecord (cfg : Config) (eventId : Nat) (s : Sys β) : Label β → Prop
  | .task op _ =>
      op.Waits cfg s.kernel ∧ op.awaits cfg s.kernel = some eventId
  | .osSchedule =>
      s.kernel.HasEvent cfg eventId ∧ ∃ tid,
        scheduled cfg s .osSchedule = some tid ∧ tid ≠ noTid ∧
        WaitsAgain cfg s.kernel (s.kernel.tasks.taskList tid) eventId
          (s.frame tid)
  | .create creation =>
      creation.makesEvent cfg ∧ s.kernel.events.nEvents = eventId
  | _ => False

/-- In whose name the signals of a step are: the task that runs it, or
interrupts. -/
def issuer (cfg : Config) (s : Sys β) : Label β → Nat
  | .task _ _ => s.kernel.runningTid
  | .osSchedule => (scheduled cfg s .osSchedule).getD noTid
  | _ => isrTid

/-! ## The record after a step -/

/-- Among the actions the record of the event is reset, and the event is not
signalled. -/
structure Resets (eventId : Nat) (acts : List (Act β)) : Prop where
  silent : .signal eventId ∉ acts
  reset : lastOf (Act.names eventId) acts = some noTid

/-- The actions reset the record of the event under the condition, and else
write it in the name of the issuer after every signal only. -/
structure Recorded (eventId issuer : Nat) (resets : Prop)
    (acts : List (Act β)) : Prop where
  reset : resets → Resets eventId acts
  paired : ¬ resets → Paired eventId issuer acts

namespace Recorded

variable {eventId issuer : Nat} {resets : Prop} {acts : List (Act β)}

theorem of_paired
    (never : ¬ resets)
    (paired : Paired eventId issuer acts) :
    Recorded eventId issuer resets acts :=
  ⟨fun wrong => absurd wrong never, fun _ => paired⟩

/-- An action that neither signals the event nor writes its record. -/
theorem cons
    {act : Act β}
    (notSignal : act ≠ .signal eventId)
    (notName : act.names eventId = none)
    (later : Recorded eventId issuer resets acts) :
    Recorded eventId issuer resets (act :: acts) := by
  refine ⟨fun holds => ⟨?_, ?_⟩, fun never => ?_⟩
  · rw [List.mem_cons, not_or]
    exact ⟨Ne.symm notSignal, (later.reset holds).silent⟩
  · rw [lastOf_cons, (later.reset holds).reset]
    rfl
  · exact (later.paired never).cons notSignal notName

theorem congr
    {resets' : Prop}
    (recorded : Recorded eventId issuer resets acts)
    (same : resets' ↔ resets) :
    Recorded eventId issuer resets' acts :=
  ⟨fun holds => recorded.reset (same.mp holds),
    fun never => recorded.paired fun holds => never (same.mpr holds)⟩

end Recorded

section

variable {cfg : Config} {k : Kernel β} {eventId event line : Nat}

/-- A wait resets the record of the event it is for. -/
theorem recorded_waitEventActs
    (wait : Wait) (issuer : Nat) :
    Recorded eventId issuer (k.HasEvent cfg event ∧ event = eventId)
      (k.waitEventActs cfg event wait line) := by
  unfold Kernel.waitEventActs
  refine ⟨?_, fun other => ?_⟩
  · rintro ⟨known, rfl⟩
    rw [if_pos ⟨known.1, known.2⟩]
    exact ⟨by simp, by simp [lastOf_cons, Act.names]⟩
  · split_ifs with known
    · have apart : event ≠ eventId := fun same => other ⟨known, same⟩
      apply Paired.cons (by simp)
      · exact if_neg apart
      · exact Paired.nil.cons (by simp) rfl
    · exact Paired.nil.cons (by simp) rfl

/-- A turn of a post waits for its event when it blocks, and else signals in
the name of the running task. -/
theorem Kernel.PostActs.recorded
    {queue delay period : Nat} {msg : Msg β} {async blocked : Bool}
    {acts : List (Act β)}
    (turn : PostActs cfg k queue delay period msg async event line blocked acts) :
    Recorded eventId k.runningTid
      (async = false ∧ k.PostRefused cfg queue ∧ k.HasEvent cfg event ∧
        event = eventId) acts := by
  cases turn with
  | blocked sync full =>
      apply Recorded.cons (by simp) rfl
      apply (recorded_waitEventActs _ k.runningTid).congr
      simp [sync, full]
  | posted room =>
      apply Recorded.of_paired fun waits => room waits.2.1
      exact (Paired.signalActs cfg eventId event k.runningTid).cons (by simp) rfl
  | refused notBlocked =>
      refine .of_paired ?_ .nil
      rintro ⟨sync, full, _⟩
      rcases notBlocked with wrong | room
      · rw [sync] at wrong
        cases wrong
      · exact room full

/-- A turn of a receive does so as well. -/
theorem Kernel.ReceiveActs.recorded
    {queue : Nat} {async blocked : Bool} {acts : List (Act β)}
    (turn : ReceiveActs cfg k queue async event line blocked acts) :
    Recorded eventId k.runningTid
      (async = false ∧ k.NothingReady cfg queue ∧ k.HasEvent cfg event ∧
        event = eventId) acts := by
  cases turn with
  | blocked sync nothing =>
      apply Recorded.cons (by simp) rfl
      apply (recorded_waitEventActs _ k.runningTid).congr
      simp [sync, nothing]
  | received msg some =>
      apply Recorded.of_paired fun waits => some waits.2.1
      exact (Paired.signalActs cfg eventId event k.runningTid).cons (by simp) rfl
  | nothing notBlocked =>
      refine .of_paired ?_ .nil
      rintro ⟨sync, nothing, _⟩
      rcases notBlocked with wrong | some
      · rw [sync] at wrong
        cases wrong
      · exact some nothing

/-- Actions that neither signal the event nor write its record. -/
theorem Paired.of_silent
    {acts : List (Act β)}
    (issuer : Nat)
    (silent : ∀ act ∈ acts, act ≠ .signal eventId ∧ act.names eventId = none) :
    Paired eventId issuer acts := by
  induction acts with
  | nil => exact .nil
  | cons act acts inductionHypothesis =>
      obtain ⟨notSignal, notName⟩ := silent act (List.mem_cons_self ..)
      refine .cons notSignal notName (inductionHypothesis ?_)
      exact fun act inside => silent act (List.mem_cons_of_mem _ inside)

theorem paired_semSignalActs (sem : Int) (issuer : Nat) :
    Paired eventId issuer (k.semSignalActs cfg sem) := by
  apply Paired.of_silent
  unfold Kernel.semSignalActs
  split_ifs <;> simp [Act.names]

theorem paired_selfYieldActs (id issuer : Nat) :
    Paired eventId issuer (k.selfYieldActs id line) := by
  apply Paired.of_silent
  unfold Kernel.selfYieldActs
  split_ifs <;> simp [Act.names]

/-- A call signals in the name of interrupts. -/
theorem CallActs.paired
    {call : Call} {acts : List (Act β)}
    (calls : CallActs cfg k call acts) :
    Paired eventId isrTid acts := by
  cases calls with
  | osTick expired =>
      apply Paired.cons (by simp) rfl
      exact .tickActs cfg k 0 1 eventId expired _
  | osSubTick | osSubNTick => exact .tickActs cfg k _ _ eventId _ _
  | osSubTickMaster | osSubNTickMaster => exact .nil
  | eventIsrSignal event => exact .signalActs cfg eventId event.toNat isrTid
  | semIsrSignal inside => exact paired_semSignalActs _ isrTid
  | osTaskSuspend | osTaskResume | osTaskKill =>
      exact Paired.nil.cons (by simp) rfl

/-- A macro signals in the name of the task that runs it. -/
theorem TaskActs.recorded
    {op : TaskOp β} {acts : List (Act β)} {left : Option (Frame β)}
    (takes : TaskActs cfg k line op acts left)
    (available : 0 < cfg.nTotalEvents) :
    Recorded eventId k.runningTid
      (op.Waits cfg k ∧ op.awaits cfg k = some eventId) acts := by
  cases takes with
  | taskWaitId id ticks | semWaitTake | semWaitBlock
  | eventWaitMultiple | eventWaitMultipleNone | taskClose =>
      refine .of_paired (by simp [TaskOp.awaits]) (.of_silent _ ?_)
      simp [Act.names]
  | taskSuspend id | taskResume id =>
      refine .of_paired (by simp [TaskOp.awaits]) ?_
      exact (paired_selfYieldActs _ k.runningTid).cons (by simp) rfl
  | eventWaitTimeout event timeout =>
      apply (recorded_waitEventActs _ k.runningTid).congr
      simp [TaskOp.Waits, TaskOp.awaits, Kernel.HasEvent]
  | eventSignal event =>
      refine .of_paired (by simp [TaskOp.awaits]) ?_
      apply (Paired.signalActs cfg eventId event.toNat k.runningTid).append
      exact Paired.nil.cons (by simp) rfl
  | semSignal inside =>
      refine .of_paired (by simp [TaskOp.awaits]) ?_
      apply (paired_semSignalActs _ k.runningTid).append
      split_ifs
      · exact Paired.nil.cons (by simp) rfl
      · exact .nil
  | msgPost turn =>
      apply Recorded.cons (by simp [Kernel.waitQueueAct]) rfl
      refine turn.recorded.congr ⟨?_, ?_⟩
      · rintro ⟨⟨sync, full, known⟩, same⟩
        exact ⟨sync, full, ⟨available, known⟩, Option.some.inj same⟩
      · rintro ⟨sync, full, known, same⟩
        exact ⟨⟨sync, full, known.2⟩, congrArg some same⟩
  | msgReceive buffer turn =>
      apply Recorded.cons (by simp [Kernel.waitQueueAct]) rfl
      refine turn.recorded.congr ⟨?_, ?_⟩
      · rintro ⟨⟨sync, nothing, known⟩, same⟩
        exact ⟨sync, nothing, ⟨available, known⟩, Option.some.inj same⟩
      · rintro ⟨sync, nothing, known, same⟩
        exact ⟨⟨sync, nothing, known.2⟩, congrArg some same⟩

/-- A task that goes on signals in its own name. -/
theorem ResumeActs.recorded
    {frame frame' : Nat → Frame β} {acts : List (Act β)}
    (resumes : ResumeActs cfg k frame acts frame') :
    Recorded eventId k.runningTid
      (k.HasEvent cfg eventId ∧
        WaitsAgain cfg k (k.tasks.taskList k.runningTid) eventId
          (frame k.runningTid)) acts := by
  cases resumes with
  | begin fresh =>
      refine .of_paired ?_ .nil
      rintro ⟨_, again⟩
      cases here : frame k.runningTid with
      | between =>
          rw [here] at again
          exact again
      | post | receive =>
          rw [here] at again
          exact again.1 fresh
  | between goesOn here =>
      refine .of_paired ?_ .nil
      rintro ⟨_, again⟩
      rw [here] at again
      exact again
  | post goesOn here full turn =>
      rw [here]
      refine turn.recorded.congr ⟨?_, ?_⟩
      · rintro ⟨known, _, _, refused, rfl⟩
        exact ⟨rfl, refused, known, rfl⟩
      · rintro ⟨_, refused, known, rfl⟩
        exact ⟨known, goesOn, full, refused, rfl⟩
  | receive goesOn here empty turn =>
      rw [here]
      refine turn.recorded.congr ⟨?_, ?_⟩
      · rintro ⟨known, _, _, nothing, rfl⟩
        exact ⟨rfl, nothing, known, rfl⟩
      · rintro ⟨_, nothing, known, rfl⟩
        exact ⟨known, goesOn, empty, nothing, rfl⟩
  | done goesOn wasPost wasReceive =>
      apply Recorded.of_paired
      · rintro ⟨_, again⟩
        cases here : frame k.runningTid with
        | between =>
            rw [here] at again
            exact again
        | post =>
            rw [here] at again
            exact wasPost _ _ _ _ here again.2.1
        | receive =>
            rw [here] at again
            exact wasReceive _ _ here again.2.1
      · split_ifs
        · exact .signalActs cfg eventId _ _
        · exact .nil

/-- A step that creates nothing names the issuer after every signal of the
event, or resets its record. -/
theorem StepActs.recorded
    {s : Sys β} {label : Label β} {acts : List (Act β)}
    {frame : Nat → Frame β}
    (shape : StepActs cfg s label acts frame)
    (available : 0 < cfg.nTotalEvents)
    (notCreation : ∀ creation, label ≠ .create creation) :
    Recorded eventId (issuer cfg s label) (ResetsRecord cfg eventId s label)
      acts := by
  cases shape with
  | create creation => exact absurd rfl (notCreation creation)
  | osStart => exact .of_paired id (Paired.nil.cons (by simp) rfl)
  | sleep idle selects sleeps =>
      refine .of_paired ?_ (Paired.nil.cons (by simp) rfl)
      rintro ⟨_, tid, chosen, isTask, _⟩
      rw [scheduled, selects] at chosen
      exact isTask ((Option.some.inj chosen).symm.trans sleeps)
  | @osSchedule k acts frame idle selects runs inside resumes =>
      obtain ⟨_, taskList, _, events, _, queues, _⟩ :=
        Kernel.selectTask_frame selects
      have chosen : scheduled cfg s .osSchedule = some k.runningTid := by
        rw [scheduled, selects]
      have named : issuer cfg s .osSchedule = k.runningTid := by
        rw [issuer, chosen]
        rfl
      rw [named]
      apply Recorded.cons (by simp) rfl
      apply resumes.recorded.congr
      unfold ResetsRecord Kernel.HasEvent
      rw [events, taskList]
      apply and_congr_right
      intro known
      rw [← waitsAgain_of_queues queues, chosen]
      constructor
      · rintro ⟨tid, same, _, again⟩
        obtain rfl := Option.some.inj same
        exact again
      · exact fun again => ⟨k.runningTid, rfl, runs, again⟩
  | call calls => exact .of_paired id calls.paired
  | task runs takes => exact takes.recorded available

end

/-! ## The record along a run -/

/-- Creation resets the record of the event it makes. -/
theorem creationStep_signaledByTid
    {cfg : Config} {k k' : Kernel β} {creation : Creation β} {eventId : Nat}
    (available : 0 < cfg.nTotalEvents)
    (creates : creationStep cfg k creation = .ok k') :
    (creation.makesEvent cfg ∧ k.events.nEvents = eventId →
      (k'.events.eventList eventId).signaledByTid = noTid) ∧
    (¬ (creation.makesEvent cfg ∧ k.events.nEvents = eventId) →
      (k'.events.eventList eventId).signaledByTid =
        (k.events.eventList eventId).signaledByTid) := by
  have made : (creation.makesEvent cfg ∧
        ∃ event, k.events.eventCreate cfg = .ok (event, k'.events)) ∨
      (¬ creation.makesEvent cfg ∧ k'.events = k.events) := by
    cases creation with
    | osTaskCreate taskproc data prio msgPool poolSize msgSize =>
        obtain ⟨⟨tid, task⟩, returns, rfl⟩ := map_eq_ok_iff.mp creates
        obtain ⟨_, _, _, _, msgQ, kq, source, rfl⟩ :=
          Kernel.osTaskCreate_cases returns
        rcases source with ⟨noPool, _, rfl⟩ | ⟨pool, queue⟩
        · exact .inr ⟨fun wrong => absurd noPool (Nat.ne_of_gt wrong.1), rfl⟩
        · rcases Kernel.osMsgQCreate_cases queue with
            ⟨noQueues, _, rfl⟩ | ⟨room, _, change, events, _, event, rfl⟩
          · exact .inr ⟨fun wrong => absurd noQueues (Nat.ne_of_gt wrong.2), rfl⟩
          · exact .inl ⟨⟨pool, Nat.zero_lt_of_lt room⟩, change, event⟩
    | eventCreate =>
        obtain ⟨event, returns, rfl⟩ := map_eq_ok_iff.mp creates
        by_cases some : 0 < cfg.nTotalEvents
        · exact .inl ⟨some, event.1, returns⟩
        · rcases EventTable.eventCreate_cases returns with
            ⟨_, _, same⟩ | ⟨room, _⟩
          · exact .inr ⟨some, same⟩
          · exact absurd (Nat.zero_lt_of_lt room) some
    | semBinCreate initial | semCountingCreate max initial =>
        obtain ⟨sem, _, rfl⟩ := map_eq_ok_iff.mp creates
        exact .inr ⟨id, rfl⟩
  rcases made with ⟨makes, event, returns⟩ | ⟨makesNot, same⟩
  · rcases EventTable.eventCreate_cases returns with
      ⟨none, _⟩ | ⟨_, _, same⟩
    · exact absurd none (Nat.ne_of_gt available)
    · rw [same]
      constructor
      · rintro ⟨_, rfl⟩
        dsimp only
        rw [Function.update_self]
      · intro other
        dsimp only
        rw [Function.update_of_ne]
        exact fun wrong => other ⟨makes, wrong.symm⟩
  · rw [same]
    exact ⟨fun wrong => absurd wrong.1 makesNot, fun _ => rfl⟩

/-- What a step does to the record of an event, by what the history records
meanwhile. -/
structure StepRecord (cfg : Config) (eventId : Nat) (s : Sys β)
    (label : Label β) (s' : Sys β) (entries : List (Entry β)) : Prop where
  history : s'.kernel.history = s.kernel.history ++ entries
  signalled : .signalled eventId ∈ entries →
    issuer cfg s label ≠ noTid ∧
      (s'.kernel.events.eventList eventId).signaledByTid = issuer cfg s label
  reset : .signalled eventId ∉ entries → ResetsRecord cfg eventId s label →
    (s'.kernel.events.eventList eventId).signaledByTid = noTid
  kept : .signalled eventId ∉ entries → ¬ ResetsRecord cfg eventId s label →
    (s'.kernel.events.eventList eventId).signaledByTid =
      (s.kernel.events.eventList eventId).signaledByTid

section

variable {cfg : Config} {s s' : Sys β} {label : Label β} {eventId : Nat}

/-- A step that signals an event does so in someone's name. -/
theorem StepActs.issuer_ne
    {acts : List (Act β)} {frame : Nat → Frame β}
    (shape : StepActs cfg s label acts frame)
    (signals : .signal eventId ∈ acts) :
    issuer cfg s label ≠ noTid := by
  cases shape with
  | create | osStart | sleep => simp at signals
  | osSchedule idle selects runs inside resumes =>
      rw [issuer, scheduled, selects]
      exact runs
  | call => exact (by decide : isrTid ≠ noTid)
  | task runs takes => exact runs

theorem step_record
    (sound : s.kernel.Sound cfg)
    (available : 0 < cfg.nTotalEvents)
    (steps : step cfg s label = .ok s') :
    ∃ entries, StepRecord cfg eventId s label s' entries := by
  by_cases creation : ∃ creation, label = .create creation
  · obtain ⟨creation, rfl⟩ := creation
    obtain ⟨k, creates, rfl⟩ := map_eq_ok_iff.mp steps
    obtain ⟨reset, kept⟩ := creationStep_signaledByTid available creates
    refine ⟨[], ?_, fun wrong => absurd wrong List.not_mem_nil,
      fun _ => reset, fun _ => kept⟩
    rw [List.append_nil]
    exact (creationStep_frame creates).history
  · have notCreation : ∀ made, label ≠ .create made :=
      fun made same => creation ⟨made, same⟩
    obtain ⟨acts, shape, trace⟩ := step_trace sound steps
    have recorded : Recorded eventId (issuer cfg s label)
        (ResetsRecord cfg eventId s label) acts :=
      shape.recorded available notCreation
    have last := trace.observe_last Act.Quiet
      (fun k : Kernel β => (k.events.eventList eventId).signaledByTid)
      (Act.names eventId) (fun _ _ _ quiet acts => acts.signaledByTid eventId quiet)
      (shape.quiet notCreation)
    refine ⟨_, Micro.history_of_trace trace, ?_, ?_, ?_⟩
    · intro signalled
      have signals := signalled_mem_entries_iff.mp signalled
      refine ⟨shape.issuer_ne signals, ?_⟩
      have paired : Paired eventId (issuer cfg s label) acts :=
        recorded.paired fun resets => (recorded.reset resets).silent signals
      rw [last, paired.signalled signals]
      rfl
    · intro _ resets
      rw [last, (recorded.reset resets).reset]
      rfl
    · intro unsignalled resetsNot
      rw [last, (recorded.paired resetsNot).silent
        (mt signalled_mem_entries_iff.mpr unsignalled)]
      rfl

/-- Between the two states the history recorded a signal of the event. -/
def SignalledSince (eventId : Nat) (s s' : Sys β) : Prop :=
  ∃ entries, s'.kernel.history = s.kernel.history ++ entries ∧
    .signalled eventId ∈ entries

theorem SignalledSince.of_history
    {entries : List (Entry β)}
    (history : s'.kernel.history = s.kernel.history ++ entries) :
    SignalledSince eventId s s' ↔ .signalled eventId ∈ entries := by
  constructor
  · rintro ⟨others, grows, signalled⟩
    rw [history] at grows
    rwa [List.append_cancel_left grows]
  · exact fun signalled => ⟨entries, history, signalled⟩

theorem run_history
    {labels : List (Label β)}
    (sound : s.kernel.Sound cfg)
    (runs : run (step cfg) s labels = .ok s') :
    ∃ entries, s'.kernel.history = s.kernel.history ++ entries := by
  obtain ⟨acts, runActs⟩ := exists_runActs sound runs
  exact ⟨_, Micro.history_of_trace runActs.trace⟩

/-- Without a signal the record of an event is kept until it is reset, and is
empty from then on. -/
theorem run_record
    {labels : List (Label β)}
    (sound : s.kernel.Sound cfg)
    (available : 0 < cfg.nTotalEvents)
    (runs : run (step cfg) s labels = .ok s')
    (silent : ¬ SignalledSince eventId s s') :
    (Meets (step cfg) (fun s label => ¬ ResetsRecord cfg eventId s label)
        s labels →
      (s'.kernel.events.eventList eventId).signaledByTid =
        (s.kernel.events.eventList eventId).signaledByTid) ∧
    (¬ Meets (step cfg) (fun s label => ¬ ResetsRecord cfg eventId s label)
        s labels →
      (s'.kernel.events.eventList eventId).signaledByTid = noTid) := by
  induction labels generalizing s with
  | nil =>
      simp only [run_nil, Except.ok.injEq] at runs
      subst runs
      exact ⟨fun _ => rfl, fun wrong => absurd trivial wrong⟩
  | cons label labels inductionHypothesis =>
      obtain ⟨next, steps, rest⟩ := run_cons_eq_ok_iff.mp runs
      have soundNext := step_sound sound steps
      obtain ⟨now, record⟩ :
          ∃ now, StepRecord cfg eventId s label next now :=
        step_record sound available steps
      obtain ⟨later, grows⟩ := run_history soundNext rest
      have silentNow : .signalled eventId ∉ now := by
        intro signalled
        refine silent ⟨now ++ later, ?_, List.mem_append_left _ signalled⟩
        rw [grows, record.history, List.append_assoc]
      have silentLater : ¬ SignalledSince eventId next s' := by
        rintro ⟨entries, history, signalled⟩
        refine silent ⟨now ++ entries, ?_, List.mem_append_right _ signalled⟩
        rw [history, record.history, List.append_assoc]
      obtain ⟨kept, reset⟩ := inductionHypothesis soundNext rest silentLater
      rw [meets_cons_iff steps]
      refine ⟨fun meets => ?_, fun fails => ?_⟩
      · rw [kept meets.2, record.kept silentNow meets.1]
      · by_cases meets : Meets (step cfg)
            (fun s label => ¬ ResetsRecord cfg eventId s label) next labels
        · rw [kept meets]
          apply record.reset silentNow
          by_contra resetsNot
          exact fails ⟨resetsNot, meets⟩
        · exact reset meets

end

/-! ## What the task reads -/

section

variable {cfg : Config} {s s₁ s₂ s₃ : Sys β}
variable {event : UInt8} {timeout : UInt32} {line : UInt16}

/-- A wait for a created event gives up the processor between macros, and
resets the record of the event. -/
theorem step_eventWaitTimeout
    (reachable : ReachableSys cfg s)
    (known : s.kernel.HasEvent cfg event.toNat)
    (starts : step cfg s (.task (.eventWaitTimeout event timeout) line) =
      .ok s₁) :
    s.kernel.runningTid ≠ noTid ∧
      s₁.frame s.kernel.runningTid = .between ∧
      s₁.kernel.runningTid ≠ s.kernel.runningTid ∧
      (s₁.kernel.events.eventList event.toNat).signaledByTid = noTid ∧
      s₁.kernel.history = s.kernel.history := by
  obtain ⟨acts, shape, trace⟩ := step_trace (reachable_sound reachable) starts
  generalize s₁.frame = frame at shape
  have quiet := shape.quiet (by simp)
  cases shape with
  | task runs takes =>
      cases takes
      have resets : Resets event.toNat
          (s.kernel.waitEventActs cfg event.toNat
            (.event event.toNat timeout.toNat) line.toNat) :=
        (recorded_waitEventActs _ isrTid).reset ⟨known, rfl⟩
      refine ⟨runs, reachable_runsBetween reachable runs, ?_, ?_, ?_⟩
      · rw [Micro.runningTid_of_trace trace, Kernel.waitEventActs_runningTid]
        exact Ne.symm runs
      · rw [trace.observe_last Act.Quiet
          (fun k : Kernel β =>
            (k.events.eventList event.toNat).signaledByTid)
          (Act.names event.toNat)
          (fun _ _ _ quiet acts => acts.signaledByTid event.toNat quiet) quiet,
          resets.reset]
        rfl
      · rw [Micro.history_of_trace trace]
        unfold Kernel.waitEventActs
        split_ifs <;> exact List.append_nil _

/-- A task that the scheduler chooses reads the record as it stands. -/
theorem eventSignalingTaskIdGet_of_resumes
    {tid eventId : Nat}
    (resumes : step cfg s .osSchedule = .ok s₁)
    (chosen : scheduled cfg s .osSchedule = some tid)
    (isTask : tid ≠ noTid)
    (between : s.frame tid = .between)
    (inside : eventId < cfg.nTotalEvents) :
    s₁.kernel.events.eventSignalingTaskIdGet cfg eventId =
      .ok (s.kernel.events.eventList eventId).signaledByTid := by
  obtain ⟨k, selects, kernel, _⟩ := step_resumes resumes chosen isTask between
  unfold EventTable.eventSignalingTaskIdGet
  rw [if_pos (Nat.zero_lt_of_lt inside), if_pos inside, kernel,
    (Kernel.selectTask_frame selects).2.2.2.1]

/-- A task waits for a created event, with or without a timeout, and goes on
when the scheduler next chooses it.  If a step signalled the event meanwhile,
the one that woke the task say, and it was not signalled again, then the task
reads who took that step if and only if no step since reset the record.  If
the event was not signalled at all, the task reads that nobody signalled it. -/
theorem reads_signaller_iff
    (reachable : ReachableSys cfg s)
    (known : s.kernel.HasEvent cfg event.toNat)
    (starts : step cfg s (.task (.eventWaitTimeout event timeout) line) =
      .ok s₁) :
    (∀ earlier label later waiting woken s₂ s₃,
      run (step cfg) s₁ earlier = .ok waiting →
      step cfg waiting label = .ok woken →
      SignalledSince event.toNat waiting woken →
      run (step cfg) woken later = .ok s₂ →
      ¬ SignalledSince event.toNat woken s₂ →
      Meets (step cfg)
        (fun s' label => scheduled cfg s' label ≠ some s.kernel.runningTid) s₁
        (earlier ++ label :: later) →
      step cfg s₂ .osSchedule = .ok s₃ →
      scheduled cfg s₂ .osSchedule = some s.kernel.runningTid →
      (s₃.kernel.events.eventSignalingTaskIdGet cfg event.toNat =
          .ok (issuer cfg waiting label) ↔
        Meets (step cfg)
          (fun s label => ¬ ResetsRecord cfg event.toNat s label) woken
          later)) ∧
    ∀ labels s₂ s₃,
      run (step cfg) s₁ labels = .ok s₂ →
      ¬ SignalledSince event.toNat s s₂ →
      Meets (step cfg)
        (fun s' label => scheduled cfg s' label ≠ some s.kernel.runningTid) s₁
        labels →
      step cfg s₂ .osSchedule = .ok s₃ →
      scheduled cfg s₂ .osSchedule = some s.kernel.runningTid →
      s₃.kernel.events.eventSignalingTaskIdGet cfg event.toNat = .ok noTid := by
  have sound₁ := step_sound (reachable_sound reachable) starts
  have inside : event.toNat < cfg.nTotalEvents :=
    known.2.trans_le (reachable_nEvents_le known.1 reachable)
  obtain ⟨isTask, between, notRunning, empty, history⟩ :=
    step_eventWaitTimeout reachable known starts
  have reads : ∀ labels s₂ s₃,
      run (step cfg) s₁ labels = .ok s₂ →
      Meets (step cfg)
        (fun s' label => scheduled cfg s' label ≠ some s.kernel.runningTid) s₁
        labels →
      step cfg s₂ .osSchedule = .ok s₃ →
      scheduled cfg s₂ .osSchedule = some s.kernel.runningTid →
      s₃.kernel.events.eventSignalingTaskIdGet cfg event.toNat =
        .ok (s₂.kernel.events.eventList event.toNat).signaledByTid := by
    intro labels s₂ s₃ runs away resumes chosen
    obtain ⟨acts, runActs⟩ := exists_runActs sound₁ runs
    apply eventSignalingTaskIdGet_of_resumes resumes chosen isTask _ inside
    rw [runActs.keeps_frame sound₁ isTask notRunning away, between]
  constructor
  · intro earlier label later waiting woken s₂ s₃ blocked wakes signalled runs
      silent away resumes chosen
    have soundWaiting := run_sound sound₁ blocked
    obtain ⟨entries, record⟩ :
        ∃ entries, StepRecord cfg event.toNat waiting label woken entries :=
      step_record soundWaiting known.1 wakes
    obtain ⟨named, signaller⟩ :=
      record.signalled ((SignalledSince.of_history record.history).mp signalled)
    rw [reads (earlier ++ label :: later) s₂ s₃
      (run_append_eq_ok_iff.mpr ⟨waiting, blocked,
        run_cons_eq_ok_iff.mpr ⟨woken, wakes, runs⟩⟩) away resumes chosen,
      Except.ok.injEq]
    obtain ⟨kept, reset⟩ := run_record (step_sound soundWaiting wakes) known.1
      runs silent
    constructor
    · intro isIssuer
      by_contra fails
      rw [reset fails] at isIssuer
      exact named isIssuer.symm
    · intro meets
      rw [kept meets, signaller]
  · intro labels s₂ s₃ runs silent away resumes chosen
    rw [reads labels s₂ s₃ runs away resumes chosen]
    have silent₁ : ¬ SignalledSince event.toNat s₁ s₂ := by
      rintro ⟨entries, grows, signalled⟩
      exact silent ⟨entries, by rw [grows, history], signalled⟩
    obtain ⟨kept, reset⟩ := run_record sound₁ known.1 runs silent₁
    by_cases meets : Meets (step cfg)
        (fun s label => ¬ ResetsRecord cfg event.toNat s label) s₁ labels
    · rw [kept meets, empty]
    · rw [reset meets]

end

/-- The first of three tasks waits for an event, and an interrupt signals it
between two ticks. -/
theorem reads_signaller_iff_setUp :
    ∃ s s₁ waiting woken s₂ s₃ : Sys Nat,
      run (step (Config.small false)) (Sys.boot (Config.small false))
        (setUp 1 2 3 ++ [.osSchedule]) = .ok s ∧
      step (Config.small false) s (.task (.eventWaitTimeout 1 5) 4) = .ok s₁ ∧
      run (step (Config.small false)) s₁ [.call .osTick] = .ok waiting ∧
      step (Config.small false) waiting (.call (.eventIsrSignal 1)) =
        .ok woken ∧
      step (Config.small false) woken (.call .osTick) = .ok s₂ ∧
      step (Config.small false) s₂ .osSchedule = .ok s₃ ∧
      s₃.kernel.events.eventSignalingTaskIdGet (Config.small false) 1 =
        .ok isrTid := by
  obtain ⟨s, before, checked⟩ := exists_of_returnsWith
    (fun s : Sys Nat => decide (s.kernel.runningTid = 0 ∧
        1 < s.kernel.events.nEvents) &&
      returnsWith (fun waiting : Sys Nat =>
        returnsWith (fun woken : Sys Nat =>
          decide (woken.kernel.history =
            waiting.kernel.history ++ [.signalled 1]) &&
          returnsWith (fun s₂ : Sys Nat =>
            decide (s₂.kernel.history = woken.kernel.history ++ [.ticked]) &&
            decide (scheduled (Config.small false) s₂ .osSchedule = some 0) &&
            (step (Config.small false) s₂ .osSchedule).isOk)
            (step (Config.small false) woken (.call .osTick)))
          (step (Config.small false) waiting (.call (.eventIsrSignal 1))))
        (run (step (Config.small false)) s
          [.task (.eventWaitTimeout 1 5) 4, .call .osTick]))
    (run (step (Config.small false)) (Sys.boot (Config.small false))
      (setUp 1 2 3 ++ [.osSchedule])) (by decide +kernel)
  rw [Bool.and_eq_true] at checked
  obtain ⟨runsNow, counted⟩ := of_decide_eq_true checked.1
  have known : s.kernel.HasEvent (Config.small false) (1 : UInt8).toNat :=
    ⟨by decide, counted⟩
  obtain ⟨waiting, blocks, checked₁⟩ := exists_of_returnsWith _ _ checked.2
  obtain ⟨s₁, starts, ticks⟩ := run_cons_eq_ok_iff.mp blocks
  obtain ⟨woken, wakes, checked₂⟩ := exists_of_returnsWith _ _ checked₁
  rw [Bool.and_eq_true] at checked₂
  obtain ⟨s₂, later, checked₃⟩ := exists_of_returnsWith _ _ checked₂.2
  rw [Bool.and_eq_true, Bool.and_eq_true] at checked₃
  obtain ⟨s₃, resumes⟩ := exists_of_isOk _ checked₃.2
  have away : Meets (step (Config.small false))
      (fun s' label => scheduled (Config.small false) s' label ≠
        some s.kernel.runningTid) s₁
      ([.call .osTick] ++ .call (.eventIsrSignal 1) :: [.call .osTick]) :=
    .of_forall (by simp [scheduled]) s₁
  have signalled : SignalledSince 1 waiting woken :=
    ⟨_, of_decide_eq_true checked₂.1, List.mem_singleton_self _⟩
  have silent : ¬ SignalledSince 1 woken s₂ := by
    rw [SignalledSince.of_history (of_decide_eq_true checked₃.1.1)]
    simp
  have reads := (reads_signaller_iff (reachable_of_run before) known starts).1
    [.call .osTick] (.call (.eventIsrSignal 1)) [.call .osTick] waiting woken s₂
    s₃ ticks wakes signalled (run_cons_eq_ok_iff.mpr ⟨s₂, later, rfl⟩) silent
    away resumes (by rw [runsNow]; exact of_decide_eq_true checked₃.1.2)
  exact ⟨s, s₁, waiting, woken, s₂, s₃, before, starts, ticks, wakes, later,
    resumes, reads.mpr ⟨id, fun _ _ => trivial⟩⟩

/-- A task waits for an event and an interrupt wakes it.  Before it runs, a
task of higher priority starts to wait for the same event, and the woken task
reads that nobody signalled it. -/
theorem woken_task_reads_no_signaller :
    ∃ s s₁ woken s₂ s₃ : Sys Nat,
      run (step (Config.small false)) (Sys.boot (Config.small false))
        (setUp 1 2 3 ++ [.osSchedule, .task (.taskWaitId 0 1) 3,
          .osSchedule]) = .ok s ∧
      s.kernel.runningTid = 1 ∧
      step (Config.small false) s (.task (.eventWaitTimeout 1 0) 4) = .ok s₁ ∧
      (s₁.kernel.tasks.taskList 1).state = .waitingEvent ∧
      step (Config.small false) s₁ (.call (.eventIsrSignal 1)) = .ok woken ∧
      (woken.kernel.tasks.taskList 1).state = .ready ∧
      run (step (Config.small false)) woken
        [.call .osTick, .osSchedule, .task (.eventWaitTimeout 1 0) 5] =
          .ok s₂ ∧
      ¬ SignalledSince 1 woken s₂ ∧
      (s₂.kernel.tasks.taskList 1).state = .ready ∧
      step (Config.small false) s₂ .osSchedule = .ok s₃ ∧
      s₃.kernel.runningTid = 1 ∧
      s₃.kernel.events.eventSignalingTaskIdGet (Config.small false) 1 =
        .ok noTid ∧
      issuer (Config.small false) s₁ (.call (.eventIsrSignal 1)) = isrTid := by
  obtain ⟨s, before, checked⟩ := exists_of_returnsWith
    (fun s : Sys Nat => decide (s.kernel.runningTid = 1) &&
      returnsWith (fun s₁ : Sys Nat =>
        decide ((s₁.kernel.tasks.taskList 1).state = .waitingEvent) &&
        returnsWith (fun woken : Sys Nat =>
          decide ((woken.kernel.tasks.taskList 1).state = .ready) &&
          returnsWith (fun s₂ : Sys Nat =>
            decide ((s₂.kernel.tasks.taskList 1).state = .ready ∧
              s₂.kernel.history = woken.kernel.history ++ [.ticked]) &&
            returnsWith (fun s₃ : Sys Nat =>
              decide (s₃.kernel.runningTid = 1 ∧
                (s₃.kernel.events.eventList 1).signaledByTid = noTid))
              (step (Config.small false) s₂ .osSchedule))
            (run (step (Config.small false)) woken
              [.call .osTick, .osSchedule, .task (.eventWaitTimeout 1 0) 5]))
          (step (Config.small false) s₁ (.call (.eventIsrSignal 1))))
        (step (Config.small false) s (.task (.eventWaitTimeout 1 0) 4)))
    (run (step (Config.small false)) (Sys.boot (Config.small false))
      (setUp 1 2 3 ++ [.osSchedule, .task (.taskWaitId 0 1) 3, .osSchedule]))
    (by decide +kernel)
  rw [Bool.and_eq_true] at checked
  obtain ⟨s₁, waits, checked₁⟩ := exists_of_returnsWith _ _ checked.2
  rw [Bool.and_eq_true] at checked₁
  obtain ⟨woken, wakes, checked₂⟩ := exists_of_returnsWith _ _ checked₁.2
  rw [Bool.and_eq_true] at checked₂
  obtain ⟨s₂, later, checked₃⟩ := exists_of_returnsWith _ _ checked₂.2
  rw [Bool.and_eq_true] at checked₃
  obtain ⟨ready, history⟩ := of_decide_eq_true checked₃.1
  obtain ⟨s₃, resumes, checked₄⟩ := exists_of_returnsWith _ _ checked₃.2
  obtain ⟨runsAgain, reads⟩ := of_decide_eq_true checked₄
  have silent : ¬ SignalledSince 1 woken s₂ := by
    rw [SignalledSince.of_history history]
    simp
  exact ⟨s, s₁, woken, s₂, s₃, before, of_decide_eq_true checked.1, waits,
    of_decide_eq_true checked₁.1, wakes, of_decide_eq_true checked₂.1, later,
    silent, ready, resumes, runsAgain, congrArg Except.ok reads, rfl⟩

end CocoOs
