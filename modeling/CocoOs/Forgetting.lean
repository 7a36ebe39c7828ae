import CocoOs.Agreement
import CocoOs.LastSignal

/-!
# What `os_init` forgets

Two histories of the kernel, each followed by `os_init` and then by the same
calls on objects created since, are told apart by what the calls return exactly
when the program asks for the last signalled event before anything was
signalled: `os_event_init` leaves that one variable as it was.
-/

namespace CocoOs

open Foundation

variable {β : Type}

/-! ## The interface -/

/-- `task_state_get`. -/
def TaskTable.taskStateGet (tasks : TaskTable) (tid : Nat) : Outcome TaskState :=
  if tid < tasks.nTasks then .ok (tasks.taskList tid).state
  else .error .assertion

/-- The calls a program makes: the steps of the system, and the functions that
only return a value or hand over a message. -/
inductive ApiCall (β : Type)
  | step (label : Label β)
  | taskStateGet (tid : UInt8)
  | osTaskTimeoutGet (tid : UInt8)
  | osGetRunningTid
  | eventSignalingTaskIdGet (event : UInt8)
  | eventLastSignaledGet
  | osSemValueGet (sem : Int)
  | osMsgQFind (taskId : UInt8)
  | osMsgQEventGet (queue : UInt8)
  | osMsgPost (msg : Msg β) (queue : UInt8) (delay period : UInt32)
  | osMsgReceive (msg : Msg β) (queue : UInt8)

/-- What a call tells the program.  A pass of the scheduler tells which task it
chose, and what the message macro told that the task resumed in. -/
inductive Reply (β : Type)
  | done
  | id (id : Nat)
  | sem (sem : Int)
  | count (value : Nat)
  | state (state : TaskState)
  | posted (blocked : Bool)
  | received (blocked : Bool) (buffer : Msg β)
  | message (result : MsgResult) (buffer : Msg β)
  | scheduled (tid : Nat) (resumed : Reply β)
  deriving DecidableEq

/-- A system, and the ids of the events and semaphores created since
`os_init`. -/
structure Session (β : Type) where
  live : Handles
  sys : Sys β

/-- The session that `os_init` starts. -/
def Session.start (cfg : Config) (k : Kernel β) : Session β where
  live := ⟨[], []⟩
  sys := { kernel := k.osInit cfg, frame := fun _ => .between }

/-- The session goes on in another kernel. -/
def Session.withKernel (s : Session β) (k : Kernel β) : Session β :=
  { s with sys := { s.sys with kernel := k } }

/-- An object creation, with the id it returns. -/
def createCall (cfg : Config) (s : Session β) :
    Creation β → Outcome (Reply β × Session β)
  | .osTaskCreate taskproc data prio msgPool poolSize msgSize =>
      (s.sys.kernel.osTaskCreate cfg taskproc data prio.toNat msgPool
        poolSize.toNat msgSize.toNat).map fun (tid, k) =>
          (.id tid, { s.withKernel k with
            live := s.live.withTask cfg poolSize.toNat tid k })
  | .eventCreate =>
      (s.sys.kernel.events.eventCreate cfg).map fun (id, events) =>
        (.id id, { s.withKernel { s.sys.kernel with events := events } with
          live := s.live.withEvent id })
  | .semBinCreate initial =>
      (s.sys.kernel.sems.semBinCreate cfg initial).map fun (sem, sems) =>
        (.sem sem, { s.withKernel { s.sys.kernel with sems := sems } with
          live := s.live.withSem sem })
  | .semCountingCreate max initial =>
      (s.sys.kernel.sems.semCountingCreate cfg max.toNat initial.toNat).map
        fun (sem, sems) =>
          (.sem sem, { s.withKernel { s.sys.kernel with sems := sems } with
            live := s.live.withSem sem })

/-- What a macro of the running task tells it. -/
def taskReply (cfg : Config) (k : Kernel β) (line : Nat) :
    TaskOp β → Outcome (Reply β)
  | .msgPost taskId msg delay period async =>
      (k.osMsgQPost cfg taskId.toNat msg delay.toNat period.toNat async
        line).map fun left => .posted left.1
  | .msgReceive taskId pMsg async =>
      (k.osMsgQReceive cfg taskId.toNat pMsg async line).map
        fun (blocked, buffer, _) => .received blocked buffer
  | _ => .ok .done

/-- What the message macro that the running task resumes in tells it. -/
def resumeReply (cfg : Config) (s : Sys β) : Outcome (Reply β) :=
  let tid := s.kernel.osGetRunningTid
  let task := s.kernel.tasks.taskList tid
  if task.internalState = 0 then .ok .done
  else
    match s.frame tid with
    | .between => .ok .done
    | .post taskId msg delay period =>
        (s.kernel.osMsgQPostResume cfg taskId msg delay period
          task.internalState).map fun left => .posted left.1
    | .receive taskId pMsg =>
        (s.kernel.osMsgQReceiveResume cfg taskId pMsg task.internalState).map
          fun (blocked, buffer, _) => .received blocked buffer

/-- What a pass of the scheduler tells. -/
def scheduleReply (cfg : Config) (s : Sys β) : Outcome (Reply β) := do
  let k ← s.kernel.selectTask cfg
  if k.runningTid ≠ noTid then
    if k.runningTid < k.tasks.nTasks then
      (resumeReply cfg { s with kernel := k }).map (.scheduled k.runningTid)
    else .error .assertion
  else .ok (.scheduled noTid .done)

/-- What a step that creates nothing tells. -/
def stepReply (cfg : Config) (s : Sys β) : Label β → Outcome (Reply β)
  | .osSchedule => scheduleReply cfg s
  | .task op line => taskReply cfg s.kernel line.toNat op
  | _ => .ok .done

/-- One call of a program, with what it returns. -/
def apiCall (cfg : Config) (s : Session β) :
    ApiCall β → Outcome (Reply β × Session β)
  | .step (.create creation) => createCall cfg s creation
  | .step label => do
      let sys ← step cfg s.sys label
      let reply ← stepReply cfg s.sys label
      .ok (reply, { s with sys := sys })
  | .taskStateGet tid =>
      (s.sys.kernel.tasks.taskStateGet tid.toNat).map
        fun state => (.state state, s)
  | .osTaskTimeoutGet tid =>
      (s.sys.kernel.tasks.osTaskTimeoutGet cfg tid.toNat).map
        fun time => (.count time, s)
  | .osGetRunningTid => .ok (.id s.sys.kernel.osGetRunningTid, s)
  | .eventSignalingTaskIdGet event =>
      (s.sys.kernel.events.eventSignalingTaskIdGet cfg event.toNat).map
        fun tid => (.id tid, s)
  | .eventLastSignaledGet =>
      .ok (.id (s.sys.kernel.events.eventLastSignaledGet cfg), s)
  | .osSemValueGet sem =>
      if cfg.HasSem sem then
        .ok (.count (s.sys.kernel.sems.osSemValueGet cfg sem), s)
      else .error .bounds
  | .osMsgQFind taskId =>
      .ok (.id (s.sys.kernel.queues.osMsgQFind cfg taskId.toNat), s)
  | .osMsgQEventGet queue =>
      .ok (.id (s.sys.kernel.queues.osMsgQEventGet cfg queue.toNat), s)
  | .osMsgPost msg queue delay period =>
      (s.sys.kernel.osMsgPost cfg msg queue.toNat delay.toNat
        period.toNat).map fun (result, armed, k) =>
          (.message result armed, s.withKernel k)
  | .osMsgReceive msg queue =>
      (s.sys.kernel.osMsgReceive cfg msg queue.toNat).map
        fun (result, buffer, k) => (.message result buffer, s.withKernel k)

/-! ## Calls on objects created since -/

/-- The semaphore a step names. -/
def Label.sem : Label β → Option Int
  | .call (.semIsrSignal sem) | .task (.semWait sem) _
  | .task (.semSignal sem) _ => some sem
  | _ => none

/-- The semaphore a call names. -/
def ApiCall.sem : ApiCall β → Option Int
  | .step label => label.sem
  | .osSemValueGet sem => some sem
  | _ => none

/-- The event whose record a call reads. -/
def ApiCall.event : ApiCall β → Option Nat
  | .eventSignalingTaskIdGet event => some event.toNat
  | _ => none

/-- The call names objects created since `os_init`.  Whatever else it names, the
kernel checks. -/
def ApiCall.Refers (s : Session β) (call : ApiCall β) : Prop :=
  (∀ sem ∈ call.sem, sem ∈ s.live.sems) ∧
    ∀ event ∈ call.event, event ∈ s.live.events

instance (s : Session β) (call : ApiCall β) : Decidable (call.Refers s) :=
  inferInstanceAs (Decidable (_ ∧ _))

/-- The event an entry of the history signals. -/
def Entry.event : Entry β → Option Nat
  | .signalled event => some event
  | _ => none

/-- An event was signalled since `os_init`. -/
def Kernel.HasSignalled (k : Kernel β) : Prop :=
  ∃ entry ∈ k.history, entry.event ≠ none

/-- The call asks for the last signalled event. -/
def ApiCall.asksLast : ApiCall β → Bool
  | .eventLastSignaledGet => true
  | _ => false

/-- The call asks for the last signalled event only when one was signalled
since `os_init`. -/
def ApiCall.AsksAfterSignal (s : Session β) (call : ApiCall β) : Prop :=
  call.asksLast = true → s.sys.kernel.HasSignalled

instance (s : Session β) (call : ApiCall β) :
    Decidable (call.AsksAfterSignal s) :=
  inferInstanceAs
    (Decidable (_ → ∃ entry ∈ s.sys.kernel.history, entry.event ≠ none))

/-! ## Agreement is kept -/

/-- The kernels agree on what is live, and the coroutines are at the same
places. -/
structure Sys.Agrees (cfg : Config) (live : Handles) (s s' : Sys β) : Prop where
  kernel : s.kernel.Agrees cfg live s'.kernel
  frame : s.frame = s'.frame

namespace Sys.Agrees

variable {cfg : Config} {live : Handles} {s s' : Sys β}

theorem withKernel (agrees : s.Agrees cfg live s') {k k' : Kernel β}
    (same : k.Agrees cfg live k') :
    { s with kernel := k }.Agrees cfg live { s' with kernel := k' } :=
  { agrees with kernel := same }

theorem setFrame (agrees : s.Agrees cfg live s') (tid : Nat) (frame : Frame β) :
    (s.setFrame tid frame).Agrees cfg live (s'.setFrame tid frame) :=
  { agrees with frame := by rw [Sys.setFrame, Sys.setFrame, agrees.frame] }

theorem leaveMacro (agrees : s.Agrees cfg live s') (tid : Nat)
    (frame : Frame β) {blocked : Bool} {k k' : Kernel β}
    (same : k.Agrees cfg live k') :
    (s.leaveMacro tid frame (blocked, k)).Agrees cfg live
      (s'.leaveMacro tid frame (blocked, k')) := by
  unfold Sys.leaveMacro
  cases blocked with
  | true => exact (agrees.withKernel same).setFrame tid frame
  | false => exact (agrees.withKernel same).setFrame tid .between

/-- A computation on the kernel alone. -/
theorem onKernel (agrees : s.Agrees cfg live s') {first second : Outcome (Kernel β)}
    (related : Related (Kernel.Agrees cfg live) first second) :
    Related (Sys.Agrees cfg live) (first.map fun k => { s with kernel := k })
      (second.map fun k => { s' with kernel := k }) :=
  related.map fun _ _ same => agrees.withKernel same

theorem callStep {k k' : Kernel β} (agrees : k.Agrees cfg live k')
    (sound : k.Sound cfg) (call : Call)
    (refers : ∀ sem ∈ (Label.call call : Label β).sem, sem ∈ live.sems) :
    Related (Kernel.Agrees cfg live) (CocoOs.callStep cfg k call)
      (CocoOs.callStep cfg k' call) := by
  cases call with
  | osTick => exact agrees.osTick sound
  | osSubTick id => exact agrees.osSubTick sound _
  | osSubNTick id nTicks => exact agrees.osSubNTick sound _ _
  | eventIsrSignal event => exact agrees.eventIsrSignal _
  | semIsrSignal sem =>
      exact .guard Iff.rfl fun inside =>
        .value (agrees.osSignalSemNoSchedule (refers sem rfl) inside)
  | osTaskSuspend tid => exact agrees.onTasks (agrees.tasks.guarded _ _)
  | osTaskResume tid => exact agrees.onTasks (agrees.tasks.guarded _ _)
  | osTaskKill tid => exact agrees.onTasks (agrees.tasks.guarded _ _)

theorem taskStep (agrees : s.Agrees cfg live s') (line : Nat) {label : UInt16}
    (op : TaskOp β)
    (refers : ∀ sem ∈ (Label.task op label).sem, sem ∈ live.sems) :
    Related (Sys.Agrees cfg live) (CocoOs.taskStep cfg s line op)
      (CocoOs.taskStep cfg s' line op) := by
  have same := agrees.kernel
  cases op with
  | taskWaitId id ticks => exact agrees.onKernel (same.osWaitTicks _ _ line)
  | taskSuspend id => exact agrees.onKernel (same.osSuspendTask _ line)
  | taskResume id => exact agrees.onKernel (same.osResumeTask _ line)
  | eventWaitTimeout event timeout =>
      exact agrees.onKernel (same.osWaitSingleEvent _ _ line)
  | eventWaitMultiple waitAll args =>
      exact agrees.onKernel (same.osWaitMultipleEvents waitAll _ line)
  | eventSignal event => exact agrees.onKernel (same.osSignalEventMacro _ line)
  | semWait sem =>
      exact .guard Iff.rfl fun inside =>
        agrees.onKernel (same.osWaitSem (refers sem rfl) inside line)
  | semSignal sem =>
      exact .guard Iff.rfl fun inside =>
        .value (agrees.withKernel
          (same.osSignalSem (refers sem rfl) inside line))
  | msgPost taskId msg delay period async =>
      unfold CocoOs.taskStep
      rw [same.osGetRunningTid]
      apply (same.osMsgQPost _ msg _ _ async line).map
      rintro ⟨blocked, k⟩ ⟨_, k'⟩ ⟨rfl, left⟩
      exact agrees.leaveMacro _ _ left
  | msgReceive taskId pMsg async =>
      unfold CocoOs.taskStep
      rw [same.osGetRunningTid]
      apply (same.osMsgQReceive _ pMsg async line).map
      rintro ⟨blocked, buffer, k⟩ ⟨_, _, k'⟩ ⟨rfl, rfl, left⟩
      exact agrees.leaveMacro _ _ left
  | taskClose => exact agrees.onKernel same.osEnd

theorem resumeStep (agrees : s.Agrees cfg live s')
    (inside : s.kernel.runningTid < s.kernel.tasks.nTasks) :
    Related (Sys.Agrees cfg live) (CocoOs.resumeStep cfg s)
      (CocoOs.resumeStep cfg s') := by
  have same := agrees.kernel
  unfold CocoOs.resumeStep
  dsimp only
  rw [same.runningTcb inside, same.osGetRunningTid, ← agrees.frame]
  refine .ite Iff.rfl (fun _ => .value (agrees.setFrame _ _)) fun _ => ?_
  cases s.frame s.kernel.osGetRunningTid with
  | between => exact .value agrees
  | post taskId msg delay period =>
      apply (same.osMsgQPostResume inside taskId msg delay period _).map
      rintro ⟨blocked, k⟩ ⟨_, k'⟩ ⟨rfl, left⟩
      exact agrees.leaveMacro _ _ left
  | receive taskId pMsg =>
      apply (same.osMsgQReceiveResume inside taskId pMsg _).map
      rintro ⟨blocked, buffer, k⟩ ⟨_, _, k'⟩ ⟨rfl, rfl, left⟩
      exact agrees.leaveMacro _ _ left

theorem scheduleStep (agrees : s.Agrees cfg live s') :
    Related (Sys.Agrees cfg live) (CocoOs.scheduleStep cfg s)
      (CocoOs.scheduleStep cfg s') := by
  apply agrees.kernel.selectTask.bind
  intro k k' same
  have next := agrees.withKernel same
  refine .ite (by rw [same.runningTid]) (fun _ => ?_) fun _ => .value next
  exact .guard (by rw [same.runningTid, same.tasks.nTasks])
    fun inside => next.resumeStep inside

/-- A step that creates nothing keeps the agreement. -/
theorem step (agrees : s.Agrees cfg live s') (sound : s.kernel.Sound cfg)
    {label : Label β} (refers : ∀ sem ∈ label.sem, sem ∈ live.sems)
    (noCreation : ∀ creation, label ≠ .create creation) :
    Related (Sys.Agrees cfg live) (CocoOs.step cfg s label)
      (CocoOs.step cfg s' label) := by
  have same := agrees.kernel
  cases label with
  | create creation => exact absurd rfl (noCreation creation)
  | osStart => exact .value (agrees.withKernel same.osStart)
  | osSchedule =>
      exact .guard (by rw [same.runningTid]) fun _ => agrees.scheduleStep
  | call call => exact agrees.onKernel (callStep same sound call refers)
  | task op line =>
      exact .guard (by rw [same.runningTid]) fun _ =>
        agrees.taskStep line.toNat op refers

/-! ### Replies -/

theorem resumeReply (agrees : s.Agrees cfg live s')
    (inside : s.kernel.runningTid < s.kernel.tasks.nTasks) :
    Related Eq (CocoOs.resumeReply cfg s) (CocoOs.resumeReply cfg s') := by
  have same := agrees.kernel
  unfold CocoOs.resumeReply
  dsimp only
  rw [same.runningTcb inside, same.osGetRunningTid, ← agrees.frame]
  refine .ite Iff.rfl (fun _ => .value rfl) fun _ => ?_
  cases s.frame s.kernel.osGetRunningTid with
  | between => exact .value rfl
  | post taskId msg delay period =>
      apply (same.osMsgQPostResume inside taskId msg delay period _).map
      rintro ⟨blocked, k⟩ ⟨_, k'⟩ ⟨rfl, _⟩
      rfl
  | receive taskId pMsg =>
      apply (same.osMsgQReceiveResume inside taskId pMsg _).map
      rintro ⟨blocked, buffer, k⟩ ⟨_, _, k'⟩ ⟨rfl, rfl, _⟩
      rfl

/-- A step that creates nothing tells the same. -/
theorem stepReply (agrees : s.Agrees cfg live s') (label : Label β) :
    Related Eq (CocoOs.stepReply cfg s label) (CocoOs.stepReply cfg s' label) := by
  have same := agrees.kernel
  cases label with
  | osSchedule =>
      apply same.selectTask.bind
      intro k k' next
      refine .ite (by rw [next.runningTid]) (fun _ => ?_) fun _ => .value rfl
      refine .guard (by rw [next.runningTid, next.tasks.nTasks]) fun inside => ?_
      rw [← next.runningTid]
      exact ((agrees.withKernel next).resumeReply inside).map
        fun _ _ resumed => congrArg _ resumed
  | task op line =>
      cases op with
      | msgPost taskId msg delay period async =>
          apply (same.osMsgQPost _ msg _ _ async line.toNat).map
          rintro ⟨blocked, k⟩ ⟨_, k'⟩ ⟨rfl, _⟩
          rfl
      | msgReceive taskId pMsg async =>
          apply (same.osMsgQReceive _ pMsg async line.toNat).map
          rintro ⟨blocked, buffer, k⟩ ⟨_, _, k'⟩ ⟨rfl, rfl, _⟩
          rfl
      | _ => exact .value rfl
  | _ => exact .value rfl

end Sys.Agrees

/-! ## The actions of a call -/

/-- A creation call does what the creation step does. -/
theorem createCall_sys (cfg : Config) (s : Session β) (creation : Creation β) :
    (createCall cfg s creation).map (fun made => made.2.sys) =
      step cfg s.sys (.create creation) := by
  cases creation with
  | osTaskCreate taskproc data prio msgPool poolSize msgSize =>
      simp only [createCall, step, creationStep, map_mapped]
      rfl
  | eventCreate | semBinCreate | semCountingCreate =>
      simp only [createCall, step, creationStep, map_mapped]
      rfl

/-- Every call is a trace of actions of the kernel. -/
theorem apiCall_trace
    {cfg : Config} {s s' : Session β} {call : ApiCall β} {reply : Reply β}
    (sound : s.sys.kernel.Sound cfg)
    (calls : apiCall cfg s call = .ok (reply, s')) :
    ∃ acts, Trace (Micro cfg) s.sys.kernel acts s'.sys.kernel := by
  have unchanged : ∀ {α : Type} {observed : Outcome α} {tell : α → Reply β},
      observed.map (fun value => (tell value, s)) = .ok (reply, s') →
        ∃ acts, Trace (Micro cfg) s.sys.kernel acts s'.sys.kernel := by
    intro α observed tell returns
    obtain ⟨_, _, same⟩ := map_eq_ok_iff.mp returns
    cases same
    exact ⟨[], .nil _⟩
  cases call with
  | step label =>
      have steps : step cfg s.sys label = .ok s'.sys := by
        cases label with
        | create creation =>
            rw [← createCall_sys]
            exact map_eq_ok_iff.mpr ⟨_, calls, rfl⟩
        | _ =>
            obtain ⟨sys, steps, later⟩ := bind_eq_ok_iff.mp calls
            obtain ⟨_, _, same⟩ := bind_eq_ok_iff.mp later
            cases same
            exact steps
      obtain ⟨acts, _, trace⟩ := step_trace sound steps
      exact ⟨acts, trace⟩
  | osMsgPost msg queue delay period =>
      obtain ⟨⟨result, armed, k⟩, posts, same⟩ := map_eq_ok_iff.mp calls
      cases same
      rcases Kernel.osMsgPost_cases posts with ⟨_, rfl⟩ | ⟨rfl, _⟩
      · exact ⟨[], .nil _⟩
      · exact ⟨_, .single (.post posts)⟩
  | osMsgReceive msg queue =>
      obtain ⟨⟨result, buffer, k⟩, receives, same⟩ := map_eq_ok_iff.mp calls
      cases same
      rcases Kernel.osMsgReceive_cases receives with
        ⟨_, _, rfl⟩ | ⟨rfl, _, _, q, msg, rfl⟩
      · exact ⟨[], .nil _⟩
      · exact ⟨_, .single (.receive receives rfl)⟩
  | taskStateGet tid => exact unchanged calls
  | osTaskTimeoutGet tid => exact unchanged calls
  | eventSignalingTaskIdGet event => exact unchanged calls
  | osSemValueGet sem =>
      obtain ⟨_, same⟩ := guard_eq_ok_iff.mp calls
      cases same
      exact ⟨[], .nil _⟩
  | _ =>
      cases calls
      exact ⟨[], .nil _⟩

/-! ## The last signalled event -/

/-- The last signalled event is the one the history signals last, and the one
that was there at `os_init` as long as there is none. -/
def Kernel.Recalls (atInit : Nat) (k : Kernel β) : Prop :=
  k.events.lastSignaledEvent = (lastOf Entry.event k.history).getD atInit

theorem Kernel.recalls_osInit (cfg : Config) (k : Kernel β) :
    (k.osInit cfg).Recalls k.events.lastSignaledEvent := by
  unfold Recalls osInit EventTable.osEventInit
  by_cases available : 0 < cfg.nTotalEvents
  · rw [if_pos available]
    rfl
  · rw [if_neg available]
    rfl

theorem Kernel.Recalls.of_micro
    {cfg : Config} {atInit : Nat} {k k' : Kernel β} {act : Act β}
    (recalls : k.Recalls atInit)
    (acts : Micro cfg k act k') :
    k'.Recalls atInit := by
  have entries : lastOf Entry.event act.entries = act.signalled := by
    cases act <;> rfl
  unfold Recalls at recalls ⊢
  rw [acts.lastSignaledEvent, acts.history, lastOf_append, entries, recalls]
  cases act.signalled <;> rfl

theorem Kernel.Recalls.of_trace
    {cfg : Config} {atInit : Nat} {k k' : Kernel β} {acts : List (Act β)}
    (recalls : k.Recalls atInit)
    (trace : Trace (Micro cfg) k acts k') :
    k'.Recalls atInit :=
  trace.invariant (fun _ => True) (fun k => k.Recalls atInit)
    (fun _ _ _ _ recalls acts => recalls.of_micro acts) (fun _ _ => trivial) recalls

theorem Kernel.hasSignalled_iff (k : Kernel β) :
    k.HasSignalled ↔ lastOf Entry.event k.history ≠ none := by
  unfold HasSignalled lastOf
  simp only [ne_eq, List.getLast?_eq_none_iff, List.filterMap_eq_nil_iff,
    not_forall, exists_prop]

/-! ## Two sessions -/

/-- The same ids are live in two sessions, whose systems agree on them. -/
structure Session.Matches (cfg : Config) (s s' : Session β) : Prop where
  live : s.live = s'.live
  sys : s.sys.Agrees cfg s.live s'.sys

/-- Two sessions that went through the same calls since `os_init`, where the
last signalled events were those given. -/
structure Session.Agrees (cfg : Config) (last last' : Nat) (s s' : Session β) :
    Prop extends Session.Matches cfg s s' where
  sound : s.sys.kernel.Sound cfg
  sound' : s'.sys.kernel.Sound cfg
  recalls : s.sys.kernel.Recalls last
  recalls' : s'.sys.kernel.Recalls last'

theorem Session.agrees_start (cfg : Config) (k k' : Kernel β) :
    (Session.start cfg k).Agrees cfg k.events.lastSignaledEvent
      k'.events.lastSignaledEvent (Session.start cfg k') where
  live := rfl
  sys := ⟨Kernel.agrees_osInit cfg k k', rfl⟩
  sound := ⟨Kernel.queuesSound_osInit cfg k, Nat.zero_le _⟩
  sound' := ⟨Kernel.queuesSound_osInit cfg k', Nat.zero_le _⟩
  recalls := Kernel.recalls_osInit cfg k
  recalls' := Kernel.recalls_osInit cfg k'

section

variable {cfg : Config} {last last' : Nat} {s s' : Session β}

/-- A call that leaves both sessions as they are and tells the same. -/
theorem Session.Matches.tells
    (same : s.Matches cfg s') {α : Type} {observed observed' : Outcome α}
    {tell : α → Reply β}
    (equal : Related Eq observed observed') :
    Related (Alike (Session.Matches cfg))
      (observed.map fun value => (tell value, s))
      (observed'.map fun value => (tell value, s')) :=
  equal.map fun _ _ equal => ⟨congrArg tell equal, same⟩

/-- Agreeing sessions create the same objects. -/
theorem Session.Matches.createCall
    (same : s.Matches cfg s') (creation : Creation β) :
    Related (Alike (Session.Matches cfg)) (CocoOs.createCall cfg s creation)
      (CocoOs.createCall cfg s' creation) := by
  obtain ⟨live, kernels, frame⟩ := same
  cases creation with
  | osTaskCreate taskproc data prio msgPool poolSize msgSize =>
      apply (kernels.osTaskCreate taskproc data _ msgPool _ _).map
      rintro ⟨tid, k⟩ ⟨_, k'⟩ ⟨rfl, handles, created⟩
      exact ⟨rfl, live ▸ handles, created, frame⟩
  | eventCreate =>
      apply kernels.eventCreate.map
      rintro ⟨id, events⟩ ⟨_, events'⟩ ⟨rfl, created⟩
      exact ⟨rfl, congrArg (Handles.withEvent · id) live, created, frame⟩
  | semBinCreate initial =>
      apply (kernels.osSemCreate 1 _).map
      rintro ⟨sem, sems⟩ ⟨_, sems'⟩ ⟨rfl, created⟩
      exact ⟨rfl, congrArg (Handles.withSem · sem) live, created, frame⟩
  | semCountingCreate max initial =>
      apply (kernels.osSemCreate _ _).map
      rintro ⟨sem, sems⟩ ⟨_, sems'⟩ ⟨rfl, created⟩
      exact ⟨rfl, congrArg (Handles.withSem · sem) live, created, frame⟩

/-- Agreeing sessions take the same steps. -/
theorem Session.Matches.stepCall
    (same : s.Matches cfg s') (sound : s.sys.kernel.Sound cfg)
    {label : Label β} (refers : ∀ sem ∈ label.sem, sem ∈ s.live.sems) :
    Related (Alike (Session.Matches cfg)) (CocoOs.apiCall cfg s (.step label))
      (CocoOs.apiCall cfg s' (.step label)) := by
  have steps : (∀ creation, label ≠ .create creation) →
      Related (Alike (Session.Matches cfg))
        (step cfg s.sys label >>= fun sys =>
          stepReply cfg s.sys label >>= fun reply =>
            .ok (reply, { s with sys := sys }))
        (step cfg s'.sys label >>= fun sys =>
          stepReply cfg s'.sys label >>= fun reply =>
            .ok (reply, { s' with sys := sys })) := by
    intro noCreation
    apply (same.sys.step sound refers noCreation).bind
    intro sys sys' agree
    apply (same.sys.stepReply label).bind
    exact fun _ _ told => .value ⟨told, same.live, agree⟩
  cases label with
  | create creation => exact same.createCall creation
  | _ => exact steps fun _ wrong => by cases wrong

/-- The last signalled events are the same once an event was signalled. -/
theorem Session.Agrees.eventLastSignaledGet
    (agrees : s.Agrees cfg last last' s')
    (asks : 0 < cfg.nTotalEvents → last ≠ last' → s.sys.kernel.HasSignalled) :
    s.sys.kernel.events.eventLastSignaledGet cfg =
      s'.sys.kernel.events.eventLastSignaledGet cfg := by
  unfold EventTable.eventLastSignaledGet
  by_cases available : 0 < cfg.nTotalEvents
  · rw [if_pos available, if_pos available, agrees.recalls, agrees.recalls',
      ← agrees.sys.kernel.history]
    by_cases same : last = last'
    · rw [same]
    · obtain ⟨event, signalled⟩ := Option.ne_none_iff_exists'.mp
        ((Kernel.hasSignalled_iff _).mp (asks available same))
      rw [signalled]
      rfl
  · rw [if_neg available, if_neg available]

/-- Agreeing sessions reply alike to every call on objects created since, but
for the last signalled event before any signal. -/
theorem Session.Agrees.replies
    (agrees : s.Agrees cfg last last' s') (call : ApiCall β)
    (refers : call.Refers s)
    (asks : 0 < cfg.nTotalEvents → last ≠ last' → call.AsksAfterSignal s) :
    Related (Alike (Session.Matches cfg)) (apiCall cfg s call)
      (apiCall cfg s' call) := by
  have same := agrees.toMatches
  have kernels := agrees.sys.kernel
  cases call with
  | step label => exact same.stepCall agrees.sound refers.1
  | taskStateGet tid =>
      refine same.tells (.guard (by rw [kernels.tasks.nTasks]) fun created => ?_)
      rw [kernels.tasks.created created]
      exact .value rfl
  | osTaskTimeoutGet tid =>
      refine same.tells (.guard Iff.rfl fun inside => ?_)
      rw [kernels.tasks.entry _ inside]
      exact .value rfl
  | osGetRunningTid => exact .value ⟨congrArg Reply.id kernels.runningTid, same⟩
  | eventSignalingTaskIdGet event =>
      refine same.tells (.ite Iff.rfl (fun available => ?_) fun _ => .value rfl)
      exact .guard Iff.rfl fun _ =>
        .value ((kernels.events available).signaledByTid _ (refers.2 _ rfl))
  | eventLastSignaledGet =>
      exact .value ⟨congrArg Reply.id (agrees.eventLastSignaledGet
        fun available different => asks available different rfl), same⟩
  | osSemValueGet sem =>
      refine .guard Iff.rfl fun inside => .value ⟨congrArg Reply.count ?_, same⟩
      unfold SemTable.osSemValueGet
      by_cases available : 0 < cfg.nTotalSemaphores
      · rw [(kernels.sems available).value sem (refers.1 sem rfl) inside]
      · rw [if_neg available, if_neg available]
  | osMsgQFind taskId =>
      exact .value ⟨congrArg Reply.id (kernels.osMsgQFind _).symm, same⟩
  | osMsgQEventGet queue =>
      exact .value ⟨congrArg Reply.id (kernels.osMsgQEventGet _).symm, same⟩
  | osMsgPost msg queue delay period =>
      apply (kernels.osMsgPost msg _ _ _).map
      rintro ⟨result, armed, k⟩ ⟨_, _, k'⟩ ⟨rfl, rfl, posted⟩
      exact ⟨rfl, same.live, posted, agrees.sys.frame⟩
  | osMsgReceive msg queue =>
      apply (kernels.osMsgReceive msg _).map
      rintro ⟨result, buffer, k⟩ ⟨_, _, k'⟩ ⟨rfl, rfl, received⟩
      exact ⟨rfl, same.live, received, agrees.sys.frame⟩

/-- After such a call the sessions agree again. -/
theorem Session.Agrees.apiCall
    (agrees : s.Agrees cfg last last' s') (call : ApiCall β)
    (refers : call.Refers s)
    (asks : 0 < cfg.nTotalEvents → last ≠ last' → call.AsksAfterSignal s) :
    Related (Alike (Session.Agrees cfg last last')) (CocoOs.apiCall cfg s call)
      (CocoOs.apiCall cfg s' call) := by
  apply (agrees.replies call refers asks).strengthen
  rintro ⟨reply, t⟩ ⟨reply', t'⟩ calls calls' ⟨same, next⟩
  obtain ⟨acts, trace⟩ := apiCall_trace agrees.sound calls
  obtain ⟨acts', trace'⟩ := apiCall_trace agrees.sound' calls'
  refine ⟨same, { next with sound := ?_, sound' := ?_, recalls := ?_, recalls' := ?_ }⟩
  · exact agrees.sound.of_trace trace
  · exact agrees.sound'.of_trace trace'
  · exact agrees.recalls.of_trace trace
  · exact agrees.recalls'.of_trace trace'

/-- Before any signal the two programs are told what the histories left. -/
theorem Session.Agrees.differ
    (agrees : s.Agrees cfg last last' s') (call : ApiCall β)
    (available : 0 < cfg.nTotalEvents)
    (early : ¬ call.AsksAfterSignal s) :
    CocoOs.apiCall cfg s call = .ok (.id last, s) ∧
      CocoOs.apiCall cfg s' call = .ok (.id last', s') := by
  cases call with
  | eventLastSignaledGet =>
      have none : lastOf Entry.event s.sys.kernel.history = none := by
        by_contra some
        exact early fun _ => (Kernel.hasSignalled_iff _).mpr some
      have first := agrees.recalls
      have second := agrees.recalls'
      unfold Kernel.Recalls at first second
      rw [none, Option.getD_none] at first
      rw [← agrees.sys.kernel.history, none, Option.getD_none] at second
      simp only [CocoOs.apiCall, EventTable.eventLastSignaledGet, available,
        if_true, first, second, and_self]
  | _ => exact absurd (fun wrong => by cases wrong) early

end

/-- Two histories followed by `os_init` and the same calls are told apart
exactly by a call that asks for the last signalled event before any signal,
when they left different ones. -/
theorem osInit_forgets_iff
    {cfg : Config} (k k' : Kernel β) (calls : List (ApiCall β))
    (refers : Meets (follow (apiCall cfg)) ApiCall.Refers (Session.start cfg k)
      calls) :
    transcript (apiCall cfg) (Session.start cfg k) calls =
        transcript (apiCall cfg) (Session.start cfg k') calls ↔
      (0 < cfg.nTotalEvents →
        k.events.lastSignaledEvent ≠ k'.events.lastSignaledEvent →
        Meets (follow (apiCall cfg)) ApiCall.AsksAfterSignal
          (Session.start cfg k) calls) := by
  have equal := transcript_eq_iff
    (fun s s' call agrees valid asks => Session.Agrees.apiCall agrees call valid asks)
    (fun s s' call agrees valid early => by
      simp only [not_forall] at early
      obtain ⟨available, different, early⟩ := early
      obtain ⟨first, second⟩ := agrees.differ call available early
      refine ⟨_, _, _, _, first, second, fun same => different ?_⟩
      exact Reply.id.inj same)
    (Session.agrees_start cfg k k') refers
  rw [equal]
  constructor
  · intro meets available different
    exact meets.mono fun _ _ asks => asks available different
  · intro meets
    by_cases both : 0 < cfg.nTotalEvents ∧
        k.events.lastSignaledEvent ≠ k'.events.lastSignaledEvent
    · exact (meets both.1 both.2).mono fun _ _ asks _ _ => asks
    · apply Meets.of_forall
      exact fun _ _ _ available different => absurd ⟨available, different⟩ both

/-- A history that signalled an event against none, and calls that use every
module: the replies are the same, as the program asks for the last signalled
event only after it signalled one. -/
theorem osInit_forgets_iff_setUp :
    ∃ s : Sys Nat,
      run (step (Config.small false)) (Sys.boot (Config.small false))
        (setUp 1 2 3 ++ [.call (.eventIsrSignal 1)]) = .ok s ∧
      s.kernel.events.lastSignaledEvent = 1 ∧
      transcript (apiCall (Config.small false))
          (Session.start (Config.small false) Kernel.zeroed)
          ((setUp 1 2 3).map .step ++
            [.step .osSchedule, .osSemValueGet 0, .step (.task (.semWait 0) 1),
              .osMsgPost ⟨7, 0, 0, 5⟩ 0 0 0, .step (.task (.eventSignal 1) 2),
              .eventLastSignaledGet, .eventSignalingTaskIdGet 1,
              .taskStateGet 0]) =
        transcript (apiCall (Config.small false))
          (Session.start (Config.small false) s.kernel)
          ((setUp 1 2 3).map .step ++
            [.step .osSchedule, .osSemValueGet 0, .step (.task (.semWait 0) 1),
              .osMsgPost ⟨7, 0, 0, 5⟩ 0 0 0, .step (.task (.eventSignal 1) 2),
              .eventLastSignaledGet, .eventSignalingTaskIdGet 1,
              .taskStateGet 0]) := by
  obtain ⟨s, runs, checked⟩ := exists_of_returnsWith
    (fun s : Sys Nat => s.kernel.events.lastSignaledEvent == 1)
    (run (step (Config.small false)) (Sys.boot (β := Nat) (Config.small false))
      (setUp 1 2 3 ++ [.call (.eventIsrSignal 1)])) (by decide +kernel)
  refine ⟨s, runs, by simpa using checked, ?_⟩
  refine (osInit_forgets_iff (Kernel.zeroed (β := Nat)) s.kernel _ ?_).mpr fun _ _ => ?_
  · exact Meets.of_check (fun s call => decide (call.Refers s))
      (fun _ _ holds => of_decide_eq_true holds) (by decide +kernel)
  · exact Meets.of_check (fun s call => decide (call.AsksAfterSignal s))
      (fun _ _ holds => of_decide_eq_true holds) (by decide +kernel)

/-- The history that signalled event 1, then `os_init` and a program that asks
at once: it is told event 1, and `NO_EVENT` after the empty history. -/
theorem osInit_keeps_lastSignaledEvent :
    ∃ s : Sys Nat,
      run (step (Config.small false)) (Sys.boot (Config.small false))
        (setUp 1 2 3 ++ [.call (.eventIsrSignal 1)]) = .ok s ∧
      Meets (follow (apiCall (Config.small false))) ApiCall.Refers
        (Session.start (Config.small false) (Kernel.zeroed (β := Nat)))
        [.eventLastSignaledGet] ∧
      transcript (apiCall (Config.small false))
          (Session.start (Config.small false) (Kernel.zeroed (β := Nat)))
          [.eventLastSignaledGet] = [.ok (.id noEvent)] ∧
      transcript (apiCall (Config.small false))
          (Session.start (Config.small false) s.kernel)
          [.eventLastSignaledGet] = [.ok (.id 1)] := by
  obtain ⟨s, runs, checked⟩ := exists_of_returnsWith
    (fun s : Sys Nat => transcript (apiCall (Config.small false))
      (Session.start (Config.small false) s.kernel) [.eventLastSignaledGet] =
        [.ok (.id 1)])
    (run (step (Config.small false)) (Sys.boot (β := Nat) (Config.small false))
      (setUp 1 2 3 ++ [.call (.eventIsrSignal 1)])) (by decide +kernel)
  refine ⟨s, runs, ?_, by decide +kernel, of_decide_eq_true checked⟩
  exact Meets.of_check (fun s call => decide (call.Refers s))
    (fun _ _ holds => of_decide_eq_true holds) (by decide +kernel)

end CocoOs
