import CocoOs.StepTrace
import CocoOs.Scheduling

/-!
# Which step takes which action

Each action occurs only in the steps that are labelled for it: a task is
suspended, resumed or killed on request only, only the task that runs the step
blocks or yields, and it blocks only where its macro waits.
-/

namespace CocoOs

open Foundation

variable {β : Type}

namespace Label

/-- The step is a request to suspend the task. -/
def Suspends (tid : Nat) : Label β → Prop
  | .call (.osTaskSuspend id) => id.toNat = tid
  | .task (.taskSuspend id) _ => id.toNat = tid
  | _ => False

/-- The step is a request to resume the task. -/
def Resumes (tid : Nat) : Label β → Prop
  | .call (.osTaskResume id) => id.toNat = tid
  | .task (.taskResume id) _ => id.toNat = tid
  | _ => False

/-- The step is a request to kill the task, by any code or by the end of its
own procedure. -/
def Kills (s : Sys β) (tid : Nat) : Label β → Prop
  | .call (.osTaskKill id) => id.toNat = tid
  | .task .taskClose _ => s.kernel.runningTid = tid
  | _ => False

/-- The clock and the number of ticks a step delivers. -/
def ticks : Label β → Option (Nat × Nat)
  | .call .osTick => some (0, 1)
  | .call (.osSubTick id) => if id = 0 then none else some (id.toNat, 1)
  | .call (.osSubNTick id nTicks) =>
      if id = 0 then none else some (id.toNat, nTicks.toNat)
  | _ => none

/-- The step is a wait for the semaphore. -/
def WaitsSem (sem : Int) : Label β → Prop
  | .task (.semWait other) _ => other = sem
  | _ => False

/-- The step signals the semaphore. -/
def SignalsSem (sem : Int) : Label β → Prop
  | .call (.semIsrSignal other) => other = sem
  | .task (.semSignal other) _ => other = sem
  | _ => False

end Label

/-- The macro gets to a wait. -/
def TaskOp.Waits (cfg : Config) (k : Kernel β) : TaskOp β → Prop
  | .taskWaitId _ _ => True
  | .eventWaitTimeout event _ =>
      0 < cfg.nTotalEvents ∧ event.toNat < k.events.nEvents
  | .eventWaitMultiple _ _ => 0 < cfg.nTotalEvents
  | .semWait sem => k.sems.osSemLargerThanZero cfg sem = false
  | .msgPost taskId _ _ _ async =>
      async = false ∧
      k.PostRefused cfg (k.queues.osMsgQFind cfg taskId.toNat) ∧
      k.queues.osMsgQEventGet cfg (k.queues.osMsgQFind cfg taskId.toNat) <
        k.events.nEvents
  | .msgReceive taskId _ async =>
      async = false ∧
      k.NothingReady cfg (k.queues.osMsgQFind cfg taskId.toNat) ∧
      k.queues.osMsgQEventGet cfg (k.queues.osMsgQFind cfg taskId.toNat) <
        k.events.nEvents
  | _ => False

/-- The task runs the step: it is the running task of a macro, or it is ready
and the scheduler chooses it. -/
def RunsStep (s : Sys β) (label : Label β) (tid : Nat) : Prop :=
  (∃ op line, label = .task op line ∧ s.kernel.runningTid = tid) ∨
  (label = .osSchedule ∧ s.kernel.runningTid = noTid ∧
    (s.kernel.tasks.taskList tid).state = .ready)

/-- The task that a pass of the scheduler chooses, when the step is one. -/
def scheduled (cfg : Config) (s : Sys β) : Label β → Option Nat
  | .osSchedule =>
      match s.kernel.selectTask cfg with
      | .ok k => some k.runningTid
      | .error _ => none
  | _ => none

/-- The steps in which an action can occur. -/
def Act.Allowed (cfg : Config) (s : Sys β) (label : Label β) : Act β → Prop
  | .create creation => label = .create creation
  | .start => label = .osStart
  | .select _ => label = .osSchedule
  | .free => ∃ line, label = .task .taskClose line
  | .yield tid _ => RunsStep s label tid
  | .note tid _ => RunsStep s label tid
  | .block tid _ _ =>
      (∃ op line, label = .task op line ∧ s.kernel.runningTid = tid ∧
        op.Waits cfg s.kernel) ∨
      (label = .osSchedule ∧ s.kernel.runningTid = noTid ∧
        (s.kernel.tasks.taskList tid).state = .ready)
  | .suspend tid => label.Suspends tid
  | .resume tid => label.Resumes tid
  | .kill tid => label.Kills s tid
  | .clock => label = .call .osTick
  | .tick _ clockId tickSize => label.ticks = some (clockId, tickSize)
  | .age _ => label = .call .osTick
  | .signal _ => True
  | .signaller _ _ => True
  | .release _ sem => label.SignalsSem sem
  | .increment sem => label.SignalsSem sem
  | .decrement sem => ∃ line, label = .task (.semWait sem) line
  | .post _ _ => ∃ tid, RunsStep s label tid
  | .receive _ _ => ∃ tid, RunsStep s label tid

section Allowed

variable {cfg : Config} {s : Sys β} {label : Label β}

theorem allowed_signalActs (event tid : Nat) :
    ∀ act ∈ Kernel.signalActs cfg event tid, act.Allowed cfg s label := by
  unfold Kernel.signalActs
  split <;> simp [Act.Allowed]

theorem allowed_isrSignalActs (event times : Nat) :
    ∀ act ∈ Kernel.isrSignalActs cfg event times, act.Allowed cfg s label := by
  induction times with
  | zero => simp [Kernel.isrSignalActs]
  | succ times inductionHypothesis =>
      intro act inside
      rcases List.mem_append.mp inside with here | later
      · exact allowed_signalActs event isrTid act here
      · exact inductionHypothesis act later

/-- The actions of a tick occur in steps that deliver this tick; queues age on
the master clock only. -/
theorem allowed_tickActs
    (k : Kernel β) (clockId tickSize count : Nat) (expired : Nat → Nat)
    (ticks : label.ticks = some (clockId, tickSize))
    (master : clockId = 0 → label = .call .osTick) :
    ∀ act ∈ k.tickActs cfg clockId tickSize expired count,
      act.Allowed cfg s label := by
  intro act inside
  unfold Kernel.tickActs at inside
  obtain ⟨tid, _, inside⟩ := List.mem_flatMap.mp inside
  unfold Kernel.taskTickActs Kernel.queueTickActs at inside
  rcases List.mem_cons.mp inside with rfl | later
  · exact ticks
  · split_ifs at later with aged
    · rcases List.mem_cons.mp later with rfl | signals
      · exact master aged.1
      · exact allowed_isrSignalActs _ _ act signals
    · simp at later
    · simp at later

theorem allowed_semSignalActs
    (k : Kernel β) (sem : Int) (signals : label.SignalsSem sem) :
    ∀ act ∈ k.semSignalActs cfg sem, act.Allowed cfg s label := by
  intro act inside
  unfold Kernel.semSignalActs at inside
  split_ifs at inside
  · rw [List.mem_singleton.mp inside]
    exact signals
  · simp at inside
  · rw [List.mem_singleton.mp inside]
    exact signals

theorem allowed_waitEventActs
    (k : Kernel β) (eventId : Nat) (wait : Wait) (line : Nat)
    (yields : RunsStep s label k.runningTid)
    (blocks : 0 < cfg.nTotalEvents → eventId < k.events.nEvents →
      (Act.block (β := β) k.runningTid wait line).Allowed cfg s label) :
    ∀ act ∈ k.waitEventActs cfg eventId wait line, act.Allowed cfg s label := by
  intro act inside
  unfold Kernel.waitEventActs at inside
  split_ifs at inside with known
  · rcases List.mem_cons.mp inside with rfl | later
    · trivial
    · rw [List.mem_singleton.mp later]
      exact blocks known.1 known.2
  · rw [List.mem_singleton.mp inside]
    exact yields

theorem allowed_postActs
    {k : Kernel β} {queue delay period event line : Nat} {msg : Msg β}
    {async blocked : Bool} {acts : List (Act β)}
    (runs : RunsStep s label k.runningTid)
    (blocks : async = false → k.PostRefused cfg queue →
      event < k.events.nEvents → ∀ wait,
      (Act.block (β := β) k.runningTid wait line).Allowed cfg s label)
    (turn : Kernel.PostActs cfg k queue delay period msg async event line
      blocked acts) :
    ∀ act ∈ acts, act.Allowed cfg s label := by
  intro act inside
  cases turn with
  | blocked sync full =>
      rcases List.mem_cons.mp inside with rfl | later
      · exact runs
      · exact allowed_waitEventActs k event _ line runs
          (fun _ known => blocks sync full known _) act later
  | posted _ =>
      rcases List.mem_cons.mp inside with rfl | later
      · exact ⟨_, runs⟩
      · exact allowed_signalActs _ _ act later
  | refused _ => simp at inside

theorem allowed_receiveActs
    {k : Kernel β} {queue event line : Nat}
    {async blocked : Bool} {acts : List (Act β)}
    (runs : RunsStep s label k.runningTid)
    (blocks : async = false → k.NothingReady cfg queue →
      event < k.events.nEvents → ∀ wait,
      (Act.block (β := β) k.runningTid wait line).Allowed cfg s label)
    (turn : Kernel.ReceiveActs cfg k queue async event line blocked acts) :
    ∀ act ∈ acts, act.Allowed cfg s label := by
  intro act inside
  cases turn with
  | blocked sync nothing =>
      rcases List.mem_cons.mp inside with rfl | later
      · exact runs
      · exact allowed_waitEventActs k event _ line runs
          (fun _ known => blocks sync nothing known _) act later
  | received msg _ =>
      rcases List.mem_cons.mp inside with rfl | later
      · exact ⟨_, runs⟩
      · exact allowed_signalActs _ _ act later
  | nothing _ => simp at inside

theorem allowed_callActs
    {call : Call} {acts : List (Act β)}
    (calls : CallActs cfg s.kernel call acts) :
    ∀ act ∈ acts, act.Allowed cfg s (.call call) := by
  intro act inside
  cases calls with
  | osTick expired =>
      rcases List.mem_cons.mp inside with rfl | later
      · rfl
      · exact allowed_tickActs _ 0 1 _ expired rfl (fun _ => rfl) act later
  | @osSubTick id sub expired =>
      have different : id ≠ 0 := by
        rintro rfl
        exact sub rfl
      exact allowed_tickActs _ id.toNat 1 _ expired
        (by simp [Label.ticks, different]) (fun zero => absurd zero sub)
        act inside
  | osSubTickMaster => simp at inside
  | @osSubNTick id nTicks sub expired =>
      have different : id ≠ 0 := by
        rintro rfl
        exact sub rfl
      exact allowed_tickActs _ id.toNat nTicks.toNat _ expired
        (by simp [Label.ticks, different]) (fun zero => absurd zero sub)
        act inside
  | osSubNTickMaster => simp at inside
  | eventIsrSignal event => exact allowed_signalActs _ _ act inside
  | semIsrSignal _ =>
      exact allowed_semSignalActs _ _ (by rfl) act inside
  | osTaskSuspend tid | osTaskResume tid | osTaskKill tid =>
      rw [List.mem_singleton.mp inside]
      rfl

theorem allowed_taskActs
    {op : TaskOp β} {line : UInt16} {acts : List (Act β)}
    {left : Option (Frame β)}
    (takes : TaskActs cfg s.kernel line.toNat op acts left) :
    ∀ act ∈ acts, act.Allowed cfg s (.task op line) := by
  intro act inside
  have runs : RunsStep s (.task op line) s.kernel.runningTid :=
    .inl ⟨op, line, rfl, rfl⟩
  have blocks : op.Waits cfg s.kernel → ∀ (wait : Wait) (line' : Nat),
      (Act.block (β := β) s.kernel.runningTid wait line').Allowed cfg s
        (.task op line) :=
    fun waits _ _ => .inl ⟨op, line, rfl, rfl, waits⟩
  cases takes with
  | taskWaitId id ticks =>
      rw [List.mem_singleton.mp inside]
      exact blocks trivial _ _
  | taskSuspend id | taskResume id =>
      rcases List.mem_cons.mp inside with rfl | later
      · rfl
      · unfold Kernel.selfYieldActs at later
        split_ifs at later
        · rw [List.mem_singleton.mp later]
          exact runs
        · simp at later
  | eventWaitTimeout event timeout =>
      exact allowed_waitEventActs _ _ _ _ runs
        (fun some known => blocks ⟨some, known⟩ _ _) act inside
  | eventWaitMultiple waitAll args events =>
      rw [List.mem_singleton.mp inside]
      exact blocks events _ _
  | eventWaitMultipleNone waitAll args none_ =>
      rw [List.mem_singleton.mp inside]
      exact runs
  | eventSignal event =>
      rcases List.mem_append.mp inside with signals | last
      · exact allowed_signalActs _ _ act signals
      · rw [List.mem_singleton.mp last]
        exact runs
  | semWaitTake _ _ =>
      rw [List.mem_singleton.mp inside]
      exact ⟨line, rfl⟩
  | semWaitBlock _ zero =>
      rw [List.mem_singleton.mp inside]
      exact blocks zero _ _
  | semSignal _ =>
      unfold Kernel.semSignalYieldActs at inside
      rcases List.mem_append.mp inside with signals | last
      · exact allowed_semSignalActs _ _ (by rfl) act signals
      · split_ifs at last
        · rw [List.mem_singleton.mp last]
          exact runs
        · simp at last
  | msgPost turn =>
      rcases List.mem_cons.mp inside with rfl | later
      · exact runs
      · exact allowed_postActs (k := s.kernel.setWaitQueue cfg _) runs
          (fun sync full known wait => blocks ⟨sync, full, known⟩ wait _)
          turn act later
  | msgReceive buffer turn =>
      rcases List.mem_cons.mp inside with rfl | later
      · exact runs
      · exact allowed_receiveActs (k := s.kernel.setWaitQueue cfg _) runs
          (fun sync nothing known wait => blocks ⟨sync, nothing, known⟩ wait _)
          turn act later
  | taskClose =>
      rcases List.mem_cons.mp inside with rfl | last
      · rfl
      · rw [List.mem_singleton.mp last]
        exact ⟨line, rfl⟩

theorem allowed_resumeActs
    {k : Kernel β} {frame frame' : Nat → Frame β} {acts : List (Act β)}
    (runs : RunsStep s .osSchedule k.runningTid)
    (resumes : ResumeActs cfg k frame acts frame') :
    ∀ act ∈ acts, act.Allowed cfg s .osSchedule := by
  intro act inside
  have blocks : ∀ (wait : Wait) (line : Nat),
      (Act.block (β := β) k.runningTid wait line).Allowed cfg s .osSchedule := by
    intro wait line
    rcases runs with ⟨op, _, wrong, _⟩ | ready
    · cases wrong
    · exact .inr ready
  cases resumes with
  | begin _ => simp at inside
  | between _ _ => simp at inside
  | post _ _ _ turn =>
      exact allowed_postActs runs (fun _ _ _ wait => blocks wait _) turn act inside
  | receive _ _ _ turn =>
      exact allowed_receiveActs runs (fun _ _ _ wait => blocks wait _) turn act
        inside
  | done _ _ _ =>
      split_ifs at inside
      · exact allowed_signalActs _ _ act inside
      · simp at inside

/-- Every action of a step is one the step is labelled for. -/
theorem StepActs.allowed
    {acts : List (Act β)} {frame : Nat → Frame β}
    (shape : StepActs cfg s label acts frame) :
    ∀ act ∈ acts, act.Allowed cfg s label := by
  intro act inside
  cases shape with
  | create creation =>
      rw [List.mem_singleton.mp inside]
      rfl
  | osStart =>
      rw [List.mem_singleton.mp inside]
      rfl
  | sleep _ _ _ =>
      rw [List.mem_singleton.mp inside]
      rfl
  | osSchedule idle selects runs created resumes =>
      rcases List.mem_cons.mp inside with rfl | later
      · rfl
      · have ready := Kernel.selectTask_ready selects runs
        exact allowed_resumeActs (.inr ⟨rfl, idle, ready⟩) resumes act later
  | call calls => exact allowed_callActs calls act inside
  | task _ takes => exact allowed_taskActs takes act inside

/-- Only creation changes which objects there are. -/
theorem StepActs.quiet
    {acts : List (Act β)} {frame : Nat → Frame β}
    (shape : StepActs cfg s label acts frame)
    (notCreation : ∀ creation, label ≠ .create creation) :
    ∀ act ∈ acts, act.Quiet := by
  intro act inside
  have allowed := shape.allowed act inside
  cases act with
  | create creation => exact absurd allowed (notCreation creation)
  | _ => trivial

end Allowed

end CocoOs
