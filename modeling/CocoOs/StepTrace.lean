import CocoOs.MacroTraces

/-!
# Every step as a trace

`StepActs` lists, for each label, the actions of a step and the frames it
leaves.  The main theorem says that a step of the system from a consistent
kernel is a trace of exactly these actions.
-/

namespace CocoOs

open Foundation

variable {β : Type}

namespace Kernel

/-- The actions of a semaphore signal, before any yield. -/
def semSignalActs (cfg : Config) (k : Kernel β) (sem : Int) : List (Act β) :=
  if k.tasks.osTaskWaitingThisSemaphore sem then
    if noTid ≠ k.tasks.findWaitingTask cfg sem then
      [.release (k.tasks.findWaitingTask cfg sem) sem]
    else []
  else [.increment sem]

theorem releaseWaitingTask_trace
    {cfg : Config} {k : Kernel β} {sem : Int}
    (sound : k.Sound cfg)
    (waiting : k.tasks.osTaskWaitingThisSemaphore sem = true) :
    Trace (Micro cfg) k (k.semSignalActs cfg sem)
      { k with tasks := k.tasks.osTaskReleaseWaitingTask cfg sem } := by
  unfold semSignalActs TaskTable.osTaskReleaseWaitingTask
  rw [if_pos waiting]
  by_cases found : noTid ≠ k.tasks.findWaitingTask cfg sem
  · rw [if_pos found, if_pos found]
    rcases k.tasks.findWaitingTask_spec cfg sem sound.nTasks_lt with
      ⟨none, _⟩ | ⟨findable, _⟩
    · exact absurd none.symm found
    · exact .single (.release k findable.1 findable.2.1 rfl)
  · rw [if_neg found, if_neg found]
    exact .nil k

theorem semIncrement_trace
    {cfg : Config} {k : Kernel β} {sem : Int}
    (noWaiter : ¬ k.tasks.osTaskWaitingThisSemaphore sem = true) :
    Trace (Micro cfg) k (k.semSignalActs cfg sem)
      { k with sems := k.sems.osSemIncrement cfg sem } := by
  unfold semSignalActs
  rw [if_neg noWaiter]
  refine .single (.increment k ?_)
  rwa [← TaskTable.osTaskWaitingThisSemaphore_iff]

theorem osSignalSemNoSchedule_trace
    {cfg : Config} {k : Kernel β} (sem : Int)
    (sound : k.Sound cfg) :
    Trace (Micro cfg) k (k.semSignalActs cfg sem)
      (k.osSignalSemNoSchedule cfg sem) := by
  unfold osSignalSemNoSchedule
  by_cases waiting : k.tasks.osTaskWaitingThisSemaphore sem = true
  · rw [if_pos waiting]
    exact releaseWaitingTask_trace sound waiting
  · rw [if_neg waiting]
    exact semIncrement_trace waiting

/-- The actions of `OS_SIGNAL_SEM`, which yields when a task was waiting. -/
def semSignalYieldActs (cfg : Config) (k : Kernel β) (sem : Int) (line : Nat) :
    List (Act β) :=
  k.semSignalActs cfg sem ++
    if k.tasks.osTaskWaitingThisSemaphore sem then [.yield k.runningTid line]
    else []

theorem osSignalSem_trace
    {cfg : Config} {k : Kernel β} (sem : Int) (line : Nat)
    (sound : k.Sound cfg) :
    Trace (Micro cfg) k (k.semSignalYieldActs cfg sem line)
      (k.osSignalSem cfg sem line) := by
  unfold osSignalSem semSignalYieldActs
  by_cases waiting : k.tasks.osTaskWaitingThisSemaphore sem = true
  · rw [if_pos waiting, if_pos waiting]
    exact (releaseWaitingTask_trace sound waiting).snoc (.yield _ line)
  · rw [if_neg waiting, if_neg waiting, List.append_nil]
    exact semIncrement_trace waiting

/-- The actions at the end of a message macro. -/
theorem signalChange_trace
    {cfg : Config} {k k' : Kernel β} {done : Bool} {event : Nat}
    (returns : k.signalChange cfg done event = .ok k') :
    Trace (Micro cfg) k
      (if done then signalActs cfg event k.runningTid else []) k' := by
  unfold signalChange at returns
  by_cases isDone : done = true
  · rw [if_pos isDone] at returns ⊢
    obtain ⟨k₁, signals, notes⟩ := bind_eq_ok_iff.mp returns
    rw [osGetRunningTid, osSignalEvent_runningTid signals] at notes
    exact signal_trace signals notes
  · rw [if_neg isDone] at returns ⊢
    exact Except.ok.inj returns ▸ .nil k

/-- The yield of a macro by which a task suspends or resumes itself. -/
def selfYieldActs (k : Kernel β) (id line : Nat) : List (Act β) :=
  if id = k.runningTid then [.yield k.runningTid line] else []

theorem yieldIfSelf_trace
    (cfg : Config) (k : Kernel β) (id line : Nat) :
    Trace (Micro cfg) k (k.selfYieldActs id line) (k.yieldIfSelf id line) := by
  unfold yieldIfSelf selfYieldActs osGetRunningTid
  split_ifs
  · exact .single (.yield k line)
  · exact .nil k

end Kernel

/-! ## The actions of a step -/

/-- The actions of a task that goes on after the yield of a message macro, or
starts or goes on elsewhere, and the frames they leave. -/
inductive ResumeActs (cfg : Config) (k : Kernel β) (frame : Nat → Frame β) :
    List (Act β) → (Nat → Frame β) → Prop
  | begin
      (fresh : (k.tasks.taskList k.runningTid).internalState = 0) :
      ResumeActs cfg k frame [] (Function.update frame k.runningTid .between)
  | between
      (goesOn : (k.tasks.taskList k.runningTid).internalState ≠ 0)
      (here : frame k.runningTid = .between) :
      ResumeActs cfg k frame [] frame
  | post {taskId delay period : Nat} {msg : Msg β}
      {blocked : Bool} {acts : List (Act β)}
      (goesOn : (k.tasks.taskList k.runningTid).internalState ≠ 0)
      (here : frame k.runningTid = .post taskId msg delay period)
      (full : (k.tasks.taskList k.runningTid).msgResult = .full)
      (turn : Kernel.PostActs cfg k (k.queues.osMsgQFind cfg taskId) delay period
        msg false (k.tasks.taskList k.runningTid).msgChangeEvent
        (k.tasks.taskList k.runningTid).internalState blocked acts) :
      ResumeActs cfg k frame acts
        (Function.update frame k.runningTid
          (if blocked then .post taskId msg delay period else .between))
  | receive {taskId : Nat} {pMsg buffer : Msg β}
      {blocked : Bool} {acts : List (Act β)}
      (goesOn : (k.tasks.taskList k.runningTid).internalState ≠ 0)
      (here : frame k.runningTid = .receive taskId pMsg)
      (empty : (k.tasks.taskList k.runningTid).msgResult = .empty)
      (turn : Kernel.ReceiveActs cfg k (k.queues.osMsgQFind cfg taskId) false
        (k.tasks.taskList k.runningTid).msgChangeEvent
        (k.tasks.taskList k.runningTid).internalState blocked acts) :
      ResumeActs cfg k frame acts
        (Function.update frame k.runningTid
          (if blocked then .receive taskId buffer else .between))
  | done {done : Bool}
      (goesOn : (k.tasks.taskList k.runningTid).internalState ≠ 0)
      (wasPost : ∀ taskId msg delay period,
        frame k.runningTid = .post taskId msg delay period →
          (k.tasks.taskList k.runningTid).msgResult ≠ .full)
      (wasReceive : ∀ taskId pMsg,
        frame k.runningTid = .receive taskId pMsg →
          (k.tasks.taskList k.runningTid).msgResult ≠ .empty) :
      ResumeActs cfg k frame
        (if done then
          Kernel.signalActs cfg
            (k.tasks.taskList k.runningTid).msgChangeEvent k.runningTid
        else [])
        (Function.update frame k.runningTid .between)

/-- The actions of a call that any code can make. -/
inductive CallActs (cfg : Config) (k : Kernel β) : Call → List (Act β) → Prop
  | osTick (expired : Nat → Nat) :
      CallActs cfg k .osTick
        (.clock :: k.tickActs cfg 0 1 expired k.tasks.nTasks)
  | osSubTick {id : UInt8} (sub : id.toNat ≠ 0) (expired : Nat → Nat) :
      CallActs cfg k (.osSubTick id)
        (k.tickActs cfg id.toNat 1 expired k.tasks.nTasks)
  | osSubTickMaster : CallActs cfg k (.osSubTick 0) []
  | osSubNTick {id : UInt8} {nTicks : UInt32}
      (sub : id.toNat ≠ 0) (expired : Nat → Nat) :
      CallActs cfg k (.osSubNTick id nTicks)
        (k.tickActs cfg id.toNat nTicks.toNat expired k.tasks.nTasks)
  | osSubNTickMaster {nTicks : UInt32} : CallActs cfg k (.osSubNTick 0 nTicks) []
  | eventIsrSignal (event : UInt8) :
      CallActs cfg k (.eventIsrSignal event)
        (Kernel.signalActs cfg event.toNat isrTid)
  | semIsrSignal {sem : Int} (inside : cfg.HasSem sem) :
      CallActs cfg k (.semIsrSignal sem) (k.semSignalActs cfg sem)
  | osTaskSuspend (tid : UInt8) :
      CallActs cfg k (.osTaskSuspend tid) [.suspend tid.toNat]
  | osTaskResume (tid : UInt8) :
      CallActs cfg k (.osTaskResume tid) [.resume tid.toNat]
  | osTaskKill (tid : UInt8) : CallActs cfg k (.osTaskKill tid) [.kill tid.toNat]

/-- The actions of a macro of the running task, and the frame it leaves. -/
inductive TaskActs (cfg : Config) (k : Kernel β) (line : Nat) :
    TaskOp β → List (Act β) → Option (Frame β) → Prop
  | taskWaitId (id : UInt8) (ticks : UInt32) :
      TaskActs cfg k line (.taskWaitId id ticks)
        [.block k.runningTid (.time id.toNat ticks.toNat) line] none
  | taskSuspend (id : UInt8) :
      TaskActs cfg k line (.taskSuspend id)
        (.suspend id.toNat :: k.selfYieldActs id.toNat line) none
  | taskResume (id : UInt8) :
      TaskActs cfg k line (.taskResume id)
        (.resume id.toNat :: k.selfYieldActs id.toNat line) none
  | eventWaitTimeout (event : UInt8) (timeout : UInt32) :
      TaskActs cfg k line (.eventWaitTimeout event timeout)
        (k.waitEventActs cfg event.toNat
          (.event event.toNat timeout.toNat) line) none
  | eventWaitMultiple (waitAll : Bool) (args : List UInt8)
      (events : 0 < cfg.nTotalEvents) :
      TaskActs cfg k line (.eventWaitMultiple waitAll args)
        [.block k.runningTid
          (.multiple waitAll
            (Kernel.markedEvents (args.map UInt8.toNat ++ [noEvent]))) line] none
  | eventWaitMultipleNone (waitAll : Bool) (args : List UInt8)
      (none_ : cfg.nTotalEvents = 0) :
      TaskActs cfg k line (.eventWaitMultiple waitAll args)
        [.yield k.runningTid line] none
  | eventSignal (event : UInt8) :
      TaskActs cfg k line (.eventSignal event)
        (Kernel.signalActs cfg event.toNat k.runningTid ++
          [.yield k.runningTid line]) none
  | semWaitTake {sem : Int} (inside : cfg.HasSem sem)
      (positive : k.sems.osSemLargerThanZero cfg sem = true) :
      TaskActs cfg k line (.semWait sem) [.decrement sem] none
  | semWaitBlock {sem : Int} (inside : cfg.HasSem sem)
      (zero : k.sems.osSemLargerThanZero cfg sem = false) :
      TaskActs cfg k line (.semWait sem)
        [.block k.runningTid (.sem sem) line] none
  | semSignal {sem : Int} (inside : cfg.HasSem sem) :
      TaskActs cfg k line (.semSignal sem)
        (k.semSignalYieldActs cfg sem line) none
  | msgPost {taskId : UInt8} {msg : Msg β} {delay period : UInt32}
      {async blocked : Bool} {acts : List (Act β)}
      (turn : Kernel.PostActs cfg (k.setWaitQueue cfg taskId.toNat)
        (k.queues.osMsgQFind cfg taskId.toNat) delay.toNat period.toNat msg async
        (k.queues.osMsgQEventGet cfg
          (k.queues.osMsgQFind cfg taskId.toNat)) line blocked acts) :
      TaskActs cfg k line (.msgPost taskId msg delay period async)
        (k.waitQueueAct cfg taskId.toNat :: acts)
        (some (if blocked then
          .post taskId.toNat msg delay.toNat period.toNat else .between))
  | msgReceive {taskId : UInt8} {pMsg : Msg β}
      {async blocked : Bool} {acts : List (Act β)} (buffer : Msg β)
      (turn : Kernel.ReceiveActs cfg (k.setWaitQueue cfg taskId.toNat)
        (k.queues.osMsgQFind cfg taskId.toNat) async
        (k.queues.osMsgQEventGet cfg
          (k.queues.osMsgQFind cfg taskId.toNat)) line blocked acts) :
      TaskActs cfg k line (.msgReceive taskId pMsg async)
        (k.waitQueueAct cfg taskId.toNat :: acts)
        (some (if blocked then .receive taskId.toNat buffer else .between))
  | taskClose :
      TaskActs cfg k line .taskClose [.kill k.runningTid, .free] none

/-- The frames after the running task has left a macro with this frame. -/
def frameAfter (frame : Nat → Frame β) (tid : Nat) :
    Option (Frame β) → Nat → Frame β
  | none => frame
  | some left => Function.update frame tid left

/-- The actions of a step, and the frames it leaves. -/
inductive StepActs (cfg : Config) (s : Sys β) :
    Label β → List (Act β) → (Nat → Frame β) → Prop
  | create (creation : Creation β) :
      StepActs cfg s (.create creation) [.create creation] s.frame
  | osStart : StepActs cfg s .osStart [.start] s.frame
  | sleep {k : Kernel β}
      (idle : s.kernel.runningTid = noTid)
      (selects : s.kernel.selectTask cfg = .ok k)
      (sleeps : k.runningTid = noTid) :
      StepActs cfg s .osSchedule [.select k.runningTid] s.frame
  | osSchedule {k : Kernel β} {acts : List (Act β)} {frame : Nat → Frame β}
      (idle : s.kernel.runningTid = noTid)
      (selects : s.kernel.selectTask cfg = .ok k)
      (runs : k.runningTid ≠ noTid)
      (inside : k.runningTid < k.tasks.nTasks)
      (resumes : ResumeActs cfg k s.frame acts frame) :
      StepActs cfg s .osSchedule (.select k.runningTid :: acts) frame
  | call {call : Call} {acts : List (Act β)}
      (calls : CallActs cfg s.kernel call acts) :
      StepActs cfg s (.call call) acts s.frame
  | task {op : TaskOp β} {line : UInt16} {acts : List (Act β)}
      {left : Option (Frame β)}
      (runs : s.kernel.runningTid ≠ noTid)
      (takes : TaskActs cfg s.kernel line.toNat op acts left) :
      StepActs cfg s (.task op line) acts
        (frameAfter s.frame s.kernel.runningTid left)

/-! ## The theorem -/

theorem onTasks_eq_ok_iff
    {k k' : Kernel β} {computation : Outcome TaskTable} :
    k.onTasks computation = .ok k' ↔
      ∃ tasks, computation = .ok tasks ∧ { k with tasks := tasks } = k' :=
  map_eq_ok_iff

/-- A guarded rewriting of one task. -/
theorem onTasks_modify_cases
    {k k' : Kernel β} {tid : Nat} {change : Tcb → Tcb}
    (returns : k.onTasks
      (if tid < k.tasks.nTasks then .ok (k.tasks.modify tid change)
        else .error .assertion) = .ok k') :
    tid < k.tasks.nTasks ∧ k' = k.modifyTask tid change := by
  obtain ⟨tasks, guarded, rfl⟩ := onTasks_eq_ok_iff.mp returns
  obtain ⟨created, result⟩ := guard_eq_ok_iff.mp guarded
  exact ⟨created, Except.ok.inj result ▸ rfl⟩

theorem callStep_trace
    {cfg : Config} {k k' : Kernel β} {call : Call}
    (sound : k.Sound cfg)
    (steps : callStep cfg k call = .ok k') :
    ∃ acts, CallActs cfg k call acts ∧ Trace (Micro cfg) k acts k' := by
  cases call with
  | osTick =>
      have records : Micro cfg k .clock _ := .clock k
      obtain ⟨expired, trace⟩ :=
        Kernel.taskTick_trace (sound.of_micro records) steps
      exact ⟨_, .osTick expired, .cons records trace⟩
  | osSubTick id =>
      by_cases sub : id.toNat ≠ 0
      · simp only [callStep, Kernel.osSubTick, if_pos sub] at steps
        obtain ⟨expired, trace⟩ := Kernel.taskTick_trace sound steps
        exact ⟨_, .osSubTick sub expired, trace⟩
      · have zero : id = 0 := UInt8.toNat_inj.mp (by simpa using sub)
        subst zero
        simp only [callStep, Kernel.osSubTick, if_neg sub, Except.ok.injEq]
          at steps
        exact ⟨_, .osSubTickMaster, steps ▸ .nil k⟩
  | osSubNTick id nTicks =>
      by_cases sub : id.toNat ≠ 0
      · simp only [callStep, Kernel.osSubNTick, if_pos sub] at steps
        obtain ⟨expired, trace⟩ := Kernel.taskTick_trace sound steps
        exact ⟨_, .osSubNTick sub expired, trace⟩
      · have zero : id = 0 := UInt8.toNat_inj.mp (by simpa using sub)
        subst zero
        simp only [callStep, Kernel.osSubNTick, if_neg sub, Except.ok.injEq]
          at steps
        exact ⟨_, .osSubNTickMaster, steps ▸ .nil k⟩
  | eventIsrSignal event =>
      exact ⟨_, .eventIsrSignal event, Kernel.eventIsrSignal_trace steps⟩
  | semIsrSignal sem =>
      simp only [callStep, guard_eq_ok_iff, Except.ok.injEq] at steps
      obtain ⟨inside, rfl⟩ := steps
      exact ⟨_, .semIsrSignal inside,
        Kernel.osSignalSemNoSchedule_trace sem sound⟩
  | osTaskSuspend tid =>
      obtain ⟨created, rfl⟩ := onTasks_modify_cases steps
      exact ⟨_, .osTaskSuspend tid, .single (.suspend k created)⟩
  | osTaskResume tid =>
      obtain ⟨created, rfl⟩ := onTasks_modify_cases steps
      exact ⟨_, .osTaskResume tid, .single (.resume k created)⟩
  | osTaskKill tid =>
      obtain ⟨created, rfl⟩ := onTasks_modify_cases steps
      exact ⟨_, .osTaskKill tid, .single (.kill k created)⟩

theorem leaveMacro_eq (s : Sys β) (tid : Nat) (frame : Frame β)
    (left : Bool × Kernel β) :
    s.leaveMacro tid frame left =
      ⟨left.2, Function.update s.frame tid
        (if left.1 then frame else .between)⟩ := by
  unfold Sys.leaveMacro Sys.setFrame
  split_ifs <;> rfl

theorem taskStep_trace
    {cfg : Config} {s s' : Sys β} {line : Nat} {op : TaskOp β}
    (sound : s.kernel.Sound cfg)
    (steps : taskStep cfg s line op = .ok s') :
    ∃ acts left, TaskActs cfg s.kernel line op acts left ∧
      Trace (Micro cfg) s.kernel acts s'.kernel ∧
      s'.frame = frameAfter s.frame s.kernel.runningTid left := by
  cases op with
  | taskWaitId id ticks =>
      obtain ⟨k', returns, rfl⟩ := map_eq_ok_iff.mp steps
      obtain ⟨k₁, waits, yields⟩ := bind_eq_ok_iff.mp returns
      obtain ⟨tasks, sets, rfl⟩ := onTasks_eq_ok_iff.mp waits
      unfold TaskTable.osTaskWaitTimeSet at sets
      simp only [guard_eq_ok_iff, Except.ok.injEq] at sets
      obtain ⟨created, positive, rfl⟩ := sets
      refine ⟨_, _, .taskWaitId id ticks, ?_, rfl⟩
      rw [← Except.ok.inj yields]
      exact .single (.block s.kernel (.time id.toNat ticks.toNat) line created
        positive)
  | taskSuspend id =>
      obtain ⟨k', returns, rfl⟩ := map_eq_ok_iff.mp steps
      obtain ⟨k₁, suspends, yields⟩ := bind_eq_ok_iff.mp returns
      obtain ⟨created, rfl⟩ := onTasks_modify_cases suspends
      refine ⟨_, _, .taskSuspend id, ?_, rfl⟩
      rw [← Except.ok.inj yields]
      exact .cons (.suspend s.kernel created)
        (Kernel.yieldIfSelf_trace cfg (s.kernel.modifyTask id.toNat Tcb.suspend)
          id.toNat line)
  | taskResume id =>
      obtain ⟨k', returns, rfl⟩ := map_eq_ok_iff.mp steps
      obtain ⟨k₁, resumes, yields⟩ := bind_eq_ok_iff.mp returns
      obtain ⟨created, rfl⟩ := onTasks_modify_cases resumes
      refine ⟨_, _, .taskResume id, ?_, rfl⟩
      rw [← Except.ok.inj yields]
      exact .cons (.resume s.kernel created)
        (Kernel.yieldIfSelf_trace cfg (s.kernel.modifyTask id.toNat Tcb.resume)
          id.toNat line)
  | eventWaitTimeout event timeout =>
      obtain ⟨k', returns, rfl⟩ := map_eq_ok_iff.mp steps
      exact ⟨_, _, .eventWaitTimeout event timeout,
        Kernel.osWaitSingleEvent_trace _ rfl id returns, rfl⟩
  | eventWaitMultiple waitAll args =>
      obtain ⟨k', returns, rfl⟩ := map_eq_ok_iff.mp steps
      obtain ⟨k₁, waits, yields⟩ := bind_eq_ok_iff.mp returns
      rcases Kernel.osWaitMultiple_cases waits with
        ⟨none, rfl⟩ | ⟨some, _, created, enabled, rfl⟩
      · refine ⟨_, _, .eventWaitMultipleNone waitAll args none, ?_, rfl⟩
        rw [← Except.ok.inj yields]
        exact .single (.yield _ line)
      · refine ⟨_, _, .eventWaitMultiple waitAll args some, ?_, rfl⟩
        rw [← Except.ok.inj yields]
        exact .single (.block s.kernel _ line created enabled)
  | eventSignal event =>
      obtain ⟨k', returns, rfl⟩ := map_eq_ok_iff.mp steps
      obtain ⟨k₁, signals, later⟩ := bind_eq_ok_iff.mp returns
      obtain ⟨k₂, notes, yields⟩ := bind_eq_ok_iff.mp later
      have actor : k₁.osGetRunningTid = s.kernel.runningTid :=
        Kernel.osSignalEvent_runningTid signals
      rw [actor] at notes
      have trace := Kernel.signal_trace signals notes
      have actorAfter : k₂.runningTid = s.kernel.runningTid := by
        unfold Kernel.osEventSetSignalingTid at notes
        split_ifs at notes
        · exact Except.ok.inj notes ▸ actor
        · exact Except.ok.inj notes ▸ actor
      refine ⟨_, _, .eventSignal event, trace.snoc ?_, rfl⟩
      rw [← Except.ok.inj yields, ← actorAfter]
      exact .yield k₂ line
  | semWait sem =>
      simp only [taskStep, guard_eq_ok_iff] at steps
      obtain ⟨inside, steps⟩ := steps
      obtain ⟨k', returns, rfl⟩ := map_eq_ok_iff.mp steps
      unfold Kernel.osWaitSem at returns
      by_cases positive : s.kernel.sems.osSemLargerThanZero cfg sem = true
      · rw [if_pos positive] at returns
        refine ⟨_, _, .semWaitTake inside positive, ?_, rfl⟩
        rw [← Except.ok.inj returns]
        exact .single (.decrement s.kernel positive)
      · rw [if_neg positive] at returns
        obtain ⟨k₁, waits, yields⟩ := bind_eq_ok_iff.mp returns
        obtain ⟨created, rfl⟩ := onTasks_modify_cases waits
        have zero : s.kernel.sems.osSemLargerThanZero cfg sem = false := by
          simpa using positive
        refine ⟨_, _, .semWaitBlock inside zero, ?_, rfl⟩
        rw [← Except.ok.inj yields]
        exact .single (.block s.kernel (.sem sem) line created zero)
  | semSignal sem =>
      simp only [taskStep, guard_eq_ok_iff, Except.ok.injEq] at steps
      obtain ⟨inside, rfl⟩ := steps
      exact ⟨_, _, .semSignal inside, Kernel.osSignalSem_trace sem line sound,
        rfl⟩
  | msgPost taskId msg delay period async =>
      obtain ⟨⟨blocked, k'⟩, returns, rfl⟩ := map_eq_ok_iff.mp steps
      obtain ⟨acts, turn, trace⟩ := Kernel.osMsgQPost_trace returns
      refine ⟨_, _, .msgPost turn, ?_, ?_⟩
      · rw [leaveMacro_eq]
        exact trace
      · rw [leaveMacro_eq]
        rfl
  | msgReceive taskId pMsg async =>
      obtain ⟨⟨blocked, buffer, k'⟩, returns, rfl⟩ := map_eq_ok_iff.mp steps
      obtain ⟨acts, turn, trace⟩ := Kernel.osMsgQReceive_trace returns
      refine ⟨_, _, .msgReceive buffer turn, ?_, ?_⟩
      · simp only [leaveMacro_eq]
        exact trace
      · simp only [leaveMacro_eq]
        rfl
  | taskClose =>
      obtain ⟨k', returns, rfl⟩ := map_eq_ok_iff.mp steps
      obtain ⟨k₁, kills, frees⟩ := bind_eq_ok_iff.mp returns
      obtain ⟨created, rfl⟩ := onTasks_modify_cases kills
      refine ⟨_, _, .taskClose, ?_, rfl⟩
      rw [← Except.ok.inj frees]
      exact .cons (.kill s.kernel created) (.single (.free _))

theorem resumeStep_trace
    {cfg : Config} {s s' : Sys β}
    (steps : resumeStep cfg s = .ok s') :
    ∃ acts, ResumeActs cfg s.kernel s.frame acts s'.frame ∧
      Trace (Micro cfg) s.kernel acts s'.kernel := by
  unfold resumeStep at steps
  dsimp only [Kernel.osGetRunningTid] at steps
  by_cases fresh :
      (s.kernel.tasks.taskList s.kernel.runningTid).internalState = 0
  · rw [if_pos fresh] at steps
    rw [← Except.ok.inj steps]
    exact ⟨[], .begin fresh, .nil s.kernel⟩
  · rw [if_neg fresh] at steps
    cases here : s.frame s.kernel.runningTid with
    | between =>
        simp only [here, Except.ok.injEq] at steps
        subst steps
        exact ⟨[], .between fresh here, .nil s.kernel⟩
    | post taskId msg delay period =>
        simp only [here] at steps
        obtain ⟨⟨blocked, k'⟩, returns, rfl⟩ := map_eq_ok_iff.mp steps
        unfold Kernel.osMsgQPostResume at returns
        dsimp only [Kernel.osGetRunningTid] at returns
        by_cases full :
            (s.kernel.tasks.taskList s.kernel.runningTid).msgResult = .full
        · rw [if_pos full] at returns
          obtain ⟨acts, turn, trace⟩ := Kernel.msgPostTurn_trace returns
          refine ⟨acts, ?_, ?_⟩
          · rw [leaveMacro_eq]
            exact .post fresh here full turn
          · rw [leaveMacro_eq]
            exact trace
        · rw [if_neg full] at returns
          obtain ⟨k₁, signals, result⟩ := bind_eq_ok_iff.mp returns
          simp only [Except.ok.injEq, Prod.mk.injEq] at result
          obtain ⟨rfl, rfl⟩ := result
          have trace := Kernel.signalChange_trace signals
          rw [leaveMacro_eq]
          refine ⟨_, ?_, trace⟩
          refine .done fresh (fun _ _ _ _ _ => full) fun taskId pMsg other => ?_
          rw [here] at other
          cases other
    | receive taskId pMsg =>
        simp only [here] at steps
        obtain ⟨⟨blocked, buffer, k'⟩, returns, rfl⟩ := map_eq_ok_iff.mp steps
        unfold Kernel.osMsgQReceiveResume at returns
        dsimp only [Kernel.osGetRunningTid] at returns
        by_cases empty :
            (s.kernel.tasks.taskList s.kernel.runningTid).msgResult = .empty
        · rw [if_pos empty] at returns
          obtain ⟨acts, turn, trace⟩ := Kernel.msgReceiveTurn_trace returns
          refine ⟨acts, ?_, ?_⟩
          · simp only [leaveMacro_eq]
            exact .receive fresh here empty turn
          · simp only [leaveMacro_eq]
            exact trace
        · rw [if_neg empty] at returns
          obtain ⟨k₁, signals, result⟩ := bind_eq_ok_iff.mp returns
          simp only [Except.ok.injEq, Prod.mk.injEq] at result
          obtain ⟨rfl, rfl, rfl⟩ := result
          have trace := Kernel.signalChange_trace signals
          simp only [leaveMacro_eq]
          refine ⟨_, ?_, trace⟩
          refine .done fresh (fun taskId msg delay period other => ?_)
            fun _ _ _ => empty
          rw [here] at other
          cases other

/-- A step of the system from a consistent kernel is a trace of its actions. -/
theorem step_trace
    {cfg : Config} {s s' : Sys β} {label : Label β}
    (sound : s.kernel.Sound cfg)
    (steps : step cfg s label = .ok s') :
    ∃ acts, StepActs cfg s label acts s'.frame ∧
      Trace (Micro cfg) s.kernel acts s'.kernel := by
  cases label with
  | create creation =>
      obtain ⟨k', creates, rfl⟩ := map_eq_ok_iff.mp steps
      exact ⟨_, .create creation, .single (.create creation creates)⟩
  | osStart =>
      rw [← Except.ok.inj steps]
      exact ⟨_, .osStart, .single (.start s.kernel)⟩
  | osSchedule =>
      simp only [step, guard_eq_ok_iff] at steps
      obtain ⟨idle, steps⟩ := steps
      obtain ⟨k₁, selects, steps⟩ := bind_eq_ok_iff.mp steps
      dsimp only at steps
      by_cases runs : k₁.runningTid ≠ noTid
      · rw [if_pos runs, guard_eq_ok_iff] at steps
        obtain ⟨inside, steps⟩ := steps
        obtain ⟨acts, resumes, trace⟩ := resumeStep_trace steps
        exact ⟨_, .osSchedule idle selects runs inside resumes,
          .cons (.select idle selects fun _ => inside) trace⟩
      · rw [if_neg runs] at steps
        rw [← Except.ok.inj steps]
        refine ⟨_, .sleep idle selects (not_not.mp runs), .single ?_⟩
        exact .select idle selects fun running => absurd running runs
  | call call =>
      obtain ⟨k', calls, rfl⟩ := map_eq_ok_iff.mp steps
      obtain ⟨acts, shape, trace⟩ := callStep_trace sound calls
      exact ⟨acts, .call shape, trace⟩
  | task op line =>
      simp only [step, guard_eq_ok_iff] at steps
      obtain ⟨runs, steps⟩ := steps
      obtain ⟨acts, left, shape, trace, frames⟩ := taskStep_trace sound steps
      refine ⟨acts, ?_, trace⟩
      rw [frames]
      exact .task runs shape

theorem step_sound
    {cfg : Config} {s s' : Sys β} {label : Label β}
    (sound : s.kernel.Sound cfg)
    (steps : step cfg s label = .ok s') :
    s'.kernel.Sound cfg := by
  obtain ⟨acts, _, trace⟩ := step_trace sound steps
  exact sound.of_trace trace

theorem run_sound
    {cfg : Config} {s s' : Sys β} {labels : List (Label β)}
    (sound : s.kernel.Sound cfg)
    (runs : run (step cfg) s labels = .ok s') :
    s'.kernel.Sound cfg :=
  run_invariant (fun s => s.kernel.Sound cfg)
    (fun _ _ _ sound steps => step_sound sound steps) sound runs

/-- Tasks are never removed. -/
theorem step_nTasks_le
    {cfg : Config} {s s' : Sys β} {label : Label β}
    (sound : s.kernel.Sound cfg)
    (steps : step cfg s label = .ok s') :
    s.kernel.tasks.nTasks ≤ s'.kernel.tasks.nTasks := by
  obtain ⟨acts, _, trace⟩ := step_trace sound steps
  exact trace.invariant (fun _ => True)
    (fun k => s.kernel.tasks.nTasks ≤ k.tasks.nTasks)
    (fun _ _ _ _ holds acts => holds.trans acts.nTasks_le)
    (fun _ _ => trivial) le_rfl

theorem run_nTasks_le
    {cfg : Config} {s s' : Sys β} {labels : List (Label β)}
    (sound : s.kernel.Sound cfg)
    (runs : run (step cfg) s labels = .ok s') :
    s.kernel.tasks.nTasks ≤ s'.kernel.tasks.nTasks := by
  refine (run_invariant
    (fun t => t.kernel.Sound cfg ∧
      s.kernel.tasks.nTasks ≤ t.kernel.tasks.nTasks) ?_ ⟨sound, le_rfl⟩ runs).2
  rintro t label t' ⟨soundHere, grows⟩ steps
  exact ⟨step_sound soundHere steps,
    grows.trans (step_nTasks_le soundHere steps)⟩

/-- The kernel of every reachable state is consistent. -/
theorem reachable_sound
    {cfg : Config} {s : Sys β}
    (reachable : ReachableSys cfg s) :
    s.kernel.Sound cfg := by
  refine reachable.invariant (fun s => s.kernel.Sound cfg) ?_ ?_
  · rintro s ⟨⟨k, initial⟩, _⟩
    rw [initial]
    exact ⟨Kernel.queuesSound_osInit cfg k, Nat.zero_le _⟩
  · intro s label s' sound steps
    exact step_sound sound steps

/-- Invariant rule of the system: what `os_init` establishes and every action
of a consistent kernel preserves holds in every reachable state. -/
theorem reachable_invariant
    {cfg : Config} (holds : Kernel β → Prop)
    (initially : ∀ k, holds (Kernel.osInit cfg k))
    (preserved : ∀ k act k', k.Sound cfg → holds k → Micro cfg k act k' →
      holds k')
    {s : Sys β}
    (reachable : ReachableSys cfg s) :
    holds s.kernel := by
  have both : s.kernel.Sound cfg ∧ holds s.kernel := by
    refine reachable.invariant
      (fun s => s.kernel.Sound cfg ∧ holds s.kernel) ?_ ?_
    · rintro s ⟨⟨k, initial⟩, _⟩
      rw [initial]
      exact ⟨⟨Kernel.queuesSound_osInit cfg k, Nat.zero_le _⟩, initially k⟩
    · rintro s label s' ⟨sound, here⟩ steps
      obtain ⟨acts, _, trace⟩ := step_trace sound steps
      exact trace.invariant (fun _ => True)
        (fun k => k.Sound cfg ∧ holds k)
        (fun k act k' _ both acts =>
          ⟨both.1.of_micro acts, preserved k act k' both.1 both.2 acts⟩)
        (fun _ _ => trivial) ⟨sound, here⟩
  exact both.2

end CocoOs
