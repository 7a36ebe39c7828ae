import CocoOs.TaskIdentity

/-!
# Where a task goes on

`OS_YIELD` stores the line it stands on in the internal state of the running
task, and `OS_BEGIN` jumps to the line stored there.  Between the two only one
thing touches the internal state of a task: a task that is suspended while it
waits for a semaphore is reset, and starts again at its top.
-/

namespace CocoOs

open Foundation

variable {β : Type}

/-! ## One action -/

namespace Tcb

@[simp] theorem internalState_tick
    (cfg : Config) (clockId tickSize : Nat) (task : Tcb) :
    (task.tick cfg clockId tickSize).internalState = task.internalState := by
  unfold tick
  dsimp only
  split_ifs <;> rfl

@[simp] theorem internalState_signalEvent
    (cfg : Config) (eventId : Nat) (task : Tcb) :
    (task.signalEvent cfg eventId).internalState = task.internalState := by
  unfold signalEvent
  dsimp only
  split_ifs <;> rfl

@[simp] theorem internalState_resume (task : Tcb) :
    task.resume.internalState = task.internalState := by
  unfold resume
  split_ifs <;> rfl

/-- A task that is suspended while it waits for a semaphore is reset. -/
theorem internalState_suspend (task : Tcb) :
    task.suspend.internalState =
      if task.state = .waitingSem then 0 else task.internalState := by
  unfold suspend
  by_cases sem : task.state = .waitingSem
  · simp [sem]
  · rw [if_neg sem, if_neg sem]
    split_ifs <;> rfl

end Tcb

instance : (act : Act β) → Decidable act.Switches
  | .select _ | .free | .yield _ _ | .block _ _ _ => .isTrue trivial
  | .create _ | .start | .note _ _ | .suspend _ | .resume _ | .kill _ | .clock
  | .tick _ _ _ | .age _ | .signal _ | .signaller _ _ | .release _ _
  | .decrement _ | .increment _ | .post _ _ | .receive _ _ => .isFalse id

/-- The action yields on this line, if it gives up the processor at all. -/
def Act.AtLine (line : Nat) : Act β → Prop
  | .yield _ here => here = line
  | .block _ _ here => here = line
  | .select _ => False
  | .free => False
  | _ => True

theorem Act.AtLine.of_steady {act : Act β} {line : Nat}
    (steady : ¬ act.Switches) : act.AtLine line := by
  cases act with
  | select | free | yield | block => exact absurd trivial steady
  | _ => trivial

/-- The line on which a task yields is the only thing its own actions store in
its internal state; no other task's action touches it. -/
theorem Micro.internalState
    {cfg : Config} {k k' : Kernel β} {act : Act β} {line tid : Nat}
    (acts : Micro cfg k act k')
    (created : tid < k.tasks.nTasks)
    (atLine : act.AtLine line)
    (notSuspends : act ≠ .suspend tid) :
    (k'.tasks.taskList tid).internalState =
      if act.Switches ∧ k.runningTid = tid then line
      else (k.tasks.taskList tid).internalState := by
  rw [acts.taskList created]
  cases acts with
  | yield here =>
      have same : here = line := atLine
      simp only [Act.onTask, Act.Switches, true_and]
      by_cases runs : tid = k.runningTid
      · rw [if_pos runs, if_pos runs.symm, same]
      · rw [if_neg runs, if_neg (Ne.symm runs)]
  | block wait here _ _ =>
      have same : here = line := atLine
      simp only [Act.onTask, Act.Switches, true_and]
      by_cases runs : tid = k.runningTid
      · rw [if_pos runs, if_pos runs.symm, same]
      · rw [if_neg runs, if_neg (Ne.symm runs)]
  | select => exact atLine.elim
  | free => exact atLine.elim
  | note noted =>
      simp only [Act.onTask, Act.Switches, false_and, if_false]
      split_ifs
      · cases noted <;> rfl
      · rfl
  | suspend inside =>
      simp only [Act.onTask, Act.Switches, false_and, if_false]
      rw [if_neg]
      rintro rfl
      exact notSuspends rfl
  | signal =>
      simp [Act.onTask, Act.Switches]
  | resume | kill | tick | release =>
      simp only [Act.onTask, Act.Switches, false_and, if_false]
      split_ifs <;> first | rfl | simp
  | _ => simp [Act.onTask, Act.Switches]

/-- Along a trace whose yields are on one line, the internal state of the task
that gives up the processor is that line, and every other stays. -/
theorem Micro.internalState_of_trace
    {cfg : Config} {k k' : Kernel β} {acts : List (Act β)} {line tid : Nat}
    (trace : Trace (Micro cfg) k acts k')
    (created : tid < k.tasks.nTasks)
    (isTask : tid ≠ noTid)
    (atLine : ∀ act ∈ acts, act.AtLine line)
    (notSuspends : ∀ act ∈ acts, act ≠ .suspend tid) :
    (k'.tasks.taskList tid).internalState =
      if k.runningTid = tid ∧ k'.runningTid = noTid then line
      else (k.tasks.taskList tid).internalState := by
  have after := trace.invariant
    (fun act => act.AtLine line ∧ act ≠ .suspend tid)
    (fun later => tid < later.tasks.nTasks ∧
      ((later.runningTid = k.runningTid ∧
          (later.tasks.taskList tid).internalState =
            (k.tasks.taskList tid).internalState) ∨
        (later.runningTid = noTid ∧
          (later.tasks.taskList tid).internalState =
            if k.runningTid = tid then line
            else (k.tasks.taskList tid).internalState)))
    ?_ (fun act inside => ⟨atLine act inside, notSuspends act inside⟩)
    ⟨created, .inl ⟨rfl, rfl⟩⟩
  · obtain ⟨_, ⟨runs, same⟩ | ⟨idle, same⟩⟩ := after
    · rw [same, runs]
      by_cases here : k.runningTid = tid
      · rw [if_neg]
        rintro ⟨_, idle⟩
        exact isTask (here ▸ idle)
      · rw [if_neg fun both => here both.1]
    · rw [same]
      simp [idle]
  · rintro later act next ⟨onLine, stays⟩ ⟨createdLater, before⟩ acts
    refine ⟨createdLater.trans_le acts.nTasks_le, ?_⟩
    have point := acts.internalState createdLater onLine stays
    have running := acts.runningTid
    by_cases switches : act.Switches
    · have idle : next.runningTid = noTid := by
        rw [running]
        cases act with
        | yield | block => rfl
        | select | free => exact onLine.elim
        | _ => exact switches.elim
      refine .inr ⟨idle, ?_⟩
      rw [point]
      rcases before with ⟨runs, same⟩ | ⟨none, same⟩
      · rw [runs, same]
        simp [switches]
      · rw [none, same, if_neg fun both => isTask both.2.symm]
    · have steady : next.runningTid = later.runningTid := by
        have steadyHere : ∀ other ∈ [act], ¬ other.Switches := by
          simpa using switches
        have after := foldl_onRunning_of_steady later.runningTid steadyHere
        exact running.trans after
      rw [if_neg fun both => switches both.1] at point
      rw [steady, point]
      exact before

/-! ## The line of a step -/

theorem atLine_waitEventActs
    (cfg : Config) (k : Kernel β) (eventId : Nat) (wait : Wait) (line : Nat) :
    ∀ act ∈ k.waitEventActs cfg eventId wait line, act.AtLine line := by
  unfold Kernel.waitEventActs
  split_ifs <;> simp [Act.AtLine]

theorem atLine_signalActs (cfg : Config) (event tid line : Nat) :
    ∀ act ∈ Kernel.signalActs (β := β) cfg event tid, act.AtLine line :=
  fun act inside => .of_steady (steady_signalActs cfg event tid act inside)

theorem Kernel.PostActs.atLine
    {cfg : Config} {k : Kernel β} {queue delay period event line : Nat}
    {msg : Msg β} {async blocked : Bool} {acts : List (Act β)}
    (turn : PostActs cfg k queue delay period msg async event line blocked acts) :
    ∀ act ∈ acts, act.AtLine line := by
  intro act inside
  cases turn with
  | blocked sync full =>
      rcases List.mem_cons.mp inside with rfl | later
      · trivial
      · exact atLine_waitEventActs cfg k _ _ line act later
  | posted room =>
      rcases List.mem_cons.mp inside with rfl | later
      · trivial
      · exact atLine_signalActs cfg _ _ line act later
  | refused notBlocked => simp at inside

theorem Kernel.ReceiveActs.atLine
    {cfg : Config} {k : Kernel β} {queue event line : Nat}
    {async blocked : Bool} {acts : List (Act β)}
    (turn : ReceiveActs cfg k queue async event line blocked acts) :
    ∀ act ∈ acts, act.AtLine line := by
  intro act inside
  cases turn with
  | blocked sync nothing =>
      rcases List.mem_cons.mp inside with rfl | later
      · trivial
      · exact atLine_waitEventActs cfg k _ _ line act later
  | received msg some =>
      rcases List.mem_cons.mp inside with rfl | later
      · trivial
      · exact atLine_signalActs cfg _ _ line act later
  | nothing notBlocked => simp at inside

/-- A task that goes on inside a message macro yields where it yielded. -/
theorem ResumeActs.atLine
    {cfg : Config} {k : Kernel β} {frame frame' : Nat → Frame β}
    {acts : List (Act β)}
    (resumes : ResumeActs cfg k frame acts frame') :
    ∀ act ∈ acts, act.AtLine (k.tasks.taskList k.runningTid).internalState := by
  intro act inside
  cases resumes with
  | begin fresh => simp at inside
  | between goesOn here => simp at inside
  | post goesOn here full turn => exact turn.atLine act inside
  | receive goesOn here empty turn => exact turn.atLine act inside
  | done goesOn wasPost wasReceive =>
      split_ifs at inside
      · exact atLine_signalActs cfg _ _ _ act inside
      · simp at inside

/-- A macro yields on its own line, but for the end of the procedure. -/
theorem TaskActs.atLine
    {cfg : Config} {k : Kernel β} {line : Nat} {op : TaskOp β}
    {acts : List (Act β)} {left : Option (Frame β)}
    (takes : TaskActs cfg k line op acts left)
    (goesOn : op ≠ .taskClose) :
    ∀ act ∈ acts, act.AtLine line := by
  intro act inside
  cases takes with
  | taskWaitId | eventWaitMultiple | eventWaitMultipleNone | semWaitTake
      | semWaitBlock =>
      rw [List.mem_singleton.mp inside]
      trivial
  | taskSuspend id | taskResume id =>
      rcases List.mem_cons.mp inside with rfl | later
      · trivial
      · unfold Kernel.selfYieldActs at later
        split_ifs at later
        · rw [List.mem_singleton.mp later]
          rfl
        · simp at later
  | eventWaitTimeout event timeout =>
      exact atLine_waitEventActs cfg k _ _ line act inside
  | eventSignal event =>
      rcases List.mem_append.mp inside with signals | last
      · exact atLine_signalActs cfg _ _ line act signals
      · rw [List.mem_singleton.mp last]
        rfl
  | semSignal _ =>
      unfold Kernel.semSignalYieldActs Kernel.semSignalActs at inside
      split_ifs at inside <;> simp at inside
      all_goals rcases inside with rfl | rfl
      all_goals trivial
  | msgPost turn =>
      rcases List.mem_cons.mp inside with rfl | later
      · trivial
      · exact turn.atLine act later
  | msgReceive buffer turn =>
      rcases List.mem_cons.mp inside with rfl | later
      · trivial
      · exact turn.atLine act later
  | taskClose => exact absurd rfl goesOn

/-! ## One step -/

/-- The task starts over: the step suspends it while it waits for a semaphore. -/
def StartsOver (tid : Nat) (s : Sys β) (label : Label β) : Prop :=
  label.Suspends tid ∧ (s.kernel.tasks.taskList tid).state = .waitingSem

section

variable {cfg : Config} {s s' : Sys β} {label : Label β} {tid : Nat}

theorem isTask_of_created
    (sound : s.kernel.Sound cfg)
    (created : tid < s.kernel.tasks.nTasks) :
    tid ≠ noTid :=
  Nat.ne_of_lt (created.trans sound.nTasks_lt)

/-- A running task does not wait for a semaphore. -/
theorem Kernel.TasksSound.running_state
    {k : Kernel β}
    (tasks : k.TasksSound cfg)
    (runs : k.runningTid ≠ noTid) :
    (k.tasks.taskList k.runningTid).state ≠ .waitingSem := by
  intro waits
  rcases (tasks.runs runs).2.state_cases with wrong | wrong | wrong
  · rw [waits] at wrong
    cases wrong
  · rw [waits] at wrong
    cases wrong
  · rw [waits] at wrong
    cases wrong.1

/-- What a macro makes of the internal state of a task that it does not
reset. -/
theorem internalState_of_taskActs
    {op : TaskOp β} {line : UInt16} {acts : List (Act β)}
    {left : Option (Frame β)}
    (takes : TaskActs cfg s.kernel line.toNat op acts left)
    (trace : Trace (Micro cfg) s.kernel acts s'.kernel)
    (goesOn : op ≠ .taskClose)
    (created : tid < s.kernel.tasks.nTasks)
    (isTask : tid ≠ noTid)
    (keepsPlace : ¬ StartsOver tid s (.task op line)) :
    (s'.kernel.tasks.taskList tid).internalState =
      if s.kernel.runningTid = tid ∧ s'.kernel.runningTid = noTid
      then line.toNat
      else (s.kernel.tasks.taskList tid).internalState := by
  have allowed := allowed_taskActs takes
  have atLine := takes.atLine goesOn
  by_cases suspends : (Label.task op line).Suspends tid
  · -- the task is suspended first, and then yields if it named itself
    cases op with
    | taskSuspend id =>
        have named : id.toNat = tid := suspends
        have notWaiting : (s.kernel.tasks.taskList tid).state ≠ .waitingSem :=
          fun waits => keepsPlace ⟨suspends, waits⟩
        cases takes with
        | taskSuspend _ =>
            cases trace with
            | @cons _ middle _ _ _ first rest =>
                have createdThen := created.trans_le first.nTasks_le
                have after := Micro.internalState_of_trace rest createdThen isTask
                  (fun act inside => atLine act (List.mem_cons_of_mem _ inside))
                  ?_
                · rw [after, first.runningTid, first.taskList created]
                  simp only [Act.onRunning, Act.onTask]
                  rw [if_pos named.symm, Tcb.internalState_suspend,
                    if_neg notWaiting]
                  rfl
                · rintro act inside rfl
                  unfold Kernel.selfYieldActs at inside
                  split_ifs at inside <;> simp at inside
    | _ => exact suspends.elim
  · apply Micro.internalState_of_trace trace created isTask atLine
    rintro act inside rfl
    exact suspends (allowed _ inside)

/-- A pass of the scheduler leaves every internal state: a task that blocks
again inside a message macro yields where it yielded before. -/
theorem internalState_of_osSchedule
    {acts : List (Act β)} {frame : Nat → Frame β}
    (shape : StepActs cfg s .osSchedule acts frame)
    (trace : Trace (Micro cfg) s.kernel acts s'.kernel)
    (created : tid < s.kernel.tasks.nTasks)
    (isTask : tid ≠ noTid) :
    (s'.kernel.tasks.taskList tid).internalState =
      (s.kernel.tasks.taskList tid).internalState := by
  have allowed := shape.allowed
  cases shape with
  | sleep idle selects sleeps =>
      cases trace with
      | cons first rest =>
          cases rest
          rw [first.taskList created]
          rfl
  | @osSchedule k₁ acts frame idle selects runs inside resumes =>
      cases trace with
      | @cons _ middle _ _ _ first rest =>
          have chosen : middle = k₁ := by
            have selects' := first.of_select rfl
            rw [selects] at selects'
            exact (Except.ok.inj selects').symm
          subst chosen
          have same : middle.tasks.taskList tid = s.kernel.tasks.taskList tid := by
            rw [first.taskList created]
            rfl
          rw [Micro.internalState_of_trace rest
            (created.trans_le first.nTasks_le) isTask resumes.atLine
            (fun act inside wrong => ?_), same]
          · split_ifs with here
            · rw [here.1, same]
            · rfl
          · subst wrong
            exact allowed _ (List.mem_cons_of_mem _ inside)

theorem internalState_of_callActs
    {call : Call} {acts : List (Act β)}
    (calls : CallActs cfg s.kernel call acts)
    (trace : Trace (Micro cfg) s.kernel acts s'.kernel)
    (created : tid < s.kernel.tasks.nTasks)
    (isTask : tid ≠ noTid)
    (keepsPlace : ¬ StartsOver tid s (.call call)) :
    (s'.kernel.tasks.taskList tid).internalState =
      (s.kernel.tasks.taskList tid).internalState := by
  have allowed := allowed_callActs calls
  by_cases suspends : (Label.call (β := β) call).Suspends tid
  · cases call with
    | osTaskSuspend id =>
        have named : id.toNat = tid := suspends
        cases calls with
        | osTaskSuspend _ =>
            cases trace with
            | cons first rest =>
                cases rest
                rw [first.taskList created]
                simp only [Act.onTask]
                rw [if_pos named.symm, Tcb.internalState_suspend,
                  if_neg fun waits => keepsPlace ⟨suspends, waits⟩]
    | _ => exact suspends.elim
  · have steady : s'.kernel.runningTid = s.kernel.runningTid := by
      rw [Micro.runningTid_of_trace trace]
      exact foldl_onRunning_of_steady _ calls.steady
    have onLine : ∀ act ∈ acts, act.AtLine 0 :=
      fun act inside => .of_steady (calls.steady act inside)
    rw [Micro.internalState_of_trace trace created isTask onLine
      (fun act inside wrong => ?_), steady, if_neg]
    · rintro ⟨here, idle⟩
      exact isTask (here.symm.trans idle)
    · subst wrong
      exact suspends (allowed _ inside)

/-- The running task yields on the line of its macro. -/
theorem step_yields
    {op : TaskOp β} {line : UInt16}
    (reachable : ReachableSys cfg s)
    (steps : step cfg s (.task op line) = .ok s')
    (runs : s.kernel.runningTid = tid)
    (isTask : tid ≠ noTid)
    (goesOn : op ≠ .taskClose)
    (yields : s'.kernel.runningTid = noTid) :
    (s'.kernel.tasks.taskList tid).internalState = line.toNat := by
  have tasks := reachable_tasksSound reachable
  obtain ⟨acts, shape, trace⟩ := step_trace (reachable_sound reachable) steps
  subst runs
  generalize s'.frame = frame at shape
  cases shape with
  | task _ takes =>
      rw [internalState_of_taskActs takes trace goesOn (tasks.runs isTask).1
        isTask fun startsOver => tasks.running_state isTask startsOver.2]
      exact if_pos ⟨rfl, yields⟩

/-- A step by which a task neither starts over nor yields leaves its internal
state. -/
theorem step_keeps_internalState
    (reachable : ReachableSys cfg s)
    (steps : step cfg s label = .ok s')
    (created : tid < s.kernel.tasks.nTasks)
    (keepsPlace : ¬ StartsOver tid s label)
    (still : ¬ (s.kernel.runningTid = tid ∧ s'.kernel.runningTid = noTid)) :
    (s'.kernel.tasks.taskList tid).internalState =
      (s.kernel.tasks.taskList tid).internalState := by
  have sound := reachable_sound reachable
  have isTask := isTask_of_created sound created
  obtain ⟨acts, shape, trace⟩ := step_trace sound steps
  generalize s'.frame = frame at shape
  cases label with
  | create creation =>
      cases shape with
      | create _ =>
          cases trace with
          | cons first rest =>
              cases rest
              rw [first.taskList created]
              rfl
  | osStart =>
      cases shape with
      | osStart =>
          cases trace with
          | cons first rest =>
              cases rest
              rw [first.taskList created]
              rfl
  | osSchedule => exact internalState_of_osSchedule shape trace created isTask
  | call call =>
      cases shape with
      | call calls =>
          exact internalState_of_callActs calls trace created isTask keepsPlace
  | task op line =>
      cases shape with
      | task runs takes =>
          by_cases ends : op = .taskClose
          · subst ends
            cases takes with
            | taskClose =>
                have other : s.kernel.runningTid ≠ tid := fun here => still
                  ⟨here, by rw [Micro.runningTid_of_trace trace]; rfl⟩
                cases trace with
                | cons kills rest =>
                    cases rest with
                    | cons frees rest =>
                        cases rest
                        rw [frees.taskList (created.trans_le kills.nTasks_le),
                          kills.taskList created]
                        simp only [Act.onTask]
                        rw [if_neg (Ne.symm other)]
          · rw [internalState_of_taskActs takes trace ends created isTask
              keepsPlace, if_neg still]

/-- A task that is reset starts at its top when it is resumed. -/
theorem step_startsOver
    (reachable : ReachableSys cfg s)
    (steps : step cfg s label = .ok s')
    (created : tid < s.kernel.tasks.nTasks)
    (startsOver : StartsOver tid s label) :
    (s'.kernel.tasks.taskList tid).internalState = 0 ∧
      (s'.kernel.tasks.taskList tid).state = .suspended ∧
      (s'.kernel.tasks.taskList tid).savedState = .ready := by
  have tasks := reachable_tasksSound reachable
  have sound := reachable_sound reachable
  obtain ⟨suspends, waits⟩ := startsOver
  have reset : (s.kernel.tasks.taskList tid).suspend.internalState = 0 ∧
      (s.kernel.tasks.taskList tid).suspend.state = .suspended ∧
      (s.kernel.tasks.taskList tid).suspend.savedState = .ready := by
    simp [Tcb.suspend, waits]
  obtain ⟨acts, shape, trace⟩ := step_trace sound steps
  generalize s'.frame = frame at shape
  have finished : ∀ rest, acts = .suspend tid :: rest → rest = [] →
      s'.kernel.tasks.taskList tid = (s.kernel.tasks.taskList tid).suspend := by
    rintro rest rfl rfl
    cases trace with
    | cons first rest =>
        cases rest
        rw [first.taskList created]
        exact if_pos rfl
  cases shape with
  | call calls =>
      cases calls with
      | osTaskSuspend id =>
          have named : id.toNat = tid := suspends
          rw [finished [] (by rw [named]) rfl]
          exact reset
      | _ => exact suspends.elim
  | task runs takes =>
      cases takes with
      | taskSuspend id =>
          have named : id.toNat = tid := suspends
          rw [finished (s.kernel.selfYieldActs id.toNat _) (by rw [named]) ?_]
          · exact reset
          · unfold Kernel.selfYieldActs
            rw [if_neg]
            intro self
            rw [named] at self
            subst self
            exact tasks.running_state runs waits
      | _ => exact suspends.elim
  | _ => exact suspends.elim

/-- A new task starts at its top. -/
theorem step_new_internalState
    (sound : s.kernel.Sound cfg)
    (steps : step cfg s label = .ok s')
    (new : s.kernel.tasks.nTasks ≤ tid)
    (created : tid < s'.kernel.tasks.nTasks) :
    (s'.kernel.tasks.taskList tid).internalState = 0 := by
  cases label with
  | create creation =>
      cases creation with
      | osTaskCreate taskproc data prio msgPool poolSize msgSize =>
          obtain ⟨nTasks, _, fresh, _⟩ := static_of_osTaskCreate steps
          have last : tid = s.kernel.tasks.nTasks := by omega
          rw [last, fresh]
      | eventCreate | semBinCreate | semCountingCreate =>
          obtain ⟨k', creates, rfl⟩ := map_eq_ok_iff.mp steps
          obtain ⟨made, _, rfl⟩ := map_eq_ok_iff.mp creates
          exact absurd created (Nat.not_lt.mpr new)
  | _ =>
      have same := (step_sameObjects sound steps (by simp)).nTasks
      omega

/-- Only the scheduler gives the processor to a task, and only a macro of the
running task gives it up. -/
theorem step_runningTid
    (sound : s.kernel.Sound cfg)
    (steps : step cfg s label = .ok s')
    (notPass : label ≠ .osSchedule) :
    s'.kernel.runningTid = s.kernel.runningTid ∨
      (s'.kernel.runningTid = noTid ∧ ∃ op line, label = .task op line) := by
  obtain ⟨acts, shape, trace⟩ := step_trace sound steps
  rw [Micro.runningTid_of_trace trace]
  have allowed := shape.allowed
  generalize s'.frame = frame at shape
  cases shape with
  | create creation => exact .inl rfl
  | osStart => exact .inl rfl
  | sleep => exact absurd rfl notPass
  | osSchedule => exact absurd rfl notPass
  | call calls => exact .inl (foldl_onRunning_of_steady _ calls.steady)
  | @task op line acts left runs takes =>
      have unscheduled : ∀ act ∈ acts, ∀ tid, act ≠ .select tid := by
        rintro act inside tid rfl
        cases allowed _ inside
      rcases foldl_onRunning_cases s.kernel.runningTid unscheduled with
        same | idle
      · exact .inl same
      · exact .inr ⟨idle, op, line, rfl⟩

end

/-! ## Runs -/

section

variable {cfg : Config} {s s' : Sys β} {labels : List (Label β)} {tid : Nat}

/-- Multitasking is cooperative: whatever interrupts do, the running task keeps
the processor until one of its own macros gives it up. -/
theorem runs_until_it_yields
    (reachable : ReachableSys cfg s)
    (runsNow : s.kernel.runningTid = tid)
    (isTask : tid ≠ noTid)
    (runs : run (step cfg) s labels = .ok s')
    (stopped : s'.kernel.runningTid ≠ tid) :
    ∃ earlier op line later before after,
      labels = earlier ++ .task op line :: later ∧
      run (step cfg) s earlier = .ok before ∧ before.kernel.runningTid = tid ∧
      step cfg before (.task op line) = .ok after ∧
      after.kernel.runningTid = noTid ∧
      run (step cfg) after later = .ok s' := by
  induction labels generalizing s with
  | nil =>
      rw [run_nil, Except.ok.injEq] at runs
      exact absurd (runs ▸ runsNow) stopped
  | cons label labels inductionHypothesis =>
      obtain ⟨next, steps, rest⟩ := run_cons_eq_ok_iff.mp runs
      have notPass : label ≠ .osSchedule := by
        rintro rfl
        simp only [step, guard_eq_ok_iff] at steps
        exact isTask (runsNow.symm.trans steps.1)
      rcases step_runningTid (reachable_sound reachable) steps notPass with
        same | ⟨idle, op, line, rfl⟩
      · obtain ⟨earlier, op, line, later, before, after, split, reaches, here,
          yields⟩ := inductionHypothesis (reachable.step steps)
            (same.trans runsNow) rest
        refine ⟨label :: earlier, op, line, later, before, after, ?_, ?_, here,
          yields⟩
        · rw [split]
          rfl
        · exact run_cons_eq_ok_iff.mpr ⟨next, steps, reaches⟩
      · exact ⟨[], op, line, labels, s, next, rfl, rfl, runsNow, steps, idle,
          rest⟩

/-- The first task signals the semaphore without a waiter, while an interrupt
makes the third task ready, and then waits. -/
theorem runs_until_it_yields_setUp :
    ∃ s s' : Sys Nat,
      run (step (Config.small false)) (Sys.boot (Config.small false))
        (setUp 1 2 3 ++ [.osSchedule]) = .ok s ∧
      run (step (Config.small false)) s
        [.task (.semSignal 0) 2, .call .osTick, .task (.taskWaitId 0 5) 3,
          .osSchedule] = .ok s' ∧
      ∃ before after : Sys Nat, before.kernel.runningTid = 0 ∧
        after.kernel.runningTid = noTid ∧
        ∃ op line, step (Config.small false) before (.task op line) = .ok after := by
  obtain ⟨s, s', reaches, runs, checked⟩ := exists_runs_of_returnsWith
    (step (Config.small false)) (Sys.boot (Config.small false))
    (setUp 1 2 3 ++ [.osSchedule])
    [.task (.semSignal 0) 2, .call .osTick, .task (.taskWaitId 0 5) 3,
      .osSchedule]
    (fun states : Sys Nat × Sys Nat =>
      decide (states.1.kernel.runningTid = 0 ∧ states.2.kernel.runningTid ≠ 0))
    (by decide +kernel)
  obtain ⟨runsNow, stopped⟩ := of_decide_eq_true checked
  obtain ⟨_, op, line, _, before, after, _, _, here, steps, idle, _⟩ :=
    runs_until_it_yields (reachable_of_run reaches) runsNow (by decide) runs
      stopped
  exact ⟨s, s', reaches, runs, before, after, here, idle, op, line, steps⟩

/-- The internal state of a task that does not run stays, unless the task
starts over, after which it is zero. -/
theorem run_internalState
    (reachable : ReachableSys cfg s)
    (created : tid < s.kernel.tasks.nTasks)
    (notRunning : s.kernel.runningTid ≠ tid)
    (waits : Meets (step cfg) (fun s label => scheduled cfg s label ≠ some tid)
      s labels)
    (runs : run (step cfg) s labels = .ok s') :
    (Meets (step cfg) (fun s label => ¬ StartsOver tid s label) s labels →
      (s'.kernel.tasks.taskList tid).internalState =
        (s.kernel.tasks.taskList tid).internalState) ∧
    (¬ Meets (step cfg) (fun s label => ¬ StartsOver tid s label) s labels →
      (s'.kernel.tasks.taskList tid).internalState = 0) := by
  induction labels generalizing s with
  | nil =>
      rw [run_nil, Except.ok.injEq] at runs
      exact ⟨fun _ => by rw [runs], fun some => absurd trivial some⟩
  | cons label labels inductionHypothesis =>
      obtain ⟨next, steps, rest⟩ := run_cons_eq_ok_iff.mp runs
      have sound := reachable_sound reachable
      have isTask := isTask_of_created sound created
      obtain ⟨kept, reset⟩ := inductionHypothesis (reachable.step steps)
        (created.trans_le (step_nTasks_le sound steps))
        (step_notRunning sound steps isTask notRunning waits.1)
        ((meets_cons_iff steps).mp waits).2 rest
      rw [meets_cons_iff steps]
      by_cases here : StartsOver tid s label
      · have zero := (step_startsOver reachable steps created here).1
        refine ⟨fun both => absurd here both.1, fun _ => ?_⟩
        by_cases later : Meets (step cfg)
            (fun s label => ¬ StartsOver tid s label) next labels
        · rw [kept later, zero]
        · exact reset later
      · have same := step_keeps_internalState reachable steps created here
          fun both => notRunning both.1
        refine ⟨fun both => (kept both.2).trans same, fun some => ?_⟩
        exact reset fun later => some ⟨here, later⟩

/-- A task goes on behind the macro it yielded in, however long the others run
and whatever they do, unless it was suspended while it waited for a semaphore:
then it starts at its top. -/
theorem goes_on_where_it_yielded
    {op : TaskOp β} {line : UInt16} {middle : Sys β}
    (reachable : ReachableSys cfg s)
    (runsNow : s.kernel.runningTid = tid)
    (isTask : tid ≠ noTid)
    (goesOn : op ≠ .taskClose)
    (steps : step cfg s (.task op line) = .ok middle)
    (yields : middle.kernel.runningTid = noTid)
    (waits : Meets (step cfg) (fun s label => scheduled cfg s label ≠ some tid)
      middle labels)
    (runs : run (step cfg) middle labels = .ok s') :
    (Meets (step cfg) (fun s label => ¬ StartsOver tid s label) middle labels →
      (s'.kernel.tasks.taskList tid).internalState = line.toNat) ∧
    (¬ Meets (step cfg) (fun s label => ¬ StartsOver tid s label) middle labels →
      (s'.kernel.tasks.taskList tid).internalState = 0) := by
  have stored := step_yields reachable steps runsNow isTask goesOn yields
  have tasks := reachable_tasksSound reachable
  have created : tid < s.kernel.tasks.nTasks :=
    runsNow ▸ (tasks.runs (by rwa [runsNow])).1
  have after := run_internalState (reachable.step steps)
    (created.trans_le (step_nTasks_le (reachable_sound reachable) steps))
    (by rw [yields]; exact Ne.symm isTask) waits runs
  rw [stored] at after
  exact after

end

/-- The first task waits on line 3 while the second runs and an interrupt wakes
the first. -/
theorem goes_on_where_it_yielded_setUp :
    ∃ s middle s' : Sys Nat,
      run (step (Config.small false)) (Sys.boot (Config.small false))
        (setUp 1 2 3 ++ [.osSchedule]) = .ok s ∧
      step (Config.small false) s (.task (.eventWaitTimeout 1 0) 3) = .ok middle ∧
      run (step (Config.small false)) middle
        [.osSchedule, .call (.eventIsrSignal 1), .task (.taskWaitId 0 5) 9] =
          .ok s' ∧
      (s'.kernel.tasks.taskList 0).internalState = 3 := by
  obtain ⟨s, s', reaches, runs, checked⟩ := exists_runs_of_returnsWith
    (step (Config.small false)) (Sys.boot (Config.small false))
    (setUp 1 2 3 ++ [.osSchedule])
    [.task (.eventWaitTimeout 1 0) 3, .osSchedule, .call (.eventIsrSignal 1),
      .task (.taskWaitId 0 5) 9]
    (fun states : Sys Nat × Sys Nat =>
      decide (states.1.kernel.runningTid = 0 ∧
        returnsWith (fun middle : Sys Nat => decide (
            middle.kernel.runningTid = noTid ∧
            meetsCheck (step (Config.small false))
              (fun s label => decide (scheduled (Config.small false) s label ≠
                some 0)) middle
              [.osSchedule, .call (.eventIsrSignal 1), .task (.taskWaitId 0 5) 9]))
          (step (Config.small false) states.1
            (.task (.eventWaitTimeout 1 0) 3)) = true))
    (by decide +kernel)
  obtain ⟨runsNow, yieldsHere⟩ := of_decide_eq_true checked
  obtain ⟨middle, steps, rest⟩ := run_cons_eq_ok_iff.mp runs
  rw [steps] at yieldsHere
  obtain ⟨idle, waits⟩ := of_decide_eq_true yieldsHere
  have meets := Meets.of_check _ (fun _ _ here => of_decide_eq_true here) waits
  refine ⟨s, middle, s', reaches, steps, rest,
    (goes_on_where_it_yielded (reachable_of_run reaches) runsNow (by decide)
      (by simp) steps idle meets rest).1 ?_⟩
  apply Meets.of_forall
  intro label inside state overtaken
  rcases List.mem_cons.mp inside with rfl | inside
  · exact overtaken.1
  rcases List.mem_cons.mp inside with rfl | inside
  · exact overtaken.1
  rcases List.mem_cons.mp inside with rfl | inside
  · exact overtaken.1
  · cases inside

end CocoOs
