import CocoOs.QueueLog

/-!
# Tasks blocked inside a message macro

A task that yielded inside a message macro finds there what it left: its task
control block still names the result it waits on and the change event of the
queue, and the queue it looks for is the queue it found.
-/

namespace CocoOs

open Foundation

variable {β : Type}

/-! ## Finding a queue -/

namespace QueueTable

/-- Queues that are added later do not hide the one that was found. -/
theorem osMsgQFindFrom_extend
    {queues queues' : QueueTable β} {taskId : Nat} (more : Nat)
    {remaining queue : Nat}
    (same : ∀ other, other < queue + remaining →
      (queues'.msgQList other).taskId = (queues.msgQList other).taskId)
    (within : queue + remaining ≤ noQueue)
    (found : queues.osMsgQFindFrom taskId remaining queue < queue + remaining) :
    queues'.osMsgQFindFrom taskId (remaining + more) queue =
      queues.osMsgQFindFrom taskId remaining queue := by
  induction remaining generalizing queue with
  | zero =>
      unfold osMsgQFindFrom at found
      omega
  | succ remaining inductionHypothesis =>
      rw [Nat.add_right_comm]
      unfold osMsgQFindFrom at found ⊢
      rw [same queue (by omega)]
      by_cases here : (queues.msgQList queue).taskId = taskId
      · rw [if_pos here, if_pos here]
      · rw [if_neg here, if_neg here]
        rw [if_neg here] at found
        apply inductionHypothesis
        · exact fun other inside => same other (by omega)
        · omega
        · omega

end QueueTable

namespace Kernel

/-- The queue that is found for a task, and its change event. -/
structure Finds (cfg : Config) (k : Kernel β) (taskId queue event : Nat) :
    Prop where
  created : k.HasQueue cfg queue
  found : k.queues.osMsgQFind cfg taskId = queue
  change : (k.queues.msgQList queue).change = event

theorem Finds.unique
    {cfg : Config} {k : Kernel β} {taskId queue event queue' event' : Nat}
    (first : k.Finds cfg taskId queue event)
    (second : k.Finds cfg taskId queue' event') :
    queue = queue' ∧ event = event' := by
  obtain ⟨_, rfl, rfl⟩ := first
  obtain ⟨_, rfl, rfl⟩ := second
  exact ⟨rfl, rfl⟩

theorem finds_of_created
    {cfg : Config} {k : Kernel β} {taskId : Nat}
    (created : k.HasQueue cfg (k.queues.osMsgQFind cfg taskId)) :
    k.Finds cfg taskId (k.queues.osMsgQFind cfg taskId)
      (k.queues.osMsgQEventGet cfg (k.queues.osMsgQFind cfg taskId)) where
  created := created
  found := rfl
  change := by
    unfold QueueTable.osMsgQEventGet
    rw [if_pos created.1, if_neg (Nat.not_le.mpr created.2)]

end Kernel

/-- What is found for a task is found again later. -/
theorem Micro.finds
    {cfg : Config} {k k' : Kernel β} {act : Act β}
    {taskId queue event : Nat}
    (acts : Micro cfg k act k')
    (sound : k.QueuesSound cfg)
    (finds : k.Finds cfg taskId queue event) :
    k'.Finds cfg taskId queue event := by
  have some := finds.created.1
  have inside := finds.created.2
  have within := sound.nQueues_le_noQueue some
  have found := finds.found
  unfold QueueTable.osMsgQFind at found
  rw [if_pos some] at found
  refine ⟨acts.hasQueue finds.created, ?_, ?_⟩
  · unfold QueueTable.osMsgQFind
    rw [if_pos some]
    by_cases quiet : act.Quiet
    · have objects := acts.sameObjects quiet
      have kept : ∀ other, other < 0 + k.queues.nQueues →
          (k'.queues.msgQList other).taskId =
            (k.queues.msgQList other).taskId :=
        fun other _ => objects.taskId other
      have again := QueueTable.osMsgQFindFrom_extend 0 kept (by omega)
        (by omega : k.queues.osMsgQFindFrom taskId
          k.queues.nQueues 0 < 0 + k.queues.nQueues)
      rw [Nat.add_zero, found] at again
      rw [objects.nQueues, again]
    · cases acts with
      | create creation creates =>
          rcases creationStep_queues creates with
            same | ⟨created, _, _, queues⟩
          · rw [same, found]
          · have kept : ∀ other, other < 0 + k.queues.nQueues →
                (k'.queues.msgQList other).taskId =
                  (k.queues.msgQList other).taskId := by
              intro other before
              rw [queues]
              dsimp only
              rw [Function.update_of_ne (by omega)]
            have again := QueueTable.osMsgQFindFrom_extend 1 kept (by omega)
              (by omega : k.queues.osMsgQFindFrom taskId
                k.queues.nQueues 0 < 0 + k.queues.nQueues)
            have counted : k'.queues.nQueues = k.queues.nQueues + 1 := by
              rw [queues]
            rw [counted, again, found]
      | _ => exact absurd trivial quiet
  · by_cases quiet : act.Quiet
    · rw [(acts.sameObjects quiet).change]
      exact finds.change
    · cases acts with
      | create creation creates =>
          rcases creationStep_queues creates with
            same | ⟨created, _, _, queues⟩
          · rw [same]
            exact finds.change
          · rw [queues]
            dsimp only
            rw [Function.update_of_ne (Nat.ne_of_lt inside)]
            exact finds.change
      | _ => exact absurd trivial quiet

theorem Kernel.Finds.of_trace
    {cfg : Config} {k k' : Kernel β} {acts : List (Act β)}
    {taskId queue event : Nat}
    (finds : k.Finds cfg taskId queue event)
    (trace : Trace (Micro cfg) k acts k')
    (sound : k.Sound cfg) :
    k'.Finds cfg taskId queue event :=
  (trace.invariant (fun _ => True)
    (fun k => k.Sound cfg ∧ k.Finds cfg taskId queue event)
    (fun _ _ _ _ both acts =>
      ⟨both.1.of_micro acts, acts.finds both.1.queues both.2⟩)
    (fun _ _ => trivial) ⟨sound, finds⟩).2

/-! ## What the message macros note -/

namespace Tcb

/-- The fields of a task control block in which the message macros keep what
they need after a yield. -/
def macroPart (task : Tcb) : Nat × MsgResult :=
  (task.msgChangeEvent, task.msgResult)

theorem macroPart_wait (cfg : Config) (wait : Wait) (task : Tcb) :
    (wait.apply cfg task).macroPart = task.macroPart := by
  have single : ∀ (eventId timeout : Nat) (single : Bool) (task : Tcb),
      (task.waitEvent eventId single timeout).macroPart = task.macroPart := by
    intro eventId timeout single task
    unfold waitEvent
    dsimp only
    split_ifs <;> rfl
  have folded : ∀ (events : List Nat) (mode : Bool) (task : Tcb),
      (events.foldl (fun task eventId => task.waitEvent eventId mode 0)
        task).macroPart = task.macroPart := by
    intro events mode
    induction events with
    | nil => exact fun _ => rfl
    | cons eventId events inductionHypothesis =>
        intro task
        rw [List.foldl_cons, inductionHypothesis, single]
  cases wait with
  | multiple waitAll events => exact folded events _ _
  | time | sem => rfl
  | event | room | message => exact single _ _ _ _

end Tcb

/-- Only the macros themselves write these fields. -/
theorem Act.macroPart_onTask
    {act : Act β} {tid : Nat}
    (notNote : ∀ noted, act ≠ .note tid noted)
    (cfg : Config) (task : Tcb) :
    (act.onTask cfg tid task).macroPart = task.macroPart := by
  cases act with
  | yield actor line =>
      simp only [onTask]
      split_ifs <;> rfl
  | block actor wait line =>
      simp only [onTask]
      split_ifs
      · exact task.macroPart_wait cfg wait
      · rfl
  | note actor noted =>
      simp only [onTask]
      rw [if_neg]
      rintro rfl
      exact notNote noted rfl
  | suspend | resume =>
      simp only [onTask, Tcb.suspend, Tcb.resume]
      split_ifs <;> rfl
  | kill | release =>
      simp only [onTask]
      split_ifs <;> rfl
  | tick =>
      simp only [onTask, Tcb.tick]
      split_ifs <;> rfl
  | signal eventId =>
      simp only [onTask, Tcb.signalEvent]
      split_ifs <;> rfl
  | _ => rfl

/-! ## Kernels with a task inside a macro -/

/-- The task is created, the queue it looks for is there, and its task control
block names the change event and the result. -/
structure Kernel.InMacro (cfg : Config) (k : Kernel β) (tid taskId : Nat)
    (result : MsgResult) : Prop where
  created : tid < k.tasks.nTasks
  finds : k.Finds cfg taskId (k.queues.osMsgQFind cfg taskId)
    (k.tasks.taskList tid).msgChangeEvent
  noted : (k.tasks.taskList tid).msgResult = result

section

variable {cfg : Config} {k k' : Kernel β} {tid taskId : Nat}
variable {result : MsgResult}

theorem Kernel.InMacro.of_micro
    {act : Act β}
    (inMacro : k.InMacro cfg tid taskId result)
    (sound : k.QueuesSound cfg)
    (acts : Micro cfg k act k')
    (notNote : ∀ noted, act ≠ .note tid noted) :
    k'.InMacro cfg tid taskId result := by
  have same := Act.macroPart_onTask notNote cfg (k.tasks.taskList tid)
  rw [← acts.taskList inMacro.created] at same
  have event := congrArg Prod.fst same
  have noted := congrArg Prod.snd same
  dsimp only [Tcb.macroPart] at event noted
  have finds := acts.finds sound inMacro.finds
  refine ⟨inMacro.created.trans_le acts.nTasks_le, ?_,
    noted.trans inMacro.noted⟩
  rw [event, finds.found]
  exact finds

theorem Kernel.InMacro.of_trace
    {acts : List (Act β)}
    (inMacro : k.InMacro cfg tid taskId result)
    (sound : k.Sound cfg)
    (trace : Trace (Micro cfg) k acts k')
    (notNote : ∀ act ∈ acts, ∀ noted, act ≠ .note tid noted) :
    k'.InMacro cfg tid taskId result :=
  (trace.invariant (fun act => ∀ noted, act ≠ .note tid noted)
    (fun k => k.Sound cfg ∧ k.InMacro cfg tid taskId result)
    (fun _ _ _ allowed both acts =>
      ⟨both.1.of_micro acts, both.2.of_micro both.1.queues acts allowed⟩)
    notNote ⟨sound, inMacro⟩).2

theorem unnoted_waitEventActs
    (k : Kernel β) (eventId : Nat) (wait : Wait) (line tid : Nat) :
    ∀ act ∈ k.waitEventActs cfg eventId wait line, ∀ noted,
      act ≠ .note tid noted := by
  unfold Kernel.waitEventActs
  split_ifs <;> simp

theorem unnoted_signalActs (event issuer tid : Nat) :
    ∀ act ∈ Kernel.signalActs (β := β) cfg event issuer, ∀ noted,
      act ≠ .note tid noted := by
  unfold Kernel.signalActs
  split_ifs <;> simp

/-- The task notes its result and yields inside the macro. -/
theorem Kernel.inMacro_of_blocks
    {event line : Nat} {wait : Wait}
    (sound : k.Sound cfg)
    (created : k.runningTid < k.tasks.nTasks)
    (finds : k.Finds cfg taskId (k.queues.osMsgQFind cfg taskId)
      (k.tasks.taskList k.runningTid).msgChangeEvent)
    (trace : Trace (Micro cfg) k
      (.note k.runningTid (.msgResult result) ::
        k.waitEventActs cfg event wait line) k') :
    k'.InMacro cfg k.runningTid taskId result := by
  cases trace with
  | cons notes rest =>
      refine .of_trace ?_ (sound.of_micro notes) rest
        (unnoted_waitEventActs k event wait line _)
      cases notes with
      | note =>
          have self : ((k.modifyTask k.runningTid
              (Note.msgResult result).apply).tasks.taskList k.runningTid) =
                (Note.msgResult result).apply
                  (k.tasks.taskList k.runningTid) :=
            k.tasks.modify_taskList_self k.runningTid _
          refine ⟨created, ?_, ?_⟩
          · rw [self]
            exact ⟨finds.created, rfl, finds.change⟩
          · rw [self]
            rfl

/-- Another task is left alone by a turn of a post. -/
theorem Kernel.PostActs.unnoted
    {queue delay period event line : Nat} {msg : Msg β}
    {async blocked : Bool} {acts : List (Act β)}
    (turn : PostActs cfg k queue delay period msg async event line blocked acts)
    (apart : k.runningTid ≠ tid) :
    ∀ act ∈ acts, ∀ noted, act ≠ .note tid noted := by
  cases turn with
  | blocked =>
      intro act inside noted
      rcases List.mem_cons.mp inside with rfl | later
      · simp [apart]
      · exact unnoted_waitEventActs k event _ line tid act later noted
  | posted =>
      intro act inside noted
      rcases List.mem_cons.mp inside with rfl | later
      · simp
      · exact unnoted_signalActs event _ tid act later noted
  | refused => simp

/-- Another task is left alone by a turn of a receive. -/
theorem Kernel.ReceiveActs.unnoted
    {queue event line : Nat} {async blocked : Bool} {acts : List (Act β)}
    (turn : ReceiveActs cfg k queue async event line blocked acts)
    (apart : k.runningTid ≠ tid) :
    ∀ act ∈ acts, ∀ noted, act ≠ .note tid noted := by
  cases turn with
  | blocked =>
      intro act inside noted
      rcases List.mem_cons.mp inside with rfl | later
      · simp [apart]
      · exact unnoted_waitEventActs k event _ line tid act later noted
  | received =>
      intro act inside noted
      rcases List.mem_cons.mp inside with rfl | later
      · simp
      · exact unnoted_signalActs event _ tid act later noted
  | nothing => simp

/-- The task yields inside a post. -/
theorem Kernel.PostActs.inMacro
    {delay period event line : Nat} {msg : Msg β}
    {async : Bool} {acts : List (Act β)}
    (turn : PostActs cfg k (k.queues.osMsgQFind cfg taskId) delay period msg
      async event line true acts)
    (sound : k.Sound cfg)
    (created : k.runningTid < k.tasks.nTasks)
    (finds : k.HasQueue cfg (k.queues.osMsgQFind cfg taskId) →
      k.Finds cfg taskId (k.queues.osMsgQFind cfg taskId)
        (k.tasks.taskList k.runningTid).msgChangeEvent)
    (trace : Trace (Micro cfg) k acts k') :
    k'.InMacro cfg k.runningTid taskId .full := by
  cases turn with
  | blocked sync full =>
      exact inMacro_of_blocks sound created (finds ⟨full.1, full.2.1⟩) trace

/-- The task yields inside a receive. -/
theorem Kernel.ReceiveActs.inMacro
    {event line : Nat} {async : Bool} {acts : List (Act β)}
    (turn : ReceiveActs cfg k (k.queues.osMsgQFind cfg taskId) async event line
      true acts)
    (sound : k.Sound cfg)
    (created : k.runningTid < k.tasks.nTasks)
    (finds : k.HasQueue cfg (k.queues.osMsgQFind cfg taskId) →
      k.Finds cfg taskId (k.queues.osMsgQFind cfg taskId)
        (k.tasks.taskList k.runningTid).msgChangeEvent)
    (trace : Trace (Micro cfg) k acts k') :
    k'.InMacro cfg k.runningTid taskId .empty := by
  cases turn with
  | blocked sync nothing =>
      exact inMacro_of_blocks sound created (finds ⟨nothing.1, nothing.2.1⟩) trace

/-- A macro starts by noting the change event of the queue it finds. -/
theorem Kernel.finds_setWaitQueue
    (k : Kernel β) (taskId : Nat)
    (exists_ : (k.setWaitQueue cfg taskId).HasQueue cfg
      (k.queues.osMsgQFind cfg taskId)) :
    (k.setWaitQueue cfg taskId).Finds cfg taskId
      (k.queues.osMsgQFind cfg taskId)
      ((k.setWaitQueue cfg taskId).tasks.taskList
        k.runningTid).msgChangeEvent := by
  have self : (k.setWaitQueue cfg taskId).tasks.taskList k.runningTid =
      (Note.waitQueue (k.queues.osMsgQFind cfg taskId)
        (k.queues.osMsgQEventGet cfg (k.queues.osMsgQFind cfg taskId))).apply
          (k.tasks.taskList k.runningTid) :=
    k.tasks.modify_taskList_self k.runningTid (Note.waitQueue _ _).apply
  rw [self]
  exact finds_of_created (k := k.setWaitQueue cfg taskId) exists_

end

/-! ## Every step -/

/-- The task whose queue the frame waits for, and the result it waits on. -/
def Frame.waits : Frame β → Option (Nat × MsgResult)
  | .between => none
  | .post taskId _ _ _ => some (taskId, .full)
  | .receive taskId _ => some (taskId, .empty)

/-- At the start no task waits inside a macro. -/
theorem Initial.waits_ne
    {cfg : Config} {s : Sys β}
    (initial : Initial cfg s)
    (tid taskId : Nat) (result : MsgResult) :
    (s.frame tid).waits ≠ some (taskId, result) := by
  rw [initial.2]
  simp [Frame.waits]

/-- Every task in the frame of a message macro is inside that macro. -/
def Sys.FramesSound (cfg : Config) (s : Sys β) : Prop :=
  ∀ tid taskId result, (s.frame tid).waits = some (taskId, result) →
    s.kernel.InMacro cfg tid taskId result

section

variable {cfg : Config} {s s' : Sys β} {label : Label β}

/-- Steps of the kernel alone leave all frames sound. -/
theorem Sys.FramesSound.of_unnoted
    {acts : List (Act β)}
    (framesSound : s.FramesSound cfg)
    (sound : s.kernel.Sound cfg)
    (trace : Trace (Micro cfg) s.kernel acts s'.kernel)
    {tid : Nat}
    (kept : s'.frame tid = s.frame tid)
    (unnoted : ∀ act ∈ acts, ∀ noted, act ≠ .note tid noted)
    {taskId : Nat} {result : MsgResult}
    (waits : (s'.frame tid).waits = some (taskId, result)) :
    s'.kernel.InMacro cfg tid taskId result :=
  (framesSound tid taskId result (kept ▸ waits)).of_trace sound trace unnoted

/-- The frame of a task that goes on is sound. -/
theorem ResumeActs.inMacro
    {k k' : Kernel β} {frame' : Nat → Frame β} {acts : List (Act β)}
    (resumes : ResumeActs cfg k s.frame acts frame')
    (sound : k.Sound cfg)
    (before : ∀ taskId result,
      (s.frame k.runningTid).waits = some (taskId, result) →
      k.InMacro cfg k.runningTid taskId result)
    (trace : Trace (Micro cfg) k acts k')
    {taskId : Nat} {result : MsgResult}
    (waits : (frame' k.runningTid).waits = some (taskId, result)) :
    k'.InMacro cfg k.runningTid taskId result := by
  cases resumes with
  | begin | done =>
      rw [Function.update_self] at waits
      cases waits
  | between goesOn here =>
      rw [here] at waits
      cases waits
  | @post target delay period msg blocked acts goesOn here full turn =>
      rw [Function.update_self] at waits
      cases blocked with
      | false => cases waits
      | true =>
          cases waits
          have inMacro := before taskId .full (congrArg Frame.waits here)
          exact turn.inMacro sound inMacro.created (fun _ => inMacro.finds) trace
  | @receive target pMsg buffer blocked acts goesOn here empty turn =>
      rw [Function.update_self] at waits
      cases blocked with
      | false => cases waits
      | true =>
          cases waits
          have inMacro := before taskId .empty (congrArg Frame.waits here)
          exact turn.inMacro sound inMacro.created (fun _ => inMacro.finds) trace

/-- What a task that goes on does leaves the others alone. -/
theorem ResumeActs.unnoted
    {k : Kernel β} {frame frame' : Nat → Frame β} {acts : List (Act β)}
    (resumes : ResumeActs cfg k frame acts frame')
    {tid : Nat} (apart : k.runningTid ≠ tid) :
    (∀ act ∈ acts, ∀ noted, act ≠ .note tid noted) ∧ frame' tid = frame tid := by
  have other : ∀ left, Function.update frame k.runningTid left tid = frame tid :=
    fun left => Function.update_of_ne (Ne.symm apart) _ _
  cases resumes with
  | begin => exact ⟨by simp, other _⟩
  | between => exact ⟨by simp, rfl⟩
  | post goesOn here full turn => exact ⟨turn.unnoted apart, other _⟩
  | receive goesOn here empty turn => exact ⟨turn.unnoted apart, other _⟩
  | done =>
      refine ⟨?_, other _⟩
      split_ifs
      · exact unnoted_signalActs _ _ tid
      · simp

theorem step_framesSound
    (reachable : ReachableSys cfg s)
    (framesSound : s.FramesSound cfg)
    (steps : step cfg s label = .ok s') :
    s'.FramesSound cfg := by
  have sound := reachable_sound reachable
  obtain ⟨acts, shape, trace⟩ := step_trace sound steps
  have allowed := shape.allowed
  intro tid taskId result waits
  have bystander : s'.frame tid = s.frame tid →
      (∀ act ∈ acts, ∀ noted, act ≠ .note tid noted) →
      s'.kernel.InMacro cfg tid taskId result := fun kept unnoted =>
    framesSound.of_unnoted sound trace kept unnoted waits
  generalize s'.frame = frame at shape bystander waits
  cases shape with
  | create | osStart | sleep => exact bystander rfl (by simp)
  | call calls =>
      refine bystander rfl ?_
      rintro act inside noted rfl
      obtain ⟨_, _, wrong, _⟩ | ⟨wrong, _⟩ := allowed _ inside <;> cases wrong
  | @osSchedule k acts frame idle selects runs inside resumes =>
      obtain ⟨_, taskList, _, _, _, queues, _⟩ := Kernel.selectTask_frame selects
      by_cases same : k.runningTid = tid
      · subst same
        cases trace with
        | cons first rest =>
            have selected := first.of_select rfl
            rw [selects] at selected
            cases selected
            refine resumes.inMacro (sound.of_micro first) ?_ rest waits
            intro target result blocked
            exact (framesSound _ target result blocked).of_micro sound.queues
              first (by simp)
      · obtain ⟨unnoted, kept⟩ := resumes.unnoted same
        refine bystander kept fun act member noted => ?_
        rcases List.mem_cons.mp member with rfl | later
        · simp
        · exact unnoted act later noted
  | @task op line acts left runs takes =>
      by_cases same : s.kernel.runningTid = tid
      · subst same
        have created := ((reachable_tasksSound reachable).runs runs).1
        have between := reachable_runsBetween reachable runs
        cases takes with
        | @msgPost target msg delay period async blocked acts turn =>
            change (Function.update s.frame s.kernel.runningTid _
              s.kernel.runningTid).waits = _ at waits
            rw [Function.update_self] at waits
            cases blocked with
            | false => cases waits
            | true =>
                cases waits
                cases trace with
                | cons first rest =>
                    cases first with
                    | note =>
                        have noted := s.kernel.setWaitQueue_micro cfg target.toNat
                        exact turn.inMacro (sound.of_micro noted) created
                          (s.kernel.finds_setWaitQueue target.toNat) rest
        | @msgReceive target pMsg async blocked acts buffer turn =>
            change (Function.update s.frame s.kernel.runningTid _
              s.kernel.runningTid).waits = _ at waits
            rw [Function.update_self] at waits
            cases blocked with
            | false => cases waits
            | true =>
                cases waits
                cases trace with
                | cons first rest =>
                    cases first with
                    | note =>
                        have noted := s.kernel.setWaitQueue_micro cfg target.toNat
                        exact turn.inMacro (sound.of_micro noted) created
                          (s.kernel.finds_setWaitQueue target.toNat) rest
        | _ =>
            change (s.frame s.kernel.runningTid).waits = _ at waits
            rw [between] at waits
            cases waits
      · refine bystander ?_ ?_
        · cases left with
          | none => rfl
          | some left => exact Function.update_of_ne (Ne.symm same) _ _
        · rintro act inside noted rfl
          obtain ⟨_, _, _, runsHere⟩ | ⟨wrong, _⟩ := allowed _ inside
          · exact same runsHere
          · cases wrong

/-- In every reachable state the tasks blocked inside a message macro find
there what they left. -/
theorem reachable_framesSound
    (reachable : ReachableSys cfg s) :
    s.FramesSound cfg := by
  refine reachable.induction (fun s => s.FramesSound cfg) ?_ ?_
  · exact fun s initial tid taskId result waits =>
      absurd waits (initial.waits_ne tid taskId result)
  · exact fun s label s' reachable framesSound steps =>
      step_framesSound reachable framesSound steps

end

end CocoOs
