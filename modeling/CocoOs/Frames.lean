import CocoOs.StepShape

/-!
# Where the tasks are

A task is inside a message macro only while it is blocked there: the running
task is always between macros.
-/

namespace CocoOs

open Foundation

variable {β : Type}

/-! ## Which task runs after a trace -/

/-- The action gives the processor to another task or takes it away. -/
def Act.Switches : Act β → Prop
  | .select _ | .free | .yield _ _ | .block _ _ _ => True
  | _ => False

theorem Micro.runningTid_of_trace
    {cfg : Config} {k k' : Kernel β} {acts : List (Act β)}
    (trace : Trace (Micro cfg) k acts k') :
    k'.runningTid = acts.foldl Act.onRunning k.runningTid :=
  trace.observe (fun _ => True) (fun _ _ _ _ _ => trivial) Kernel.runningTid
    Act.onRunning (fun _ _ _ _ acts => acts.runningTid) trivial

/-- The processor changes hands by switching actions only. -/
theorem foldl_onRunning_of_steady
    {acts : List (Act β)} (running : Nat)
    (steady : ∀ act ∈ acts, ¬ act.Switches) :
    acts.foldl Act.onRunning running = running := by
  induction acts with
  | nil => rfl
  | cons act acts inductionHypothesis =>
      have here := steady act (List.mem_cons_self ..)
      have same : act.onRunning running = running := by
        cases act with
        | select | free | yield | block => exact absurd trivial here
        | _ => rfl
      rw [List.foldl_cons, same]
      exact inductionHypothesis fun act inside =>
        steady act (List.mem_cons_of_mem _ inside)

/-- Without the scheduler the task that runs goes on or gives up the
processor. -/
theorem foldl_onRunning_cases
    {acts : List (Act β)} (running : Nat)
    (unscheduled : ∀ act ∈ acts, ∀ tid, act ≠ .select tid) :
    acts.foldl Act.onRunning running = running ∨
      acts.foldl Act.onRunning running = noTid := by
  induction acts generalizing running with
  | nil => exact .inl rfl
  | cons act acts inductionHypothesis =>
      have later : ∀ act ∈ acts, ∀ tid, act ≠ .select tid :=
        fun act inside => unscheduled act (List.mem_cons_of_mem _ inside)
      have here := unscheduled act (List.mem_cons_self ..)
      rw [List.foldl_cons]
      cases act with
      | select tid => exact absurd rfl (here tid)
      | free | yield | block =>
          right
          rcases inductionHypothesis noTid later with none | none <;> exact none
      | _ => exact inductionHypothesis running later

theorem steady_signalActs (cfg : Config) (event tid : Nat) :
    ∀ act ∈ Kernel.signalActs (β := β) cfg event tid, ¬ act.Switches := by
  unfold Kernel.signalActs
  split <;> simp [Act.Switches]

namespace Kernel

theorem waitEventActs_runningTid
    (cfg : Config) (k : Kernel β) (eventId : Nat) (wait : Wait)
    (line running : Nat) :
    (k.waitEventActs cfg eventId wait line).foldl Act.onRunning running =
      noTid := by
  unfold waitEventActs
  split_ifs <;> rfl

/-- A turn of a post gives up the processor exactly when it blocks. -/
theorem PostActs.runningTid
    {cfg : Config} {k : Kernel β} {queue delay period event line : Nat}
    {msg : Msg β} {async blocked : Bool} {acts : List (Act β)}
    (turn : PostActs cfg k queue delay period msg async event line blocked acts)
    (running : Nat) :
    acts.foldl Act.onRunning running = if blocked then noTid else running := by
  cases turn with
  | blocked sync full =>
      rw [List.foldl_cons]
      exact waitEventActs_runningTid cfg k event _ line _
  | posted room =>
      rw [List.foldl_cons]
      exact foldl_onRunning_of_steady running (steady_signalActs cfg event _)
  | refused notBlocked => rfl

/-- A turn of a receive gives up the processor exactly when it blocks. -/
theorem ReceiveActs.runningTid
    {cfg : Config} {k : Kernel β} {queue event line : Nat}
    {async blocked : Bool} {acts : List (Act β)}
    (turn : ReceiveActs cfg k queue async event line blocked acts)
    (running : Nat) :
    acts.foldl Act.onRunning running = if blocked then noTid else running := by
  cases turn with
  | blocked sync nothing =>
      rw [List.foldl_cons]
      exact waitEventActs_runningTid cfg k event _ line _
  | received msg some =>
      rw [List.foldl_cons]
      exact foldl_onRunning_of_steady running (steady_signalActs cfg event _)
  | nothing notBlocked => rfl

end Kernel

/-! ## Only the scheduler schedules -/

theorem unscheduled_waitEventActs
    (cfg : Config) (k : Kernel β) (eventId : Nat) (wait : Wait) (line : Nat) :
    ∀ act ∈ k.waitEventActs cfg eventId wait line, ∀ tid,
      act ≠ .select tid := by
  unfold Kernel.waitEventActs
  split_ifs <;> simp

theorem unscheduled_signalActs (cfg : Config) (event tid : Nat) :
    ∀ act ∈ Kernel.signalActs (β := β) cfg event tid, ∀ other,
      act ≠ .select other := by
  unfold Kernel.signalActs
  split_ifs <;> simp

/-- What a task does when it goes on schedules nothing. -/
theorem ResumeActs.unscheduled
    {cfg : Config} {k : Kernel β} {frame frame' : Nat → Frame β}
    {acts : List (Act β)}
    (resumes : ResumeActs cfg k frame acts frame') :
    ∀ act ∈ acts, ∀ tid, act ≠ .select tid := by
  intro act inside
  cases resumes with
  | begin fresh => simp at inside
  | between goesOn here => simp at inside
  | post goesOn here full turn =>
      cases turn with
      | blocked sync full =>
          rcases List.mem_cons.mp inside with rfl | later
          · simp
          · exact unscheduled_waitEventActs cfg k _ _ _ act later
      | posted room =>
          rcases List.mem_cons.mp inside with rfl | later
          · simp
          · exact unscheduled_signalActs cfg _ _ act later
      | refused notBlocked => simp at inside
  | receive goesOn here empty turn =>
      cases turn with
      | blocked sync nothing =>
          rcases List.mem_cons.mp inside with rfl | later
          · simp
          · exact unscheduled_waitEventActs cfg k _ _ _ act later
      | received msg some =>
          rcases List.mem_cons.mp inside with rfl | later
          · simp
          · exact unscheduled_signalActs cfg _ _ act later
      | nothing notBlocked => simp at inside
  | done goesOn wasPost wasReceive =>
      split_ifs at inside
      · exact unscheduled_signalActs cfg _ _ act inside
      · simp at inside

/-! ## The frame of the running task -/

/-- Calls that any code can make leave the processor where it is. -/
theorem CallActs.steady
    {cfg : Config} {s : Sys β} {call : Call} {acts : List (Act β)}
    (calls : CallActs cfg s.kernel call acts) :
    ∀ act ∈ acts, ¬ act.Switches := by
  intro act inside switches
  have allowed := allowed_callActs calls act inside
  cases act with
  | select tid => cases allowed
  | free =>
      obtain ⟨line, wrong⟩ := allowed
      cases wrong
  | yield tid line =>
      rcases allowed with ⟨op, _, wrong, _⟩ | ⟨wrong, _⟩ <;> cases wrong
  | block tid wait line =>
      rcases allowed with ⟨op, _, wrong, _⟩ | ⟨wrong, _⟩ <;> cases wrong
  | _ => exact switches

/-- The frame a task has when it goes on after the scheduler chose it. -/
theorem ResumeActs.leaves_between
    {cfg : Config} {k : Kernel β} {frame frame' : Nat → Frame β}
    {acts : List (Act β)}
    (resumes : ResumeActs cfg k frame acts frame')
    (runs : acts.foldl Act.onRunning k.runningTid ≠ noTid) :
    acts.foldl Act.onRunning k.runningTid = k.runningTid ∧
      frame' k.runningTid = .between := by
  cases resumes with
  | begin fresh => exact ⟨rfl, Function.update_self ..⟩
  | between goesOn here => exact ⟨rfl, here⟩
  | @post taskId delay period msg blocked acts goesOn here full turn =>
      rw [turn.runningTid] at runs ⊢
      cases blocked with
      | true => exact absurd rfl runs
      | false => exact ⟨rfl, Function.update_self ..⟩
  | @receive taskId pMsg buffer blocked acts goesOn here empty turn =>
      rw [turn.runningTid] at runs ⊢
      cases blocked with
      | true => exact absurd rfl runs
      | false => exact ⟨rfl, Function.update_self ..⟩
  | done goesOn wasPost wasReceive =>
      refine ⟨foldl_onRunning_of_steady _ ?_, Function.update_self ..⟩
      split
      · exact steady_signalActs cfg _ _
      · simp

/-- The running task is between macros. -/
def Sys.RunsBetween (s : Sys β) : Prop :=
  s.kernel.runningTid ≠ noTid → s.frame s.kernel.runningTid = .between

theorem step_runsBetween
    {cfg : Config} {s s' : Sys β} {label : Label β}
    (sound : s.kernel.Sound cfg)
    (between : s.RunsBetween)
    (steps : step cfg s label = .ok s') :
    s'.RunsBetween := by
  obtain ⟨acts, shape, trace⟩ := step_trace sound steps
  have allowed := shape.allowed
  have running := Micro.runningTid_of_trace trace
  intro runs
  rw [running] at runs ⊢
  generalize s'.frame = frame at shape
  cases shape with
  | create creation => exact between runs
  | osStart => exact between runs
  | sleep idle selects sleeps => exact absurd sleeps runs
  | osSchedule idle selects chosen inside resumes =>
      obtain ⟨same, here⟩ := resumes.leaves_between runs
      rw [List.foldl_cons]
      exact (congrArg frame same).trans here
  | call calls =>
      rw [foldl_onRunning_of_steady _ calls.steady] at runs ⊢
      exact between runs
  | @task op line acts left chosen takes =>
      have unscheduled : ∀ act ∈ acts, ∀ tid, act ≠ .select tid := by
        rintro act inside tid rfl
        cases allowed _ inside
      have same := (foldl_onRunning_cases s.kernel.runningTid
        unscheduled).resolve_right runs
      rw [same] at runs ⊢
      cases takes with
      | @msgPost taskId msg delay period async blocked acts turn =>
          rw [List.foldl_cons, turn.runningTid] at same
          cases blocked with
          | true => exact absurd same.symm runs
          | false => exact Function.update_self ..
      | @msgReceive taskId pMsg async blocked acts buffer turn =>
          rw [List.foldl_cons, turn.runningTid] at same
          cases blocked with
          | true => exact absurd same.symm runs
          | false => exact Function.update_self ..
      | _ => exact between runs

theorem reachable_runsBetween
    {cfg : Config} {s : Sys β}
    (reachable : ReachableSys cfg s) :
    s.RunsBetween := by
  refine reachable.induction Sys.RunsBetween (fun s initial _ => ?_) ?_
  · rw [initial.2]
  · exact fun s label s' reachable between steps =>
      step_runsBetween (reachable_sound reachable) between steps

end CocoOs
