import CocoOs.SemSignal
import CocoOs.Finality
import CocoOs.Frames
import Mathlib.Data.List.Nodup
import Mathlib.Data.List.Perm.Subperm

/-!
# What a semaphore grants

A ledger of one semaphore is kept beside the system: its initial value, the
waits completed, the signals, and the tasks that have completed a wait they
have not given back.  The counter and the completed waits together never exceed
what was there at first and what was signalled.
-/

namespace CocoOs

open Foundation

variable {β : Type}

/-! ## The ledger -/

namespace Label

instance (sem : Int) (label : Label β) : Decidable (label.WaitsSem sem) := by
  cases label with
  | task op line =>
      cases op with
      | semWait other => exact inferInstanceAs (Decidable (other = sem))
      | _ => exact .isFalse id
  | _ => exact .isFalse id

instance (sem : Int) (label : Label β) : Decidable (label.SignalsSem sem) := by
  cases label with
  | call call =>
      cases call with
      | semIsrSignal other => exact inferInstanceAs (Decidable (other = sem))
      | _ => exact .isFalse id
  | task op line =>
      cases op with
      | semSignal other => exact inferInstanceAs (Decidable (other = sem))
      | _ => exact .isFalse id
  | _ => exact .isFalse id

/-- The counter with which the step creates the semaphore. -/
def createsSem (s : Sys β) (sem : Int) : Label β → Option SemValue
  | .create creation =>
      if (s.kernel.sems.nSemaphores : Int) = sem then creation.semValue else none
  | _ => none

/-- The task whose macro signals the semaphore. -/
def signaller (s : Sys β) (sem : Int) : Label β → Option Nat
  | .task (.semSignal other) _ =>
      if other = sem then some s.kernel.runningTid else none
  | _ => none

end Label

/-- The task completes a wait for the semaphore in the step: its macro goes on
without a yield, or it is released. -/
def CompletesWait (sem : Int) (s : Sys β) (label : Label β) (s' : Sys β)
    (tid : Nat) : Prop :=
  (label.WaitsSem sem ∧ s.kernel.runningTid = tid ∧ s'.kernel.runningTid = tid) ∨
  ((s.kernel.tasks.taskList tid).WaitsForSem sem ∧
    (s'.kernel.tasks.taskList tid).state = .ready)

instance (sem : Int) (s : Sys β) (label : Label β) (s' : Sys β) (tid : Nat) :
    Decidable (CompletesWait sem s label s' tid) :=
  inferInstanceAs (Decidable (_ ∨ _))

/-- The tasks that complete a wait for the semaphore in the step. -/
def granted (sem : Int) (s : Sys β) (label : Label β) (s' : Sys β) : List Nat :=
  (List.range s.kernel.tasks.nTasks).filter fun tid =>
    CompletesWait sem s label s' tid

/-- The account of one semaphore since its creation. -/
structure Ledger where
  initial : Nat
  completed : Nat
  signals : Nat
  holders : List Nat
  deriving DecidableEq, Repr

namespace Ledger

/-- A new account. -/
def opened (value : Nat) : Ledger where
  initial := value
  completed := 0
  signals := 0
  holders := []

/-- The account after a step. -/
def next (sem : Int) (s : Sys β) (label : Label β) (s' : Sys β)
    (ledger : Ledger) : Ledger :=
  match label.createsSem s sem with
  | some counter => opened counter.value
  | none =>
      { initial := ledger.initial
        completed := ledger.completed + (granted sem s label s').length
        signals := ledger.signals + if label.SignalsSem sem then 1 else 0
        holders :=
          granted sem s label s' ++
            match label.signaller s sem with
            | some tid => ledger.holders.erase tid
            | none => ledger.holders }

end Ledger

/-- A step of the system with the account of a semaphore. -/
def ledgerStep (cfg : Config) (sem : Int) (state : Ledger × Sys β)
    (label : Label β) : Outcome (Ledger × Sys β) :=
  (step cfg state.2 label).map fun s' =>
    (state.1.next sem state.2 label s', s')

/-! ## Who is granted a wait -/

theorem granted_eq_nil
    {sem : Int} {s s' : Sys β} {label : Label β}
    (nobody : ∀ tid, tid < s.kernel.tasks.nTasks →
      ¬ CompletesWait sem s label s' tid) :
    granted sem s label s' = [] := by
  apply List.filter_eq_nil_iff.mpr
  intro tid inside completes
  exact nobody tid (List.mem_range.mp inside) (of_decide_eq_true completes)

theorem granted_length_le_one
    {sem : Int} {s s' : Sys β} {label : Label β} (tid : Nat)
    (only : ∀ other, other < s.kernel.tasks.nTasks →
      CompletesWait sem s label s' other → other = tid) :
    (granted sem s label s').length ≤ 1 := by
  have distinct : (granted sem s label s').Nodup :=
    List.nodup_range.filter _
  have inside : granted sem s label s' ⊆ [tid] := by
    intro other member
    obtain ⟨created, completes⟩ := List.mem_filter.mp member
    rw [only other (List.mem_range.mp created) (of_decide_eq_true completes)]
    exact List.mem_singleton_self tid
  exact (distinct.subperm inside).length_le

/-- What a wait for a semaphore does: it takes the semaphore and goes on, or
blocks the running task. -/
theorem step_waitsSem
    {cfg : Config} {s s' : Sys β} {label : Label β} {sem : Int}
    (waits : label.WaitsSem sem)
    (steps : step cfg s label = .ok s') :
    (s'.kernel.tasks = s.kernel.tasks ∧
      (s'.kernel.sems.semList sem).value + 1 =
        (s.kernel.sems.semList sem).value) ∨
    (s'.kernel.sems = s.kernel.sems ∧ s'.kernel.runningTid = noTid ∧
      (s'.kernel.tasks.taskList s.kernel.runningTid).state = .waitingSem ∧
      ∀ other, other ≠ s.kernel.runningTid →
        s'.kernel.tasks.taskList other = s.kernel.tasks.taskList other) := by
  cases label with
  | task op line =>
      cases op with
      | semWait other =>
          have same : other = sem := waits
          subst same
          obtain ⟨_, takes⟩ := guard_eq_ok_iff.mp steps
          obtain ⟨inside, returns⟩ := guard_eq_ok_iff.mp takes
          obtain ⟨k', waited, rfl⟩ := map_eq_ok_iff.mp returns
          have some : 0 < cfg.nTotalSemaphores := by
            have := inside.1
            have := inside.2
            omega
          unfold Kernel.osWaitSem SemTable.osSemLargerThanZero at waited
          rw [if_pos some] at waited
          by_cases positive : 0 < (s.kernel.sems.semList other).value
          · left
            rw [if_pos (decide_eq_true positive)] at waited
            rw [← Except.ok.inj waited]
            refine ⟨rfl, ?_⟩
            simp only [SemTable.osSemDecrement, some, positive, and_self, if_true,
              Function.update_self]
            omega
          · right
            rw [if_neg (by simpa using positive), bind_eq_ok_iff] at waited
            obtain ⟨blocked, sets, yields⟩ := waited
            obtain ⟨_, rfl⟩ := onTasks_modify_cases sets
            have result : k' = s.kernel.blocked cfg (.sem other) line.toNat :=
              (Except.ok.inj yields).symm
            subst result
            refine ⟨rfl, rfl, ?_, fun tid different => ?_⟩
            · rw [Kernel.blocked_taskList, if_pos rfl]
              rfl
            · rw [Kernel.blocked_taskList, if_neg different]
      | _ => exact waits.elim
  | _ => exact waits.elim

theorem not_waitsSem_of_signals
    {label : Label β} {sem : Int} (other : Int)
    (signals : label.SignalsSem sem) : ¬ label.WaitsSem other := by
  cases label with
  | task op line =>
      cases op with
      | semSignal _ => exact id
      | _ => exact signals.elim
  | call call => exact id
  | _ => exact signals.elim

/-! ## One step -/

/-- A signal grants at most one wait, and counts up only when it grants
none. -/
theorem signal_balance
    {cfg : Config} {s s' : Sys β} {label : Label β} {sem : Int}
    (reachable : ReachableSys cfg s)
    (signals : label.SignalsSem sem)
    (steps : step cfg s label = .ok s') :
    (granted sem s label s').length + (s'.kernel.sems.semList sem).value ≤
      (s.kernel.sems.semList sem).value + 1 := by
  have effect := step_signalEffect reachable signals steps
  have notWait := not_waitsSem_of_signals sem signals
  -- a task that the signal leaves alone still waits
  have stillWaits : ∀ tid, s.kernel.Unchanged s'.kernel tid →
      ¬ CompletesWait sem s label s' tid := by
    rintro tid unchanged (⟨waits, _⟩ | ⟨waits, ready⟩)
    · exact notWait waits
    · rcases unchanged with same | ⟨_, _, line, same⟩ <;>
        rw [same] at ready <;>
        have state := waits.1.symm.trans ready <;> cases state
  by_cases waiting : s.kernel.tasks.SomeWaiter sem
  · obtain ⟨sems, tid, created, waits, released, _, others, _⟩ :=
      effect.released waiting
    have one : (granted sem s label s').length ≤ 1 := by
      apply granted_length_le_one tid
      intro other otherCreated completes
      by_contra different
      exact stillWaits other (others other otherCreated different) completes
    rw [sems]
    omega
  · have nobody : s'.kernel.tasks = s.kernel.tasks →
        granted sem s label s' = [] :=
      fun same => granted_eq_nil fun tid _ =>
        stillWaits tid (.inl (by rw [same]))
    by_cases below : (s.kernel.sems.semList sem).value <
        (s.kernel.sems.semList sem).maxValue
    · have counted := effect.counted waiting below
      rw [nobody (by rw [counted]), counted]
      simp
    · have same := effect.saturated waiting below
      rw [nobody (by rw [same]), same]
      simp

/-- A wait is granted to the running task at most, and then it counts down. -/
theorem wait_balance
    {cfg : Config} {s s' : Sys β} {label : Label β} {sem : Int}
    (within : s.kernel.tasks.nTasks < noTid)
    (waits : label.WaitsSem sem)
    (steps : step cfg s label = .ok s') :
    (granted sem s label s').length + (s'.kernel.sems.semList sem).value ≤
      (s.kernel.sems.semList sem).value := by
  rcases step_waitsSem waits steps with
    ⟨tasks, value⟩ | ⟨sems, yielded, blocked, others⟩
  · have one : (granted sem s label s').length ≤ 1 := by
      apply granted_length_le_one s.kernel.runningTid
      rintro other _ (⟨_, runs, _⟩ | ⟨still, ready⟩)
      · exact runs.symm
      · rw [tasks, still.1] at ready
        cases ready
    omega
  · have nobody : granted sem s label s' = [] := by
      refine granted_eq_nil fun tid created completes => ?_
      rcases completes with ⟨_, _, runs⟩ | ⟨still, ready⟩
      · rw [yielded] at runs
        omega
      · by_cases running : tid = s.kernel.runningTid
        · rw [running, blocked] at ready
          cases ready
        · rw [others tid running, still.1] at ready
          cases ready
    rw [nobody, sems]
    simp

/-- The task is not running, and it has not been released: it waits for the
semaphore, or it was killed, or suspended and not resumed in this step. -/
structure Unreleased (sem : Int) (label : Label β) (tid : Nat) (k : Kernel β) :
    Prop where
  notRunning : k.runningTid ≠ tid
  state : (k.tasks.taskList tid).WaitsForSem sem ∨
    (k.tasks.taskList tid).state = .killed ∨
    ((k.tasks.taskList tid).state = .suspended ∧ ¬ label.Resumes tid)

/-- No request both suspends and resumes a task. -/
theorem not_resumes_of_suspends
    {label : Label β} {tid : Nat} (suspends : label.Suspends tid) (other : Nat) :
    ¬ label.Resumes other := by
  cases label with
  | call call =>
      cases call with
      | osTaskSuspend asked => exact id
      | _ => exact suspends.elim
  | task op line =>
      cases op with
      | taskSuspend asked => exact id
      | _ => exact suspends.elim
  | _ => exact suspends.elim

theorem Unreleased.of_micro
    {cfg : Config} {s : Sys β} {label : Label β} {k k' : Kernel β} {act : Act β}
    {sem : Int} {tid : Nat}
    (unreleased : Unreleased sem label tid k)
    (created : tid < k.tasks.nTasks)
    (small : tid < noTid)
    (quiet : ¬ label.SignalsSem sem)
    (allowed : act.Allowed cfg s label)
    (acts : Micro cfg k act k') :
    Unreleased sem label tid k' := by
  obtain ⟨notRunning, state⟩ := unreleased
  have notBlocked : ¬ act.Blocks tid := by
    intro blocks
    cases acts with
    | block => exact notRunning blocks
    | _ => exact blocks
  have notReady : (k.tasks.taskList tid).state ≠ .ready := by
    rcases state with waits | killed | ⟨suspended, _⟩
    · rw [waits.1]
      decide
    · rw [killed]
      decide
    · rw [suspended]
      decide
  refine ⟨?_, ?_⟩
  · rw [acts.runningTid]
    cases acts with
    | select idle selects inside =>
        intro same
        have chosen : k'.runningTid = tid := same
        have ready := Kernel.selectTask_ready selects (by omega)
        rw [chosen] at ready
        exact notReady ready
    | free | yield | block => exact (Nat.ne_of_lt small).symm
    | _ => exact notRunning
  · rcases state with waits | killed | ⟨suspended, notResumed⟩
    · have still := waits.1
      rw [acts.taskList created]
      cases acts with
      | yield line =>
          left
          simp only [Act.onTask]
          split_ifs <;> exact waits
      | block wait line inside enabled =>
          simp only [Act.onTask]
          rw [if_neg fun same => notRunning same.symm]
          exact .inl waits
      | note noted =>
          simp only [Act.onTask]
          rw [if_neg fun same => notRunning same.symm]
          exact .inl waits
      | suspend inside =>
          simp only [Act.onTask]
          split_ifs with same
          · refine .inr (.inr ⟨?_, not_resumes_of_suspends allowed tid⟩)
            simp [Tcb.suspend, still]
          · exact .inl waits
      | resume inside =>
          simp only [Act.onTask]
          split_ifs
          · left
            simpa [Tcb.resume, still] using waits
          · exact .inl waits
      | kill inside =>
          simp only [Act.onTask]
          split_ifs
          · exact .inr (.inl rfl)
          · exact .inl waits
      | tick other clockId tickSize inside =>
          left
          simp only [Act.onTask]
          split_ifs
          · simpa [Tcb.tick, Tcb.WaitsForSem, still] using waits.2
          · exact waits
      | signal events fits =>
          simp only [Act.onTask]
          rw [Tcb.signalEvent_of_not]
          · exact .inl waits
          · rintro ⟨_, wrong | wrong⟩ <;> rw [still] at wrong <;> cases wrong
      | @release other otherSem inside others found =>
          simp only [Act.onTask]
          split_ifs with same
          · subst same
            have sameSem : otherSem = sem := others.2.symm.trans waits.2
            exact absurd (sameSem ▸ allowed) quiet
          · exact .inl waits
      | _ => exact .inl waits
    · exact .inr (.inl (acts.killed created notBlocked killed))
    · by_cases kills : act = .kill tid
      · subst kills
        right; left
        rw [acts.taskList created]
        simp only [Act.onTask, if_true]
        rfl
      · refine .inr (.inr ⟨acts.suspended created notBlocked ?_ kills suspended,
          notResumed⟩)
        rintro rfl
        exact notResumed allowed

theorem Unreleased.of_trace
    {cfg : Config} {s : Sys β} {label : Label β} {k k' : Kernel β}
    {acts : List (Act β)} {sem : Int} {tid : Nat}
    (trace : Trace (Micro cfg) k acts k')
    (created : tid < k.tasks.nTasks)
    (small : tid < noTid)
    (quiet : ¬ label.SignalsSem sem)
    (allowed : ∀ act ∈ acts, act.Allowed cfg s label)
    (unreleased : Unreleased sem label tid k) :
    Unreleased sem label tid k' := by
  have both := trace.invariant (fun act => act.Allowed cfg s label)
    (fun k => tid < k.tasks.nTasks ∧ Unreleased sem label tid k)
    (fun _ _ _ may holds acts => ⟨holds.1.trans_le acts.nTasks_le,
      holds.2.of_micro holds.1 small quiet may acts⟩)
    allowed ⟨created, unreleased⟩
  exact both.2

/-- A decrement leaves the counters of other semaphores alone. -/
theorem SemTable.osSemDecrement_semList_of_ne
    {cfg : Config} {sems : SemTable} {sem other : Int}
    (different : other ≠ sem) :
    (sems.osSemDecrement cfg sem).semList other = sems.semList other := by
  unfold osSemDecrement
  split_ifs
  · exact Function.update_of_ne different _ _
  · rfl

/-- An increment leaves the counters of other semaphores alone. -/
theorem SemTable.osSemIncrement_semList_of_ne
    {cfg : Config} {sems : SemTable} {sem other : Int}
    (different : other ≠ sem) :
    (sems.osSemIncrement cfg sem).semList other = sems.semList other := by
  unfold osSemIncrement
  split_ifs
  · exact Function.update_of_ne different _ _
  · rfl

/-- An action leaves the counter of a semaphore alone that it neither counts nor
creates. -/
theorem Micro.semList
    {cfg : Config} {k k' : Kernel β} {act : Act β} {sem : Int}
    (acts : Micro cfg k act k')
    (notDecrement : act ≠ .decrement sem)
    (notIncrement : act ≠ .increment sem)
    (notCreate : act.Quiet) :
    k'.sems.semList sem = k.sems.semList sem := by
  rcases acts.sems_cases with
    same | ⟨other, rfl, same⟩ | ⟨other, rfl, same⟩ | ⟨creation, rfl, _⟩
  · rw [same]
  · rw [same]
    apply SemTable.osSemDecrement_semList_of_ne
    rintro rfl
    exact notDecrement rfl
  · rw [same]
    apply SemTable.osSemIncrement_semList_of_ne
    rintro rfl
    exact notIncrement rfl
  · exact notCreate.elim

/-- A creation leaves the counters of other semaphores alone. -/
theorem creationStep_semList
    {cfg : Config} {s : Sys β} {k' : Kernel β} {creation : Creation β} {sem : Int}
    (notCreate : (Label.create creation).createsSem s sem = none)
    (creates : creationStep cfg s.kernel creation = .ok k') :
    k'.sems.semList sem = s.kernel.sems.semList sem := by
  rcases creationStep_sems creates with
    ⟨_, same⟩ | ⟨counter, id, value, made, _⟩
  · rw [same]
  · rcases SemTable.osSemCreate_cases made with ⟨_, same⟩ | ⟨_, same⟩
    · rw [same]
    · have different : sem ≠ s.kernel.sems.nSemaphores := by
        rintro rfl
        simp [Label.createsSem, value] at notCreate
      rw [same]
      exact Function.update_of_ne different _ _

/-- A step that neither waits for, signals nor creates a semaphore leaves its
counter alone. -/
theorem step_semList
    {cfg : Config} {s s' : Sys β} {label : Label β} {sem : Int}
    (sound : s.kernel.Sound cfg)
    (notWait : ¬ label.WaitsSem sem)
    (notSignal : ¬ label.SignalsSem sem)
    (notCreate : label.createsSem s sem = none)
    (steps : step cfg s label = .ok s') :
    s'.kernel.sems.semList sem = s.kernel.sems.semList sem := by
  by_cases creates : ∃ creation, label = .create creation
  · obtain ⟨creation, rfl⟩ := creates
    obtain ⟨k', made, rfl⟩ := map_eq_ok_iff.mp steps
    exact creationStep_semList notCreate made
  · obtain ⟨acts, shape, trace⟩ := step_trace sound steps
    refine trace.invariant (fun act => act.Allowed cfg s label)
      (fun k => k.sems.semList sem = s.kernel.sems.semList sem)
      (fun k act k' may holds acts => ?_) shape.allowed rfl
    rw [← holds]
    apply acts.semList
    · rintro rfl
      obtain ⟨line, rfl⟩ := may
      exact notWait rfl
    · rintro rfl
      exact notSignal may
    · cases act with
      | create creation => exact absurd ⟨creation, may⟩ creates
      | _ => trivial

/-- A step that neither waits for nor signals a semaphore grants nothing, and
leaves its counter alone unless it creates the semaphore. -/
theorem quiet_balance
    {cfg : Config} {s s' : Sys β} {label : Label β} {sem : Int}
    (reachable : ReachableSys cfg s)
    (notWait : ¬ label.WaitsSem sem)
    (notSignal : ¬ label.SignalsSem sem)
    (notCreate : label.createsSem s sem = none)
    (steps : step cfg s label = .ok s') :
    (granted sem s label s').length + (s'.kernel.sems.semList sem).value ≤
      (s.kernel.sems.semList sem).value := by
  have sound := reachable_sound reachable
  obtain ⟨acts, shape, trace⟩ := step_trace sound steps
  have allowed := shape.allowed
  have nobody : granted sem s label s' = [] := by
    refine granted_eq_nil fun tid created completes => ?_
    rcases completes with ⟨waits, _⟩ | ⟨waits, ready⟩
    · exact notWait waits
    · have small : tid < noTid := created.trans sound.nTasks_lt
      have notRunning : s.kernel.runningTid ≠ tid := by
        rintro rfl
        obtain ⟨_, idle⟩ :=
          (reachable_tasksSound reachable).runs (Nat.ne_of_lt small)
        rcases idle.state_cases with state | state | ⟨state, _⟩ <;>
          rw [waits.1] at state <;> cases state
      have after := Unreleased.of_trace trace created small notSignal allowed
        ⟨notRunning, .inl waits⟩
      rcases after.state with still | killed | ⟨suspended, _⟩
      · rw [still.1] at ready
        cases ready
      · rw [killed] at ready
        cases ready
      · rw [suspended] at ready
        cases ready
  rw [nobody, step_semList sound notWait notSignal notCreate steps]
  simp

/-- What a step grants comes from the counter and the signal of the step. -/
theorem step_balance
    {cfg : Config} {s s' : Sys β} {label : Label β} {sem : Int}
    (reachable : ReachableSys cfg s)
    (notCreate : label.createsSem s sem = none)
    (steps : step cfg s label = .ok s') :
    (granted sem s label s').length + (s'.kernel.sems.semList sem).value ≤
      (s.kernel.sems.semList sem).value +
        if label.SignalsSem sem then 1 else 0 := by
  by_cases signals : label.SignalsSem sem
  · rw [if_pos signals]
    exact signal_balance reachable signals steps
  · rw [if_neg signals, Nat.add_zero]
    by_cases waits : label.WaitsSem sem
    · exact wait_balance (reachable_sound reachable).nTasks_lt waits steps
    · exact quiet_balance reachable waits signals notCreate steps

/-! ## Who waits at a counter -/

/-- Tasks wait for the semaphore only after its creation and while its counter
is zero. -/
def Kernel.WaitsAtZero (cfg : Config) (sem : Int) (k : Kernel β) : Prop :=
  k.tasks.SomeWaiter sem →
    k.sems.Created cfg sem ∧ (k.sems.semList sem).value = 0

@[simp] theorem SemTable.osSemDecrement_nSemaphores
    (cfg : Config) (sems : SemTable) (sem : Int) :
    (sems.osSemDecrement cfg sem).nSemaphores = sems.nSemaphores := by
  unfold osSemDecrement
  split_ifs <;> rfl

@[simp] theorem SemTable.osSemIncrement_nSemaphores
    (cfg : Config) (sems : SemTable) (sem : Int) :
    (sems.osSemIncrement cfg sem).nSemaphores = sems.nSemaphores := by
  unfold osSemIncrement
  split_ifs <;> rfl

/-- A created semaphore stays created, and no creation touches its counter. -/
theorem SemTable.Created.of_micro
    {cfg : Config} {k k' : Kernel β} {act : Act β} {sem : Int}
    (few : cfg.nTotalSemaphores ≤ 255)
    (created : k.sems.Created cfg sem)
    (acts : Micro cfg k act k') :
    k'.sems.Created cfg sem ∧
      (¬ act.Quiet → k'.sems.semList sem = k.sems.semList sem) := by
  obtain ⟨some, nonneg, below⟩ := created
  rcases acts.sems_cases with
    same | ⟨other, rfl, same⟩ | ⟨other, rfl, same⟩ | ⟨creation, rfl, creates⟩
  · rw [same]
    exact ⟨⟨some, nonneg, below⟩, fun _ => rfl⟩
  · refine ⟨⟨some, nonneg, ?_⟩, fun loud => absurd trivial loud⟩
    rwa [same, osSemDecrement_nSemaphores]
  · refine ⟨⟨some, nonneg, ?_⟩, fun loud => absurd trivial loud⟩
    rwa [same, osSemIncrement_nSemaphores]
  · rcases creationStep_sems creates with
      ⟨_, same⟩ | ⟨counter, id, _, made, _⟩
    · rw [same]
      exact ⟨⟨some, nonneg, below⟩, fun _ => rfl⟩
    · rcases SemTable.osSemCreate_cases made with ⟨_, same⟩ | ⟨room, same⟩
      · rw [same]
        exact ⟨⟨some, nonneg, below⟩, fun _ => rfl⟩
      · have next : (k.sems.nSemaphores + 1) % 256 = k.sems.nSemaphores + 1 :=
          Nat.mod_eq_of_lt (by omega)
        rw [same, next]
        refine ⟨⟨some, nonneg, ?_⟩, fun _ => ?_⟩
        · dsimp only
          omega
        · exact Function.update_of_ne (ne_of_lt below) _ _

/-- A counter at zero stays there while nothing signals it. -/
theorem Micro.keeps_zero
    {cfg : Config} {k k' : Kernel β} {act : Act β} {sem : Int}
    (few : cfg.nTotalSemaphores ≤ 255)
    (acts : Micro cfg k act k')
    (notIncrement : act ≠ .increment sem)
    (created : k.sems.Created cfg sem)
    (zero : (k.sems.semList sem).value = 0) :
    k'.sems.Created cfg sem ∧ (k'.sems.semList sem).value = 0 := by
  obtain ⟨still, loud⟩ := created.of_micro few acts
  refine ⟨still, ?_⟩
  by_cases quiet : act.Quiet
  · by_cases decrements : act = .decrement sem
    · subst decrements
      cases acts with
      | decrement positive =>
          simp [SemTable.osSemLargerThanZero, zero] at positive
    · rwa [acts.semList decrements notIncrement quiet]
  · rwa [loud quiet]

/-- A task that starts to wait for a created semaphore does so at zero. -/
theorem Kernel.WaitsAtZero.of_micro
    {cfg : Config} {k k' : Kernel β} {act : Act β} {sem : Int}
    (few : cfg.nTotalSemaphores ≤ 255)
    (tasks : k.TasksSound cfg)
    (atZero : k.WaitsAtZero cfg sem)
    (acts : Micro cfg k act k')
    (blocks : ∀ tid line, act = .block tid (.sem sem) line →
      k.sems.Created cfg sem) :
    k'.WaitsAtZero cfg sem := by
  rintro ⟨tid, created', waits⟩
  by_cases created : tid < k.tasks.nTasks
  · rcases acts.waitsForSem tasks created waits with before | ⟨line, rfl⟩
    · have waiting : k.tasks.SomeWaiter sem := ⟨tid, created, before⟩
      obtain ⟨known, zero⟩ := atZero waiting
      refine acts.keeps_zero few ?_ known zero
      rintro rfl
      cases acts with
      | increment noWaiter => exact noWaiter waiting
    · obtain ⟨_, _, enabled, rfl⟩ := acts.of_block
      have known := blocks tid line rfl
      have notLarger : k.sems.osSemLargerThanZero cfg sem = false := enabled
      have zero : (k.sems.semList sem).value = 0 := by
        simpa [SemTable.osSemLargerThanZero, known.1] using notLarger
      exact ⟨known, zero⟩
  · have ready := acts.ready_of_new (Nat.not_lt.mp created) created'
    rw [waits.1] at ready
    cases ready

theorem not_sem_signalActs (cfg : Config) (event actor tid line : Nat) (sem : Int) :
    Act.block tid (.sem sem) line ∉
      Kernel.signalActs (β := β) cfg event actor := by
  unfold Kernel.signalActs
  split_ifs <;> simp

theorem not_sem_waitEventActs
    (cfg : Config) (k : Kernel β) (event : Nat) {wait : Wait}
    (line tid yieldLine : Nat)
    {sem : Int} (other : wait ≠ .sem sem) :
    Act.block tid (.sem sem) yieldLine ∉
      k.waitEventActs cfg event wait line := by
  unfold Kernel.waitEventActs
  split_ifs <;> simp [other.symm]

/-- The message macros do not block on semaphores. -/
theorem Kernel.PostActs.not_sem
    {cfg : Config} {k : Kernel β} {queue delay period event line : Nat}
    {msg : Msg β} {async blocked : Bool} {acts : List (Act β)}
    (turn : PostActs cfg k queue delay period msg async event line blocked acts)
    (tid yieldLine : Nat) (sem : Int) :
    .block tid (.sem sem) yieldLine ∉ acts := by
  cases turn with
  | blocked sync full =>
      have later := not_sem_waitEventActs cfg k event line tid yieldLine
        (show Wait.room queue event ≠ .sem sem by simp)
      simpa using later
  | posted room => simpa using not_sem_signalActs cfg event _ tid yieldLine sem
  | refused notBlocked => simp

theorem Kernel.ReceiveActs.not_sem
    {cfg : Config} {k : Kernel β} {queue event line : Nat}
    {async blocked : Bool} {acts : List (Act β)}
    (turn : ReceiveActs cfg k queue async event line blocked acts)
    (tid yieldLine : Nat) (sem : Int) :
    .block tid (.sem sem) yieldLine ∉ acts := by
  cases turn with
  | blocked sync nothing =>
      have later := not_sem_waitEventActs cfg k event line tid yieldLine
        (show Wait.message queue event ≠ .sem sem by simp)
      simpa using later
  | received msg some => simpa using not_sem_signalActs cfg event _ tid yieldLine sem
  | nothing notBlocked => simp

/-- Only a wait for the semaphore blocks on it. -/
theorem StepActs.waitsSem_of_block
    {cfg : Config} {s : Sys β} {label : Label β} {acts : List (Act β)}
    {frame : Nat → Frame β} {tid yieldLine : Nat} {sem : Int}
    (shape : StepActs cfg s label acts frame)
    (inside : .block tid (.sem sem) yieldLine ∈ acts) :
    label.WaitsSem sem := by
  cases shape with
  | create | osStart | sleep => simp at inside
  | osSchedule idle selects runs created resumes =>
      have later := (List.mem_cons.mp inside).resolve_left (by simp)
      cases resumes with
      | begin | between => simp at later
      | post goesOn here full turn => exact (turn.not_sem _ _ _ later).elim
      | receive goesOn here empty turn => exact (turn.not_sem _ _ _ later).elim
      | done goesOn wasPost wasReceive =>
          split_ifs at later
          · exact (not_sem_signalActs _ _ _ _ _ _ later).elim
          · simp at later
  | call calls => exact absurd trivial (calls.steady _ inside)
  | task runs takes =>
      cases takes with
      | taskWaitId | semWaitTake | taskClose => simp at inside
      | taskSuspend | taskResume =>
          unfold Kernel.selfYieldActs at inside
          split_ifs at inside <;> simp at inside
      | eventWaitTimeout event timeout =>
          exact absurd inside (not_sem_waitEventActs _ _ _ _ _ _ (by simp))
      | eventWaitMultiple | eventWaitMultipleNone => simp at inside
      | eventSignal event =>
          have signals := (List.mem_append.mp inside).resolve_right (by simp)
          exact (not_sem_signalActs _ _ _ _ _ _ signals).elim
      | semWaitBlock inTable zero =>
          simp only [List.mem_singleton, Act.block.injEq, Wait.sem.injEq]
            at inside
          exact inside.2.1.symm
      | semSignal inTable =>
          unfold Kernel.semSignalYieldActs Kernel.semSignalActs at inside
          split_ifs at inside <;> simp at inside
      | msgPost turn =>
          have later := (List.mem_cons.mp inside).resolve_left (by
            simp [Kernel.waitQueueAct])
          exact (turn.not_sem _ _ _ later).elim
      | msgReceive buffer turn =>
          have later := (List.mem_cons.mp inside).resolve_left (by
            simp [Kernel.waitQueueAct])
          exact (turn.not_sem _ _ _ later).elim

theorem step_waitsAtZero
    {cfg : Config} {s s' : Sys β} {label : Label β} {sem : Int}
    (few : cfg.nTotalSemaphores ≤ 255)
    (reachable : ReachableSys cfg s)
    (waits : label.WaitsSem sem → s.kernel.sems.Created cfg sem)
    (atZero : s.kernel.WaitsAtZero cfg sem)
    (steps : step cfg s label = .ok s') :
    s'.kernel.WaitsAtZero cfg sem := by
  obtain ⟨acts, shape, trace⟩ := step_trace (reachable_sound reachable) steps
  have known : ∀ act ∈ acts, ∀ tid line, act = .block tid (.sem sem) line →
      s.kernel.sems.Created cfg sem := by
    rintro act inside tid line rfl
    exact waits (shape.waitsSem_of_block inside)
  -- what is created when the step begins is created at each of its actions
  have every := trace.invariant
    (fun act => ∀ tid line, act = .block tid (.sem sem) line →
      s.kernel.sems.Created cfg sem)
    (fun k => k.Sound cfg ∧ k.TasksSound cfg ∧
      (s.kernel.sems.Created cfg sem → k.sems.Created cfg sem) ∧
      k.WaitsAtZero cfg sem)
    (fun k act k' may ⟨sound, tasks, created, holds⟩ acts =>
      ⟨sound.of_micro acts, tasks.of_micro sound acts,
        fun before => ((created before).of_micro few acts).1,
        holds.of_micro few tasks acts fun tid line blocks =>
          created (may tid line blocks)⟩)
    known
    ⟨reachable_sound reachable, reachable_tasksSound reachable, id, atZero⟩
  exact every.2.2.2

/-! ## Runs -/

/-- The step waits for the semaphore only after its creation. -/
def WaitsForCreated (cfg : Config) (sem : Int) (state : Ledger × Sys β)
    (label : Label β) : Prop :=
  label.WaitsSem sem → state.2.kernel.sems.Created cfg sem

/-- The step signals the semaphore only when the running task has completed a
wait it has not given back. -/
def SignalledByHolder (sem : Int) (state : Ledger × Sys β) (label : Label β) :
    Prop :=
  label.SignalsSem sem →
    ∃ tid ∈ state.1.holders, label.signaller state.2 sem = some tid

section

variable {cfg : Config} {sem : Int} {label : Label β}
variable {start state state' : Ledger × Sys β}

theorem ledgerStep_eq_ok_iff :
    ledgerStep cfg sem state label = .ok state' ↔
      step cfg state.2 label = .ok state'.2 ∧
        state'.1 = state.1.next sem state.2 label state'.2 := by
  unfold ledgerStep
  rw [map_eq_ok_iff]
  constructor
  · rintro ⟨s', steps, rfl⟩
    exact ⟨steps, rfl⟩
  · rintro ⟨steps, account⟩
    exact ⟨state'.2, steps, by rw [← account]⟩

/-- What a step that creates the semaphore leaves in its counter. -/
theorem step_createsSem
    {s s' : Sys β} {counter : SemValue}
    (some : 0 < cfg.nTotalSemaphores)
    (creates : label.createsSem s sem = Option.some counter)
    (steps : step cfg s label = .ok s') :
    (s'.kernel.sems.semList sem).value = counter.value := by
  cases label with
  | create creation =>
      obtain ⟨k', made, rfl⟩ := map_eq_ok_iff.mp steps
      simp only [Label.createsSem] at creates
      split_ifs at creates with next
      subst next
      rcases creationStep_sems made with
        ⟨none, _⟩ | ⟨counter', id, value, returns, _⟩
      · rw [creates] at none
        cases none
      · rw [creates, Option.some.injEq] at value
        subst value
        rcases SemTable.osSemCreate_cases returns with ⟨wrong, _⟩ | ⟨_, same⟩
        · omega
        · simp only [same, Function.update_self]
  | _ => cases creates

/-- A semaphore that is created after a step was created before, or in the
step. -/
theorem created_of_step
    {s s' : Sys β}
    (reachable : ReachableSys cfg s)
    (notCreate : label.createsSem s sem = none)
    (steps : step cfg s label = .ok s')
    (created : s'.kernel.sems.Created cfg sem) :
    s.kernel.sems.Created cfg sem := by
  obtain ⟨some, nonneg, below⟩ := created
  refine ⟨some, nonneg, ?_⟩
  obtain ⟨acts, shape, trace⟩ := step_trace (reachable_sound reachable) steps
  by_cases creates : ∃ creation, label = .create creation
  · obtain ⟨creation, rfl⟩ := creates
    obtain ⟨k', made, rfl⟩ := map_eq_ok_iff.mp steps
    dsimp only at below
    rcases creationStep_sems made with
      ⟨_, same⟩ | ⟨counter, id, value, returns, _⟩
    · rwa [same] at below
    · rcases SemTable.osSemCreate_cases returns with ⟨wrong, _⟩ | ⟨_, same⟩
      · omega
      · have different : sem ≠ s.kernel.sems.nSemaphores := by
          rintro rfl
          simp [Label.createsSem, value] at notCreate
        have atMost : (s.kernel.sems.nSemaphores + 1) % 256 ≤
            s.kernel.sems.nSemaphores + 1 := Nat.mod_le _ _
        rw [same] at below
        dsimp only at below
        omega
  · have same : s'.kernel.sems.nSemaphores = s.kernel.sems.nSemaphores := by
      refine trace.invariant (fun act => act.Allowed cfg s label)
        (fun k => k.sems.nSemaphores = s.kernel.sems.nSemaphores)
        (fun k act k' may holds acts => ?_) shape.allowed rfl
      rw [← holds]
      rcases acts.sems_cases with
        same | ⟨other, _, same⟩ | ⟨other, _, same⟩ | ⟨creation, rfl, _⟩
      · rw [same]
      · rw [same, SemTable.osSemDecrement_nSemaphores]
      · rw [same, SemTable.osSemIncrement_nSemaphores]
      · exact absurd ⟨creation, may⟩ creates
    rwa [same] at below

/-- The account covers the counter in every state of a run. -/
theorem ledger_covers
    {labels : List (Label β)}
    (reachable : ReachableSys cfg start.2)
    (account : ¬ start.2.kernel.sems.Created cfg sem)
    (runs : run (ledgerStep cfg sem) start labels = .ok state) :
    ReachableSys cfg state.2 ∧
    (state.2.kernel.sems.Created cfg sem →
      state.1.completed + (state.2.kernel.sems.semList sem).value ≤
        state.1.initial + state.1.signals) := by
  refine run_invariant
    (fun state : Ledger × Sys β => ReachableSys cfg state.2 ∧
      (state.2.kernel.sems.Created cfg sem →
        state.1.completed + (state.2.kernel.sems.semList sem).value ≤
          state.1.initial + state.1.signals))
    ?_ ⟨reachable, fun created => absurd created account⟩ runs
  rintro ⟨ledger, s⟩ label ⟨ledger', s'⟩ ⟨here, covers⟩ both
  obtain ⟨steps, next⟩ := ledgerStep_eq_ok_iff.mp both
  dsimp only at steps next here covers ⊢
  refine ⟨here.step steps, fun created => ?_⟩
  cases creates : label.createsSem s sem with
  | some counter =>
      have value := step_createsSem created.1 creates steps
      rw [next, Ledger.next, creates, value]
      simp [Ledger.opened]
  | none =>
      have before := covers (created_of_step here creates steps created)
      have balance := step_balance here creates steps
      rw [next, Ledger.next, creates]
      dsimp only
      omega

/-- Every signal given by a holder takes one holder off the account. -/
theorem ledger_holders
    {labels : List (Label β)}
    (account : start.1.holders.length + start.1.signals = start.1.completed)
    (held : Meets (ledgerStep cfg sem) (SignalledByHolder sem) start labels)
    (runs : run (ledgerStep cfg sem) start labels = .ok state) :
    state.1.holders.length + state.1.signals = state.1.completed := by
  refine held.run_invariant
    (fun state : Ledger × Sys β =>
      state.1.holders.length + state.1.signals = state.1.completed)
    ?_ account runs
  rintro ⟨ledger, s⟩ label ⟨ledger', s'⟩ counts byHolder both
  obtain ⟨steps, next⟩ := ledgerStep_eq_ok_iff.mp both
  dsimp only at steps next counts ⊢
  cases creates : label.createsSem s sem with
  | some counter =>
      rw [next, Ledger.next, creates]
      rfl
  | none =>
      rw [next, Ledger.next, creates]
      dsimp only
      by_cases signals : label.SignalsSem sem
      · obtain ⟨tid, holds, signaller⟩ := byHolder signals
        dsimp only at holds
        rw [signaller, if_pos signals, List.length_append]
        dsimp only
        have erased := List.length_erase_of_mem holds
        have positive := List.length_pos_of_mem holds
        omega
      · have nobody : label.signaller s sem = none := by
          cases label with
          | task op line =>
              cases op with
              | semSignal other =>
                  have different : ¬ other = sem := signals
                  simp [Label.signaller, different]
              | _ => rfl
          | _ => rfl
        rw [nobody, if_neg signals, List.length_append]
        dsimp only
        omega

theorem ledger_waitsAtZero
    {labels : List (Label β)}
    (few : cfg.nTotalSemaphores ≤ 255)
    (reachable : ReachableSys cfg start.2)
    (atZero : start.2.kernel.WaitsAtZero cfg sem)
    (waits : Meets (ledgerStep cfg sem) (WaitsForCreated cfg sem) start labels)
    (runs : run (ledgerStep cfg sem) start labels = .ok state) :
    state.2.kernel.WaitsAtZero cfg sem := by
  have both := waits.run_invariant
    (fun state : Ledger × Sys β => ReachableSys cfg state.2 ∧
      state.2.kernel.WaitsAtZero cfg sem)
    (fun state label state' ⟨here, holds⟩ created steps =>
      ⟨here.step (ledgerStep_eq_ok_iff.mp steps).1,
        step_waitsAtZero few here created holds
          (ledgerStep_eq_ok_iff.mp steps).1⟩)
    ⟨reachable, atZero⟩ runs
  exact both.2

/-- A semaphore never grants more than it had and was signalled; a counter
above zero means that nobody waits; and a semaphore that started with at most
one, and is signalled by its holders alone, has at most one holder. -/
theorem semaphore_never_over_grants
    {s₀ s : Sys β} {labels : List (Label β)} {ledger : Ledger}
    (few : cfg.nTotalSemaphores ≤ 255)
    (initial : Initial cfg s₀)
    (runs : run (ledgerStep cfg sem) (.opened 0, s₀) labels = .ok (ledger, s))
    (created : s.kernel.sems.Created cfg sem) :
    ledger.completed + (s.kernel.sems.semList sem).value ≤
        ledger.initial + ledger.signals ∧
    (Meets (ledgerStep cfg sem) (WaitsForCreated cfg sem) (.opened 0, s₀)
        labels →
      0 < (s.kernel.sems.semList sem).value →
      ¬ s.kernel.tasks.SomeWaiter sem) ∧
    (ledger.initial ≤ 1 →
      Meets (ledgerStep cfg sem) (SignalledByHolder sem) (.opened 0, s₀)
        labels →
      ∀ tid ∈ ledger.holders, ∀ other ∈ ledger.holders, tid = other) := by
  have reachable : ReachableSys cfg s₀ := .of_initial initial
  have fresh : ¬ s₀.kernel.sems.Created cfg sem := by
    rintro ⟨some, nonneg, below⟩
    obtain ⟨k, sameKernel⟩ := initial.1
    simp only [sameKernel, Kernel.osInit, SemTable.osSemInit, if_pos some]
      at below
    omega
  have covers := (ledger_covers reachable fresh runs).2 created
  dsimp only at covers
  refine ⟨covers, fun waits positive waiting => ?_, fun single held => ?_⟩
  · have atZero : s₀.kernel.WaitsAtZero cfg sem := by
      rintro ⟨tid, createdTask, _⟩
      obtain ⟨k, sameKernel⟩ := initial.1
      rw [sameKernel] at createdTask
      exact absurd createdTask (Nat.not_lt_zero tid)
    have zero := (ledger_waitsAtZero few reachable atZero waits runs waiting).2
    dsimp only at zero
    omega
  · have counts := ledger_holders rfl held runs
    dsimp only at counts
    have one : ledger.holders.length ≤ 1 := by omega
    intro tid holds other otherHolds
    cases split : ledger.holders with
    | nil => simp [split] at holds
    | cons holder rest =>
        rw [split, List.length_cons] at one
        have none : rest = [] := List.eq_nil_of_length_eq_zero (by omega)
        simp only [split, none, List.mem_singleton] at holds otherHolds
        rw [holds, otherHolds]

end

/-- A task takes a binary semaphore, and a second task waits for it. -/
theorem semaphore_never_over_grants_setUp :
    ∃ ledger s,
      run (ledgerStep (Config.small false) 0)
          (.opened 0, Sys.boot (Config.small false))
          (setUp 1 2 3 ++ [.osSchedule, .task (.semWait 0) 5,
            .task (.taskWaitId 0 9) 6, .osSchedule, .task (.semWait 0) 7]) =
        .ok (ledger, s) ∧
      ledger.holders = [0] ∧
      ledger.completed + (s.kernel.sems.semList 0).value ≤
        ledger.initial + ledger.signals ∧
      ∀ tid ∈ ledger.holders, ∀ other ∈ ledger.holders, tid = other := by
  obtain ⟨⟨ledger, s⟩, runs, checked⟩ := exists_of_returnsWith
    (fun state : Ledger × Sys Nat =>
      decide (state.2.kernel.sems.Created (Config.small false) 0 ∧
        state.1.initial ≤ 1 ∧ state.1.holders = [0]))
    (run (ledgerStep (Config.small false) 0)
      (.opened 0, Sys.boot (Config.small false))
      (setUp 1 2 3 ++ [.osSchedule, .task (.semWait 0) 5,
        .task (.taskWaitId 0 9) 6, .osSchedule, .task (.semWait 0) 7]))
    (by decide +kernel)
  obtain ⟨created, single, holders⟩ := of_decide_eq_true checked
  have held : Meets (ledgerStep (Config.small false) 0) (SignalledByHolder 0)
      (.opened 0, Sys.boot (Config.small false))
      (setUp 1 2 3 ++ [.osSchedule, .task (.semWait 0) 5,
        .task (.taskWaitId 0 9) 6, .osSchedule, .task (.semWait 0) 7]) := by
    apply Meets.of_forall
    intro label inside state signals
    simp only [setUp, List.cons_append, List.nil_append, List.mem_cons,
      List.not_mem_nil, or_false] at inside
    rcases inside with rfl | rfl | rfl | rfl | rfl | rfl | rfl | rfl | rfl |
      rfl | rfl <;> exact signals.elim
  obtain ⟨covers, _, unique⟩ := semaphore_never_over_grants (by decide)
    ⟨⟨_, rfl⟩, rfl⟩ runs created
  exact ⟨ledger, s, runs, holders, covers, unique single held⟩

/-- A task that waits for a semaphore before its creation still waits beside the
value it is created with.  And a task that took a binary semaphore and signals
it twice can take it once more beside the task that the first signal
released. -/
theorem waiter_beside_value_and_two_holders :
    (∃ ledger s,
      run (ledgerStep (Config.small false) 0)
          (.opened 0, Sys.boot (Config.small false))
          [.create (.osTaskCreate 1 0 1 (fun _ => ⟨0, 0, 0, 0⟩) 0 0),
            .create (.osTaskCreate 1 0 2 (fun _ => ⟨0, 0, 0, 0⟩) 0 0),
            .osStart, .osSchedule, .task (.semWait 0) 5, .osSchedule,
            .create (.semBinCreate true)] = .ok (ledger, s) ∧
      s.kernel.sems.Created (Config.small false) 0 ∧
      (s.kernel.sems.semList 0).value = 1 ∧
      (s.kernel.tasks.taskList 0).WaitsForSem 0) ∧
    ∃ ledger s,
      run (ledgerStep (Config.small false) 0)
          (.opened 0, Sys.boot (Config.small false))
          (setUp 1 2 3 ++ [.osSchedule, .task (.semWait 0) 5,
            .task (.taskWaitId 0 1) 6, .osSchedule, .task (.semWait 0) 7,
            .call .osTick, .osSchedule, .task (.semSignal 0) 8, .osSchedule,
            .task (.semSignal 0) 9, .task (.semWait 0) 10]) =
        .ok (ledger, s) ∧
      ledger.initial = 1 ∧ ledger.holders = [0, 1] := by
  constructor
  · obtain ⟨⟨ledger, s⟩, runs, checked⟩ := exists_of_returnsWith
      (fun state : Ledger × Sys Nat =>
        decide (state.2.kernel.sems.Created (Config.small false) 0 ∧
          (state.2.kernel.sems.semList 0).value = 1 ∧
          (state.2.kernel.tasks.taskList 0).WaitsForSem 0))
      (run (ledgerStep (Config.small false) 0)
        (.opened 0, Sys.boot (Config.small false))
        [.create (.osTaskCreate 1 0 1 (fun _ => ⟨0, 0, 0, 0⟩) 0 0),
          .create (.osTaskCreate 1 0 2 (fun _ => ⟨0, 0, 0, 0⟩) 0 0),
          .osStart, .osSchedule, .task (.semWait 0) 5, .osSchedule,
          .create (.semBinCreate true)])
      (by decide +kernel)
    exact ⟨ledger, s, runs, of_decide_eq_true checked⟩
  · obtain ⟨⟨ledger, s⟩, runs, checked⟩ := exists_of_returnsWith
      (fun state : Ledger × Sys Nat =>
        decide (state.1.initial = 1 ∧ state.1.holders = [0, 1]))
      (run (ledgerStep (Config.small false) 0)
        (.opened 0, Sys.boot (Config.small false))
        (setUp 1 2 3 ++ [.osSchedule, .task (.semWait 0) 5,
          .task (.taskWaitId 0 1) 6, .osSchedule, .task (.semWait 0) 7,
          .call .osTick, .osSchedule, .task (.semSignal 0) 8, .osSchedule,
          .task (.semSignal 0) 9, .task (.semWait 0) 10]))
      (by decide +kernel)
    exact ⟨ledger, s, runs, of_decide_eq_true checked⟩

end CocoOs
