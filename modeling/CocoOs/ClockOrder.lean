import CocoOs.SubClocks
import CocoOs.QueueLog
import CocoOs.Foundation.TwoRuns

/-!
# Clocks do not see each other

Ticks of two different clocks may change places.  A tick of the master clock can
signal change events in the middle of its pass, but the tasks it wakes wait for
events, with a timeout on the master clock at most, and a sub clock reaches none
of them.
-/

namespace CocoOs

open Foundation

variable {β : Type}

/-! ## One task -/

namespace Tcb

theorem tick_clockId
    (cfg : Config) (clockId ticks : Nat) (task : Tcb) :
    (task.tick cfg clockId ticks).clockId = task.clockId := by
  unfold tick
  dsimp only
  split_ifs <;> rfl

/-- A tick leaves the state of a task or makes the task ready. -/
theorem tick_state
    (cfg : Config) (clockId ticks : Nat) (task : Tcb) :
    (task.tick cfg clockId ticks).state = task.state ∨
      (task.tick cfg clockId ticks).state = .ready := by
  unfold tick
  dsimp only
  split_ifs
  · exact .inr rfl
  · exact .inr rfl
  · exact .inl rfl
  · exact .inl rfl
  · exact .inl rfl
  · exact .inl rfl

/-- A signal leaves the clock of a task, and its state or makes it ready. -/
theorem signalEvent_clock
    (cfg : Config) (eventId : Nat) (task : Tcb) :
    (task.signalEvent cfg eventId).clockId = task.clockId ∧
      ((task.signalEvent cfg eventId).state = task.state ∨
        (task.signalEvent cfg eventId).state = .ready) := by
  unfold signalEvent
  dsimp only
  split_ifs
  · exact ⟨rfl, .inr rfl⟩
  · exact ⟨rfl, .inl rfl⟩
  · exact ⟨rfl, .inl rfl⟩

/-- Two clocks tick a task in either order. -/
theorem tick_comm
    (cfg : Config) {first second : Nat} (apart : first ≠ second)
    (ticks ticks' : Nat) (task : Tcb) :
    (task.tick cfg first ticks).tick cfg second ticks' =
      (task.tick cfg second ticks').tick cfg first ticks := by
  by_cases sem : task.state = .waitingSem
  · rw [tick_of_waitingSem cfg first ticks sem,
      tick_of_waitingSem cfg second ticks' sem,
      tick_of_waitingSem cfg second ticks' (by exact sem),
      tick_of_waitingSem cfg first ticks (by exact sem)]
  · have notSem : ∀ clockId ticks,
        (task.tick cfg clockId ticks).state ≠ .waitingSem := by
      intro clockId ticks
      rcases task.tick_state cfg clockId ticks with same | ready
      · rwa [same]
      · rw [ready]
        decide
    by_cases own : task.clockId = second
    · have other : task.clockId ≠ first := fun wrong => apart (wrong ▸ own)
      rw [tick_of_ne cfg ticks sem other]
      symm
      apply tick_of_ne cfg ticks (notSem second ticks')
      rwa [tick_clockId]
    · rw [tick_of_ne cfg ticks' sem own]
      apply tick_of_ne cfg ticks' (notSem first ticks)
      rwa [tick_clockId]

/-- A timeout on an event runs on the master clock. -/
def OnMaster (task : Tcb) : Prop :=
  task.state = .waitingEventTimeout → task.clockId = 0

theorem OnMaster.of_state
    {task task' : Tcb}
    (onMaster : task.OnMaster)
    (clock : task'.clockId = task.clockId)
    (state : task'.state = task.state ∨ task'.state = .ready) :
    task'.OnMaster := by
  intro timeout
  rcases state with same | ready
  · rw [clock]
    exact onMaster (same ▸ timeout)
  · rw [ready] at timeout
    cases timeout

/-- A sub clock passes by a task that waits for events or is ready. -/
theorem OnMaster.tick_eq
    {cfg : Config} {task : Tcb}
    (onMaster : task.OnMaster)
    (waits : task.WaitsForEvents ∨ task.state = .ready)
    {id : Nat} (sub : id ≠ 0) (ticks : Nat) :
    task.tick cfg id ticks = task := by
  rcases waits with (event | timeout) | ready
  · exact tick_of_idle cfg id ticks (by simp [event]) (by simp [event])
  · apply tick_of_ne cfg ticks (by simp [timeout])
    rw [onMaster timeout]
    exact sub.symm
  · exact tick_of_idle cfg id ticks (by simp [ready]) (by simp [ready])

/-- A signal and a tick of a sub clock reach a task in either order. -/
theorem OnMaster.signalEvent_tick
    {cfg : Config} {task : Tcb}
    (onMaster : task.OnMaster)
    {id : Nat} (sub : id ≠ 0) (eventId ticks : Nat) :
    (task.signalEvent cfg eventId).tick cfg id ticks =
      (task.tick cfg id ticks).signalEvent cfg eventId := by
  by_cases waits : task.WaitsForEvents
  · rw [onMaster.tick_eq (.inl waits) sub ticks]
    obtain ⟨clock, state⟩ := task.signalEvent_clock cfg eventId
    apply (onMaster.of_state clock state).tick_eq _ sub ticks
    rcases state with same | ready
    · left
      unfold WaitsForEvents
      rwa [same]
    · exact .inr ready
  · have deaf : ¬ (task.tick cfg id ticks).WaitsForEvents := by
      rcases task.tick_state cfg id ticks with same | ready
      · unfold WaitsForEvents
        rwa [same]
      · rintro (wrong | wrong) <;> rw [ready] at wrong <;> cases wrong
    rw [signalEvent_of_not cfg fun both => waits both.2,
      signalEvent_of_not cfg fun both => deaf both.2]

end Tcb

/-! ## The kernel and the kernel a sub clock tick ahead -/

namespace TaskTable

/-- A rewriting of one created task and one of all of them. -/
theorem modify_mapCreated
    (tasks : TaskTable) {tid : Nat} (created : tid < tasks.nTasks)
    {one all : Tcb → Tcb}
    (commute : all (one (tasks.taskList tid)) = one (all (tasks.taskList tid))) :
    (tasks.modify tid one).mapCreated all = (tasks.mapCreated all).modify tid one := by
  unfold modify mapCreated
  dsimp only
  congr 1
  funext other
  by_cases same : other = tid
  · subst same
    simp [created, commute]
  · simp [same]

end TaskTable

namespace Kernel

/-- The second kernel is the first after a tick of a sub clock, and in the first
the timeouts on events run on the master clock. -/
structure Ahead (cfg : Config) (id ticks : Nat) (k k' : Kernel β) : Prop where
  ticked : k' = k.subTicked cfg id ticks
  master : ∀ tid, tid < k.tasks.nTasks → (k.tasks.taskList tid).OnMaster

namespace Ahead

variable {cfg : Config} {id ticks : Nat} {k k' : Kernel β}

theorem nTasks (ahead : k.Ahead cfg id ticks k') :
    k'.tasks.nTasks = k.tasks.nTasks := by
  rw [ahead.ticked]
  rfl

theorem queues (ahead : k.Ahead cfg id ticks k') :
    k'.queues = k.queues := by
  rw [ahead.ticked]
  rfl

theorem msgQ (ahead : k.Ahead cfg id ticks k') {tid : Nat}
    (created : tid < k.tasks.nTasks) :
    (k'.tasks.taskList tid).msgQ = (k.tasks.taskList tid).msgQ := by
  rw [ahead.ticked]
  dsimp only [subTicked]
  rw [TaskTable.mapCreated_taskList_of_lt _ _ created]
  exact msgQ_of_static (Tcb.static_tick cfg id ticks _)

/-- Both rings are rewritten. -/
theorem setQueue (ahead : k.Ahead cfg id ticks k') (queue : Nat) (q : OSQueue β) :
    Ahead cfg id ticks { k with queues := k.queues.setQueue queue q }
      { k' with queues := k'.queues.setQueue queue q } := by
  obtain ⟨rfl, master⟩ := ahead
  exact ⟨rfl, master⟩

theorem record (ahead : k.Ahead cfg id ticks k') (entry : Entry β) :
    Ahead cfg id ticks (k.record entry) (k'.record entry) := by
  obtain ⟨rfl, master⟩ := ahead
  exact ⟨rfl, master⟩

/-- An interrupt signals an event in both. -/
theorem eventIsrSignal (ahead : k.Ahead cfg id ticks k') (sub : id ≠ 0)
    (eventId : Nat) :
    Related (Ahead cfg id ticks) (k.eventIsrSignal cfg eventId)
      (k'.eventIsrSignal cfg eventId) := by
  obtain ⟨rfl, master⟩ := ahead
  rw [eventIsrSignal_eq, eventIsrSignal_eq]
  refine .ite Iff.rfl (fun _ => .guard Iff.rfl fun _ => .value ⟨?_, ?_⟩)
    fun _ => .value ⟨rfl, master⟩
  · have tables : (k.tasks.mapCreated (Tcb.tick cfg id ticks)).mapCreated
          (Tcb.signalEvent cfg eventId) =
        (k.tasks.mapCreated (Tcb.signalEvent cfg eventId)).mapCreated
          (Tcb.tick cfg id ticks) := by
      rw [TaskTable.mapCreated_mapCreated, TaskTable.mapCreated_mapCreated]
      apply TaskTable.mapCreated_congr
      intro tid created
      exact ((master tid created).signalEvent_tick sub eventId ticks).symm
    unfold isrSignalled signalled subTicked
    dsimp only
    rw [tables]
  · intro tid created
    have entry : (k.isrSignalled cfg eventId).tasks.taskList tid =
        (k.tasks.taskList tid).signalEvent cfg eventId :=
      k.tasks.mapCreated_taskList_of_lt _ created
    rw [entry]
    obtain ⟨clock, state⟩ := (k.tasks.taskList tid).signalEvent_clock cfg eventId
    exact (master tid created).of_state clock state

theorem msgQTickBody (ahead : k.Ahead cfg id ticks k') (sub : id ≠ 0)
    (queue index : Nat) :
    Related (Ahead cfg id ticks) (k.msgQTickBody cfg queue index)
      (k'.msgQTickBody cfg queue index) := by
  unfold Kernel.msgQTickBody
  rw [ahead.queues]
  dsimp only
  refine .ite Iff.rfl (fun _ => ?_) fun _ => .value ahead
  cases (k.queues.msgQList queue).q.write index _ with
  | error stopped => exact .stop stopped
  | ok q =>
      have rings := ahead.setQueue queue q
      rw [ahead.queues] at rings
      refine .ite Iff.rfl (fun _ => ?_) fun _ => .value rings
      exact rings.eventIsrSignal sub _

theorem msgQTickLoop (ahead : k.Ahead cfg id ticks k') (sub : id ≠ 0)
    (queue head fuel index : Nat) :
    Related (Ahead cfg id ticks) (k.msgQTickLoop cfg queue head fuel index)
      (k'.msgQTickLoop cfg queue head fuel index) := by
  induction fuel generalizing k k' index with
  | zero =>
      unfold Kernel.msgQTickLoop
      refine .ite Iff.rfl (fun _ => .value ahead) fun _ => ?_
      exact .bind (ahead.msgQTickBody sub queue index) fun _ _ _ => .stop _
  | succ fuel inductionHypothesis =>
      unfold Kernel.msgQTickLoop
      refine .ite Iff.rfl (fun _ => .value ahead) fun _ => ?_
      refine .bind (ahead.msgQTickBody sub queue index) ?_
      intro next next' later
      rw [later.queues]
      exact inductionHypothesis later _

theorem osMsgQTick (ahead : k.Ahead cfg id ticks k') (sub : id ≠ 0)
    (queue : Nat) :
    Related (Ahead cfg id ticks) (k.osMsgQTick cfg queue)
      (k'.osMsgQTick cfg queue) := by
  unfold Kernel.osMsgQTick
  rw [ahead.queues]
  refine .ite Iff.rfl (fun _ => ?_) fun _ => .value ahead
  exact ahead.msgQTickLoop sub queue _ _ _

/-- The master clock ticks one task in both. -/
theorem tick (ahead : k.Ahead cfg id ticks k') (sub : id ≠ 0)
    (tickSize : Nat) {tid : Nat} (created : tid < k.tasks.nTasks) :
    Ahead cfg id ticks (k.modifyTask tid (Tcb.tick cfg 0 tickSize))
      (k'.modifyTask tid (Tcb.tick cfg 0 tickSize)) := by
  obtain ⟨rfl, master⟩ := ahead
  refine ⟨?_, fun other inside => ?_⟩
  · unfold modifyTask subTicked
    dsimp only
    rw [k.tasks.modify_mapCreated created
      (Tcb.tick_comm cfg (Ne.symm sub) tickSize ticks _)]
  · dsimp only [modifyTask]
    rw [TaskTable.modify_taskList]
    split_ifs
    · exact (master other inside).of_state (Tcb.tick_clockId cfg 0 tickSize _)
        (Tcb.tick_state cfg 0 tickSize _)
    · exact master other inside

theorem taskTickBody (ahead : k.Ahead cfg id ticks k') (sub : id ≠ 0)
    (tickSize : Nat) {tid : Nat} (created : tid < k.tasks.nTasks) :
    Related (Ahead cfg id ticks) (k.taskTickBody cfg 0 tickSize tid)
      (k'.taskTickBody cfg 0 tickSize tid) := by
  have next := ahead.tick sub tickSize created
  have createdStill : tid <
      (k.modifyTask tid (Tcb.tick cfg 0 tickSize)).tasks.nTasks := created
  have same := next.msgQ createdStill
  unfold Kernel.taskTickBody
  dsimp only
  rw [if_pos rfl, if_pos rfl]
  unfold modifyTask at next same
  rw [same]
  exact .ite Iff.rfl (fun _ => next.osMsgQTick sub _) fun _ => .value next

/-- A tick of the master clock keeps the second kernel ahead. -/
theorem osTick (ahead : k.Ahead cfg id ticks k') (sub : id ≠ 0)
    (sound : k.Sound cfg) :
    Related (Ahead cfg id ticks) (k.osTick cfg) (k'.osTick cfg) := by
  have ticked := ahead.record .ticked
  have loops : Related
      (fun k₁ k₁' => k₁.Ahead cfg id ticks k₁' ∧ k₁.Sound cfg ∧
        k₁.tasks.nTasks = k.tasks.nTasks)
      (k.osTick cfg) (k'.osTick cfg) := by
    unfold Kernel.osTick Kernel.taskTick
    rw [ticked.nTasks]
    refine .forRange ⟨ticked, sound.of_micro (.clock k), rfl⟩ ?_
    rintro tid k₁ k₁' created ⟨same, soundHere, nTasks⟩
    have here : tid < k₁.tasks.nTasks := nTasks ▸ created
    apply (same.taskTickBody sub 1 here).strengthen
    intro k₂ k₂' body _ next
    have trace := taskTickBody_trace soundHere here body
    have objects := SameObjects.of_trace trace
      (k₁.quiet_taskTickActs cfg 0 1 tid _)
    exact ⟨next, soundHere.of_trace trace, objects.nTasks.trans nTasks⟩
  exact loops.mono fun _ _ related => related.1

end Ahead

/-- A tick of the master clock after one of a sub clock, and before it. -/
theorem osTick_subTicked
    {cfg : Config} {k : Kernel β} (sound : k.Sound cfg)
    (master : ∀ tid, tid < k.tasks.nTasks → (k.tasks.taskList tid).OnMaster)
    {id : Nat} (sub : id ≠ 0) (ticks : Nat) :
    (k.subTicked cfg id ticks).osTick cfg =
      (k.osTick cfg).map fun k' => k'.subTicked cfg id ticks := by
  have ahead : k.Ahead cfg id ticks (k.subTicked cfg id ticks) := ⟨rfl, master⟩
  have related := ahead.osTick sub sound
  generalize k.osTick cfg = first at related ⊢
  generalize (k.subTicked cfg id ticks).osTick cfg = second at related ⊢
  cases related with
  | stop stopped => rfl
  | value later => exact congrArg Except.ok later.ticked

/-- Ticks of two sub clocks. -/
theorem subTicked_comm
    (cfg : Config) (k : Kernel β) {first second : Nat} (apart : first ≠ second)
    (ticks ticks' : Nat) :
    (k.subTicked cfg first ticks).subTicked cfg second ticks' =
      (k.subTicked cfg second ticks').subTicked cfg first ticks := by
  have tables : (k.tasks.mapCreated (Tcb.tick cfg first ticks)).mapCreated
        (Tcb.tick cfg second ticks') =
      (k.tasks.mapCreated (Tcb.tick cfg second ticks')).mapCreated
        (Tcb.tick cfg first ticks) := by
    rw [TaskTable.mapCreated_mapCreated, TaskTable.mapCreated_mapCreated]
    apply TaskTable.mapCreated_congr
    exact fun tid _ => Tcb.tick_comm cfg apart ticks ticks' _
  unfold subTicked
  dsimp only
  rw [tables]

/-! ## Ticks that return -/

/-- Every queue is a ring, and its change event is inside the event bitmaps. -/
structure RingsFit (cfg : Config) (k : Kernel β) : Prop where
  two : ∀ queue, k.HasQueue cfg queue →
    2 ≤ (k.queues.msgQList queue).q.size
  fit : ∀ queue, k.HasQueue cfg queue →
    (k.queues.msgQList queue).change / 8 < cfg.eventQueueSize

/-- A kernel with one queue. -/
theorem RingsFit.of_one
    {cfg : Config} {k : Kernel β}
    (one : k.queues.nQueues = 1)
    (two : 2 ≤ (k.queues.msgQList 0).q.size)
    (fit : (k.queues.msgQList 0).change / 8 < cfg.eventQueueSize) :
    k.RingsFit cfg := by
  have only : ∀ queue, k.HasQueue cfg queue → queue = 0 := by
    rintro queue ⟨_, inside⟩
    omega
  exact ⟨fun queue created => only queue created ▸ two,
    fun queue created => only queue created ▸ fit⟩

/-- Actions on objects that exist keep the rings as they are. -/
theorem RingsFit.of_micro
    {cfg : Config} {k k' : Kernel β} {act : Act β}
    (rings : k.RingsFit cfg)
    (sound : k.QueuesSound cfg)
    (acts : Micro cfg k act k')
    (quiet : act.Quiet) :
    k'.RingsFit cfg := by
  have objects := acts.sameObjects quiet
  have created : ∀ {queue}, k'.HasQueue cfg queue → k.HasQueue cfg queue := by
    intro queue inside
    exact ⟨inside.1, objects.nQueues ▸ inside.2⟩
  refine ⟨fun queue inside => ?_, fun queue inside => ?_⟩
  · rw [acts.size sound (created inside)]
    exact rings.two queue (created inside)
  · rw [objects.change]
    exact rings.fit queue (created inside)

/-- `os_msgQ_tick` returns on such a ring. -/
theorem osMsgQTick_returns
    {cfg : Config} {k : Kernel β} {queue : Nat}
    (sound : k.QueuesSound cfg)
    (rings : k.RingsFit cfg)
    (created : 0 < cfg.nQueues → k.HasQueue cfg queue) :
    ∃ k', k.osMsgQTick cfg queue = .ok k' := by
  by_cases queues : 0 < cfg.nQueues
  · have here := created queues
    have ready := sound.ready here (rings.two queue here)
    obtain ⟨q, _, ticks⟩ := osMsgQTick_eq queues ready.holds
    rw [ticks]
    rcases signalTimes_cases ready.known (expiring (k.contents queue))
        (k.setRing queue q) with ⟨k', returns, _⟩ | ⟨_, _, _, narrow⟩
    · exact ⟨k', returns⟩
    · exact absurd (rings.fit queue here) (Nat.not_lt.mpr narrow)
  · unfold osMsgQTick
    rw [if_neg queues]
    exact ⟨k, rfl⟩

/-- `os_tick` returns when every queue is such a ring. -/
theorem osTick_returns
    {cfg : Config} {k : Kernel β} (sound : k.Sound cfg)
    (rings : k.RingsFit cfg) :
    ∃ k', k.osTick cfg = .ok k' := by
  have counts : Micro cfg k .clock (k.record .ticked) := .clock k
  have loop : ∃ finish,
      forRange k.tasks.nTasks (taskTickBody cfg 0 1) (k.record .ticked) =
        .ok finish ∧
      finish.tasks.nTasks = k.tasks.nTasks ∧ finish.Sound cfg ∧
        finish.RingsFit cfg := by
    refine forRange_returns
      (fun _ (state : Kernel β) => state.tasks.nTasks = k.tasks.nTasks ∧
        state.Sound cfg ∧ state.RingsFit cfg)
      ⟨rfl, sound.of_micro counts,
        rings.of_micro sound.queues counts trivial⟩ ?_
    rintro tid state created ⟨nTasks, soundHere, ringsHere⟩
    have here : tid < state.tasks.nTasks := nTasks ▸ created
    have ticks : Micro cfg state (.tick tid 0 1) _ := .tick state tid 0 1 here
    have soundTicked := soundHere.of_micro ticks
    have ringsTicked := ringsHere.of_micro soundHere.queues ticks trivial
    have returns : ∃ next, state.taskTickBody cfg 0 1 tid = .ok next := by
      unfold taskTickBody
      dsimp only
      rw [if_pos rfl]
      split_ifs with owns
      · apply osMsgQTick_returns soundTicked.queues ringsTicked
        intro queues
        exact ⟨queues, (soundTicked.queues.owned queues tid here owns).1⟩
      · exact ⟨_, rfl⟩
    obtain ⟨next, body⟩ := returns
    have trace := taskTickBody_trace soundHere here body
    have quiet := state.quiet_taskTickActs cfg 0 1 tid
      (expiring (state.contents (state.tasks.taskList tid).msgQ))
    have kept := trace.invariant Act.Quiet
      (fun later => later.Sound cfg ∧ later.RingsFit cfg)
      (fun _ _ _ allowed both acts => ⟨both.1.of_micro acts,
        both.2.of_micro both.1.queues acts allowed⟩)
      quiet ⟨soundHere, ringsHere⟩
    exact ⟨next, body, (SameObjects.of_trace trace quiet).nTasks.trans nTasks,
      kept⟩
  obtain ⟨finish, returns, _⟩ := loop
  exact ⟨finish, returns⟩

end Kernel

/-! ## Steps -/

/-- A tick of a clock: `os_tick` of the master clock, `os_sub_nTick` of any
other. -/
def clockTick (clock : UInt8) (ticks : UInt32) : Label β :=
  if clock = 0 then .call .osTick else .call (.osSubNTick clock ticks)

theorem step_clockTick_master
    (cfg : Config) (s : Sys β) (ticks : UInt32) :
    step cfg s (clockTick 0 ticks) =
      (s.kernel.osTick cfg).map fun k => { s with kernel := k } := rfl

theorem step_clockTick_sub
    (cfg : Config) (s : Sys β) {clock : UInt8} (sub : clock ≠ 0)
    (ticks : UInt32) :
    step cfg s (clockTick clock ticks) =
      .ok { s with kernel := s.kernel.subTicked cfg clock.toNat ticks.toNat } := by
  unfold clockTick
  rw [if_neg sub]
  exact step_osSubNTick cfg s sub ticks

/-- The timeouts of a reachable state run on the master clock. -/
theorem reachable_onMaster
    {cfg : Config} {s : Sys β} (reachable : ReachableSys cfg s)
    {tid : Nat} (created : tid < s.kernel.tasks.nTasks) :
    (s.kernel.tasks.taskList tid).OnMaster := by
  intro timeout
  have consistent := (reachable_tasksSound reachable).consistent tid created
    (by rw [timeout]; decide)
  apply consistent.clock
  rw [Tcb.effectiveState_of_ne (by rw [timeout]; decide)]
  exact timeout

/-- A tick of the master clock and one of a sub clock. -/
theorem run_master_sub
    {cfg : Config} {s : Sys β} (reachable : ReachableSys cfg s)
    {clock : UInt8} (sub : clock ≠ 0) (ticks ticks' : UInt32) :
    run (step cfg) s [clockTick 0 ticks, clockTick clock ticks'] =
      run (step cfg) s [clockTick clock ticks', clockTick 0 ticks] := by
  have master := Kernel.osTick_subTicked (reachable_sound reachable)
    (fun tid created => reachable_onMaster reachable created)
    (toNat_ne_zero sub) ticks'.toNat
  rw [run_cons, run_cons, step_clockTick_master, step_clockTick_sub cfg s sub,
    ok_bind, run_cons, step_clockTick_master, master]
  cases s.kernel.osTick cfg with
  | error stopped => rfl
  | ok k =>
      rw [ok_map, ok_bind, run_cons, step_clockTick_sub cfg _ sub]
      rfl

/-- Ticks of two different clocks may change places in every reachable state:
both orders leave the same state, or stop for the same reason.  With rings of at
least two slots whose change events are inside the event bitmaps both orders
return. -/
theorem clocks_commute
    {cfg : Config} {s : Sys β}
    (reachable : ReachableSys cfg s)
    {first second : UInt8} (apart : first ≠ second)
    (ticks ticks' : UInt32) :
    run (step cfg) s [clockTick first ticks, clockTick second ticks'] =
      run (step cfg) s [clockTick second ticks', clockTick first ticks] ∧
    (s.kernel.RingsFit cfg →
      ∃ s', run (step cfg) s
        [clockTick first ticks, clockTick second ticks'] = .ok s') := by
  have master : ∀ (clock : UInt8) (n m : UInt32), clock ≠ 0 →
      s.kernel.RingsFit cfg →
      ∃ s', run (step cfg) s [clockTick 0 n, clockTick clock m] = .ok s' := by
    intro clock n m sub rings
    obtain ⟨k, returns⟩ := Kernel.osTick_returns (reachable_sound reachable) rings
    rw [run_cons, step_clockTick_master, returns, ok_map, ok_bind, run_cons,
      step_clockTick_sub cfg _ sub]
    exact ⟨_, rfl⟩
  by_cases isMaster : first = 0
  · have sub : second ≠ 0 := fun wrong => apart (isMaster.trans wrong.symm)
    subst isMaster
    exact ⟨run_master_sub reachable sub ticks ticks', master second ticks ticks' sub⟩
  · by_cases isMaster' : second = 0
    · subst isMaster'
      have same := run_master_sub reachable isMaster ticks' ticks
      refine ⟨same.symm, fun rings => ?_⟩
      rw [← same]
      exact master first ticks' ticks isMaster rings
    · have apart' : first.toNat ≠ second.toNat :=
        fun wrong => apart (UInt8.toNat_inj.mp wrong)
      have both : ∀ (one other : UInt8) (n m : UInt32), one ≠ 0 → other ≠ 0 →
          run (step cfg) s [clockTick one n, clockTick other m] =
            .ok { s with kernel := (s.kernel.subTicked cfg one.toNat
              n.toNat).subTicked cfg other.toNat m.toNat } := by
        intro one other n m sub sub'
        rw [run_cons, step_clockTick_sub cfg s sub, ok_bind, run_cons,
          step_clockTick_sub cfg _ sub']
        rfl
      rw [both first second ticks ticks' isMaster isMaster',
        both second first ticks' ticks isMaster' isMaster,
        Kernel.subTicked_comm cfg s.kernel apart' ticks.toNat ticks'.toNat]
      exact ⟨rfl, fun _ => ⟨_, rfl⟩⟩

/-- The first task waits for an event of the master clock with a timeout, the
second for a sub clock, and a message is due: the ticks change places. -/
theorem clocks_commute_setUp :
    ∃ s s' : Sys Nat,
      run (step (Config.small false)) (Sys.boot (Config.small false))
        (setUp 1 2 3 ++ [.osSchedule, .task (.msgPost 0 ⟨1, 0, 0, 7⟩ 1 0 false) 1,
          .task (.eventWaitTimeout 0 5) 2, .osSchedule,
          .task (.taskWaitId 4 3) 3]) = .ok s ∧
      run (step (Config.small false)) s [clockTick 0 1, clockTick 4 3] = .ok s' ∧
      run (step (Config.small false)) s [clockTick 4 3, clockTick 0 1] =
        .ok s' := by
  obtain ⟨s, runs, checked⟩ := exists_of_returnsWith
    (fun s : Sys Nat => decide (s.kernel.queues.nQueues = 1 ∧
      2 ≤ (s.kernel.queues.msgQList 0).q.size ∧
      (s.kernel.queues.msgQList 0).change / 8 <
        (Config.small false).eventQueueSize))
    (run (step (Config.small false)) (Sys.boot (Config.small false))
      (setUp 1 2 3 ++ [.osSchedule, .task (.msgPost 0 ⟨1, 0, 0, 7⟩ 1 0 false) 1,
        .task (.eventWaitTimeout 0 5) 2, .osSchedule,
        .task (.taskWaitId 4 3) 3])) (by decide +kernel)
  obtain ⟨one, two, fit⟩ := of_decide_eq_true checked
  obtain ⟨same, returns⟩ := clocks_commute (reachable_of_run runs)
    (by decide : (0 : UInt8) ≠ 4) 1 3
  obtain ⟨s', result⟩ := returns (.of_one one two fit)
  exact ⟨s, s', runs, result, same ▸ result⟩

end CocoOs
