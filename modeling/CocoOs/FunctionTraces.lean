import CocoOs.QueuesSound

/-!
# Kernel functions as traces

The kernel functions that a step calls, each as the list of actions it takes
when it returns.
-/

namespace CocoOs

open Foundation

variable {β : Type}

namespace Kernel

/-- The tables are consistent and the task table is not over-full. -/
structure Sound (cfg : Config) (k : Kernel β) : Prop where
  queues : k.QueuesSound cfg
  tasks : k.tasks.nTasks ≤ cfg.nTasks

theorem Sound.nTasks_lt {cfg : Config} {k : Kernel β} (sound : k.Sound cfg) :
    k.tasks.nTasks < noTid :=
  Nat.lt_of_le_of_lt sound.tasks cfg.nTasks_lt

theorem osTaskCreate_nTasks_le
    {cfg : Config} {k k' : Kernel β}
    {taskproc data prio : Nat} {msgPool : Nat → Msg β}
    {poolSize msgSize tid : Nat}
    (returns : k.osTaskCreate cfg taskproc data prio msgPool poolSize msgSize =
      .ok (tid, k')) :
    k'.tasks.nTasks ≤ cfg.nTasks := by
  obtain ⟨_, room, _, _, msgQ, kq, _, rfl⟩ := osTaskCreate_cases returns
  exact room

theorem Sound.of_micro
    {cfg : Config} {k k' : Kernel β} {act : Act β}
    (sound : k.Sound cfg)
    (acts : Micro cfg k act k') :
    k'.Sound cfg := by
  refine ⟨sound.queues.of_micro acts, ?_⟩
  have within := sound.tasks
  cases acts with
  | create creation creates =>
      cases creation with
      | osTaskCreate taskproc data prio msgPool poolSize msgSize =>
          obtain ⟨⟨tid, made⟩, returns, rfl⟩ := map_eq_ok_iff.mp creates
          exact osTaskCreate_nTasks_le returns
      | eventCreate | semBinCreate | semCountingCreate =>
          obtain ⟨made, _, rfl⟩ := map_eq_ok_iff.mp creates
          exact within
  | select _ selects _ =>
      rw [(selectTask_frame selects).1]
      exact within
  | post returns =>
      rcases osMsgPost_cases returns with
        ⟨_, rfl⟩ | ⟨_, _, _, _, q, rfl⟩ <;> exact within
  | receive returns _ =>
      rcases osMsgReceive_cases returns with
        ⟨_, _, rfl⟩ | ⟨_, _, _, q, msg, rfl⟩ <;> exact within
  | _ => exact within

theorem Sound.of_trace
    {cfg : Config} {k k' : Kernel β} {acts : List (Act β)}
    (sound : k.Sound cfg)
    (trace : Trace (Micro cfg) k acts k') :
    k'.Sound cfg :=
  trace.invariant (fun _ => True) (fun k => k.Sound cfg)
    (fun _ _ _ _ sound acts => sound.of_micro acts) (fun _ _ => trivial) sound

/-! ## Signals -/

/-- The actions of a signal followed by the note of who signalled. -/
def signalActs (cfg : Config) (event tid : Nat) : List (Act β) :=
  if 0 < cfg.nTotalEvents then [.signal event, .signaller event tid] else []

theorem signal_trace
    {cfg : Config} {k k₁ k' : Kernel β} {event tid : Nat}
    (signals : k.osSignalEvent cfg event = .ok k₁)
    (notes : k₁.osEventSetSignalingTid cfg event tid = .ok k') :
    Trace (Micro cfg) k (signalActs cfg event tid) k' := by
  rw [osSignalEvent_eq] at signals
  unfold osEventSetSignalingTid at notes
  unfold signalActs
  by_cases events : 0 < cfg.nTotalEvents
  · simp only [events, if_true, guard_eq_ok_iff, Except.ok.injEq]
      at signals notes
    obtain ⟨fits, rfl⟩ := signals
    obtain ⟨_, rfl⟩ := notes
    rw [if_pos events]
    exact .cons (.signal k events fits) (.single (.signaller _ event tid))
  · simp only [events, if_false, Except.ok.injEq] at signals notes
    subst signals notes
    rw [if_neg events]
    exact .nil k

theorem eventIsrSignal_trace
    {cfg : Config} {k k' : Kernel β} {event : Nat}
    (returns : k.eventIsrSignal cfg event = .ok k') :
    Trace (Micro cfg) k (signalActs cfg event isrTid) k' := by
  unfold eventIsrSignal at returns
  obtain ⟨k₁, signals, notes⟩ := bind_eq_ok_iff.mp returns
  exact signal_trace signals notes

/-- The actions of a number of signals by interrupts. -/
def isrSignalActs (cfg : Config) (event : Nat) : Nat → List (Act β)
  | 0 => []
  | times + 1 => signalActs cfg event isrTid ++ isrSignalActs cfg event times

theorem signalTimes_trace
    {cfg : Config} {event times : Nat} {k k' : Kernel β}
    (returns : signalTimes cfg event times k = .ok k') :
    Trace (Micro cfg) k (isrSignalActs cfg event times) k' := by
  induction times generalizing k with
  | zero => exact Except.ok.inj returns ▸ .nil k
  | succ times inductionHypothesis =>
      obtain ⟨k₁, first, later⟩ := bind_eq_ok_iff.mp returns
      exact (eventIsrSignal_trace first).append (inductionHypothesis later)

/-! ## Clocks -/

/-- The actions of `os_msgQ_tick` on a queue of which a number of messages
expire. -/
def queueTickActs (cfg : Config) (k : Kernel β) (queue expired : Nat) :
    List (Act β) :=
  if 0 < cfg.nQueues then
    .age queue ::
      isrSignalActs cfg (k.queues.msgQList queue).change expired
  else []

/-- The walk of `os_msgQ_tick` around a single-slot queue never meets the
head. -/
theorem msgQTickLoop_single
    {cfg : Config} {k k' : Kernel β} {queue : Nat} (fuel : Nat)
    (sized : (k.queues.msgQList queue).q.size = 1) :
    k.msgQTickLoop cfg queue 1 fuel 0 ≠ .ok k' := by
  induction fuel generalizing k with
  | zero =>
      unfold msgQTickLoop
      intro returns
      rw [if_neg (by omega)] at returns
      obtain ⟨_, _, stops⟩ := bind_eq_ok_iff.mp returns
      cases stops
  | succ fuel inductionHypothesis =>
      unfold msgQTickLoop
      intro returns
      rw [if_neg (by omega)] at returns
      obtain ⟨k₁, body, rest⟩ := bind_eq_ok_iff.mp returns
      rw [k.msgQTickBody_eq cfg queue rfl (by omega)] at body
      have sized₁ : (k₁.queues.msgQList queue).q.size = 1 := by
        rw [signalTimes_queues body, setRing_queues, QueueTable.setQueue_q]
        exact sized
      simp only [sized₁, Nat.mod_one] at rest
      exact inductionHypothesis sized₁ rest

theorem osMsgQTick_single
    {cfg : Config} {k k' : Kernel β} {queue : Nat}
    (queues : 0 < cfg.nQueues)
    (sized : (k.queues.msgQList queue).q.size = 1)
    (head : (k.queues.msgQList queue).q.head = 1) :
    k.osMsgQTick cfg queue ≠ .ok k' := by
  unfold osMsgQTick
  rw [if_pos queues]
  simp only [sized, head, Nat.mod_one]
  exact msgQTickLoop_single 1 sized

theorem osMsgQTick_trace
    {cfg : Config} {k k' : Kernel β} {queue : Nat}
    (sound : k.Sound cfg)
    (inside : 0 < cfg.nQueues → queue < k.queues.nQueues)
    (returns : k.osMsgQTick cfg queue = .ok k') :
    Trace (Micro cfg) k
      (queueTickActs cfg k queue (expiring (k.contents queue))) k' := by
  unfold queueTickActs
  by_cases queues : 0 < cfg.nQueues
  · have hasQueue : k.HasQueue cfg queue := ⟨queues, inside queues⟩
    have ring := sound.queues.rings queue hasQueue
    have sized := ring.sized
    by_cases two : 2 ≤ (k.queues.msgQList queue).q.size
    · have ready := sound.queues.ready hasQueue two
      obtain ⟨q', aged, ticks⟩ := osMsgQTick_eq queues ready.holds
      rw [ticks] at returns
      rw [if_pos queues]
      exact .cons (.age ready aged) (signalTimes_trace returns)
    · have single : (k.queues.msgQList queue).q.size = 1 := by omega
      exact absurd returns
        (osMsgQTick_single queues single (ring.single single).1)
  · unfold osMsgQTick at returns
    rw [if_neg queues] at returns
    rw [if_neg queues, Except.ok.inj returns]
    exact .nil k'

/-- The actions of one iteration of `task_tick`, on a task of which a number of
messages expire. -/
def taskTickActs (cfg : Config) (k : Kernel β) (clockId tickSize tid expired : Nat) :
    List (Act β) :=
  .tick tid clockId tickSize ::
    if clockId = 0 ∧ (k.tasks.taskList tid).msgQ ≠ noQueue then
      queueTickActs cfg k (k.tasks.taskList tid).msgQ expired
    else []

/-- The actions of `task_tick`, by the number of messages of each task that
expire. -/
def tickActs (cfg : Config) (k : Kernel β) (clockId tickSize : Nat)
    (expired : Nat → Nat) (count : Nat) : List (Act β) :=
  (List.range count).flatMap fun tid =>
    k.taskTickActs cfg clockId tickSize tid (expired tid)

theorem quiet_signalActs (cfg : Config) (event tid : Nat) :
    ∀ act ∈ signalActs (β := β) cfg event tid, act.Quiet := by
  unfold signalActs
  split <;> simp [Act.Quiet]

theorem quiet_isrSignalActs (cfg : Config) (event times : Nat) :
    ∀ act ∈ isrSignalActs (β := β) cfg event times, act.Quiet := by
  induction times with
  | zero => simp [isrSignalActs]
  | succ times inductionHypothesis =>
      intro act inside
      rcases List.mem_append.mp inside with here | later
      · exact quiet_signalActs cfg event isrTid act here
      · exact inductionHypothesis act later

theorem quiet_taskTickActs
    (cfg : Config) (k : Kernel β) (clockId tickSize tid expired : Nat) :
    ∀ act ∈ k.taskTickActs cfg clockId tickSize tid expired, act.Quiet := by
  intro act inside
  unfold taskTickActs queueTickActs at inside
  rcases List.mem_cons.mp inside with rfl | later
  · trivial
  · split_ifs at later
    · rcases List.mem_cons.mp later with rfl | signals
      · trivial
      · exact quiet_isrSignalActs cfg _ _ act signals
    · simp at later
    · simp at later

/-- The actions of an iteration of `task_tick` depend on the objects alone. -/
theorem taskTickActs_sameObjects
    {k k' : Kernel β} (same : SameObjects k k')
    (cfg : Config) (clockId tickSize expired : Nat)
    {tid : Nat} (created : tid < k.tasks.nTasks) :
    k'.taskTickActs cfg clockId tickSize tid expired =
      k.taskTickActs cfg clockId tickSize tid expired := by
  have msgQ : (k'.tasks.taskList tid).msgQ = (k.tasks.taskList tid).msgQ :=
    msgQ_of_static (same.static tid created)
  unfold taskTickActs queueTickActs
  rw [msgQ, same.change]

theorem taskTickBody_trace
    {cfg : Config} {k k' : Kernel β} {clockId tickSize tid : Nat}
    (sound : k.Sound cfg)
    (created : tid < k.tasks.nTasks)
    (returns : k.taskTickBody cfg clockId tickSize tid = .ok k') :
    Trace (Micro cfg) k
      (k.taskTickActs cfg clockId tickSize tid
        (expiring (k.contents (k.tasks.taskList tid).msgQ))) k' := by
  have ticks : Micro cfg k (.tick tid clockId tickSize) _ :=
    .tick k tid clockId tickSize created
  have same : SameObjects k (k.modifyTask tid (Tcb.tick cfg clockId tickSize)) :=
    ticks.sameObjects trivial
  have sound₁ := sound.of_micro ticks
  have msgQ : ((k.modifyTask tid (Tcb.tick cfg clockId tickSize)).tasks.taskList
      tid).msgQ = (k.tasks.taskList tid).msgQ :=
    msgQ_of_static (same.static tid created)
  unfold taskTickBody at returns
  unfold taskTickActs
  change (if clockId = 0 then
      if ((k.modifyTask tid (Tcb.tick cfg clockId tickSize)).tasks.taskList
          tid).msgQ ≠ noQueue then
        (k.modifyTask tid (Tcb.tick cfg clockId tickSize)).osMsgQTick cfg
          ((k.modifyTask tid (Tcb.tick cfg clockId tickSize)).tasks.taskList
            tid).msgQ
      else .ok (k.modifyTask tid (Tcb.tick cfg clockId tickSize))
    else .ok (k.modifyTask tid (Tcb.tick cfg clockId tickSize))) = .ok k'
    at returns
  rw [msgQ] at returns
  by_cases master : clockId = 0
  · by_cases queue : (k.tasks.taskList tid).msgQ ≠ noQueue
    · rw [if_pos master, if_pos queue] at returns
      have trace := osMsgQTick_trace sound₁
        (fun queues => (sound.queues.owned queues tid created queue).1) returns
      rw [if_pos ⟨master, queue⟩]
      refine .cons ticks ?_
      unfold queueTickActs at trace ⊢
      rwa [same.change] at trace
    · rw [if_pos master, if_neg queue] at returns
      rw [if_neg fun both => queue both.2, ← Except.ok.inj returns]
      exact .single ticks
  · rw [if_neg master] at returns
    rw [if_neg fun both => master both.1, ← Except.ok.inj returns]
    exact .single ticks

/-- `task_tick` ticks every created task once, in order, and right after each
task on the master clock the queue of that task. -/
theorem taskTick_trace
    {cfg : Config} {k k' : Kernel β} {clockId tickSize : Nat}
    (sound : k.Sound cfg)
    (returns : k.taskTick cfg clockId tickSize = .ok k') :
    ∃ expired, Trace (Micro cfg) k
      (k.tickActs cfg clockId tickSize expired k.tasks.nTasks) k' := by
  have invariant := forRange_invariant
    (fun count state => SameObjects k state ∧ ∃ expired,
      Trace (Micro cfg) k (k.tickActs cfg clockId tickSize expired count) state)
    ⟨.refl k, fun _ => 0, .nil k⟩ ?_ returns
  · exact invariant.2
  · rintro index state state' before ⟨same, expired, trace⟩ body
    have soundState := sound.of_trace trace
    have bodyTrace := taskTickBody_trace soundState
      (by rw [same.nTasks]; exact before) body
    generalize expiring (state.contents (state.tasks.taskList index).msgQ) = now
      at bodyTrace
    have sameState := SameObjects.of_trace bodyTrace
      (state.quiet_taskTickActs cfg clockId tickSize index now)
    refine ⟨same.trans sameState, Function.update expired index now, ?_⟩
    rw [taskTickActs_sameObjects same cfg clockId tickSize now before]
      at bodyTrace
    have listEq : k.tickActs cfg clockId tickSize
          (Function.update expired index now) (index + 1) =
        k.tickActs cfg clockId tickSize expired index ++
          k.taskTickActs cfg clockId tickSize index now := by
      unfold tickActs
      rw [List.range_succ, List.flatMap_append]
      congr 1
      · apply List.flatMap_congr
        intro tid inside
        have different : tid ≠ index :=
          Nat.ne_of_lt (List.mem_range.mp inside)
        rw [Function.update_of_ne different]
      · simp
    rw [listEq]
    exact trace.append bodyTrace

end Kernel

end CocoOs
