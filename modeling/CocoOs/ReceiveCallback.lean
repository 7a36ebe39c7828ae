import CocoOs.LostWakeups
import CocoOs.MasterTick
import CocoOs.StaleTests

/-!
# The callback of a receive

`msg_receive_ex` calls its callback when it has found the queue empty and before
the task waits, where `event_wait_ex` calls it when the task already waits.  So
what the callback makes deliverable is not heard of.
-/

namespace CocoOs

open Foundation

variable {β : Type}

section

variable {cfg : Config} {s s' : Sys β} {k : Kernel β} {queue : Nat}

/-- Only the master clock touches the messages. -/
theorem callStep_queues
    {call : Call}
    (notTick : call ≠ .osTick)
    (returns : callStep cfg s.kernel call = .ok k) :
    k.queues = s.kernel.queues := by
  cases call with
  | osTick => exact absurd rfl notTick
  | osSubTick id =>
      unfold callStep Kernel.osSubTick at returns
      dsimp only at returns
      split_ifs at returns with sub
      · rw [Kernel.taskTick_sub cfg s.kernel sub] at returns
        rw [← Except.ok.inj returns]
        rfl
      · rw [Except.ok.inj returns]
  | osSubNTick id nTicks =>
      unfold callStep Kernel.osSubNTick at returns
      dsimp only at returns
      split_ifs at returns with sub
      · rw [Kernel.taskTick_sub cfg s.kernel sub] at returns
        rw [← Except.ok.inj returns]
        rfl
      · rw [Except.ok.inj returns]
  | eventIsrSignal event => exact Kernel.eventIsrSignal_queues returns
  | semIsrSignal sem =>
      obtain ⟨_, signals⟩ := guard_eq_ok_iff.mp returns
      rw [← Except.ok.inj signals]
      unfold Kernel.osSignalSemNoSchedule
      split_ifs <;> rfl
  | osTaskSuspend tid | osTaskResume tid | osTaskKill tid =>
      obtain ⟨tasks, _, rfl⟩ := map_eq_ok_iff.mp returns
      rfl

/-- Calls age the messages by the ticks of the master clock among them. -/
theorem contents_of_calls
    {calls : List Call}
    (reachable : ReachableSys cfg s)
    (created : s.kernel.HasQueue cfg queue)
    (returns : run (callStep cfg) s.kernel calls = .ok k) :
    k.contents queue = (s.kernel.contents queue).map fun msg =>
      { msg with delay := msg.delay - calls.count .osTick } := by
  induction calls generalizing s with
  | nil =>
      cases Except.ok.inj returns
      exact (List.map_id _).symm
  | cons call calls inductionHypothesis =>
      obtain ⟨next, first, later⟩ := run_cons_eq_ok_iff.mp returns
      let t : Sys β := { s with kernel := next }
      have steps : step cfg s (.call call) = .ok t :=
        map_eq_ok_iff.mpr ⟨next, first, rfl⟩
      have sound := reachable_sound reachable
      have same := (step_sameObjects sound steps nofun).nQueues
      have rest := inductionHypothesis (s := t) (reachable.step steps)
        ⟨created.1, same ▸ created.2⟩ later
      rw [rest]
      by_cases ticks : call = .osTick
      · subst ticks
        rw [Kernel.osTick_contents sound first created, List.map_map,
          List.count_cons_self]
        refine List.map_congr_left fun msg _ => ?_
        simp only [Function.comp, Msg.age, Nat.sub_sub,
          Nat.add_comm 1 (calls.count .osTick)]
      · have queues := callStep_queues ticks first
        rw [List.count_cons_of_ne ticks]
        unfold Kernel.contents
        rw [show t.kernel.queues = s.kernel.queues from queues]

/-- A task that waits for a created event inside the bitmaps is registered, and
the wait leaves the queues alone. -/
theorem osWaitSingleEvent_registers
    {k' : Kernel β} {event line : Nat}
    (available : 0 < cfg.nTotalEvents)
    (known : event < k.events.nEvents)
    (waits : k.osWaitSingleEvent cfg event 0 line = .ok k') :
    (k'.tasks.taskList k.runningTid).state = .waitingEvent ∧
      k'.queues = k.queues := by
  obtain ⟨waiting, registers, yields⟩ := bind_eq_ok_iff.mp waits
  unfold Kernel.osWaitEvent Kernel.osGetRunningTid at registers
  rw [if_pos ⟨available, known⟩] at registers
  obtain ⟨tasks, marks, same⟩ := bind_eq_ok_iff.mp registers
  rw [TaskTable.osTaskWaitEvent_eq] at marks
  split_ifs at marks
  rw [← Except.ok.inj yields, ← Except.ok.inj same, ← Except.ok.inj marks]
  refine ⟨?_, rfl⟩
  unfold Kernel.osYield Kernel.osFreeTid Kernel.modifyRunning
    Kernel.osGetRunningTid
  dsimp only
  rw [TaskTable.modify_taskList_self, TaskTable.modify_taskList_self]
  rfl

/-- A message whose delay ends during the callback is missed: the task waits
beside a message that it could have received. -/
theorem receive_callback_misses_iff
    {taskId : UInt8} {pMsg : Msg β} {line : UInt16} {calls : List Call}
    (reachable : ReachableSys cfg s)
    (found : s.kernel.queues.osMsgQFind cfg taskId.toNat = queue)
    (ring : s.kernel.HasRing cfg queue)
    (known : (s.kernel.queues.msgQList queue).change < s.kernel.events.nEvents)
    (nothing : s.kernel.NothingReady cfg queue)
    (steps : openedStep cfg s
      (.task (.msgReceive taskId pMsg false) line calls) = .ok s') :
    (s'.frame s.kernel.runningTid).waits = some (taskId.toNat, .empty) ∧
      (s'.kernel.tasks.taskList s.kernel.runningTid).state = .waitingEvent ∧
      (s'.kernel.Stuck queue .empty ↔
        ∀ msg ∈ s.kernel.contents queue, calls.count .osTick < msg.delay) := by
  unfold openedStep at steps
  dsimp only at steps
  split_ifs at steps with runs
  obtain ⟨begun, rest, opens⟩ :
      ∃ begun rest, (TaskOp.msgReceive taskId pMsg false).opening cfg s
        line.toNat = some (begun, rest) := by
    have nothing' : (s.kernel.setWaitQueue cfg taskId.toNat).NothingReady cfg
        (s.kernel.queues.osMsgQFind cfg taskId.toNat) := found ▸ nothing
    have receives := Kernel.osMsgReceive_of_nothingReady nothing' pMsg
    unfold TaskOp.opening
    dsimp only
    rw [show (s.kernel.setWaitQueue cfg taskId.toNat).queues = s.kernel.queues
      from rfl, receives]
    exact ⟨_, _, rfl⟩
  rw [opens] at steps
  dsimp only at steps
  obtain ⟨k₂, atOpening, waits⟩ := bind_eq_ok_iff.mp steps
  have related := related_calls reachable runs opens calls
  rw [atOpening] at related
  generalize before : run (callStep cfg) s.kernel calls = first at related
  cases related with
  | @value k₁ _ both =>
      obtain ⟨same, apart⟩ := both
      obtain ⟨_, _, _, rfl⟩ := opening_msgReceive opens
      obtain ⟨k', returns, rfl⟩ := map_eq_ok_iff.mp waits
      have event : s.kernel.queues.osMsgQEventGet cfg queue =
          (s.kernel.queues.msgQList queue).change := by
        unfold QueueTable.osMsgQEventGet
        rw [if_pos ring.1.1, if_neg (Nat.not_le.mpr ring.1.2)]
      have available : 0 < cfg.nTotalEvents :=
        Nat.zero_lt_of_lt ((reachable_sound reachable).queues.known queue ring.1)
      have known' : (s.kernel.queues.msgQList queue).change < k₂.events.nEvents := by
        rw [apart.marked]
        exact known.trans_eq same.nEvents.symm
      rw [found, event] at returns
      obtain ⟨state, queues⟩ := osWaitSingleEvent_registers available known' returns
      rw [show k₂.runningTid = s.kernel.runningTid by rw [apart.marked]; rfl]
        at state
      refine ⟨?_, state, ?_⟩
      · unfold Sys.leaveMacro Sys.setFrame Kernel.osGetRunningTid
        rw [if_pos rfl]
        dsimp only
        rw [Function.update_self]
        rfl
      · have contents : k'.contents queue = k₁.contents queue := by
          unfold Kernel.contents
          rw [queues, apart.queues]
        change (∀ msg ∈ k'.contents queue, msg.delay ≠ 0) ↔ _
        rw [contents, contents_of_calls reachable ring.1 before]
        simp only [List.forall_mem_map]
        exact forall₂_congr fun msg _ => by omega

end

/-- The first task posts itself a message with a delay of one tick and receives;
the clock ticks in its callback. -/
theorem receive_callback_misses_iff_setUp :
    ∃ s s' : Sys Nat,
      run (step (Config.small false)) (Sys.boot (Config.small false))
        (setUp 1 2 3 ++ [.osSchedule,
          .task (.msgPost 0 ⟨1, 0, 0, 7⟩ 1 0 false) 4]) = .ok s ∧
      openedStep (Config.small false) s
        (.task (.msgReceive 0 ⟨0, 0, 0, 0⟩ false) 5 [.osTick]) = .ok s' ∧
      (s'.kernel.tasks.taskList 0).state = .waitingEvent ∧
      ¬ s'.kernel.Stuck 0 .empty := by
  obtain ⟨s, s', before, steps, checked⟩ := exists_pair_of_returnsWith
    (run (step (Config.small false)) (Sys.boot (Config.small false))
      (setUp 1 2 3 ++ [.osSchedule,
        .task (.msgPost 0 ⟨1, 0, 0, 7⟩ 1 0 false) 4]))
    (fun s => openedStep (Config.small false) s
      (.task (.msgReceive 0 ⟨0, 0, 0, 0⟩ false) 5 [.osTick]))
    (fun states : Sys Nat × Sys Nat =>
      let k := states.1.kernel
      let q := (k.queues.msgQList 0).q
      decide (k.runningTid = 0 ∧
        k.queues.osMsgQFind (Config.small false) (0 : UInt8).toNat = 0 ∧
        0 < k.queues.nQueues ∧ 2 ≤ q.size ∧
        (k.queues.msgQList 0).change < k.events.nEvents ∧
        ∃ msg ∈ k.contents 0, msg.delay ≤ 1) &&
      returnsWith id q.msgQAllDelayed)
    (by decide +kernel)
  obtain ⟨facts, delayed⟩ := (Bool.and_eq_true ..).mp checked
  obtain ⟨runs, found, created, two, known, msg, inside, due⟩ :=
    of_decide_eq_true facts
  have ring : s.kernel.HasRing (Config.small false) 0 := ⟨⟨by decide, created⟩, two⟩
  have allDelayed : (s.kernel.queues.msgQList 0).q.msgQAllDelayed = .ok true := by
    obtain ⟨value, answers, holds⟩ := exists_of_returnsWith _ _ delayed
    rw [answers, show value = true from holds]
  obtain ⟨_, state, stuck⟩ := receive_callback_misses_iff (reachable_of_run before)
    found ring known ⟨by decide, created, .inr allDelayed⟩ steps
  rw [runs] at state
  refine ⟨s, s', before, steps, state, fun still => ?_⟩
  exact absurd (stuck.mp still msg inside) (Nat.not_lt.mpr due)

end CocoOs
