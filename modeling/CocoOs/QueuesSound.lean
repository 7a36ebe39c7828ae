import CocoOs.TaskView

/-!
# Consistency of the queue table

Every queue belongs to exactly one task, and the indices of a ring with at
least two slots stay inside it.  A queue of a single slot never leaves the
state its creation put it in: nothing can be posted to it.
-/

namespace CocoOs

open Foundation

variable {β : Type}

namespace Kernel

/-- The queue exists. -/
def HasQueue (cfg : Config) (k : Kernel β) (queue : Nat) : Prop :=
  0 < cfg.nQueues ∧ queue < k.queues.nQueues

/-- The indices of a ring: inside it, or as creation left them when the ring
has a single slot. -/
structure RingSound (q : OSQueue β) : Prop where
  sized : 0 < q.size
  valid : 2 ≤ q.size → q.Valid
  single : q.size = 1 → q.head = 1 ∧ q.tail = 0

/-- The queue table is consistent. -/
structure QueuesSound (cfg : Config) (k : Kernel β) : Prop where
  within : 0 < cfg.nQueues → k.queues.nQueues ≤ cfg.nQueues
  known : ∀ queue, k.HasQueue cfg queue →
    (k.queues.msgQList queue).change < cfg.nTotalEvents
  rings : ∀ queue, k.HasQueue cfg queue →
    RingSound (k.queues.msgQList queue).q
  owner : ∀ queue, k.HasQueue cfg queue →
    (k.queues.msgQList queue).taskId < k.tasks.nTasks ∧
    (k.tasks.taskList (k.queues.msgQList queue).taskId).msgQ = queue
  owned : 0 < cfg.nQueues → ∀ tid, tid < k.tasks.nTasks →
    (k.tasks.taskList tid).msgQ ≠ noQueue →
    (k.tasks.taskList tid).msgQ < k.queues.nQueues ∧
    (k.queues.msgQList (k.tasks.taskList tid).msgQ).taskId = tid

theorem QueuesSound.nQueues_le_noQueue
    {cfg : Config} {k : Kernel β} (sound : k.QueuesSound cfg)
    (some : 0 < cfg.nQueues) :
    k.queues.nQueues ≤ noQueue := by
  have bound := sound.within some
  have small := cfg.nQueues_lt
  unfold noQueue
  omega

/-- The id of a queue is not `NO_QUEUE`. -/
theorem QueuesSound.ne_noQueue
    {cfg : Config} {k : Kernel β} (sound : k.QueuesSound cfg)
    {queue : Nat} (exists_ : k.HasQueue cfg queue) :
    queue ≠ noQueue :=
  Nat.ne_of_lt (exists_.2.trans_le (sound.nQueues_le_noQueue exists_.1))

theorem QueuesSound.ready
    {cfg : Config} {k : Kernel β} (sound : k.QueuesSound cfg)
    {queue : Nat} (exists_ : k.HasQueue cfg queue)
    (two : 2 ≤ (k.queues.msgQList queue).q.size) :
    k.QueueReady cfg queue :=
  ⟨exists_.2, (sound.rings queue exists_).valid two, sound.known queue exists_⟩

/-- An action on the task table keeps the queue table consistent. -/
theorem QueuesSound.of_tasks
    {cfg : Config} {k k' : Kernel β} (sound : k.QueuesSound cfg)
    (queues : k'.queues = k.queues)
    (nTasks : k'.tasks.nTasks = k.tasks.nTasks)
    (msgQ : ∀ tid, tid < k.tasks.nTasks →
      (k'.tasks.taskList tid).msgQ = (k.tasks.taskList tid).msgQ) :
    k'.QueuesSound cfg := by
  obtain ⟨within, known, rings, owner, owned⟩ := sound
  refine ⟨?_, ?_, ?_, ?_, ?_⟩
  · rw [queues]
    exact within
  · unfold HasQueue
    rw [queues]
    exact known
  · unfold HasQueue
    rw [queues]
    exact rings
  · unfold HasQueue
    rw [queues, nTasks]
    intro queue inside
    obtain ⟨created, owns⟩ := owner queue inside
    exact ⟨created, (msgQ _ created).trans owns⟩
  · rw [queues, nTasks]
    intro some tid created
    rw [msgQ tid created]
    exact owned some tid created

/-- A sound ring in the place of another keeps the queue table consistent. -/
theorem QueuesSound.of_ring
    {cfg : Config} {k k' : Kernel β} (sound : k.QueuesSound cfg)
    (queue : Nat) (q : OSQueue β)
    (queues : k'.queues = k.queues.setQueue queue q)
    (tasks : k'.tasks = k.tasks)
    (ring : k.HasQueue cfg queue → RingSound q) :
    k'.QueuesSound cfg := by
  obtain ⟨within, known, rings, owner, owned⟩ := sound
  refine ⟨?_, ?_, ?_, ?_, ?_⟩
  · rw [queues]
    exact within
  · unfold HasQueue
    rw [queues]
    intro other inside
    rw [QueueTable.setQueue_change]
    exact known other inside
  · unfold HasQueue
    rw [queues]
    intro other inside
    by_cases same : other = queue
    · subst same
      rw [QueueTable.setQueue_q]
      exact ring inside
    · rw [QueueTable.setQueue_of_ne _ _ same]
      exact rings other inside
  · unfold HasQueue
    rw [queues, tasks]
    intro other inside
    rw [QueueTable.setQueue_taskId]
    exact owner other inside
  · rw [queues, tasks]
    simpa using owned

/-! ## Rings of a single slot -/

/-- Nothing can be posted to a queue of a single slot. -/
theorem osMsgPost_single
    {cfg : Config} {k k' : Kernel β} {queue delay period : Nat}
    {msg armed : Msg β}
    (sized : (k.queues.msgQList queue).q.size = 1)
    (head : (k.queues.msgQList queue).q.head = 1)
    (tail : (k.queues.msgQList queue).q.tail = 0) :
    k.osMsgPost cfg msg queue delay period ≠ .ok (.posted, armed, k') := by
  unfold osMsgPost OSQueue.queuePush OSQueue.write
  by_cases queues : 0 < cfg.nQueues
  · by_cases undefined : k.queues.nQueues ≤ queue
    · simp [queues, undefined]
    · simp [queues, undefined, sized, head, tail]
  · simp [queues]

/-- A receive from a queue of a single slot leaves its ring alone. -/
theorem receiveLoop_single
    {fuel tail : Nat} {q : OSQueue β} {delivery : OSQueue.Delivery β}
    (sized : q.size = 1)
    (head : q.head = 1)
    (returns : OSQueue.receiveLoop fuel tail q = .ok delivery) :
    delivery.q = q ∧ delivery.tail = 0 := by
  cases fuel with
  | zero => cases returns
  | succ fuel =>
      unfold OSQueue.receiveLoop OSQueue.write at returns
      simp only [sized, head, Nat.mod_one, Nat.lt_irrefl, if_false, error_bind]
        at returns
      by_cases ready : (q.list 0).delay = 0
      · by_cases periodic : 0 < (q.list 0).reload
        · simp [ready, periodic] at returns
        · simp only [ready, periodic, not_true_eq_false, false_and, or_self,
            if_false, if_true, ok_bind, Except.ok.injEq] at returns
          exact ⟨by rw [← returns], by rw [← returns]⟩
      · simp [ready] at returns

/-! ## The queue functions -/

theorem RingSound.of_holds
    {q q' : OSQueue β} {messages : List (Msg β)}
    (holds : q'.Holds messages)
    (sized : q'.size = q.size)
    (two : 2 ≤ q.size) : RingSound q' where
  sized := by omega
  valid := fun _ => holds.valid
  single := by omega

theorem QueuesSound.of_post
    {cfg : Config} {k k' : Kernel β} (sound : k.QueuesSound cfg)
    {queue delay period : Nat} {msg armed : Msg β} {result : MsgResult}
    (returns : k.osMsgPost cfg msg queue delay period =
      .ok (result, armed, k')) :
    k'.QueuesSound cfg := by
  rcases osMsgPost_cases returns with
    ⟨_, rfl⟩ | ⟨rfl, queues, inside, _⟩
  · exact sound
  · have ring := sound.rings queue ⟨queues, inside⟩
    have sized := ring.sized
    by_cases two : 2 ≤ (k.queues.msgQList queue).q.size
    · have ready := sound.ready ⟨queues, inside⟩ two
      rcases (ready.post_cases queues returns).2 with
        ⟨_, rfl, _⟩ | ⟨_, _, q', holds', size', rfl⟩
      · exact sound
      · exact sound.of_ring queue q' rfl rfl
          fun _ => RingSound.of_holds holds' size' two
    · obtain ⟨head, tail⟩ := ring.single (by omega)
      exact absurd returns (osMsgPost_single (by omega) head tail)

/-- A receive leaves the ring of a single-slot queue as it was. -/
theorem osMsgReceive_single
    {cfg : Config} {k k' : Kernel β} {queue : Nat}
    {pMsg buffer : Msg β} {result : MsgResult}
    (sized : (k.queues.msgQList queue).q.size = 1)
    (head : (k.queues.msgQList queue).q.head = 1)
    (tail : (k.queues.msgQList queue).q.tail = 0)
    (returns : k.osMsgReceive cfg pMsg queue = .ok (result, buffer, k')) :
    k'.queues = k.queues ∧ k'.tasks = k.tasks := by
  rcases osMsgReceive_cases returns with
    ⟨_, _, rfl⟩ | ⟨rfl, queues, inside, _⟩
  · exact ⟨rfl, rfl⟩
  · unfold osMsgReceive at returns
    dsimp only at returns
    rw [if_pos queues, if_neg (Nat.not_le.mpr inside)] at returns
    split_ifs at returns with empty
    · cases returns
    · rw [bind_eq_ok_iff] at returns
      obtain ⟨allDelayed, _, returns⟩ := returns
      split_ifs at returns
      · cases returns
      · simp only [bind_eq_ok_iff, Except.ok.injEq, Prod.mk.injEq] at returns
        obtain ⟨delivery, loops, _, _, rfl⟩ := returns
        obtain ⟨sameRing, sameTail⟩ := receiveLoop_single sized head loops
        refine ⟨?_, rfl⟩
        simp only [record, sameRing, sameTail, ← tail]
        exact QueueTable.setQueue_self _ _

theorem QueuesSound.of_receive
    {cfg : Config} {k k' : Kernel β} (sound : k.QueuesSound cfg)
    {queue : Nat} {pMsg buffer : Msg β} {result : MsgResult}
    (returns : k.osMsgReceive cfg pMsg queue = .ok (result, buffer, k')) :
    k'.QueuesSound cfg := by
  rcases osMsgReceive_cases returns with
    ⟨_, _, rfl⟩ | ⟨rfl, queues, inside, _⟩
  · exact sound
  · have ring := sound.rings queue ⟨queues, inside⟩
    have sized := ring.sized
    by_cases two : 2 ≤ (k.queues.msgQList queue).q.size
    · have ready := sound.ready ⟨queues, inside⟩ two
      rcases ready.receive_cases queues returns with
        ⟨_, _, rfl, _⟩ | ⟨_, skipped, msg, later, q', _, _, holds', size', rfl⟩
      · exact sound
      · exact sound.of_ring queue q' rfl rfl
          fun _ => RingSound.of_holds holds' size' two
    · obtain ⟨head, tail⟩ := ring.single (by omega)
      obtain ⟨sameQueues, sameTasks⟩ :=
        osMsgReceive_single (by omega) head tail returns
      exact sound.of_tasks sameQueues (by rw [sameTasks])
        (fun tid _ => by rw [sameTasks])

/-! ## Creation -/

/-- The ring of a queue just created. -/
theorem RingSound.created (buffer : Nat → Msg β) {nMessages msgSize : Nat}
    (positive : 0 < nMessages) :
    RingSound
      { list := buffer, head := 1, tail := 0, size := nMessages,
        messageSize := msgSize } where
  sized := positive
  valid := fun two => ⟨positive, two⟩
  single := fun _ => ⟨rfl, rfl⟩

/-- A new task without a queue keeps the queue table consistent. -/
theorem QueuesSound.of_newTask
    {cfg : Config} {k k' : Kernel β} (sound : k.QueuesSound cfg)
    (queues : 0 < cfg.nQueues → k'.queues = k.queues)
    (nTasks : k'.tasks.nTasks = k.tasks.nTasks + 1)
    (old : ∀ tid, tid < k.tasks.nTasks →
      k'.tasks.taskList tid = k.tasks.taskList tid)
    (new : 0 < cfg.nQueues →
      (k'.tasks.taskList k.tasks.nTasks).msgQ = noQueue) :
    k'.QueuesSound cfg where
  within := fun some => by
    rw [queues some]
    exact sound.within some
  known := fun queue inside => by
    have inOld : k.HasQueue cfg queue := ⟨inside.1, queues inside.1 ▸ inside.2⟩
    rw [queues inside.1]
    exact sound.known queue inOld
  rings := fun queue inside => by
    have inOld : k.HasQueue cfg queue := ⟨inside.1, queues inside.1 ▸ inside.2⟩
    rw [queues inside.1]
    exact sound.rings queue inOld
  owner := fun queue inside => by
    have inOld : k.HasQueue cfg queue := ⟨inside.1, queues inside.1 ▸ inside.2⟩
    rw [queues inside.1, nTasks]
    obtain ⟨created, owns⟩ := sound.owner queue inOld
    exact ⟨Nat.lt_succ_of_lt created, by rw [old _ created, owns]⟩
  owned := fun some tid created hasQueue => by
    rw [nTasks] at created
    rw [queues some]
    by_cases last : tid = k.tasks.nTasks
    · subst last
      exact absurd (new some) hasQueue
    · have before : tid < k.tasks.nTasks := by omega
      rw [old tid before] at hasQueue ⊢
      exact sound.owned some tid before hasQueue

/-- A new task with the next queue keeps the queue table consistent. -/
theorem QueuesSound.of_newQueue
    {cfg : Config} {k k' : Kernel β} (sound : k.QueuesSound cfg)
    {created : OSMsgQ β}
    (room : k.queues.nQueues < cfg.nQueues)
    (ring : RingSound created.q)
    (taskId : created.taskId = k.tasks.nTasks)
    (known : created.change < cfg.nTotalEvents)
    (nQueues : k'.queues.nQueues = k.queues.nQueues + 1)
    (msgQList : k'.queues.msgQList =
      Function.update k.queues.msgQList k.queues.nQueues created)
    (nTasks : k'.tasks.nTasks = k.tasks.nTasks + 1)
    (old : ∀ tid, tid < k.tasks.nTasks →
      k'.tasks.taskList tid = k.tasks.taskList tid)
    (new : (k'.tasks.taskList k.tasks.nTasks).msgQ = k.queues.nQueues) :
    k'.QueuesSound cfg := by
  have some : 0 < cfg.nQueues := by omega
  have atNew : k'.queues.msgQList k.queues.nQueues = created := by
    rw [msgQList, Function.update_self]
  have atOld : ∀ queue, queue < k.queues.nQueues →
      k'.queues.msgQList queue = k.queues.msgQList queue := by
    intro queue before
    rw [msgQList, Function.update_of_ne (Nat.ne_of_lt before)]
  -- a queue of the new table is the new one or one of the old table
  have split : ∀ queue, k'.HasQueue cfg queue →
      queue = k.queues.nQueues ∨ queue < k.queues.nQueues := by
    rintro queue ⟨_, inside⟩
    omega
  refine ⟨fun _ => by omega, fun queue inside => ?_, fun queue inside => ?_,
    fun queue inside => ?_, fun _ tid createdTask hasQueue => ?_⟩
  · rcases split queue inside with rfl | before
    · rw [atNew]
      exact known
    · rw [atOld queue before]
      exact sound.known queue ⟨some, before⟩
  · rcases split queue inside with rfl | before
    · rw [atNew]
      exact ring
    · rw [atOld queue before]
      exact sound.rings queue ⟨some, before⟩
  · rcases split queue inside with rfl | before
    · rw [atNew, taskId, nTasks]
      exact ⟨Nat.lt_succ_self _, new⟩
    · rw [atOld queue before, nTasks]
      obtain ⟨ownerCreated, owns⟩ := sound.owner queue ⟨some, before⟩
      exact ⟨Nat.lt_succ_of_lt ownerCreated, by rw [old _ ownerCreated, owns]⟩
  · rw [nTasks] at createdTask
    by_cases last : tid = k.tasks.nTasks
    · subst last
      rw [new, atNew]
      exact ⟨by omega, taskId⟩
    · have before : tid < k.tasks.nTasks := by omega
      rw [old tid before] at hasQueue ⊢
      obtain ⟨inside, owns⟩ := sound.owned some tid before hasQueue
      rw [atOld _ inside]
      exact ⟨by omega, owns⟩

theorem QueuesSound.of_osTaskCreate
    {cfg : Config} {k k' : Kernel β} (sound : k.QueuesSound cfg)
    {taskproc data prio : Nat} {msgPool : Nat → Msg β}
    {poolSize msgSize tid : Nat}
    (returns : k.osTaskCreate cfg taskproc data prio msgPool poolSize msgSize =
      .ok (tid, k')) :
    k'.QueuesSound cfg := by
  have frame := (osTaskCreate_frame returns).1
  obtain ⟨_, _, _, _, msgQ, kq, source, rfl⟩ := osTaskCreate_cases returns
  rcases source with ⟨_, rfl, rfl⟩ | ⟨pool, creates⟩
  · refine sound.of_newTask (fun _ => rfl) rfl frame.taskList fun _ => ?_
    simp [newTcb, Tcb.clearWaitQueue]
  · rcases osMsgQCreate_cases creates with
      ⟨none, _, rfl⟩ | ⟨room, rfl, change, events, known, _, rfl⟩
    · refine sound.of_newTask (fun _ => rfl) rfl frame.taskList fun some => ?_
      omega
    · refine sound.of_newQueue room (RingSound.created msgPool pool) rfl known
        rfl rfl rfl frame.taskList ?_
      simp [newTcb, Tcb.clearWaitQueue]

theorem QueuesSound.of_creation
    {cfg : Config} {k k' : Kernel β} (sound : k.QueuesSound cfg)
    {creation : Creation β}
    (creates : creationStep cfg k creation = .ok k') :
    k'.QueuesSound cfg := by
  cases creation with
  | osTaskCreate taskproc data prio msgPool poolSize msgSize =>
      obtain ⟨⟨tid, made⟩, returns, rfl⟩ := map_eq_ok_iff.mp creates
      exact sound.of_osTaskCreate returns
  | eventCreate | semBinCreate | semCountingCreate =>
      obtain ⟨made, _, rfl⟩ := map_eq_ok_iff.mp creates
      exact sound.of_tasks rfl rfl fun _ _ => rfl

/-! ## Every action -/

/-- The static fields determine the message queue of a task. -/
theorem msgQ_of_static {task task' : Tcb} (same : task'.static = task.static) :
    task'.msgQ = task.msgQ := by
  unfold Tcb.static at same
  simp only [Prod.mk.injEq] at same
  exact same.2.2.2.1

/-- Every action keeps the queue table consistent. -/
theorem QueuesSound.of_micro
    {cfg : Config} {k k' : Kernel β} {act : Act β}
    (sound : k.QueuesSound cfg)
    (acts : Micro cfg k act k') :
    k'.QueuesSound cfg := by
  have sameTask : ∀ tid, tid < k.tasks.nTasks →
      (k'.tasks.taskList tid).msgQ = (k.tasks.taskList tid).msgQ := by
    intro tid created
    rw [acts.taskList created]
    exact msgQ_of_static (act.static_onTask cfg tid _)
  cases acts with
  | create creation creates => exact sound.of_creation creates
  | select _ selects _ =>
      obtain ⟨nTasks, _, _, _, _, queues, _⟩ := selectTask_frame selects
      exact sound.of_tasks queues nTasks sameTask
  | age ready aged =>
      refine sound.of_ring _ _ rfl rfl fun hasQueue => ?_
      have ring := sound.rings _ hasQueue
      refine ⟨aged.size ▸ ring.sized, fun _ => aged.holds.valid, fun single => ?_⟩
      rw [aged.size] at single
      rw [aged.head, aged.tail]
      exact ring.single single
  | post returns => exact sound.of_post returns
  | receive returns _ => exact sound.of_receive returns
  | _ => exact sound.of_tasks rfl rfl sameTask

/-- `os_init` leaves no queue. -/
theorem queuesSound_osInit (cfg : Config) (k : Kernel β) :
    (osInit cfg k).QueuesSound cfg := by
  have none : ∀ queue, ¬ (osInit cfg k).HasQueue cfg queue := by
    rintro queue ⟨some, inside⟩
    simp [osInit, QueueTable.osMsgQInit, some] at inside
  refine ⟨fun some => ?_, fun queue inside => absurd inside (none queue),
    fun queue inside => absurd inside (none queue),
    fun queue inside => absurd inside (none queue), fun _ tid created => ?_⟩
  · simp [osInit, QueueTable.osMsgQInit, some]
  · exact absurd created (Nat.not_lt_zero tid)

end Kernel

end CocoOs
