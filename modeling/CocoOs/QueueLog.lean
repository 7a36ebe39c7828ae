import CocoOs.RunTrace

/-!
# The messages of a queue and the history

What a queue holds can be read off the history: the messages it accepted, less
those it delivered, each as old as the ticks of the master clock since.  Every
`os_tick` ages every queue exactly once, and the sub clocks age none.
-/

namespace CocoOs

open Foundation

variable {β : Type}

/-! ## Logs -/

/-- The entry is about the queue, or a tick of the master clock. -/
def Entry.Concerns (queue : Nat) : Entry β → Prop
  | .posted other _ | .received other _ => other = queue
  | .ticked => True
  | .signalled _ => False

/-- A queue with this log holds these messages. -/
inductive QueueLog (queue : Nat) : List (Entry β) → List (Msg β) → Prop
  | empty : QueueLog queue [] []
  | posted {log : List (Entry β)} {messages : List (Msg β)}
      (before : QueueLog queue log messages) (msg : Msg β) :
      QueueLog queue (log ++ [.posted queue msg]) (messages ++ [msg])
  | received {log : List (Entry β)} {skipped later : List (Msg β)}
      {msg : Msg β}
      (before : QueueLog queue log (skipped ++ msg :: later))
      (delayed : ∀ earlier ∈ skipped, earlier.delayed = true)
      (ready : msg.delay = 0) :
      QueueLog queue (log ++ [.received queue msg])
        (later ++ skipped ++ msg.putBack)
  | ticked {log : List (Entry β)} {messages : List (Msg β)}
      (before : QueueLog queue log messages) :
      QueueLog queue (log ++ [.ticked]) (messages.map Msg.age)
  | other {log : List (Entry β)} {messages : List (Msg β)} {entry : Entry β}
      (before : QueueLog queue log messages)
      (foreign : ¬ entry.Concerns queue) :
      QueueLog queue (log ++ [entry]) messages

/-- Entries about other things change nothing. -/
theorem QueueLog.others
    {queue : Nat} {log more : List (Entry β)} {messages : List (Msg β)}
    (before : QueueLog queue log messages)
    (foreign : ∀ entry ∈ more, ¬ entry.Concerns queue) :
    QueueLog queue (log ++ more) messages := by
  induction more generalizing log with
  | nil => simpa using before
  | cons entry more inductionHypothesis =>
      rw [List.append_cons]
      apply inductionHypothesis (before.other (foreign entry (List.mem_cons_self ..)))
      exact fun entry inside => foreign entry (List.mem_cons_of_mem _ inside)

/-! ## Rings -/

namespace Kernel

/-- The queue exists and has at least two slots. -/
def HasRing (cfg : Config) (k : Kernel β) (queue : Nat) : Prop :=
  k.HasQueue cfg queue ∧ 2 ≤ (k.queues.msgQList queue).q.size

theorem HasRing.of_queues
    {cfg : Config} {k k' : Kernel β} {queue : Nat}
    (ring : k.HasRing cfg queue)
    (same : k'.queues = k.queues) :
    k'.HasRing cfg queue := by
  unfold HasRing HasQueue at ring ⊢
  rwa [same]

theorem contents_of_queues
    {k k' : Kernel β} (queue : Nat)
    (same : k'.queues = k.queues) :
    k'.contents queue = k.contents queue := by
  unfold contents
  rw [same]

/-- A ring in the place of another changes no other queue. -/
theorem contents_setRing_of_ne
    (k : Kernel β) (q : OSQueue β) {queue other : Nat} (different : other ≠ queue) :
    (k.setRing queue q).contents other = k.contents other := by
  unfold contents
  rw [setRing_queues, k.queues.setQueue_of_ne q different]

theorem contents_setRing_self
    (k : Kernel β) {q : OSQueue β} {queue : Nat} {messages : List (Msg β)}
    (holds : q.Holds messages) :
    (k.setRing queue q).contents queue = messages := by
  unfold contents
  rw [setRing_queues, QueueTable.setQueue_q]
  exact holds.contents_eq

end Kernel

/-- A creation leaves the queues there are, and may add one that is empty. -/
theorem creationStep_queues
    {cfg : Config} {k k' : Kernel β} {creation : Creation β}
    (creates : creationStep cfg k creation = .ok k') :
    k'.queues = k.queues ∨
    ∃ created : OSMsgQ β, created.q.head = 1 ∧ created.q.tail = 0 ∧
      k'.queues =
        { msgQList :=
            Function.update k.queues.msgQList k.queues.nQueues created
          nQueues := k.queues.nQueues + 1 } := by
  cases creation with
  | osTaskCreate taskproc data prio msgPool poolSize msgSize =>
      obtain ⟨⟨tid, made⟩, returns, rfl⟩ := map_eq_ok_iff.mp creates
      obtain ⟨_, _, _, _, msgQ, kq, source, rfl⟩ :=
        Kernel.osTaskCreate_cases returns
      rcases source with ⟨_, _, rfl⟩ | ⟨_, queue⟩
      · exact .inl rfl
      · rcases Kernel.osMsgQCreate_cases queue with
          ⟨_, _, rfl⟩ | ⟨_, _, change, events, _, _, rfl⟩
        · exact .inl rfl
        · exact .inr ⟨_, rfl, rfl, rfl⟩
  | eventCreate | semBinCreate initial | semCountingCreate max initial =>
      obtain ⟨made, _, rfl⟩ := map_eq_ok_iff.mp creates
      exact .inl rfl

/-- A ring with the indices that creation sets is empty. -/
theorem OSQueue.contents_of_created
    {q : OSQueue β} (two : 2 ≤ q.size) (head : q.head = 1) (tail : q.tail = 0) :
    q.contents = [] := by
  have start := Ring.Represents.nil q.list (show 0 < q.size by omega)
  rw [Nat.mod_eq_of_lt (by omega)] at start
  have holds : q.Holds [] := by
    unfold Holds
    rw [head, tail]
    exact start
  exact holds.contents_eq

/-! ## Actions -/

/-- What an action does to the messages of a queue. -/
inductive Act.Shifts (queue : Nat) : Act β → List (Msg β) → List (Msg β) → Prop
  | post (messages : List (Msg β)) (msg : Msg β) :
      Act.Shifts queue (.post queue msg) messages (messages ++ [msg])
  | receive {skipped later : List (Msg β)} {msg : Msg β}
      (delayed : ∀ earlier ∈ skipped, earlier.delayed = true)
      (ready : msg.delay = 0) :
      Act.Shifts queue (.receive queue msg) (skipped ++ msg :: later)
        (later ++ skipped ++ msg.putBack)
  | age (messages : List (Msg β)) :
      Act.Shifts queue (.age queue) messages (messages.map Msg.age)
  | other {act : Act β} (messages : List (Msg β))
      (notAge : act ≠ .age queue)
      (foreign : ∀ entry ∈ act.entries, entry.Concerns queue → entry = .ticked) :
      Act.Shifts queue act messages messages

/-- Queues are never removed. -/
theorem Micro.hasQueue
    {cfg : Config} {k k' : Kernel β} {act : Act β} {queue : Nat}
    (created : k.HasQueue cfg queue)
    (acts : Micro cfg k act k') :
    k'.HasQueue cfg queue := by
  refine ⟨created.1, ?_⟩
  by_cases quiet : act.Quiet
  · rw [(acts.sameObjects quiet).nQueues]
    exact created.2
  · cases acts with
    | create creation creates =>
        rcases creationStep_queues creates with same | ⟨fresh, _, _, queues⟩
        · rw [same]
          exact created.2
        · rw [queues]
          exact Nat.lt_succ_of_lt created.2
    | _ => exact absurd trivial quiet

/-- A queue keeps its size. -/
theorem Micro.size
    {cfg : Config} {k k' : Kernel β} {act : Act β} {queue : Nat}
    (sound : k.QueuesSound cfg)
    (created : k.HasQueue cfg queue)
    (acts : Micro cfg k act k') :
    (k'.queues.msgQList queue).q.size = (k.queues.msgQList queue).q.size := by
  have ring := sound.rings queue created
  have sized := ring.sized
  have elsewhere : ∀ {other : Nat} (q : OSQueue β), queue ≠ other →
      ((k.setRing other q).queues.msgQList queue).q.size =
        (k.queues.msgQList queue).q.size := by
    intro other q apart
    rw [Kernel.setRing_queues, k.queues.setQueue_of_ne q apart]
  have here : ∀ q : OSQueue β, q.size = (k.queues.msgQList queue).q.size →
      ((k.setRing queue q).queues.msgQList queue).q.size =
        (k.queues.msgQList queue).q.size := by
    intro q same
    rw [Kernel.setRing_queues, QueueTable.setQueue_q, same]
  cases acts with
  | create creation creates =>
      rcases creationStep_queues creates with same | ⟨fresh, _, _, queues⟩
      · rw [same]
      · rw [queues]
        exact congrArg (fun entry : OSMsgQ β => entry.q.size)
          (Function.update_of_ne (Nat.ne_of_lt created.2) _ _)
  | select _ selects _ => rw [(Kernel.selectTask_frame selects).2.2.2.2.2.1]
  | @age other q _ aged =>
      by_cases same : queue = other
      · subst same
        exact here q aged.size
      · exact elsewhere q same
  | @post _ other msg armed delay period returns =>
      by_cases same : queue = other
      · subst same
        by_cases two : 2 ≤ (k.queues.msgQList queue).q.size
        · rcases ((sound.ready created two).post_cases created.1 returns).2 with
            ⟨wrong, _⟩ | ⟨_, _, q, _, size, rfl⟩
          · cases wrong
          · exact here q size
        · obtain ⟨head, tail⟩ := ring.single (by omega)
          exact absurd returns
            (Kernel.osMsgPost_single (by omega) head tail)
      · rcases Kernel.osMsgPost_cases returns with
          ⟨_, rfl⟩ | ⟨_, _, _, _, q, rfl⟩
        · rfl
        · exact elsewhere q same
  | @receive _ other pMsg buffer msg returns recorded =>
      by_cases same : queue = other
      · subst same
        by_cases two : 2 ≤ (k.queues.msgQList queue).q.size
        · rcases (sound.ready created two).receive_cases created.1 returns with
            ⟨wrong, _⟩ | ⟨_, _, _, _, q, _, _, _, size, rfl⟩
          · cases wrong
          · exact here q size
        · obtain ⟨head, tail⟩ := ring.single (by omega)
          rw [(Kernel.osMsgReceive_single (by omega) head tail returns).1]
      · rcases Kernel.osMsgReceive_cases returns with
          ⟨_, _, rfl⟩ | ⟨_, _, _, q, delivered, rfl⟩
        · rfl
        · exact elsewhere q same
  | _ => rfl

theorem Micro.size_of_trace
    {cfg : Config} {k k' : Kernel β} {acts : List (Act β)} {queue : Nat}
    (trace : Trace (Micro cfg) k acts k')
    (sound : k.Sound cfg)
    (created : k.HasQueue cfg queue) :
    (k'.queues.msgQList queue).q.size = (k.queues.msgQList queue).q.size := by
  have all := trace.invariant (fun _ => True)
    (fun later => later.Sound cfg ∧ later.HasQueue cfg queue ∧
      (later.queues.msgQList queue).q.size = (k.queues.msgQList queue).q.size)
    (fun _ _ _ _ holds acts =>
      ⟨holds.1.of_micro acts, acts.hasQueue holds.2.1,
        (acts.size holds.1.queues holds.2.1).trans holds.2.2⟩)
    (fun _ _ => trivial) ⟨sound, created, rfl⟩
  exact all.2.2

/-- A ring stays a ring. -/
theorem Micro.hasRing
    {cfg : Config} {k k' : Kernel β} {act : Act β} {queue : Nat}
    (sound : k.QueuesSound cfg)
    (ring : k.HasRing cfg queue)
    (acts : Micro cfg k act k') :
    k'.HasRing cfg queue := by
  refine ⟨acts.hasQueue ring.1, ?_⟩
  rw [acts.size sound ring.1]
  exact ring.2

/-- An action moves the messages of a ring. -/
theorem Micro.shifts
    {cfg : Config} {k k' : Kernel β} {act : Act β} {queue : Nat}
    (sound : k.QueuesSound cfg)
    (ring : k.HasRing cfg queue)
    (acts : Micro cfg k act k') :
    act.Shifts queue (k.contents queue) (k'.contents queue) := by
  have ready := sound.ready ring.1 ring.2
  have still : ∀ {act : Act β}, act ≠ .age queue → act.entries = [] →
      k'.contents queue = k.contents queue →
      act.Shifts queue (k.contents queue) (k'.contents queue) := by
    intro act notAge silent same
    rw [same]
    refine .other _ notAge ?_
    rw [silent]
    exact fun entry inside => absurd inside List.not_mem_nil
  cases acts with
  | create creation creates =>
      apply still (by simp) rfl
      rcases creationStep_queues creates with same | ⟨created, _, _, queues⟩
      · exact Kernel.contents_of_queues queue same
      · unfold Kernel.contents
        rw [queues]
        exact congrArg (fun entry : OSMsgQ β => entry.q.contents)
          (Function.update_of_ne (Nat.ne_of_lt ring.1.2) _ _)
  | select idle selects inside =>
      exact still (by simp) rfl (Kernel.contents_of_queues queue
        (Kernel.selectTask_frame selects).2.2.2.2.2.1)
  | @age other q _ aged =>
      by_cases same : queue = other
      · subst same
        rw [k.contents_setRing_self aged.holds]
        exact .age _
      · refine still (fun wrong => same ?_) rfl
          (k.contents_setRing_of_ne q same)
        simpa [eq_comm] using wrong
  | @post _ other msg armed delay period returns =>
      by_cases same : queue = other
      · subst same
        rcases (ready.post_cases ring.1.1 returns).2 with
          ⟨wrong, _⟩ | ⟨_, _, q, holds, _, rfl⟩
        · cases wrong
        · have contents : ((k.setRing queue q).record
              (.posted queue armed)).contents queue =
                k.contents queue ++ [armed] := k.contents_setRing_self holds
          rw [contents]
          exact .post _ armed
      · rcases Kernel.osMsgPost_cases returns with
          ⟨wrong, _⟩ | ⟨_, _, _, _, q, rfl⟩
        · exact absurd rfl wrong
        · have contents : ((k.setRing other q).record
              (.posted other armed)).contents queue = k.contents queue :=
            k.contents_setRing_of_ne q same
          rw [contents]
          refine .other _ (by simp) fun entry inside concerns => ?_
          rw [List.mem_singleton.mp inside] at concerns
          exact absurd concerns.symm same
  | @receive _ other pMsg buffer msg returns recorded =>
      by_cases same : queue = other
      · subst same
        rcases ready.receive_cases ring.1.1 returns with
          ⟨wrong, _⟩ | ⟨_, skipped, delivered, later, q, found, _, holds, _, rfl⟩
        · cases wrong
        · have delivers : delivered = msg := by
            simpa [Kernel.record, Kernel.setRing] using recorded
          subst delivers
          have contents : ((k.setRing queue q).record
              (.received queue delivered)).contents queue =
                later ++ skipped ++ delivered.putBack :=
            k.contents_setRing_self holds
          obtain ⟨split, delayed, now⟩ :=
            (OSQueue.firstReady_eq_some_iff _ _ _ _).mp found
          rw [contents, split]
          exact .receive delayed now
      · rcases Kernel.osMsgReceive_cases returns with
          ⟨wrong, _⟩ | ⟨_, _, _, q, delivered, rfl⟩
        · exact absurd rfl wrong
        · have contents : ((k.setRing other q).record
              (.received other delivered)).contents queue = k.contents queue :=
            k.contents_setRing_of_ne q same
          rw [contents]
          refine .other _ (by simp) fun entry inside concerns => ?_
          rw [List.mem_singleton.mp inside] at concerns
          exact absurd concerns.symm same
  | clock =>
      refine .other _ (by simp) fun entry inside _ => ?_
      exact List.mem_singleton.mp inside
  | signal events fits =>
      refine .other _ (by simp) fun entry inside concerns => ?_
      rw [List.mem_singleton.mp inside] at concerns
      exact concerns.elim
  | _ => exact still (by simp) rfl rfl

/-- Only a creation adds a ring, and it is empty. -/
theorem Micro.ring_cases
    {cfg : Config} {k k' : Kernel β} {act : Act β} {queue : Nat}
    (sound : k.QueuesSound cfg)
    (ring : k'.HasRing cfg queue)
    (acts : Micro cfg k act k') :
    k.HasRing cfg queue ∨
      ¬ act.Quiet ∧ ¬ k.HasQueue cfg queue ∧ k'.contents queue = [] := by
  by_cases created : k.HasQueue cfg queue
  · left
    refine ⟨created, ?_⟩
    rw [← acts.size sound created]
    exact ring.2
  · right
    have atLeast : k.queues.nQueues ≤ queue := by
      by_contra inside
      exact created ⟨ring.1.1, by omega⟩
    have inside := ring.1.2
    by_cases quiet : act.Quiet
    · rw [(acts.sameObjects quiet).nQueues] at inside
      omega
    · refine ⟨quiet, created, ?_⟩
      cases acts with
      | create creation creates =>
          rcases creationStep_queues creates with same | ⟨fresh, head, tail, queues⟩
          · rw [same] at inside
            omega
          · rw [queues] at inside
            dsimp only at inside
            have last : queue = k.queues.nQueues := by omega
            have here : k'.queues.msgQList queue = fresh := by
              rw [queues, last]
              exact Function.update_self ..
            have two := ring.2
            unfold Kernel.contents
            rw [here] at two ⊢
            exact OSQueue.contents_of_created two head tail
      | _ => exact absurd trivial quiet

/-- Nothing is posted to or received from a queue that does not exist. -/
theorem Micro.hasQueue_of_concerns
    {cfg : Config} {k k' : Kernel β} {act : Act β} {queue : Nat}
    (acts : Micro cfg k act k')
    (notClock : act ≠ .clock)
    {entry : Entry β} (inside : entry ∈ act.entries)
    (concerns : entry.Concerns queue) :
    k.HasQueue cfg queue := by
  cases acts with
  | post returns =>
      rw [List.mem_singleton.mp inside] at concerns
      rcases Kernel.osMsgPost_cases returns with
        ⟨wrong, _⟩ | ⟨_, queues, created, _⟩
      · exact absurd rfl wrong
      · exact concerns ▸ ⟨queues, created⟩
  | receive returns recorded =>
      rw [List.mem_singleton.mp inside] at concerns
      rcases Kernel.osMsgReceive_cases returns with
        ⟨wrong, _⟩ | ⟨_, queues, created, _⟩
      · exact absurd rfl wrong
      · exact concerns ▸ ⟨queues, created⟩
  | signal =>
      rw [List.mem_singleton.mp inside] at concerns
      exact concerns.elim
  | clock => exact absurd rfl notClock
  | _ => cases inside

/-! ## Kernels whose queues are those of the history -/

/-- The messages of the queues are those of the history, and a queue that does
not exist has no messages. -/
structure Kernel.Logged (cfg : Config) (k : Kernel β) : Prop where
  ring : ∀ queue, k.HasRing cfg queue →
    QueueLog queue k.history (k.contents queue)
  none : ∀ queue, ¬ k.HasQueue cfg queue → QueueLog queue k.history []

/-- An entry that does not concern the queue, at the end of a log. -/
theorem QueueLog.micro_other
    {cfg : Config} {k k' : Kernel β} {act : Act β} {queue : Nat}
    {messages : List (Msg β)}
    (log : QueueLog queue k.history messages)
    (acts : Micro cfg k act k')
    (foreign : ∀ entry ∈ act.entries, ¬ entry.Concerns queue) :
    QueueLog queue k'.history messages := by
  rw [acts.history]
  exact log.others foreign

/-- An action that neither counts nor delivers a tick keeps the messages those
of the history. -/
theorem QueueLog.of_micro
    {cfg : Config} {k k' : Kernel β} {act : Act β} {queue : Nat}
    (sound : k.QueuesSound cfg)
    (ring : k.HasRing cfg queue)
    (log : QueueLog queue k.history (k.contents queue))
    (acts : Micro cfg k act k')
    (notClock : act ≠ .clock)
    (notAge : ∀ other, act ≠ .age other) :
    QueueLog queue k'.history (k'.contents queue) := by
  have shifts := acts.shifts sound ring
  have history := acts.history
  generalize before : k.contents queue = messages at shifts log
  generalize after : k'.contents queue = messages' at shifts
  cases shifts with
  | post messages msg =>
      rw [history]
      exact log.posted msg
  | receive delayed ready =>
      rw [history]
      exact log.received delayed ready
  | age messages => exact absurd rfl (notAge queue)
  | other messages _ foreign =>
      apply log.micro_other acts
      intro entry inside concerns
      have tick := foreign entry inside concerns
      subst tick
      cases act with
      | clock => exact notClock rfl
      | signal | post | receive => cases List.mem_singleton.mp inside
      | _ => cases inside

/-- An action that neither counts nor delivers a tick keeps all logs. -/
theorem Kernel.Logged.of_micro
    {cfg : Config} {k k' : Kernel β} {act : Act β}
    (logged : k.Logged cfg)
    (sound : k.QueuesSound cfg)
    (acts : Micro cfg k act k')
    (notClock : act ≠ .clock)
    (notAge : ∀ other, act ≠ .age other) :
    k'.Logged cfg where
  ring := fun queue ring => by
    rcases acts.ring_cases sound ring with before | ⟨_, none, empty⟩
    · exact (logged.ring queue before).of_micro sound before acts notClock notAge
    · rw [empty]
      apply (logged.none queue none).micro_other acts
      intro entry inside concerns
      exact none (acts.hasQueue_of_concerns notClock inside concerns)
  none := fun queue none => by
    have before : ¬ k.HasQueue cfg queue := fun created =>
      none (acts.hasQueue created)
    apply (logged.none queue before).micro_other acts
    intro entry inside concerns
    exact before (acts.hasQueue_of_concerns notClock inside concerns)

/-! ## Ticks -/

/-- The action rewrites the ring of the queue. -/
def Act.Touches (queue : Nat) : Act β → Prop
  | .post other _ | .receive other _ | .age other => other = queue
  | _ => False

/-- Other actions leave the messages of a ring where they are. -/
theorem Micro.untouched_of_trace
    {cfg : Config} {k k' : Kernel β} {acts : List (Act β)} {queue : Nat}
    (trace : Trace (Micro cfg) k acts k')
    (sound : k.Sound cfg)
    (ring : k.HasRing cfg queue)
    (untouched : ∀ act ∈ acts, ¬ act.Touches queue) :
    k'.HasRing cfg queue ∧ k'.contents queue = k.contents queue := by
  have all := trace.invariant (fun act => ¬ act.Touches queue)
    (fun later => later.Sound cfg ∧ later.HasRing cfg queue ∧
      later.contents queue = k.contents queue)
    ?_ untouched ⟨sound, ring, rfl⟩
  · exact all.2
  · rintro later act next still ⟨soundLater, ringLater, same⟩ acts
    have kept := acts.hasRing soundLater.queues ringLater
    have shifts := acts.shifts soundLater.queues ringLater
    refine ⟨soundLater.of_micro acts, kept, Eq.trans ?_ same⟩
    generalize later.contents queue = messages at shifts
    generalize next.contents queue = messages' at shifts ⊢
    cases shifts with
    | post | receive | age => exact absurd rfl still
    | other => rfl

namespace Kernel

theorem not_touches_signalActs (cfg : Config) (event tid queue : Nat) :
    ∀ act ∈ signalActs (β := β) cfg event tid, ¬ act.Touches queue := by
  unfold signalActs
  split_ifs <;> simp [Act.Touches]

theorem not_touches_isrSignalActs (cfg : Config) (event times queue : Nat) :
    ∀ act ∈ isrSignalActs (β := β) cfg event times, ¬ act.Touches queue := by
  induction times with
  | zero => simp [isrSignalActs]
  | succ times inductionHypothesis =>
      intro act inside
      rcases List.mem_append.mp inside with here | later
      · exact not_touches_signalActs cfg event isrTid queue act here
      · exact inductionHypothesis act later

/-- An iteration of `task_tick` on another task leaves the ring alone. -/
theorem not_touches_taskTickActs
    (cfg : Config) (k : Kernel β) (clockId tickSize tid expired : Nat)
    {queue : Nat}
    (foreign : clockId = 0 → (k.tasks.taskList tid).msgQ ≠ queue) :
    ∀ act ∈ k.taskTickActs cfg clockId tickSize tid expired,
      ¬ act.Touches queue := by
  intro act inside
  unfold taskTickActs queueTickActs at inside
  rcases List.mem_cons.mp inside with rfl | later
  · exact id
  · split_ifs at later with aged
    · rcases List.mem_cons.mp later with rfl | signals
      · exact foreign aged.1
      · exact not_touches_isrSignalActs cfg _ _ queue act signals
    · cases later
    · cases later

/-- The ticks of a sub clock leave every ring alone. -/
theorem not_touches_tickActs
    (cfg : Config) (k : Kernel β) {clockId : Nat} (tickSize : Nat)
    (expired : Nat → Nat) (count queue : Nat) (sub : clockId ≠ 0) :
    ∀ act ∈ k.tickActs cfg clockId tickSize expired count,
      ¬ act.Touches queue := by
  intro act inside
  unfold tickActs at inside
  obtain ⟨tid, _, member⟩ := List.mem_flatMap.mp inside
  exact k.not_touches_taskTickActs cfg clockId tickSize tid (expired tid)
    (fun master => absurd master sub) act member

/-- A tick of the master clock ages a queue once: when its owner is ticked. -/
theorem tickActs_age
    {cfg : Config} {k : Kernel β} (sound : k.QueuesSound cfg)
    {queue : Nat} (created : k.HasQueue cfg queue)
    (expired : Nat → Nat) :
    ∃ before after,
      k.tickActs cfg 0 1 expired k.tasks.nTasks =
        before ++ .age queue :: after ∧
      (∀ act ∈ before, ¬ act.Touches queue) ∧
      ∀ act ∈ after, ¬ act.Touches queue := by
  obtain ⟨inside, owns⟩ := sound.owner queue created
  generalize owner : (k.queues.msgQList queue).taskId = tid at inside owns
  obtain ⟨lower, upper, split, notLower, notUpper⟩ := exists_range_split inside
  have isQueue := sound.ne_noQueue created
  -- another task owns another queue, or none
  have elsewhere : ∀ others : List Nat, tid ∉ others →
      (∀ other ∈ others, other < k.tasks.nTasks) →
      ∀ act ∈ others.flatMap fun other =>
        k.taskTickActs cfg 0 1 other (expired other),
      ¬ act.Touches queue := by
    intro others absent within act member
    obtain ⟨other, otherInside, member⟩ := List.mem_flatMap.mp member
    refine k.not_touches_taskTickActs cfg 0 1 other (expired other)
      (fun _ same => ?_) act member
    have owned := (sound.owned created.1 other (within other otherInside)
      (same ▸ isQueue)).2
    rw [same, owner] at owned
    exact absent (owned ▸ otherInside)
  have within : ∀ other ∈ lower ++ tid :: upper, other < k.tasks.nTasks :=
    fun other member => List.mem_range.mp (split ▸ member)
  refine ⟨(lower.flatMap fun other =>
      k.taskTickActs cfg 0 1 other (expired other)) ++ [.tick tid 0 1],
    isrSignalActs cfg (k.queues.msgQList queue).change (expired tid) ++
      upper.flatMap fun other => k.taskTickActs cfg 0 1 other (expired other),
    ?_, fun act member => ?_, fun act member => ?_⟩
  · unfold tickActs
    rw [split, List.flatMap_append, List.flatMap_cons]
    have own : k.taskTickActs cfg 0 1 tid (expired tid) =
        .tick tid 0 1 :: .age queue ::
          isrSignalActs cfg (k.queues.msgQList queue).change (expired tid) := by
      unfold taskTickActs queueTickActs
      rw [owns, if_pos ⟨rfl, isQueue⟩, if_pos created.1]
    rw [own]
    simp
  · rcases List.mem_append.mp member with others | own
    · exact elsewhere lower notLower
        (fun other inside => within other (List.mem_append_left _ inside))
        act others
    · rw [List.mem_singleton.mp own]
      exact id
  · rcases List.mem_append.mp member with own | others
    · exact not_touches_isrSignalActs cfg _ _ queue act own
    · exact elsewhere upper notUpper
        (fun other inside => within other
          (List.mem_append_right _ (List.mem_cons_of_mem _ inside)))
        act others

theorem silent_signalActs (cfg : Config) (event tid queue : Nat) :
    ∀ act ∈ signalActs (β := β) cfg event tid,
      ∀ entry ∈ act.entries, ¬ entry.Concerns queue := by
  unfold signalActs
  split_ifs <;> simp [Act.entries, Entry.Concerns]

theorem silent_isrSignalActs (cfg : Config) (event times queue : Nat) :
    ∀ act ∈ isrSignalActs (β := β) cfg event times,
      ∀ entry ∈ act.entries, ¬ entry.Concerns queue := by
  induction times with
  | zero => simp [isrSignalActs]
  | succ times inductionHypothesis =>
      intro act inside
      rcases List.mem_append.mp inside with here | later
      · exact silent_signalActs cfg event isrTid queue act here
      · exact inductionHypothesis act later

/-- Ticks add nothing to the log of a queue but the tick of the master clock
itself. -/
theorem silent_tickActs
    (cfg : Config) (k : Kernel β) (clockId tickSize : Nat)
    (expired : Nat → Nat) (count queue : Nat) :
    ∀ act ∈ k.tickActs cfg clockId tickSize expired count,
      ∀ entry ∈ act.entries, ¬ entry.Concerns queue := by
  intro act inside
  unfold tickActs at inside
  obtain ⟨tid, _, member⟩ := List.mem_flatMap.mp inside
  unfold taskTickActs queueTickActs at member
  rcases List.mem_cons.mp member with rfl | later
  · intro entry recorded
    cases recorded
  · split_ifs at later
    · rcases List.mem_cons.mp later with rfl | signals
      · intro entry recorded
        cases recorded
      · exact silent_isrSignalActs cfg _ _ queue act signals
    · cases later
    · cases later

/-- `os_tick` ages the messages of every ring by one tick. -/
theorem contents_of_osTick
    {cfg : Config} {k k' : Kernel β} {expired : Nat → Nat} {queue : Nat}
    (sound : k.Sound cfg)
    (ring : k.HasRing cfg queue)
    (trace : Trace (Micro cfg) k
      (.clock :: k.tickActs cfg 0 1 expired k.tasks.nTasks) k') :
    k'.contents queue = (k.contents queue).map Msg.age := by
  obtain ⟨before, after, split, earlier, later⟩ :=
    tickActs_age sound.queues ring.1 expired
  rw [split, ← List.cons_append] at trace
  obtain ⟨ticked, first, rest⟩ := trace.exists_middle
  have soundTicked := sound.of_trace first
  obtain ⟨ringTicked, same⟩ :=
    Micro.untouched_of_trace first sound ring fun act inside => by
      rcases List.mem_cons.mp inside with rfl | member
      · exact id
      · exact earlier act member
  cases rest with
  | cons ages rest =>
      have ringAged := ages.hasRing soundTicked.queues ringTicked
      have shifts := ages.shifts soundTicked.queues ringTicked
      have aged := (Micro.untouched_of_trace rest (soundTicked.of_micro ages)
        ringAged later).2
      rw [aged, ← same]
      generalize ticked.contents queue = messages at shifts ⊢
      generalize Kernel.contents _ queue = messages' at shifts ⊢
      cases shifts with
      | age => rfl
      | other _ notAge => exact absurd rfl notAge

/-- `os_tick` keeps all logs. -/
theorem Logged.of_osTick
    {cfg : Config} {k k' : Kernel β} {expired : Nat → Nat}
    (logged : k.Logged cfg)
    (sound : k.Sound cfg)
    (trace : Trace (Micro cfg) k
      (.clock :: k.tickActs cfg 0 1 expired k.tasks.nTasks) k') :
    k'.Logged cfg := by
  have quiet : ∀ act ∈ Act.clock ::
      k.tickActs cfg 0 1 expired k.tasks.nTasks, act.Quiet := by
    intro act inside
    rcases List.mem_cons.mp inside with rfl | member
    · trivial
    · obtain ⟨tid, _, member⟩ := List.mem_flatMap.mp member
      exact k.quiet_taskTickActs cfg 0 1 tid _ act member
  have objects := SameObjects.of_trace trace quiet
  have history := Micro.history_of_trace trace
  rw [List.flatMap_cons, Act.entries, ← List.append_assoc] at history
  have silent : ∀ queue, ∀ entry ∈
      (k.tickActs cfg 0 1 expired k.tasks.nTasks).flatMap Act.entries,
      ¬ entry.Concerns queue := by
    intro queue entry inside
    obtain ⟨act, member, recorded⟩ := List.mem_flatMap.mp inside
    exact k.silent_tickActs cfg 0 1 expired _ queue act member entry recorded
  have created : ∀ queue, k'.HasQueue cfg queue ↔ k.HasQueue cfg queue := by
    intro queue
    unfold HasQueue
    rw [objects.nQueues]
  refine ⟨fun queue ring => ?_, fun queue none => ?_⟩
  · have before : k.HasRing cfg queue := by
      have both := trace.invariant Act.Quiet
        (fun later => later.Sound cfg ∧
          (later.HasRing cfg queue → k.HasRing cfg queue))
        ?_ quiet ⟨sound, id⟩
      · exact both.2 ring
      · rintro later act next quietAct ⟨soundLater, back⟩ acts
        refine ⟨soundLater.of_micro acts, fun ringNext => back ?_⟩
        exact (acts.ring_cases soundLater.queues ringNext).resolve_right
          fun wrong => wrong.1 quietAct
    rw [contents_of_osTick sound before trace, history]
    exact (logged.ring queue before).ticked.others (silent queue)
  · have noMessages := (logged.none queue fun inside =>
      none ((created queue).mpr inside)).ticked
    rw [history]
    exact noMessages.others (silent queue)

end Kernel

/-! ## Steps -/

/-- Every step keeps the messages of the queues those of the history. -/
theorem step_logged
    {cfg : Config} {s s' : Sys β} {label : Label β}
    (sound : s.kernel.Sound cfg)
    (logged : s.kernel.Logged cfg)
    (steps : step cfg s label = .ok s') :
    s'.kernel.Logged cfg := by
  obtain ⟨acts, shape, trace⟩ := step_trace sound steps
  by_cases master : label = .call .osTick
  · subst master
    generalize s'.frame = frame at shape
    cases shape with
    | call calls =>
        cases calls with
        | osTick expired => exact logged.of_osTick sound trace
  · have both := trace.invariant
      (fun act => act ≠ .clock ∧ ∀ queue, act ≠ .age queue)
      (fun k => k.Sound cfg ∧ k.Logged cfg)
      (fun k act k' allowed holds acts =>
        ⟨holds.1.of_micro acts,
          holds.2.of_micro holds.1.queues acts allowed.1 allowed.2⟩)
      ?_ ⟨sound, logged⟩
    · exact both.2
    · intro act inside
      have allowed := shape.allowed act inside
      constructor
      · rintro rfl
        exact master allowed
      · rintro queue rfl
        exact master allowed

theorem logged_osInit (cfg : Config) (k : Kernel β) :
    (Kernel.osInit cfg k).Logged cfg where
  ring := fun queue ring => by
    have inside := ring.1.2
    simp [Kernel.osInit, QueueTable.osMsgQInit, ring.1.1] at inside
  none := fun _ _ => .empty

/-- In every reachable state the messages of the queues are those of the
history. -/
theorem reachable_logged
    {cfg : Config} {s : Sys β}
    (reachable : ReachableSys cfg s) :
    s.kernel.Logged cfg := by
  refine reachable.induction (fun s => s.kernel.Logged cfg) ?_ ?_
  · rintro s ⟨⟨k, kernel⟩, _⟩
    rw [kernel]
    exact logged_osInit cfg k
  · exact fun s label s' reachable logged steps =>
      step_logged (reachable_sound reachable) logged steps

/-- `os_tick` ages the messages of every ring by one tick, in whatever state
the owner of the queue is. -/
theorem step_osTick_ages
    {cfg : Config} {s s' : Sys β} {queue : Nat}
    (sound : s.kernel.Sound cfg)
    (ring : s.kernel.HasRing cfg queue)
    (steps : step cfg s (.call .osTick) = .ok s') :
    s'.kernel.contents queue = (s.kernel.contents queue).map Msg.age := by
  obtain ⟨acts, shape, trace⟩ := step_trace sound steps
  generalize s'.frame = frame at shape
  cases shape with
  | call calls =>
      cases calls with
      | osTick expired => exact Kernel.contents_of_osTick sound ring trace

/-- The step is a tick of a clock other than the master clock. -/
def Label.SubTick : Label β → Prop
  | .call (.osSubTick _) | .call (.osSubNTick _ _) => True
  | _ => False

/-- Ticks of the sub clocks leave the messages of every ring as they are. -/
theorem step_subTick_contents
    {cfg : Config} {s s' : Sys β} {label : Label β} {queue : Nat}
    (sound : s.kernel.Sound cfg)
    (ring : s.kernel.HasRing cfg queue)
    (sub : label.SubTick)
    (steps : step cfg s label = .ok s') :
    s'.kernel.contents queue = s.kernel.contents queue := by
  obtain ⟨acts, shape, trace⟩ := step_trace sound steps
  apply (Micro.untouched_of_trace trace sound ring ?_).2
  generalize s'.frame = frame at shape
  cases shape with
  | call calls =>
      cases calls with
      | osSubTick notMaster expired | osSubNTick notMaster expired =>
          exact s.kernel.not_touches_tickActs cfg _ expired _ queue notMaster
      | osSubTickMaster | osSubNTickMaster =>
          intro act inside
          cases inside
      | _ => exact sub.elim
  | _ => exact sub.elim

end CocoOs
