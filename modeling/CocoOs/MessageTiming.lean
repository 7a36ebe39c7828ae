import CocoOs.Acceptance

/-!
# When messages are delivered

The timing of every message of every run: not before its delay, exactly one
copy of a periodic message and its deliveries a period apart, every other
message gone after its delivery.  The master clock ages every queue by one tick
and the sub clocks age none.
-/

namespace CocoOs

open Foundation

variable {β : Type}

/-- Only rings accept messages. -/
theorem Micro.ring_of_post
    {cfg : Config} {k k' : Kernel β} {queue : Nat} {msg : Msg β}
    (sound : k.QueuesSound cfg)
    (acts : Micro cfg k (.post queue msg) k') :
    k.HasRing cfg queue := by
  cases acts with
  | post returns =>
      rcases Kernel.osMsgPost_cases returns with
        ⟨wrong, _⟩ | ⟨_, queues, inside, _⟩
      · exact absurd rfl wrong
      · have ring := sound.rings queue ⟨queues, inside⟩
        have sized := ring.sized
        refine ⟨⟨queues, inside⟩, ?_⟩
        by_contra small
        have single : (k.queues.msgQList queue).q.size = 1 := by omega
        obtain ⟨head, tail⟩ := ring.single single
        exact Kernel.osMsgPost_single single head tail returns

/-- A queue that accepted a message is a ring from then on. -/
theorem reachable_ring_of_posted
    {cfg : Config} {s : Sys β}
    (reachable : ReachableSys cfg s)
    {queue : Nat} {msg : Msg β}
    (posted : .posted queue msg ∈ s.kernel.history) :
    s.kernel.HasRing cfg queue := by
  refine reachable_invariant
    (fun k : Kernel β => .posted queue msg ∈ k.history → k.HasRing cfg queue)
    ?_ ?_ reachable posted
  · intro k inside
    cases inside
  · intro k act k' sound before acts inside
    rw [acts.history] at inside
    rcases List.mem_append.mp inside with old | new
    · exact acts.hasRing sound.queues (before old)
    · cases act with
      | post other now =>
          cases List.mem_singleton.mp new
          exact acts.hasRing sound.queues (acts.ring_of_post sound.queues)
      | clock | signal | receive => cases List.mem_singleton.mp new
      | _ => cases new

/-- The timing of every message in every run.  The run may be seen as one whose
messages carry the position of their label, so that every message a queue
accepted is told from the others: it is delivered `delay` calls of `os_tick`
after it was accepted at the earliest, its stored delay counts these calls down
until then, a periodic message has one copy in the queue at all times and is
delivered every `reload` calls at most, and any other message is gone once it is
delivered.  In the state the run reaches, a sub clock tick changes no delay and
`os_tick` ages the messages of every queue by one tick, whatever the state of
its task. -/
theorem message_timing
    {cfg : Config} {s₀ s : Sys β} {labels : List (Label β)}
    (initial : Initial cfg s₀)
    (runs : run (step cfg) s₀ labels = .ok s) :
    (∃ t₀ t : Sys (β × Nat), Initial cfg t₀ ∧ t₀.map Prod.fst = s₀ ∧
      run (step cfg) t₀ (tagged labels) = .ok t ∧ t.map Prod.fst = s ∧
      ∀ queue msg earlier later,
        t.kernel.history = earlier ++ .posted queue msg :: later →
        t.kernel.HasRing cfg queue ∧
        MsgTiming queue (hasTag msg.tag) msg later (t.kernel.contents queue)) ∧
    (∀ label s', label.SubTick → step cfg s label = .ok s' →
      ∀ queue, s.kernel.HasRing cfg queue →
        s'.kernel.contents queue = s.kernel.contents queue) ∧
    (∀ s', step cfg s (.call .osTick) = .ok s' →
      ∀ queue, s.kernel.HasRing cfg queue →
        s'.kernel.contents queue = (s.kernel.contents queue).map Msg.age) := by
  have sound := reachable_sound ⟨s₀, labels, initial, runs⟩
  refine ⟨?_, fun label s' sub steps queue ring => ?_,
    fun s' steps queue ring => ?_⟩
  · obtain ⟨t₀, t, taggedInitial, start, taggedRuns, finish⟩ :=
      exists_tagged_run initial runs
    refine ⟨t₀, t, taggedInitial, start, taggedRuns, finish,
      fun queue msg earlier later split => ?_⟩
    have reachable : ReachableSys cfg t :=
      ⟨t₀, tagged labels, taggedInitial, taggedRuns⟩
    have ring : t.kernel.HasRing cfg queue := by
      apply reachable_ring_of_posted reachable
      rw [split]
      exact List.mem_append_right _ (List.mem_cons_self ..)
    have fresh := tagged_run_fresh taggedInitial taggedRuns
    obtain ⟨before, after⟩ := fresh.acceptedOnce split queue
    have once : AcceptedOnce queue (hasTag msg.tag) earlier msg later :=
      ⟨beq_self_eq_true _, before, after⟩
    have replays := (reachable_logged reachable).ring queue ring
    rw [split] at replays
    exact ⟨ring, once.timing replays⟩
  · exact step_subTick_contents sound ring sub steps
  · exact step_osTick_ages sound ring steps

/-- The first task posts itself a message that is due after two ticks and then
every tick, and receives it after the second tick. -/
theorem message_timing_setUp :
    ∃ s : Sys Nat,
      run (step (Config.small false)) (Sys.boot (Config.small false))
        (setUp 1 2 3 ++ [.osSchedule, .task (.msgPost 0 ⟨1, 0, 0, 7⟩ 2 1 false) 3,
          .call .osTick, .call (.osSubTick 1),
          .task (.msgReceive 0 ⟨0, 0, 0, 0⟩ true) 4, .call .osTick,
          .task (.msgReceive 0 ⟨0, 0, 0, 0⟩ true) 5]) = .ok s ∧
      s.kernel.contents 0 = [⟨1, 1, 1, 7⟩] ∧
      ∃ t₀ t : Sys (Nat × Nat), Initial (Config.small false) t₀ ∧
        t.map Prod.fst = s ∧
        ∀ queue msg earlier later,
          t.kernel.history = earlier ++ .posted queue msg :: later →
          MsgTiming queue (hasTag msg.tag) msg later
            (t.kernel.contents queue) := by
  obtain ⟨s, runs, checked⟩ := exists_of_returnsWith
    (fun s : Sys Nat => decide (s.kernel.contents 0 = [⟨1, 1, 1, 7⟩]))
    (run (step (Config.small false)) (Sys.boot (Config.small false))
      (setUp 1 2 3 ++ [.osSchedule, .task (.msgPost 0 ⟨1, 0, 0, 7⟩ 2 1 false) 3,
        .call .osTick, .call (.osSubTick 1),
        .task (.msgReceive 0 ⟨0, 0, 0, 0⟩ true) 4, .call .osTick,
        .task (.msgReceive 0 ⟨0, 0, 0, 0⟩ true) 5])) (by decide +kernel)
  obtain ⟨⟨t₀, t, initial, _, _, finish, timing⟩, _⟩ :=
    message_timing ⟨⟨Kernel.zeroed, rfl⟩, rfl⟩ runs
  exact ⟨s, runs, of_decide_eq_true checked, t₀, t, initial, finish,
    fun queue msg earlier later split =>
      (timing queue msg earlier later split).2⟩

end CocoOs
