import CocoOs.QueueRefinement
import CocoOs.Creation

/-!
# Slots and iterations

Each loop of `os_msgqueue.c` once more, with the message slots it reads or
writes, one list an iteration.  On a ring whose indices are inside it every
slot is inside and no loop makes more iterations than there are slots; a queue
of a single slot never has such a ring.
-/

namespace CocoOs

open Foundation

variable {β : Type}

/-! ## The loops with their slots -/

namespace OSQueue

/-- `queue_push`, with the slots it writes. -/
def queuePushVisits (queue : OSQueue β) (msg : Msg β) :
    List Nat × Outcome (MsgResult × OSQueue β) :=
  if queue.size = 0 then ([], .ok (.undef, queue))
  else if queue.head = queue.tail then ([], .ok (.full, queue))
  else ([queue.head], do
    let queue ← queue.write queue.head msg
    .ok (.posted, { queue with head := (queue.head + 1) % queue.size }))

/-- The loop of `MsgQAllDelayed`, with the slot each iteration reads. -/
def allDelayedVisits (q : OSQueue β) : Nat → Nat → List Nat × Outcome Bool
  | fuel, nextMessage =>
      if nextMessage = q.head then ([], .ok true)
      else if (q.list nextMessage).delay = 0 then ([nextMessage], .ok false)
      else
        match fuel with
        | 0 => ([nextMessage], .error .divergence)
        | fuel + 1 =>
            let rest := allDelayedVisits q fuel ((nextMessage + 1) % q.size)
            (nextMessage :: rest.1, rest.2)

/-- The loop of `os_msg_receive`, with the slots each iteration reads and
writes. -/
def receiveVisits : Nat → Nat → OSQueue β →
    List (List Nat) × Outcome (Delivery β)
  | 0, _, _ => ([], .error .divergence)
  | fuel + 1, tail, q =>
      let tail := (tail + 1) % q.size
      let slot := q.list tail
      let messagePeriodic := 0 < slot.reload
      let messageTimedOut := slot.delay = 0
      let msg :=
        if messageTimedOut ∧ messagePeriodic then
          { slot with delay := slot.reload }
        else slot
      let visited :=
        if ¬ messageTimedOut ∨ (messagePeriodic ∧ messageTimedOut) then
          [tail, q.head]
        else [tail]
      let putBack : Outcome (OSQueue β) :=
        if ¬ messageTimedOut ∨ (messagePeriodic ∧ messageTimedOut) then do
          let q ← q.write q.head msg
          .ok { q with head := (q.head + 1) % q.size }
        else .ok q
      match putBack with
      | .error stop => ([visited], .error stop)
      | .ok q =>
          if messageTimedOut then
            ([visited], .ok { slot := slot, msg := msg, tail := tail, q := q })
          else
            let rest := receiveVisits fuel tail q
            (visited :: rest.1, rest.2)

end OSQueue

namespace Kernel

/-- The loop of `os_msgQ_tick`, with the slot each iteration reads and
writes. -/
def msgQTickVisits (cfg : Config) (queue head : Nat) :
    Nat → Nat → Kernel β → List Nat × Outcome (Kernel β)
  | fuel, nextMessage, k =>
      if nextMessage = head then ([], .ok k)
      else
        match k.msgQTickBody cfg queue nextMessage with
        | .error stop => ([nextMessage], .error stop)
        | .ok k =>
            match fuel with
            | 0 => ([nextMessage], .error .divergence)
            | fuel + 1 =>
                let rest := msgQTickVisits cfg queue head fuel
                  ((nextMessage + 1) % (k.queues.msgQList queue).q.size) k
                (nextMessage :: rest.1, rest.2)

end Kernel

/-! ## They compute the same -/

namespace OSQueue

theorem queuePushVisits_snd (queue : OSQueue β) (msg : Msg β) :
    (queue.queuePushVisits msg).2 = queue.queuePush msg := by
  unfold queuePushVisits queuePush
  split_ifs <;> rfl

theorem allDelayedVisits_snd (q : OSQueue β) (fuel nextMessage : Nat) :
    (q.allDelayedVisits fuel nextMessage).2 =
      q.allDelayedLoop fuel nextMessage := by
  induction fuel generalizing nextMessage with
  | zero =>
      unfold allDelayedVisits allDelayedLoop
      split_ifs <;> rfl
  | succ fuel inductionHypothesis =>
      unfold allDelayedVisits allDelayedLoop
      split_ifs
      · rfl
      · rfl
      · exact inductionHypothesis _

theorem receiveVisits_snd (fuel tail : Nat) (q : OSQueue β) :
    (receiveVisits fuel tail q).2 = receiveLoop fuel tail q := by
  induction fuel generalizing tail q with
  | zero => rfl
  | succ fuel inductionHypothesis =>
      unfold receiveVisits receiveLoop
      dsimp only
      by_cases timedOut : (q.list ((tail + 1) % q.size)).delay = 0
      · by_cases periodic : 0 < (q.list ((tail + 1) % q.size)).reload
        · simp only [timedOut, periodic, and_self, or_true, if_true]
          cases q.write q.head _ <;> rfl
        · simp only [timedOut, periodic, and_true, not_true_eq_false, or_false,
            if_false, if_true]
          rfl
      · simp only [timedOut, not_false_eq_true, true_or, if_true, if_false]
        cases q.write q.head _ with
        | error stop => rfl
        | ok written => exact inductionHypothesis _ _

end OSQueue

theorem Kernel.msgQTickVisits_snd
    (cfg : Config) (queue head fuel nextMessage : Nat) (k : Kernel β) :
    (k.msgQTickVisits cfg queue head fuel nextMessage).2 =
      k.msgQTickLoop cfg queue head fuel nextMessage := by
  induction fuel generalizing nextMessage k with
  | zero =>
      unfold msgQTickVisits msgQTickLoop
      split_ifs
      · rfl
      · cases k.msgQTickBody cfg queue nextMessage <;> rfl
  | succ fuel inductionHypothesis =>
      unfold msgQTickVisits msgQTickLoop
      split_ifs
      · rfl
      · cases k.msgQTickBody cfg queue nextMessage with
        | error stop => rfl
        | ok k' => exact inductionHypothesis _ _

/-! ## Bounds -/

namespace OSQueue

/-- A push writes inside the ring. -/
theorem queuePushVisits_inside
    {q : OSQueue β} (valid : q.Valid) (msg : Msg β) :
    ∀ slot ∈ (q.queuePushVisits msg).1, slot < q.size := by
  intro slot visited
  unfold queuePushVisits at visited
  split_ifs at visited
  · simp at visited
  · simp at visited
  · rw [List.mem_singleton.mp visited]
    exact valid.head_lt

/-- The walk of `MsgQAllDelayed` from a position of the ring ends at the
head. -/
theorem allDelayedVisits_walk
    {q : OSQueue β} {tail count : Nat}
    (head : q.head = (tail + 1 + count) % q.size)
    (positive : 0 < q.size)
    (fuel position : Nat)
    (upTo : position ≤ count) :
    Ring.Walk q.size (count - position)
      (q.allDelayedVisits fuel ((tail + 1 + position) % q.size)).1 := by
  induction fuel generalizing position with
  | zero =>
      unfold allDelayedVisits
      split_ifs with met ready
      · exact .nil _ _
      all_goals
        have ahead := Ring.lt_of_slot_ne upTo (head ▸ met)
        exact .single (Nat.mod_lt _ positive) (by omega)
  | succ fuel inductionHypothesis =>
      unfold allDelayedVisits
      split_ifs with met ready
      · exact .nil _ _
      · have ahead := Ring.lt_of_slot_ne upTo (head ▸ met)
        exact .single (Nat.mod_lt _ positive) (by omega)
      · have ahead := Ring.lt_of_slot_ne upTo (head ▸ met)
        have later := inductionHypothesis (position + 1) ahead
        rw [← Ring.advance_mod] at later
        rw [show count - position = count - (position + 1) + 1 by omega]
        exact .cons (Nat.mod_lt _ positive) later

/-- The loop of `os_msg_receive` ends at the first message that is ready. -/
theorem receiveVisits_walk
    (fuel tail : Nat)
    (q : OSQueue β)
    {skipped later : List (Msg β)}
    {msg : Msg β}
    (represents :
      Ring.Represents q.size q.list tail q.head (skipped ++ msg :: later))
    (skippedDelayed : ∀ earlier ∈ skipped, earlier.delayed = true)
    (ready : msg.delay = 0)
    (enough : skipped.length < fuel) :
    (receiveVisits fuel tail q).1.length = skipped.length + 1 ∧
      ∀ visited ∈ (receiveVisits fuel tail q).1, ∀ slot ∈ visited,
        slot < q.size := by
  have positive := represents.size_pos
  have headInside := represents.head_lt
  have tailInside : (tail + 1) % q.size < q.size := Nat.mod_lt _ positive
  induction skipped generalizing fuel tail q later with
  | nil =>
      obtain ⟨fuel, rfl⟩ : ∃ prior, fuel = prior + 1 :=
        ⟨fuel - 1, by simp at enough; omega⟩
      have front : q.list ((tail + 1) % q.size) = msg := represents.front
      simp only [receiveVisits, front, ready, not_true_eq_false, and_true,
        true_and, false_or, if_true]
      by_cases periodic : 0 < msg.reload
      · simp only [periodic, if_true, q.write_of_lt headInside, ok_bind]
        simp [tailInside, headInside]
      · simp only [periodic, if_false]
        simp [tailInside]
  | cons first others inductionHypothesis =>
      obtain ⟨fuel, rfl⟩ : ∃ prior, fuel = prior + 1 :=
        ⟨fuel - 1, by simp at enough; omega⟩
      have front : q.list ((tail + 1) % q.size) = first := represents.front
      have firstDelayed : first.delay ≠ 0 :=
        first.delayed_eq_true_iff.mp
          (skippedDelayed first (List.mem_cons_self ..))
      have fits := represents.fits
      have rotated := represents.drop.append
        (by simp only [List.cons_append, List.length_cons] at fits; exact fits)
        first
      have reassociate : others ++ msg :: later ++ [first] =
          others ++ msg :: (later ++ [first]) := by simp
      have rotated := reassociate ▸ rotated
      obtain ⟨iterations, slots⟩ := inductionHypothesis fuel
        ((tail + 1) % q.size)
        { q with
          list := Function.update q.list q.head first
          head := (q.head + 1) % q.size }
        rotated
        (fun earlier inside =>
          skippedDelayed earlier (List.mem_cons_of_mem first inside))
        (by simpa using enough) positive (Nat.mod_lt _ positive)
        (Nat.mod_lt _ positive)
      simp only [receiveVisits, front, firstDelayed, false_and,
        not_false_eq_true, true_or, if_true, if_false, q.write_of_lt headInside,
        ok_bind]
      refine ⟨?_, ?_⟩
      · rw [List.length_cons, iterations, List.length_cons]
      · intro visited inside slot member
        rcases List.mem_cons.mp inside with rfl | later
        · simp only [List.mem_cons, List.not_mem_nil, or_false] at member
          rcases member with rfl | rfl
          · exact tailInside
          · exact headInside
        · exact slots visited later slot member

end OSQueue

namespace Kernel

/-- An iteration of `os_msgQ_tick` keeps the size of the ring. -/
theorem msgQTickBody_size
    {cfg : Config} {k k' : Kernel β} {queue index : Nat}
    (returns : k.msgQTickBody cfg queue index = .ok k') :
    (k'.queues.msgQList queue).q.size = (k.queues.msgQList queue).q.size := by
  unfold msgQTickBody at returns
  dsimp only at returns
  by_cases aging : 0 < ((k.queues.msgQList queue).q.list index).delay
  · rw [if_pos aging] at returns
    obtain ⟨q, writes, returns⟩ := bind_eq_ok_iff.mp returns
    obtain ⟨_, written⟩ := guard_eq_ok_iff.mp writes
    have size : q.size = (k.queues.msgQList queue).q.size := by
      rw [← Except.ok.inj written]
    split_ifs at returns
    · rw [eventIsrSignal_queues returns]
      simpa using size
    · rw [← Except.ok.inj returns]
      simpa using size
  · rw [if_neg aging] at returns
    rw [Except.ok.inj returns]

/-- The walk of `os_msgQ_tick` from a position of the ring ends at the head. -/
theorem msgQTickVisits_walk
    {cfg : Config} {queue tail count size : Nat}
    (positive : 0 < size)
    (fuel position : Nat)
    (k : Kernel β)
    (sized : (k.queues.msgQList queue).q.size = size)
    (upTo : position ≤ count) :
    Ring.Walk size (count - position)
      (k.msgQTickVisits cfg queue ((tail + 1 + count) % size) fuel
        ((tail + 1 + position) % size)).1 := by
  induction fuel generalizing position k with
  | zero =>
      unfold msgQTickVisits
      split_ifs with met
      · exact .nil _ _
      · have ahead := Ring.lt_of_slot_ne upTo met
        cases k.msgQTickBody cfg queue ((tail + 1 + position) % size) <;>
          exact .single (Nat.mod_lt _ positive) (by omega)
  | succ fuel inductionHypothesis =>
      unfold msgQTickVisits
      split_ifs with met
      · exact .nil _ _
      · have ahead := Ring.lt_of_slot_ne upTo met
        cases body : k.msgQTickBody cfg queue ((tail + 1 + position) % size) with
        | error stop => exact .single (Nat.mod_lt _ positive) (by omega)
        | ok k' =>
            have sized' := (msgQTickBody_size body).trans sized
            have later := inductionHypothesis (position + 1) k' sized' ahead
            dsimp only
            rw [sized', Ring.advance_mod,
              show count - position = count - (position + 1) + 1 by omega]
            exact .cons (Nat.mod_lt _ positive) later

end Kernel

/-! ## The calls with their slots -/

/-- The slots a call reads or writes, and the number of iterations of each loop
it runs. -/
structure Visits where
  slots : List Nat
  loops : List Nat

/-- The slots of `os_msg_receive`, whose second loop runs when the first has
found a message that is ready. -/
def OSQueue.receiveCallVisits (q : OSQueue β) : Visits :=
  if (q.tail + 1) % q.size = q.head then ⟨[], []⟩
  else
    let scan := q.allDelayedVisits q.size ((q.tail + 1) % q.size)
    match scan.2 with
    | .ok false =>
        let walk := receiveVisits q.size q.tail q
        ⟨scan.1 ++ walk.1.flatten, [scan.1.length, walk.1.length]⟩
    | _ => ⟨scan.1, [scan.1.length]⟩

/-- The slots of a call on a queue of the kernel. -/
def queueVisits (cfg : Config) (queue : Nat) (k : Kernel β) :
    QueueOp β → Visits
  | .osMsgPost msg delay period =>
      if 0 < cfg.nQueues ∧ queue < k.queues.nQueues then
        ⟨((k.queues.msgQList queue).q.queuePushVisits
          (msg.armed delay.toNat period.toNat)).1, []⟩
      else ⟨[], []⟩
  | .osMsgReceive _ =>
      if 0 < cfg.nQueues ∧ queue < k.queues.nQueues then
        (k.queues.msgQList queue).q.receiveCallVisits
      else ⟨[], []⟩
  | .osMsgQTick =>
      if 0 < cfg.nQueues then
        let q := (k.queues.msgQList queue).q
        let walk :=
          k.msgQTickVisits cfg queue q.head q.size ((q.tail + 1) % q.size)
        ⟨walk.1, [walk.1.length]⟩
      else ⟨[], []⟩

/-- The slots are inside a ring of so many, and no loop makes more
iterations. -/
structure Visits.Bounded (visits : Visits) (size : Nat) : Prop where
  slots : ∀ slot ∈ visits.slots, slot < size
  loops : ∀ count ∈ visits.loops, count ≤ size

theorem Visits.bounded_none (size : Nat) : Visits.Bounded ⟨[], []⟩ size :=
  ⟨by simp, by simp⟩

/-- A single loop that walks the ring. -/
theorem Visits.bounded_of_walk
    {size bound : Nat} {slots : List Nat}
    (walk : Ring.Walk size bound slots)
    (fits : bound ≤ size) :
    Visits.Bounded ⟨slots, [slots.length]⟩ size := by
  refine ⟨walk.inside, fun count inside => ?_⟩
  rw [List.mem_singleton.mp inside]
  exact walk.length_le.trans fits

theorem OSQueue.receiveCallVisits_bounded
    {q : OSQueue β} {messages : List (Msg β)}
    (holds : q.Holds messages) :
    q.receiveCallVisits.Bounded q.size := by
  have fits := holds.fits
  have scanned : Ring.Walk q.size messages.length
      (q.allDelayedVisits q.size ((q.tail + 1) % q.size)).1 :=
    allDelayedVisits_walk holds.head_eq holds.size_pos q.size 0
      (Nat.zero_le _)
  have answer : (q.allDelayedVisits q.size ((q.tail + 1) % q.size)).2 =
      .ok (messages.all Msg.delayed) := by
    rw [allDelayedVisits_snd]
    exact msgQAllDelayed_eq holds
  unfold receiveCallVisits
  split_ifs
  · exact Visits.bounded_none q.size
  · dsimp only
    rw [answer]
    cases found : messages.all Msg.delayed with
    | true => exact Visits.bounded_of_walk scanned fits.le
    | false =>
        obtain ⟨skipped, msg, later, first⟩ : ∃ skipped msg later,
            firstReady messages = some (skipped, msg, later) := by
          cases first : firstReady messages with
          | none =>
              rw [firstReady_eq_none_iff, ← List.all_eq_true, found] at first
              cases first
          | some split => exact ⟨split.1, split.2.1, split.2.2, rfl⟩
        obtain ⟨rfl, delayed, ready⟩ :=
          (firstReady_eq_some_iff _ _ _ _).mp first
        rw [List.length_append, List.length_cons] at fits
        obtain ⟨iterations, slots⟩ := receiveVisits_walk q.size q.tail q holds
          delayed ready (by omega)
        refine ⟨fun slot inside => ?_, fun count inside => ?_⟩
        · rcases List.mem_append.mp inside with scan | walk
          · exact scanned.inside slot scan
          · obtain ⟨visited, member, inVisited⟩ := List.mem_flatten.mp walk
            exact slots visited member slot inVisited
        · simp only [List.mem_cons, List.not_mem_nil, or_false] at inside
          rcases inside with rfl | rfl
          · have atMost := scanned.length_le
            rw [List.length_append, List.length_cons] at atMost
            omega
          · omega

/-- Every call on a ready queue stays inside its ring. -/
theorem Kernel.QueueReady.visits_bounded
    {cfg : Config} {k : Kernel β} {queue : Nat}
    (ready : k.QueueReady cfg queue)
    (op : QueueOp β) :
    (queueVisits cfg queue k op).Bounded (k.queues.msgQList queue).q.size := by
  have holds := ready.holds
  cases op with
  | osMsgPost msg delay period =>
      simp only [queueVisits]
      split_ifs
      · exact ⟨OSQueue.queuePushVisits_inside ready.valid _, by simp⟩
      · exact Visits.bounded_none _
  | osMsgReceive pMsg =>
      simp only [queueVisits]
      split_ifs
      · exact OSQueue.receiveCallVisits_bounded holds
      · exact Visits.bounded_none _
  | osMsgQTick =>
      simp only [queueVisits]
      split_ifs
      · rw [holds.head_eq]
        apply Visits.bounded_of_walk
          (Kernel.msgQTickVisits_walk holds.size_pos _ 0 k rfl (Nat.zero_le _))
        exact holds.fits.le
      · exact Visits.bounded_none _

/-! ## What a receive delivers -/

/-- One of the calls posted the message, and the queue accepted it: the message
is the posted one but for its delay. -/
def WasPosted (ops : List (QueueOp β)) (answers : List (Answer β))
    (msg : Msg β) : Prop :=
  ∃ posted delay period answer,
    (QueueOp.osMsgPost posted delay period, answer) ∈ ops.zip answers ∧
      answer.result = some .posted ∧
      msg = posted.armed msg.delay period.toNat

section

variable {ops : List (QueueOp β)} {answers : List (Answer β)}

/-- Later calls do not matter. -/
theorem WasPosted.append
    {msg : Msg β}
    (was : WasPosted ops answers msg)
    (lengths : ops.length = answers.length)
    (op : QueueOp β) (answer : Answer β) :
    WasPosted (ops ++ [op]) (answers ++ [answer]) msg := by
  obtain ⟨posted, delay, period, accepted, inside, result, same⟩ := was
  refine ⟨posted, delay, period, accepted, ?_, result, same⟩
  rw [List.zip_append lengths]
  exact List.mem_append_left _ inside

/-- Only the delay of a message ever changes. -/
theorem WasPosted.of_delay
    {msg : Msg β}
    (was : WasPosted ops answers msg)
    (delay : Nat) :
    WasPosted ops answers { msg with delay := delay } := by
  obtain ⟨posted, delayed, period, accepted, inside, result, same⟩ := was
  refine ⟨posted, delayed, period, accepted, inside, result, ?_⟩
  rw [same]
  rfl

/-- What a list operation leaves was posted, when what it found was. -/
theorem wasPosted_listStep
    {messages : List (Msg β)} (size : Nat) (op : QueueOp β)
    (lengths : ops.length = answers.length)
    (were : ∀ msg ∈ messages, WasPosted ops answers msg) :
    ∀ msg ∈ (listStep size messages op).2,
      WasPosted (ops ++ [op]) (answers ++ [(listStep size messages op).1])
        msg := by
  intro msg inside
  cases op with
  | osMsgPost posted delay period =>
      simp only [listStep] at inside ⊢
      split_ifs at inside with full
      · exact (were msg inside).append lengths _ _
      · rw [if_neg full]
        rcases List.mem_append.mp inside with old | new
        · exact (were msg old).append lengths _ _
        · rw [List.mem_singleton.mp new]
          refine ⟨posted, delay, period, ⟨some .posted,
            some (posted.armed delay.toNat period.toNat), false⟩, ?_, rfl, rfl⟩
          rw [List.zip_append lengths]
          exact List.mem_append_right _ (List.mem_singleton_self _)
  | osMsgReceive buffer =>
      simp only [listStep] at inside ⊢
      cases found : OSQueue.firstReady messages with
      | none =>
          simp only [found] at inside ⊢
          exact (were msg inside).append lengths _ _
      | some split =>
          obtain ⟨skipped, first, later⟩ := split
          obtain ⟨rfl, _, _⟩ :=
            (OSQueue.firstReady_eq_some_iff _ _ _ _).mp found
          simp only [found] at inside ⊢
          apply WasPosted.append _ lengths
          rcases List.mem_append.mp inside with kept | back
          · apply were
            rcases List.mem_append.mp kept with after | before
            · exact List.mem_append_right _ (List.mem_cons_of_mem _ after)
            · exact List.mem_append_left _ before
          · have here := were first (by simp)
            unfold Msg.putBack Msg.rearmed at back
            split_ifs at back
            · rw [List.mem_singleton.mp back]
              exact here.of_delay first.reload
            · simp at back
  | osMsgQTick =>
      simp only [listStep] at inside ⊢
      obtain ⟨young, member, rfl⟩ := List.mem_map.mp inside
      exact ((were young member).of_delay _).append lengths _ _

/-- Everything a queue holds after a run of calls was posted in it. -/
theorem queueRun_wasPosted
    {cfg : Config} {k k' : Kernel β} {queue : Nat}
    {earlier later : List (QueueOp β)} {before after : List (Answer β)}
    (queues : 0 < cfg.nQueues)
    (ready : k.QueueReady cfg queue)
    (lengths : earlier.length = before.length)
    (were : ∀ msg ∈ k.contents queue, WasPosted earlier before msg)
    (runs : run (queueTurn cfg queue) (before, k) later = .ok (after, k')) :
    (earlier ++ later).length = after.length ∧
      ∀ msg ∈ k'.contents queue, WasPosted (earlier ++ later) after msg := by
  induction later generalizing earlier before k with
  | nil =>
      simp only [run_nil, Except.ok.injEq, Prod.mk.injEq] at runs
      obtain ⟨rfl, rfl⟩ := runs
      rw [List.append_nil]
      exact ⟨lengths, were⟩
  | cons op later inductionHypothesis =>
      obtain ⟨⟨soFar, next⟩, turn, rest⟩ := run_cons_eq_ok_iff.mp runs
      rcases queueStep_refines queues ready op with
        ⟨answer, k₁, returns, refines, _, ready₁⟩ | ⟨_, stops, _⟩
      · simp only [queueTurn, returns, ok_map, Except.ok.injEq,
          Prod.mk.injEq] at turn
        obtain ⟨rfl, rfl⟩ := turn
        have here := wasPosted_listStep
          (k.queues.msgQList queue).q.size op lengths were
        rw [← refines] at here
        have both := inductionHypothesis ready₁ (by simp [lengths]) here rest
        rwa [List.append_assoc] at both
      · simp [queueTurn, stops] at turn

/-- A message that a receive delivers was posted: its delay is its reload. -/
theorem received_wasPosted
    {cfg : Config} {k k' : Kernel β} {queue : Nat}
    {pMsg : Msg β} {answer : Answer β}
    (queues : 0 < cfg.nQueues)
    (ready : k.QueueReady cfg queue)
    (were : ∀ msg ∈ k.contents queue, WasPosted ops answers msg)
    (returns : queueStep cfg queue k (.osMsgReceive pMsg) = .ok (answer, k'))
    (received : answer.result = some .received) :
    ∃ posted delay period accepted,
      (QueueOp.osMsgPost posted delay period, accepted) ∈ ops.zip answers ∧
        accepted.result = some .posted ∧
        answer.msg = some (posted.armed period.toNat period.toNat) := by
  obtain ⟨answer', k₁, returns', refines, _⟩ :=
    queueStep_osMsgReceive queues ready pMsg
  rw [returns] at returns'
  simp only [Except.ok.injEq, Prod.mk.injEq] at returns'
  obtain ⟨rfl, rfl⟩ := returns'
  simp only [listStep] at refines
  cases found : OSQueue.firstReady (k.contents queue) with
  | none =>
      simp only [found, Prod.mk.injEq] at refines
      rw [refines.1] at received
      cases received
  | some split =>
      obtain ⟨skipped, msg, later⟩ := split
      simp only [found, Prod.mk.injEq] at refines
      obtain ⟨contentsEq, _, timedOut⟩ :=
        (OSQueue.firstReady_eq_some_iff _ _ _ _).mp found
      obtain ⟨posted, delay, period, accepted, inside, result, same⟩ :=
        were msg (by rw [contentsEq]; simp)
      refine ⟨posted, delay, period, accepted, inside, result, ?_⟩
      rw [refines.1, same, timedOut]
      unfold Msg.rearmed Msg.armed
      by_cases periodic : 0 < period.toNat
      · simp only [periodic, if_true]
      · have zero : period.toNat = 0 := by omega
        simp only [zero, Nat.lt_irrefl, if_false]

end

/-! ## Every pool size -/

/-- `sizeof( Msg_t )`. -/
def sizeofMsg : Nat := 12

/-- What safety says of a queue after a run of calls: its indices are inside
the ring; every further call stays inside the ring in every loop and ends; and
a further receive delivers only what one of the calls posted. -/
structure SafeAfter (cfg : Config) (queue : Nat) (ops : List (QueueOp β))
    (answers : List (Answer β)) (k : Kernel β) : Prop where
  indices : (k.queues.msgQList queue).q.Valid
  bounded : ∀ op,
    (queueVisits cfg queue k op).Bounded (k.queues.msgQList queue).q.size
  ends : ∀ op, queueStep cfg queue k op ≠ .error .divergence
  delivers : ∀ pMsg answer k',
    queueStep cfg queue k (.osMsgReceive pMsg) = .ok (answer, k') →
    answer.result = some .received →
    ∃ posted delay period accepted,
      (QueueOp.osMsgPost posted delay period, accepted) ∈ ops.zip answers ∧
        accepted.result = some .posted ∧
        answer.msg = some (posted.armed period.toNat period.toNat)

/-- Every queue that `os_task_create` makes of a pool of this size is safe
after every run of calls. -/
def QueueSafe (β : Type) (poolSize : UInt8) : Prop :=
  ∀ (cfg : Config) (k₀ k : Kernel β) (taskproc data : Nat) (prio : UInt8)
    (msgPool : Nat → Msg β) (msgSize : UInt16) (tid : Nat),
    0 < cfg.nQueues → sizeofMsg ≤ msgSize.toNat →
    k₀.osTaskCreate cfg taskproc data prio.toNat msgPool poolSize.toNat
      msgSize.toNat = .ok (tid, k) →
    ∀ ops answers k',
      run (queueTurn cfg (k.tasks.taskList tid).msgQ) ([], k) ops =
        .ok (answers, k') →
      SafeAfter cfg (k.tasks.taskList tid).msgQ ops answers k'

/-- The queue of a new task with a pool of two slots or more. -/
theorem Kernel.queueReady_of_osTaskCreate
    {cfg : Config} {k₀ k : Kernel β} {taskproc data prio : Nat}
    {msgPool : Nat → Msg β} {poolSize msgSize tid : Nat}
    (queues : 0 < cfg.nQueues)
    (two : 2 ≤ poolSize)
    (created : k₀.osTaskCreate cfg taskproc data prio msgPool poolSize msgSize =
      .ok (tid, k)) :
    k.QueueReady cfg (k.tasks.taskList tid).msgQ ∧
      k.contents (k.tasks.taskList tid).msgQ = [] := by
  obtain ⟨_, _, _, rfl, msgQ, kq, source, rfl⟩ := osTaskCreate_cases created
  rcases source with ⟨none, _⟩ | ⟨_, creates⟩
  · omega
  · obtain ⟨ready, empty, _⟩ := queueReady_of_created queues two creates
    dsimp only
    rw [TaskTable.modify_taskList_self]
    exact ⟨⟨ready.created, ready.valid, ready.known⟩, empty⟩

theorem queueSafe_of_two
    {poolSize : UInt8}
    (two : 2 ≤ poolSize.toNat) :
    QueueSafe β poolSize := by
  intro cfg k₀ k taskproc data prio msgPool msgSize tid queues _ created ops
    answers k' runs
  obtain ⟨ready, empty⟩ :=
    Kernel.queueReady_of_osTaskCreate queues two created
  obtain ⟨_, ready', _⟩ := queueRun_refines queues ready rfl runs
  obtain ⟨_, were⟩ :=
    @queueRun_wasPosted β cfg k k' _ [] ops [] answers queues ready rfl
      (by simp [empty]) runs
  refine ⟨ready'.valid, ready'.visits_bounded, fun op diverges => ?_,
    fun pMsg answer after returns received =>
      received_wasPosted queues ready' were returns received⟩
  rcases queueStep_refines queues ready' op with
    ⟨answer, after, returns, _⟩ | ⟨_, stops, _⟩
  · rw [returns] at diverges
    cases diverges
  · rw [stops] at diverges
    cases diverges

/-- A task with a pool of one slot, right after `os_init`. -/
def createdTask (β : Type) [Inhabited β] : Outcome (Nat × Kernel β) :=
  (Kernel.osInit (Config.small true) Kernel.zeroed).osTaskCreate
    (Config.small true) 1 0 (1 : UInt8).toNat (fun _ => ⟨0, 0, 0, default⟩)
    (1 : UInt8).toNat (20 : UInt16).toNat

/-- A pool is safe exactly when it has two slots or more. -/
theorem queueSafe_iff
    [Inhabited β] (poolSize : UInt8)
    (some : 1 ≤ poolSize.toNat) :
    QueueSafe β poolSize ↔ 2 ≤ poolSize.toNat := by
  refine ⟨fun safe => ?_, queueSafe_of_two⟩
  by_contra few
  have one : poolSize = 1 := UInt8.toNat_inj.mp (by
    change poolSize.toNat = 1
    omega)
  subst one
  obtain ⟨tid, k, created, head, size⟩ : ∃ tid k,
      createdTask β = .ok (tid, k) ∧
      (k.queues.msgQList (k.tasks.taskList tid).msgQ).q.head = 1 ∧
      (k.queues.msgQList (k.tasks.taskList tid).msgQ).q.size = 1 :=
    ⟨_, _, rfl, rfl, rfl⟩
  have inside := (safe _ _ k 1 0 1 _ 20 tid (by decide) (by decide) created []
    [] k rfl).indices.head_lt
  omega

/-- A pool of two messages is large enough for a ring. -/
theorem queueSafe_two_slots : QueueSafe Nat 2 :=
  (queueSafe_iff 2 (by decide)).mpr (by decide)

/-- A queue of one slot: its head is outside the ring from the start, the first
receive delivers a message that nobody posted, and the first post writes behind
the slot. -/
theorem one_slot_queue_unsafe :
    ∃ tid k, createdTask Nat = .ok (tid, k) ∧
      (k.queues.msgQList (k.tasks.taskList tid).msgQ).q.size = 1 ∧
      (k.queues.msgQList (k.tasks.taskList tid).msgQ).q.head = 1 ∧
      (∃ buffer k', k.osMsgReceive (Config.small true) ⟨9, 9, 9, 9⟩
        (k.tasks.taskList tid).msgQ = .ok (.received, buffer, k') ∧
        k.history = []) ∧
      queueVisits (Config.small true) (k.tasks.taskList tid).msgQ k
        (.osMsgPost ⟨1, 0, 0, 7⟩ 0 0) = ⟨[1], []⟩ :=
  ⟨_, _, rfl, rfl, rfl, ⟨_, _, rfl, rfl⟩, rfl⟩

end CocoOs
