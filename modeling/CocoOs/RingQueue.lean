import CocoOs.MsgQueue
import CocoOs.Foundation.Ring
import Mathlib.Data.List.TakeWhile

/-!
# One message queue as a list

The abstract view of an `OSQueue_t` is the list of its messages, first to last.
This module says what `queue_push`, `MsgQAllDelayed` and the loop of
`os_msg_receive` do to that list.  The walks of the ring go by induction over
the list they have still to visit.
-/

namespace CocoOs

open Foundation

variable {β : Type}

/-! ## Messages over time -/

namespace Msg

/-- The message waits for its delay. -/
def delayed (msg : Msg β) : Bool := msg.delay ≠ 0

@[simp] theorem delayed_eq_true_iff (msg : Msg β) :
    msg.delayed = true ↔ msg.delay ≠ 0 := by
  simp [delayed]

@[simp] theorem delayed_eq_false_iff (msg : Msg β) :
    msg.delayed = false ↔ msg.delay = 0 := by
  simp [delayed]

/-- The message after `os_msg_post` has set its delay and reload. -/
def armed (msg : Msg β) (delay period : Nat) : Msg β :=
  { msg with delay := delay, reload := period }

/-- The message one master clock tick later. -/
def age (msg : Msg β) : Msg β := { msg with delay := msg.delay - 1 }

@[simp] theorem age_delay (msg : Msg β) : msg.age.delay = msg.delay - 1 := rfl

/-- A message that can be delivered does not age. -/
theorem age_of_ready {msg : Msg β} (ready : msg.delay = 0) : msg.age = msg := by
  cases msg
  simp_all [age]

/-- The message as a receive leaves it in the destination buffer: the delay of
a periodic message has been set to its reload. -/
def rearmed (msg : Msg β) : Msg β :=
  if 0 < msg.reload then { msg with delay := msg.reload } else msg

/-- What a receive of the message puts back into the queue. -/
def putBack (msg : Msg β) : List (Msg β) :=
  if 0 < msg.reload then [msg.rearmed] else []

end Msg

/-! ## The abstract queue -/

namespace OSQueue

/-- The indices of the ring are inside it. -/
structure Valid (q : OSQueue β) : Prop where
  tail_lt : q.tail < q.size
  head_lt : q.head < q.size

/-- The messages of a queue, first to last. -/
def contents (q : OSQueue β) : List (Msg β) :=
  Ring.contents q.size q.list q.tail q.head

/-- The queue holds exactly these messages. -/
def Holds (q : OSQueue β) (messages : List (Msg β)) : Prop :=
  Ring.Represents q.size q.list q.tail q.head messages

theorem Valid.holds {q : OSQueue β} (valid : q.Valid) : q.Holds q.contents :=
  Ring.represents_contents valid.tail_lt valid.head_lt

theorem Holds.valid {q : OSQueue β} {messages : List (Msg β)}
    (holds : q.Holds messages) : q.Valid :=
  ⟨holds.tail_lt, holds.head_lt⟩

theorem Holds.contents_eq {q : OSQueue β} {messages : List (Msg β)}
    (holds : q.Holds messages) : q.contents = messages :=
  holds.eq_contents

/-- The first `receive` finds in a list of messages: the messages it skips, the
message it delivers and the messages after it. -/
def firstReady (messages : List (Msg β)) :
    Option (List (Msg β) × Msg β × List (Msg β)) :=
  match messages.dropWhile Msg.delayed with
  | [] => none
  | msg :: later => some (messages.takeWhile Msg.delayed, msg, later)

theorem firstReady_eq_none_iff (messages : List (Msg β)) :
    firstReady messages = none ↔ ∀ msg ∈ messages, msg.delayed = true := by
  unfold firstReady
  rw [← List.dropWhile_eq_nil_iff]
  cases messages.dropWhile Msg.delayed with
  | nil => simp
  | cons msg later => simp

/-- A list with a deliverable message splits at the first one. -/
theorem firstReady_eq_some_iff
    (messages skipped later : List (Msg β)) (msg : Msg β) :
    firstReady messages = some (skipped, msg, later) ↔
      messages = skipped ++ msg :: later ∧
        (∀ earlier ∈ skipped, earlier.delayed = true) ∧ msg.delay = 0 := by
  constructor
  · intro found
    unfold firstReady at found
    have split := List.takeWhile_append_dropWhile (p := Msg.delayed) (l := messages)
    cases rest : messages.dropWhile Msg.delayed with
    | nil => simp [rest] at found
    | cons first others =>
        simp only [rest, Option.some.injEq, Prod.mk.injEq] at found
        obtain ⟨skippedEq, firstEq, othersEq⟩ := found
        subst skippedEq firstEq othersEq
        rw [rest] at split
        refine ⟨split.symm, fun earlier inside => ?_, ?_⟩
        · exact List.mem_takeWhile_imp inside
        · have stopped := List.head_dropWhile_not Msg.delayed
            (l := messages) (by simp [rest])
          simpa [rest] using stopped
  · rintro ⟨rfl, skippedDelayed, ready⟩
    have notDelayed : ¬ msg.delayed = true := by simpa using ready
    unfold firstReady
    rw [List.dropWhile_append_of_pos skippedDelayed,
      List.takeWhile_append_of_pos skippedDelayed,
      List.dropWhile_cons_of_neg notDelayed,
      List.takeWhile_cons_of_neg notDelayed]
    simp

/-! ## Posting -/

theorem write_of_lt
    (q : OSQueue β) {index : Nat} (inside : index < q.size) (msg : Msg β) :
    q.write index msg =
      .ok { q with list := Function.update q.list index msg } := by
  rw [write, if_pos inside]

/-- A full queue refuses the message and stays as it is. -/
theorem queuePush_of_full
    {q : OSQueue β} {messages : List (Msg β)}
    (holds : q.Holds messages)
    (full : messages.length + 1 = q.size)
    (msg : Msg β) :
    q.queuePush msg = .ok (.full, q) := by
  have positive := holds.size_pos
  have met : q.head = q.tail := holds.full_iff.mpr full
  rw [queuePush, if_neg (by omega), if_pos met]

/-- A queue with room takes the message at its end. -/
theorem queuePush_of_room
    {q : OSQueue β} {messages : List (Msg β)}
    (holds : q.Holds messages)
    (room : messages.length + 1 < q.size)
    (msg : Msg β) :
    ∃ q', q.queuePush msg = .ok (.posted, q') ∧
      q'.Holds (messages ++ [msg]) ∧ q'.size = q.size ∧
      q'.messageSize = q.messageSize := by
  have apart : q.head ≠ q.tail := by
    intro met
    have full := holds.full_iff.mp met
    omega
  refine ⟨{ q with
      list := Function.update q.list q.head msg
      head := (q.head + 1) % q.size }, ?_, holds.append room msg, rfl, rfl⟩
  rw [queuePush, if_neg (by omega), if_neg apart, q.write_of_lt holds.head_lt,
    ok_bind]

/-! ## Receiving -/

/-- The walk of `MsgQAllDelayed` over the messages it has still to visit. -/
theorem allDelayedLoop_eq
    (q : OSQueue β)
    (fuel tail : Nat)
    {messages : List (Msg β)}
    (represents : Ring.Represents q.size q.list tail q.head messages)
    (enough : messages.length ≤ fuel) :
    q.allDelayedLoop fuel ((tail + 1) % q.size) =
      .ok (messages.all Msg.delayed) := by
  induction messages generalizing tail fuel with
  | nil =>
      unfold allDelayedLoop
      rw [if_pos (represents.empty_iff.mpr rfl)]
      rfl
  | cons msg later inductionHypothesis =>
      have notEmpty : (tail + 1) % q.size ≠ q.head := by
        intro met
        exact absurd (represents.empty_iff.mp met) (List.cons_ne_nil msg later)
      have front := represents.front
      unfold allDelayedLoop
      rw [if_neg notEmpty, front, List.all_cons]
      by_cases ready : msg.delay = 0
      · rw [if_pos ready, (msg.delayed_eq_false_iff).mpr ready, Bool.false_and]
      · rw [if_neg ready, (msg.delayed_eq_true_iff).mpr ready, Bool.true_and]
        cases fuel with
        | zero => simp at enough
        | succ fuel =>
            exact inductionHypothesis fuel ((tail + 1) % q.size)
              represents.drop (by simpa using enough)

/-- `MsgQAllDelayed` tells whether every message is delayed. -/
theorem msgQAllDelayed_eq
    {q : OSQueue β} {messages : List (Msg β)}
    (holds : q.Holds messages) :
    q.msgQAllDelayed = .ok (messages.all Msg.delayed) :=
  q.allDelayedLoop_eq q.size q.tail holds (Nat.le_of_lt holds.fits)

/-- The loop of `os_msg_receive` moves the delayed messages it skips to the
end, and puts a periodic message it delivers back behind them. -/
theorem receiveLoop_eq
    (fuel tail : Nat)
    (q : OSQueue β)
    {skipped later : List (Msg β)}
    {msg : Msg β}
    (represents :
      Ring.Represents q.size q.list tail q.head (skipped ++ msg :: later))
    (skippedDelayed : ∀ earlier ∈ skipped, earlier.delayed = true)
    (ready : msg.delay = 0)
    (enough : skipped.length < fuel) :
    ∃ delivery, receiveLoop fuel tail q = .ok delivery ∧
      delivery.slot = msg ∧ delivery.msg = msg.rearmed ∧
      delivery.q.size = q.size ∧ delivery.q.messageSize = q.messageSize ∧
      Ring.Represents q.size delivery.q.list delivery.tail delivery.q.head
        (later ++ skipped ++ msg.putBack) := by
  induction skipped generalizing fuel tail q later with
  | nil =>
      obtain ⟨fuel, rfl⟩ : ∃ prior, fuel = prior + 1 :=
        ⟨fuel - 1, by simp at enough; omega⟩
      have front : q.list ((tail + 1) % q.size) = msg := represents.front
      have dropped := represents.drop
      have headInside := represents.head_lt
      simp only [receiveLoop, front, ready, not_true_eq_false, and_true,
        true_and, false_or, if_true]
      by_cases periodic : 0 < msg.reload
      · have room : later.length + 1 < q.size := by
          simpa using represents.fits
        have appended := dropped.append room msg.rearmed
        simp only [periodic, if_true, q.write_of_lt headInside, ok_bind]
        refine ⟨_, rfl, rfl, ?_, rfl, rfl, ?_⟩
        · simp [Msg.rearmed, periodic]
        · simpa [Msg.rearmed, Msg.putBack, periodic] using appended
      · simp only [periodic, if_false, ok_bind]
        refine ⟨_, rfl, rfl, ?_, rfl, rfl, ?_⟩
        · simp [Msg.rearmed, periodic]
        · simpa [Msg.putBack, periodic] using dropped
  | cons first others inductionHypothesis =>
      obtain ⟨fuel, rfl⟩ : ∃ prior, fuel = prior + 1 :=
        ⟨fuel - 1, by simp at enough; omega⟩
      have front : q.list ((tail + 1) % q.size) = first := represents.front
      have firstDelayed : first.delay ≠ 0 :=
        first.delayed_eq_true_iff.mp
          (skippedDelayed first (List.mem_cons_self ..))
      have headInside := represents.head_lt
      have fits := represents.fits
      have rotated := represents.drop.append
        (by simp only [List.cons_append, List.length_cons] at fits; exact fits)
        first
      have reassociate : others ++ msg :: later ++ [first] =
          others ++ msg :: (later ++ [first]) := by simp
      have rotated := reassociate ▸ rotated
      simp only [receiveLoop, front, firstDelayed, false_and, not_false_eq_true,
        true_or, if_true, if_false, q.write_of_lt headInside, ok_bind]
      obtain ⟨delivery, returns, slot, buffer, size, messageSize, holds⟩ :=
        inductionHypothesis fuel ((tail + 1) % q.size)
          { q with
            list := Function.update q.list q.head first
            head := (q.head + 1) % q.size }
          rotated
          (fun earlier inside =>
            skippedDelayed earlier (List.mem_cons_of_mem first inside))
          (by simpa using enough)
      refine ⟨delivery, returns, slot, buffer, size, messageSize, ?_⟩
      simpa using holds

end OSQueue

end CocoOs
