import CocoOs.QueueLog
import Mathlib.Data.List.Induction

/-!
# The life of one message

A message that a queue accepted once has one copy until it is delivered.  Its
delay runs down with the ticks of the master clock and is set again when a
periodic message is delivered; nothing else about it changes.  Everything here
is read off the log of the queue.
-/

namespace CocoOs

open Foundation

variable {β : Type}

/-! ## Entries about some messages -/

namespace Entry

/-- A tick of the master clock. -/
def isTick : Entry β → Bool
  | .ticked => true
  | _ => false

/-- The queue accepts one of the messages. -/
def accepts (queue : Nat) (own : β → Bool) : Entry β → Bool
  | .posted other msg => other == queue && own msg.payload
  | _ => false

/-- The queue delivers one of the messages. -/
def delivers (queue : Nat) (own : β → Bool) : Entry β → Bool
  | .received other msg => other == queue && own msg.payload
  | _ => false

/-- What an entry makes of the copy of a message in the queue. -/
def onCopy (queue : Nat) (own : β → Bool) (copy : Option (Msg β)) :
    Entry β → Option (Msg β)
  | .posted other msg =>
      if other == queue && own msg.payload then some msg else copy
  | .received other msg =>
      if other == queue && own msg.payload then msg.putBack.head? else copy
  | .ticked => copy.map Msg.age
  | .signalled _ => copy

/-- An entry about other things leaves the copy. -/
theorem onCopy_of_foreign
    {queue : Nat} {entry : Entry β}
    (foreign : ¬ entry.Concerns queue)
    (own : β → Bool) (copy : Option (Msg β)) :
    entry.onCopy queue own copy = copy ∧ entry.accepts queue own = false := by
  cases entry with
  | posted other msg | received other msg =>
      have apart : (other == queue) = false := by simpa [Concerns] using foreign
      simp [onCopy, accepts, apart]
  | signalled event => exact ⟨rfl, rfl⟩
  | ticked => exact absurd trivial foreign

end Entry

/-- The ticks of the master clock among the entries. -/
def ticksIn (log : List (Entry β)) : Nat := log.countP Entry.isTick

theorem ticksIn_append (earlier later : List (Entry β)) :
    ticksIn (earlier ++ later) = ticksIn earlier + ticksIn later :=
  List.countP_append

/-- The copies of some messages. -/
def copies (own : β → Bool) (messages : List (Msg β)) : List (Msg β) :=
  messages.filter fun msg => own msg.payload

theorem copies_append (own : β → Bool) (earlier later : List (Msg β)) :
    copies own (earlier ++ later) = copies own earlier ++ copies own later :=
  List.filter_append ..

theorem copies_age (own : β → Bool) (messages : List (Msg β)) :
    copies own (messages.map Msg.age) = (copies own messages).map Msg.age :=
  List.filter_map ..

/-- What a receive puts back is a copy of what it delivers. -/
theorem copies_putBack (own : β → Bool) (msg : Msg β) :
    copies own msg.putBack = if own msg.payload then msg.putBack else [] := by
  unfold copies Msg.putBack Msg.rearmed
  by_cases periodic : 0 < msg.reload
  · simp only [if_pos periodic]
    cases mine : own msg.payload <;> simp [mine]
  · simp [if_neg periodic]

theorem Msg.putBack_eq_toList (msg : Msg β) :
    msg.putBack.head?.toList = msg.putBack := by
  unfold Msg.putBack
  split_ifs <;> rfl

/-! ## One copy -/

/-- A list with at most one element reads the same in two halves. -/
theorem append_comm_of_length_le_one
    {α : Type} {first second : List α}
    (short : (first ++ second).length ≤ 1) :
    second ++ first = first ++ second := by
  cases first with
  | nil => simp
  | cons head tail =>
      have empty : second = [] := by
        apply List.eq_nil_of_length_eq_zero
        simp only [List.length_append, List.length_cons] at short
        omega
      simp [empty]

namespace QueueLog

variable {queue : Nat} {log : List (Entry β)} {messages : List (Msg β)}
variable {own : β → Bool}

/-- Messages that were accepted once at most have one copy at most, and the
entries say what it is. -/
theorem copies_eq_foldl
    (own : β → Bool)
    (replays : QueueLog queue log messages)
    (once : log.countP (Entry.accepts queue own) ≤ 1) :
    copies own messages =
        (log.foldl (Entry.onCopy queue own) none).toList ∧
      (log.countP (Entry.accepts queue own) = 0 → copies own messages = []) := by
  induction replays with
  | empty => exact ⟨rfl, fun _ => rfl⟩
  | @posted log messages before msg inductionHypothesis =>
      rw [List.countP_append] at once ⊢
      obtain ⟨copy, none⟩ := inductionHypothesis (by omega)
      rw [copies_append, List.foldl_append]
      cases mine : own msg.payload with
      | true =>
          have fresh : log.countP (Entry.accepts queue own) = 0 := by
            have one : [Entry.posted queue msg].countP
                (Entry.accepts queue own) = 1 := by
              simp [Entry.accepts, mine]
            omega
          rw [none fresh]
          simp [Entry.accepts, Entry.onCopy, copies, mine]
      | false =>
          constructor
          · rw [copy]
            simp [Entry.onCopy, copies, mine]
          · intro zero
            rw [none (by omega)]
            simp [copies, mine]
  | @received log skipped later msg before delayed ready inductionHypothesis =>
      rw [List.countP_append] at once ⊢
      obtain ⟨copy, none⟩ := inductionHypothesis (by omega)
      have short : (copies own (skipped ++ msg :: later)).length ≤ 1 := by
        rw [copy]
        cases log.foldl (Entry.onCopy queue own) Option.none <;> simp
      rw [copies_append] at short copy none
      rw [copies_append, copies_append, copies_putBack, List.foldl_append]
      cases mine : own msg.payload with
      | true =>
          have own_cons : copies own (msg :: later) = msg :: copies own later :=
            List.filter_cons_of_pos (by exact mine)
          rw [own_cons] at short
          simp only [List.length_append, List.length_cons] at short
          have noSkipped : copies own skipped = [] :=
            List.eq_nil_of_length_eq_zero (by omega)
          have noLater : copies own later = [] :=
            List.eq_nil_of_length_eq_zero (by omega)
          constructor
          · rw [noSkipped, noLater]
            simp [Entry.onCopy, mine, msg.putBack_eq_toList]
          · intro zero
            rw [own_cons] at none
            exact absurd (none (by omega)) (by simp)
      | false =>
          have own_cons : copies own (msg :: later) = copies own later :=
            List.filter_cons_of_neg (by simp [mine])
          rw [own_cons] at short copy none
          rw [append_comm_of_length_le_one short, if_neg (by simp),
            List.append_nil]
          refine ⟨?_, fun zero => none (by omega)⟩
          rw [copy]
          simp [Entry.onCopy, mine]
  | @ticked log messages before inductionHypothesis =>
      rw [List.countP_append] at once ⊢
      obtain ⟨copy, none⟩ := inductionHypothesis (by omega)
      rw [copies_age, List.foldl_append]
      refine ⟨?_, fun zero => ?_⟩
      · rw [copy]
        simp only [List.foldl_cons, List.foldl_nil, Entry.onCopy]
        cases log.foldl (Entry.onCopy queue own) Option.none <;> rfl
      · rw [none (by omega)]
        rfl
  | @other log messages entry before foreign inductionHypothesis =>
      rw [List.countP_append] at once ⊢
      obtain ⟨copy, none⟩ := inductionHypothesis (by omega)
      rw [List.foldl_append]
      refine ⟨?_, fun zero => none (by omega)⟩
      rw [copy]
      exact congrArg Option.toList (entry.onCopy_of_foreign foreign own _).1.symm

/-- The messages before an entry of the log. -/
theorem exists_prefix
    {earlier later : List (Entry β)}
    (replays : QueueLog queue (earlier ++ later) messages) :
    ∃ before, QueueLog queue earlier before := by
  induction later using List.reverseRecOn generalizing messages with
  | nil => exact ⟨messages, by simpa using replays⟩
  | append_singleton later entry inductionHypothesis =>
      rw [← List.append_assoc] at replays
      generalize whole : earlier ++ later ++ [entry] = log at replays
      cases replays with
      | empty => simp at whole
      | posted before | received before | ticked before | other before =>
          obtain ⟨same, _⟩ := List.append_inj' whole rfl
          exact inductionHypothesis (same ▸ before)

/-- A delivered message was in the queue, and its delay had run down. -/
theorem of_received
    {msg : Msg β}
    (replays : QueueLog queue (log ++ [.received queue msg]) messages) :
    msg.delay = 0 ∧
      ∃ before, QueueLog queue log before ∧ msg ∈ before := by
  generalize whole : log ++ [.received queue msg] = entries at replays
  cases replays with
  | empty => simp at whole
  | posted | ticked =>
      obtain ⟨_, wrong⟩ := List.append_inj' whole rfl
      cases wrong
  | received before delayed ready =>
      obtain ⟨rfl, same⟩ := List.append_inj' whole rfl
      cases same
      exact ⟨ready, _, before, by simp⟩
  | other before foreign =>
      obtain ⟨_, same⟩ := List.append_inj' whole rfl
      cases same
      exact absurd rfl foreign

/-- The copy that an entry delivers. -/
theorem delivered_copy
    (own : β → Bool)
    {earlier later : List (Entry β)} {msg : Msg β}
    (replays : QueueLog queue (earlier ++ .received queue msg :: later) messages)
    (once : earlier.countP (Entry.accepts queue own) ≤ 1)
    (mine : own msg.payload = true) :
    earlier.foldl (Entry.onCopy queue own) none = some msg ∧ msg.delay = 0 := by
  rw [List.append_cons] at replays
  obtain ⟨_, replays⟩ := replays.exists_prefix
  obtain ⟨ready, before, replaysBefore, inside⟩ := replays.of_received
  refine ⟨?_, ready⟩
  have copy := (replaysBefore.copies_eq_foldl own once).1
  have member : msg ∈ copies own before :=
    List.mem_filter.mpr ⟨inside, mine⟩
  rw [copy] at member
  exact Option.mem_toList.mp member

end QueueLog

/-! ## What stays the same -/

/-- The message with its delay run down. -/
def Msg.settled (msg : Msg β) : Msg β := { msg with delay := 0 }

theorem Msg.settled_of_ready {msg : Msg β} (ready : msg.delay = 0) :
    msg.settled = msg := by
  cases msg
  simp_all [settled]

theorem Msg.settled_of_mem_putBack {msg back : Msg β} (inside : back ∈ msg.putBack) :
    back.settled = msg.settled ∧ back.payload = msg.payload := by
  unfold putBack rearmed at inside
  split_ifs at inside with periodic
  · rw [List.mem_singleton.mp inside]
    exact ⟨rfl, rfl⟩
  · cases inside

namespace QueueLog

variable {queue : Nat} {log : List (Entry β)} {messages : List (Msg β)}
variable {own : β → Bool}

/-- Messages change in nothing but their delay. -/
theorem settled_of_mem
    (replays : QueueLog queue log messages)
    {core : Msg β}
    (accepted : ∀ msg, .posted queue msg ∈ log → own msg.payload = true →
      msg.settled = core) :
    ∀ msg ∈ messages, own msg.payload = true → msg.settled = core := by
  induction replays with
  | empty => simp
  | posted before msg inductionHypothesis =>
      have earlier := inductionHypothesis fun other inside =>
        accepted other (List.mem_append_left _ inside)
      intro other inside mine
      rcases List.mem_append.mp inside with old | new
      · exact earlier other old mine
      · rw [List.mem_singleton.mp new] at mine ⊢
        exact accepted msg (by simp) mine
  | @received log skipped later msg before delayed ready inductionHypothesis =>
      have earlier := inductionHypothesis fun other inside =>
        accepted other (List.mem_append_left _ inside)
      intro other inside mine
      rcases List.mem_append.mp inside with old | back
      · apply earlier other _ mine
        rcases List.mem_append.mp old with inLater | inSkipped
        · exact List.mem_append_right _ (List.mem_cons_of_mem _ inLater)
        · exact List.mem_append_left _ inSkipped
      · obtain ⟨same, payload⟩ := Msg.settled_of_mem_putBack back
        rw [payload] at mine
        rw [same]
        exact earlier msg (by simp) mine
  | ticked before inductionHypothesis =>
      have earlier := inductionHypothesis fun other inside =>
        accepted other (List.mem_append_left _ inside)
      intro other inside mine
      obtain ⟨young, old, rfl⟩ := List.mem_map.mp inside
      exact earlier young old mine
  | other before foreign inductionHypothesis =>
      exact inductionHypothesis fun other inside =>
        accepted other (List.mem_append_left _ inside)

end QueueLog

/-! ## Between two deliveries -/

section

variable {queue : Nat} {own : β → Bool} {entries : List (Entry β)}

/-- Nothing about the messages happens but ticks. -/
def Uneventful (queue : Nat) (own : β → Bool) (entries : List (Entry β)) : Prop :=
  ∀ entry ∈ entries,
    entry.accepts queue own = false ∧ entry.delivers queue own = false

/-- Meanwhile the delay of the copy runs down. -/
theorem Uneventful.foldl_some
    (uneventful : Uneventful queue own entries) (msg : Msg β) :
    entries.foldl (Entry.onCopy queue own) (some msg) =
      some { msg with delay := msg.delay - ticksIn entries } := by
  induction entries generalizing msg with
  | nil => rfl
  | cons entry entries inductionHypothesis =>
      obtain ⟨notAccepted, notDelivered⟩ :=
        uneventful entry (List.mem_cons_self ..)
      have later := inductionHypothesis fun other inside =>
        uneventful other (List.mem_cons_of_mem _ inside)
      rw [List.foldl_cons]
      cases entry with
      | posted other posted =>
          have foreign : (other == queue && own posted.payload) = false :=
            notAccepted
          rw [Entry.onCopy, foreign]
          exact later msg
      | received other received =>
          have foreign : (other == queue && own received.payload) = false :=
            notDelivered
          rw [Entry.onCopy, foreign]
          exact later msg
      | signalled event => exact later msg
      | ticked =>
          refine (later msg.age).trans ?_
          have one : ticksIn (.ticked :: entries) = ticksIn entries + 1 :=
            List.countP_cons_of_pos rfl
          rw [one, Msg.age_delay, Nat.sub_sub, Nat.add_comm 1]
          rfl

theorem Uneventful.foldl_none
    (uneventful : Uneventful queue own entries) :
    entries.foldl (Entry.onCopy queue own) none = none := by
  induction entries with
  | nil => rfl
  | cons entry entries inductionHypothesis =>
      obtain ⟨notAccepted, notDelivered⟩ :=
        uneventful entry (List.mem_cons_self ..)
      have later := inductionHypothesis fun other inside =>
        uneventful other (List.mem_cons_of_mem _ inside)
      rw [List.foldl_cons]
      cases entry with
      | posted other posted =>
          have foreign : (other == queue && own posted.payload) = false :=
            notAccepted
          rw [Entry.onCopy, foreign]
          exact later
      | received other received =>
          have foreign : (other == queue && own received.payload) = false :=
            notDelivered
          rw [Entry.onCopy, foreign]
          exact later
      | signalled event | ticked => exact later

/-- The copy after a delivery, until the next. -/
theorem Uneventful.foldl_delivered
    (uneventful : Uneventful queue own entries)
    {before : List (Entry β)} {msg : Msg β} {copy : Option (Msg β)}
    (mine : own msg.payload = true) :
    (before ++ .received queue msg :: entries).foldl
        (Entry.onCopy queue own) copy =
      if 0 < msg.reload then
        some { msg with delay := msg.reload - ticksIn entries }
      else none := by
  rw [List.foldl_append, List.foldl_cons]
  have taken : (Entry.received queue msg).onCopy queue own
      (before.foldl (Entry.onCopy queue own) copy) = msg.putBack.head? := by
    simp [Entry.onCopy, mine]
  rw [taken]
  unfold Msg.putBack Msg.rearmed
  split_ifs with periodic
  · exact uneventful.foldl_some _
  · exact uneventful.foldl_none

end

/-! ## A whole life -/

/-- The queue accepted the message, and none of the others. -/
structure AcceptedOnce (queue : Nat) (own : β → Bool)
    (earlier : List (Entry β)) (msg : Msg β) (later : List (Entry β)) : Prop where
  mine : own msg.payload = true
  before : ∀ entry ∈ earlier, entry.accepts queue own = false
  after : ∀ entry ∈ later, entry.accepts queue own = false

namespace AcceptedOnce

variable {queue : Nat} {own : β → Bool} {earlier later : List (Entry β)}
variable {msg : Msg β} {messages : List (Msg β)}

theorem countP_eq
    (once : AcceptedOnce queue own earlier msg later) :
    (earlier ++ .posted queue msg :: later).countP
      (Entry.accepts queue own) = 1 := by
  have none : ∀ entries : List (Entry β),
      (∀ entry ∈ entries, entry.accepts queue own = false) →
      entries.countP (Entry.accepts queue own) = 0 := by
    intro entries foreign
    rw [List.countP_eq_zero]
    intro entry inside
    rw [foreign entry inside]
    exact Bool.false_ne_true
  have one : (Entry.posted queue msg).accepts queue own = true := by
    simp [Entry.accepts, once.mine]
  rw [List.countP_append, List.countP_cons_of_pos one, none _ once.before,
    none _ once.after]

/-- The life of the copy starts when the message is accepted. -/
theorem foldl_eq
    (once : AcceptedOnce queue own earlier msg later)
    (replays : QueueLog queue (earlier ++ .posted queue msg :: later) messages)
    (entries : List (Entry β)) :
    (earlier ++ .posted queue msg :: entries).foldl
        (Entry.onCopy queue own) none =
      entries.foldl (Entry.onCopy queue own) (some msg) := by
  obtain ⟨before, replaysBefore⟩ := replays.exists_prefix
  have none : earlier.countP (Entry.accepts queue own) = 0 := by
    rw [List.countP_eq_zero]
    intro entry inside
    rw [once.before entry inside]
    exact Bool.false_ne_true
  obtain ⟨copy, empty⟩ := replaysBefore.copies_eq_foldl own (by omega)
  rw [empty none] at copy
  rw [List.foldl_append, List.foldl_cons]
  have taken : (Entry.posted queue msg).onCopy queue own
      (earlier.foldl (Entry.onCopy queue own) Option.none) = some msg := by
    simp [Entry.onCopy, once.mine]
  rw [taken]

/-- No message is delivered before it is accepted. -/
theorem not_delivered_before
    (once : AcceptedOnce queue own earlier msg later)
    (replays : QueueLog queue (earlier ++ .posted queue msg :: later) messages) :
    ∀ entry ∈ earlier, ¬ entry.delivers queue own = true := by
  intro entry inside delivers
  cases entry with
  | received other taken =>
      have both : (other == queue && own taken.payload) = true := delivers
      simp only [Bool.and_eq_true, beq_iff_eq] at both
      obtain ⟨rfl, mine⟩ := both
      obtain ⟨before, after, split⟩ := List.append_of_mem inside
      rw [split, List.append_assoc, List.cons_append] at replays
      have none : before.countP (Entry.accepts other own) = 0 := by
        rw [List.countP_eq_zero]
        intro entry early
        rw [once.before entry (split ▸ List.mem_append_left _ early)]
        exact Bool.false_ne_true
      have copy := (replays.delivered_copy own (by omega) mine).1
      obtain ⟨_, replaysBefore⟩ := replays.exists_prefix
      obtain ⟨same, empty⟩ := replaysBefore.copies_eq_foldl own (by omega)
      rw [empty none, copy] at same
      cases same
  | _ => cases delivers

/-- The copies of the message are what the entries since have left of it. -/
theorem copies_eq
    (once : AcceptedOnce queue own earlier msg later)
    (replays : QueueLog queue (earlier ++ .posted queue msg :: later) messages) :
    copies own messages =
      (later.foldl (Entry.onCopy queue own) (some msg)).toList := by
  rw [(replays.copies_eq_foldl own once.countP_eq.le).1, once.foldl_eq replays]

/-- A delivery takes the copy as it is, with its delay run down. -/
theorem delivered
    (once : AcceptedOnce queue own earlier msg later)
    (replays : QueueLog queue (earlier ++ .posted queue msg :: later) messages)
    {before after : List (Entry β)} {taken : Msg β}
    (split : later = before ++ .received queue taken :: after)
    (mine : own taken.payload = true) :
    before.foldl (Entry.onCopy queue own) (some msg) = some taken ∧
      taken = msg.settled := by
  have whole : earlier ++ .posted queue msg :: later =
      (earlier ++ .posted queue msg :: before) ++
        .received queue taken :: after := by
    rw [split]
    simp
  have few : (earlier ++ .posted queue msg :: before).countP
      (Entry.accepts queue own) ≤ 1 := by
    have all := once.countP_eq
    rw [whole, List.countP_append] at all
    omega
  have replaysTaken := whole ▸ replays
  obtain ⟨copy, ready⟩ := replaysTaken.delivered_copy own few mine
  rw [once.foldl_eq replays] at copy
  refine ⟨copy, ?_⟩
  rw [List.append_cons] at replaysTaken
  obtain ⟨_, replaysTaken⟩ := replaysTaken.exists_prefix
  obtain ⟨_, held, replaysHeld, inside⟩ := replaysTaken.of_received
  rw [← Msg.settled_of_ready ready]
  refine replaysHeld.settled_of_mem (fun other accepted others => ?_) taken
    inside mine
  -- the log has no other message of this kind
  have accepts : (Entry.posted queue other).accepts queue own = true := by
    simp [Entry.accepts, others]
  rcases List.mem_append.mp accepted with old | recent
  · rw [once.before _ old] at accepts
    cases accepts
  · rcases List.mem_cons.mp recent with same | new
    · cases same
      rfl
    · rw [once.after _ (split ▸ List.mem_append_left _ new)] at accepts
      cases accepts

/-- An entry that delivers the message. -/
theorem delivers_cases
    {entry : Entry β} (delivers : entry.delivers queue own = true) :
    ∃ taken, entry = .received queue taken ∧ own taken.payload = true := by
  cases entry with
  | received other taken =>
      have both : (other == queue && own taken.payload) = true := delivers
      simp only [Bool.and_eq_true, beq_iff_eq] at both
      exact ⟨taken, by rw [both.1], both.2⟩
  | _ => cases delivers

/-- Stretches without a delivery are uneventful. -/
theorem uneventful
    (once : AcceptedOnce queue own earlier msg later)
    {entries : List (Entry β)}
    (part : entries ⊆ later)
    (none : ∀ entry ∈ entries, ¬ entry.delivers queue own = true) :
    Uneventful queue own entries :=
  fun entry inside =>
    ⟨once.after entry (part inside), by simpa using none entry inside⟩

/-- Before its first delivery the delay of the message has run down. -/
theorem delay_le_first
    (once : AcceptedOnce queue own earlier msg later)
    (replays : QueueLog queue (earlier ++ .posted queue msg :: later) messages)
    {before after : List (Entry β)} {taken : Msg β}
    (split : later = before ++ .received queue taken :: after)
    (mine : own taken.payload = true)
    (first : ∀ entry ∈ before, ¬ entry.delivers queue own = true) :
    msg.delay ≤ ticksIn before := by
  obtain ⟨copy, settled⟩ := once.delivered replays split mine
  have part : before ⊆ later := by
    rw [split]
    exact List.subset_append_left _ _
  rw [(once.uneventful part first).foldl_some, Option.some.injEq] at copy
  have delay := congrArg Msg.delay (copy.trans settled)
  change msg.delay - ticksIn before = 0 at delay
  omega

/-- The message is not delivered early. -/
theorem delay_le
    (once : AcceptedOnce queue own earlier msg later)
    (replays : QueueLog queue (earlier ++ .posted queue msg :: later) messages)
    {before after : List (Entry β)} {taken : Msg β}
    (split : later = before ++ .received queue taken :: after)
    (mine : own taken.payload = true) :
    msg.delay ≤ ticksIn before := by
  by_cases already : ∃ entry ∈ before, entry.delivers queue own = true
  · obtain ⟨start, entry, rest, whole, delivers, first⟩ := exists_first already
    obtain ⟨taken', rfl, mine'⟩ := delivers_cases delivers
    have earlierSplit : later =
        start ++ .received queue taken' ::
          (rest ++ .received queue taken :: after) := by
      rw [split, whole]
      simp
    have enough := once.delay_le_first replays earlierSplit mine' first
    rw [whole, ticksIn_append]
    omega
  · exact once.delay_le_first replays split mine fun entry inside delivers =>
      already ⟨entry, inside, delivers⟩

/-- A message that is delivered again is periodic, and its period has run. -/
theorem reload_le
    (once : AcceptedOnce queue own earlier msg later)
    (replays : QueueLog queue (earlier ++ .posted queue msg :: later) messages)
    {before between after : List (Entry β)} {first second : Msg β}
    (split : later = before ++ .received queue first ::
      (between ++ .received queue second :: after))
    (mineFirst : own first.payload = true)
    (mineSecond : own second.payload = true) :
    0 < msg.reload ∧ msg.reload ≤ ticksIn between := by
  have again : ∃ entry ∈ .received queue first :: between,
      entry.delivers queue own = true :=
    ⟨_, List.mem_cons_self .., by simp [Entry.delivers, mineFirst]⟩
  -- the last delivery before the second
  obtain ⟨start, entry, rest, whole, delivers, none⟩ := exists_last again
  obtain ⟨last, rfl, mineLast⟩ := delivers_cases delivers
  have restSplit : later = (before ++ start ++ .received queue last :: rest) ++
      .received queue second :: after := by
    rw [split, List.append_cons before, ← List.append_assoc,
      List.append_assoc before, List.singleton_append, whole]
    simp
  have lastSplit : later = (before ++ start) ++ .received queue last ::
      (rest ++ .received queue second :: after) := by
    rw [restSplit]
    simp
  have part : rest ⊆ later := by
    rw [lastSplit]
    intro entry inside
    simp [inside]
  obtain ⟨copy, settled⟩ := once.delivered replays restSplit mineSecond
  have same := (once.delivered replays lastSplit mineLast).2
  have reload : last.reload = msg.reload := by
    rw [same]
    rfl
  rw [(once.uneventful part none).foldl_delivered mineLast, reload] at copy
  split_ifs at copy with periodic
  rw [Option.some.injEq] at copy
  have delay := congrArg Msg.delay (copy.trans settled)
  change msg.reload - ticksIn rest = 0 at delay
  have within : ticksIn rest ≤ ticksIn between := by
    have ticks := congrArg ticksIn whole
    have some : ticksIn (Entry.received queue first :: between) =
        ticksIn between := List.countP_cons_of_neg (by simp [Entry.isTick])
    have none : ticksIn (Entry.received queue last :: rest) = ticksIn rest :=
      List.countP_cons_of_neg (by simp [Entry.isTick])
    rw [ticksIn_append, some, none] at ticks
    omega
  exact ⟨periodic, by omega⟩

/-- The copy of a message that was not delivered yet. -/
theorem copies_waiting
    (once : AcceptedOnce queue own earlier msg later)
    (replays : QueueLog queue (earlier ++ .posted queue msg :: later) messages)
    (none : ∀ entry ∈ later, ¬ entry.delivers queue own = true) :
    copies own messages = [{ msg with delay := msg.delay - ticksIn later }] := by
  rw [once.copies_eq replays,
    (once.uneventful (List.Subset.refl later) none).foldl_some]
  rfl

/-- The copy of a message since its last delivery. -/
theorem copies_delivered
    (once : AcceptedOnce queue own earlier msg later)
    (replays : QueueLog queue (earlier ++ .posted queue msg :: later) messages)
    {before after : List (Entry β)} {taken : Msg β}
    (split : later = before ++ .received queue taken :: after)
    (mine : own taken.payload = true)
    (last : ∀ entry ∈ after, ¬ entry.delivers queue own = true) :
    copies own messages =
      if 0 < msg.reload then
        [{ msg with delay := msg.reload - ticksIn after }]
      else [] := by
  have part : after ⊆ later := by
    rw [split]
    intro entry inside
    simp [inside]
  have same := (once.delivered replays split mine).2
  rw [once.copies_eq replays, split,
    (once.uneventful part last).foldl_delivered mine, same]
  change (if 0 < msg.reload then _ else _ : Option (Msg β)).toList = _
  split_ifs <;> rfl

end AcceptedOnce

/-- The timing of a message since it was accepted. -/
structure MsgTiming (queue : Nat) (own : β → Bool) (msg : Msg β)
    (later : List (Entry β)) (messages : List (Msg β)) : Prop where
  /-- A delivery is of the message itself, and never early. -/
  delivered : ∀ before taken after,
    later = before ++ .received queue taken :: after →
    own taken.payload = true →
    taken = { msg with delay := 0 } ∧ msg.delay ≤ ticksIn before
  /-- Until it is delivered there is one copy, as old as the ticks since. -/
  waiting : (∀ entry ∈ later, ¬ entry.delivers queue own = true) →
    copies own messages = [{ msg with delay := msg.delay - ticksIn later }]
  /-- A periodic message always has one copy, and its deliveries are a period
  apart. -/
  periodic : 0 < msg.reload →
    (copies own messages).length = 1 ∧
    ∀ before first between second after,
      later = before ++ .received queue first ::
        (between ++ .received queue second :: after) →
      own first.payload = true → own second.payload = true →
      msg.reload ≤ ticksIn between
  /-- Any other message is delivered once, and then it is gone. -/
  single : msg.reload = 0 → ∀ before taken after,
    later = before ++ .received queue taken :: after →
    own taken.payload = true →
    copies own messages = [] ∧
      ∀ entry ∈ before ++ after, ¬ entry.delivers queue own = true

theorem AcceptedOnce.timing
    {queue : Nat} {own : β → Bool} {earlier later : List (Entry β)}
    {msg : Msg β} {messages : List (Msg β)}
    (once : AcceptedOnce queue own earlier msg later)
    (replays : QueueLog queue (earlier ++ .posted queue msg :: later) messages) :
    MsgTiming queue own msg later messages where
  delivered := fun before taken after split mine =>
    ⟨(once.delivered replays split mine).2, once.delay_le replays split mine⟩
  waiting := once.copies_waiting replays
  periodic := fun positive => by
    refine ⟨?_, fun before first between second after split mineFirst
      mineSecond => (once.reload_le replays split mineFirst mineSecond).2⟩
    by_cases delivered : ∃ entry ∈ later, entry.delivers queue own = true
    · obtain ⟨before, entry, after, split, delivers, last⟩ := exists_last delivered
      obtain ⟨taken, rfl, mine⟩ := delivers_cases delivers
      rw [once.copies_delivered replays split mine last, if_pos positive]
      rfl
    · rw [once.copies_waiting replays fun entry inside delivers =>
        delivered ⟨entry, inside, delivers⟩]
      rfl
  single := fun zero before taken after split mine => by
    have notAfter : ∀ entry ∈ after, ¬ entry.delivers queue own = true := by
      intro entry inside delivers
      obtain ⟨next, rfl, mineNext⟩ := delivers_cases delivers
      obtain ⟨between, rest, splitAfter⟩ := List.append_of_mem inside
      have periodic := (once.reload_le replays (splitAfter ▸ split) mine
        mineNext).1
      omega
    have notBefore : ∀ entry ∈ before, ¬ entry.delivers queue own = true := by
      intro entry inside delivers
      obtain ⟨first, rfl, mineFirst⟩ := delivers_cases delivers
      obtain ⟨start, between, splitBefore⟩ := List.append_of_mem inside
      have whole : later = start ++ .received queue first ::
          (between ++ .received queue taken :: after) := by
        rw [split, splitBefore]
        simp
      have periodic := (once.reload_le replays whole mineFirst mine).1
      omega
    refine ⟨?_, fun entry inside => ?_⟩
    · rw [once.copies_delivered replays split mine notAfter, if_neg (by omega)]
    · rcases List.mem_append.mp inside with early | late
      · exact notBefore entry early
      · exact notAfter entry late

/-! ## Order -/

/-- The payload, when the queue accepts one of the messages. -/
def Entry.accepted (queue : Nat) (own : β → Bool) : Entry β → Option β
  | .posted other msg =>
      if other == queue && own msg.payload then some msg.payload else none
  | _ => none

/-- The payload, when the queue delivers one of the messages. -/
def Entry.delivered (queue : Nat) (own : β → Bool) : Entry β → Option β
  | .received other msg =>
      if other == queue && own msg.payload then some msg.payload else none
  | _ => none

/-- Messages without delay and period leave the queue in the order in which
they entered it: a receive skips delayed messages only. -/
theorem QueueLog.fifo
    {queue : Nat} {log : List (Entry β)} {messages : List (Msg β)}
    (replays : QueueLog queue log messages)
    (plain : β → Bool)
    (isPlain : ∀ msg, .posted queue msg ∈ log → plain msg.payload = true →
      msg.delay = 0 ∧ msg.reload = 0) :
    (∀ msg ∈ messages, plain msg.payload = true →
      msg.delay = 0 ∧ msg.reload = 0) ∧
    log.filterMap (Entry.accepted queue plain) =
      log.filterMap (Entry.delivered queue plain) ++
        (copies plain messages).map Msg.payload := by
  induction replays with
  | empty => exact ⟨by simp, rfl⟩
  | @posted log messages before msg inductionHypothesis =>
      obtain ⟨still, order⟩ := inductionHypothesis fun other inside =>
        isPlain other (List.mem_append_left _ inside)
      have here := isPlain msg (by simp)
      refine ⟨fun other inside => ?_, ?_⟩
      · rcases List.mem_append.mp inside with old | new
        · exact still other old
        · rw [List.mem_singleton.mp new]
          exact here
      · rw [List.filterMap_append, List.filterMap_append, order, copies_append]
        cases mine : plain msg.payload <;>
          simp [Entry.accepted, Entry.delivered, copies, mine]
  | @received log skipped later msg before delayed ready inductionHypothesis =>
      obtain ⟨still, order⟩ := inductionHypothesis fun other inside =>
        isPlain other (List.mem_append_left _ inside)
      have noSkipped : copies plain skipped = [] := by
        refine List.filter_eq_nil_iff.mpr fun other inside mine => ?_
        have waits := (other.delayed_eq_true_iff).mp (delayed other inside)
        exact waits (still other (List.mem_append_left _ inside) mine).1
      refine ⟨fun other inside mine => ?_, ?_⟩
      · rcases List.mem_append.mp inside with old | back
        · apply still other _ mine
          rcases List.mem_append.mp old with inLater | inSkipped
          · exact List.mem_append_right _ (List.mem_cons_of_mem _ inLater)
          · exact List.mem_append_left _ inSkipped
        · obtain ⟨_, payload⟩ := Msg.settled_of_mem_putBack back
          have once := (still msg (by simp) (payload ▸ mine)).2
          unfold Msg.putBack at back
          rw [if_neg (by omega)] at back
          cases back
      · rw [List.filterMap_append, List.filterMap_append, order, copies_append,
          copies_append, copies_append, noSkipped, copies_putBack]
        cases mine : plain msg.payload with
        | true =>
            have once := (still msg (by simp) mine).2
            have none : msg.putBack = [] := by
              unfold Msg.putBack
              rw [if_neg (by omega)]
            simp [Entry.accepted, Entry.delivered, copies, mine, none]
        | false =>
            simp [Entry.accepted, Entry.delivered, copies, mine]
  | @ticked log messages before inductionHypothesis =>
      obtain ⟨still, order⟩ := inductionHypothesis fun other inside =>
        isPlain other (List.mem_append_left _ inside)
      refine ⟨fun other inside mine => ?_, ?_⟩
      · obtain ⟨young, old, rfl⟩ := List.mem_map.mp inside
        obtain ⟨delay, reload⟩ := still young old mine
        exact ⟨by rw [Msg.age_delay, delay], reload⟩
      · rw [List.filterMap_append, List.filterMap_append, order, copies_age,
          List.map_map]
        change _ ++ [] = (_ ++ []) ++ _
        rw [List.append_nil, List.append_nil]
        rfl
  | @other log messages entry before foreign inductionHypothesis =>
      obtain ⟨still, order⟩ := inductionHypothesis fun other inside =>
        isPlain other (List.mem_append_left _ inside)
      refine ⟨still, ?_⟩
      rw [List.filterMap_append, List.filterMap_append, order]
      cases entry with
      | posted other msg | received other msg =>
          have apart : (other == queue) = false := by
            simpa [Entry.Concerns] using foreign
          simp [Entry.accepted, Entry.delivered, apart]
      | signalled event =>
          change _ ++ [] = (_ ++ []) ++ _
          rw [List.append_nil, List.append_nil]
      | ticked => exact absurd trivial foreign

end CocoOs
