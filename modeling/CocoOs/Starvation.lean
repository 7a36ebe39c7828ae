import CocoOs.Acceptance
import Mathlib.Data.List.Nodup

/-!
# No message starves

A receive takes the first message that is ready and puts what it passes over
behind the rest.  So a ready message moves to the front: every delivery of the
queue brings it nearer or is its own, and posts and ticks leave its place.
-/

namespace CocoOs

open Foundation

variable {β : Type}

/-- The messages that the queue delivered. -/
def deliveries (queue : Nat) (entries : List (Entry β)) : Nat :=
  entries.countP (Entry.delivers queue fun _ => true)

theorem deliveries_append
    (queue : Nat) (earlier later : List (Entry β)) :
    deliveries queue (earlier ++ later) =
      deliveries queue earlier + deliveries queue later :=
  List.countP_append

/-- Entries that do not concern a queue, and ticks, deliver nothing. -/
theorem deliveries_eq_zero
    {queue : Nat} {entries : List (Entry β)}
    (foreign : ∀ entry ∈ entries, entry.Concerns queue → entry = .ticked) :
    deliveries queue entries = 0 := by
  refine List.countP_eq_zero.mpr fun entry inside delivers => ?_
  cases entry with
  | received other msg =>
      have here : other = queue := by simpa [Entry.delivers] using delivers
      cases foreign _ inside here
  | _ => cases delivers

/-- The message is in the list, behind at most so many others. -/
def WaitsBehind (msg : Msg β) (bound : Nat) (messages : List (Msg β)) : Prop :=
  ∃ ahead behind, messages = ahead ++ msg :: behind ∧ ahead.length ≤ bound

/-! ## One action -/

/-- A receive delivers the ready message, or one before it. -/
theorem WaitsBehind.of_receive
    {msg taken : Msg β} {bound : Nat} {skipped later : List (Msg β)}
    (ready : msg.delay = 0)
    (waits : WaitsBehind msg bound (skipped ++ taken :: later))
    (delayed : ∀ earlier ∈ skipped, earlier.delayed = true) :
    taken = msg ∨
      1 ≤ bound ∧
        WaitsBehind msg (bound - 1) (later ++ skipped ++ taken.putBack) := by
  obtain ⟨ahead, behind, split, within⟩ := waits
  rcases List.append_eq_append_iff.mp split with
    ⟨passed, rfl, rest⟩ | ⟨passed, rfl, rest⟩
  · cases passed with
    | nil =>
        left
        exact (List.cons.inj rest).1
    | cons first between =>
        right
        obtain ⟨rfl, rfl⟩ := List.cons.inj rest
        simp only [List.length_append, List.length_cons] at within
        refine ⟨by omega, between, behind ++ skipped ++ taken.putBack, ?_, by omega⟩
        simp
  · cases passed with
    | nil =>
        left
        exact (List.cons.inj rest).1.symm
    | cons first between =>
        obtain ⟨rfl, _⟩ := List.cons.inj rest
        have notReady := delayed msg
          (List.mem_append_right _ (List.mem_cons_self ..))
        exact absurd ready (msg.delayed_eq_true_iff.mp notReady)

/-- An action delivers the message, or leaves it behind as many others as it was,
less those the action delivered. -/
theorem WaitsBehind.of_shifts
    {act : Act β} {queue bound : Nat} {msg : Msg β}
    {messages messages' : List (Msg β)}
    (ready : msg.delay = 0)
    (waits : WaitsBehind msg bound messages)
    (shifts : act.Shifts queue messages messages') :
    act = .receive queue msg ∨
      deliveries queue act.entries ≤ bound ∧
        WaitsBehind msg (bound - deliveries queue act.entries) messages' := by
  cases shifts with
  | post _ posted =>
      right
      obtain ⟨ahead, behind, rfl, within⟩ := waits
      have none : deliveries queue (Act.post queue posted).entries = 0 := rfl
      rw [none]
      exact ⟨Nat.zero_le _, ahead, behind ++ [posted], by simp, within⟩
  | @receive skipped later taken delayed _ =>
      have one : deliveries queue (Act.receive queue taken).entries = 1 := by
        simp [deliveries, Act.entries, Entry.delivers]
      rw [one]
      rcases waits.of_receive ready delayed with same | moved
      · left
        rw [same]
      · right
        exact moved
  | age =>
      right
      obtain ⟨ahead, behind, rfl, within⟩ := waits
      have none : deliveries queue (Act.age queue : Act β).entries = 0 := rfl
      have same : msg.age = msg := by
        unfold Msg.age
        rw [ready, Nat.zero_sub, ← ready]
      rw [none]
      refine ⟨Nat.zero_le _, ahead.map Msg.age, behind.map Msg.age, ?_, ?_⟩
      · rw [List.map_append, List.map_cons, same]
      · rw [List.length_map]
        exact within
  | other _ _ foreign =>
      right
      rw [deliveries_eq_zero foreign]
      exact ⟨Nat.zero_le _, waits⟩

/-! ## Runs -/

/-- The entries deliver the message after at most so many others of its queue. -/
def DeliversWithin
    (queue : Nat) (msg : Msg β) (bound : Nat) (entries : List (Entry β)) : Prop :=
  ∃ earlier later, entries = earlier ++ .received queue msg :: later ∧
    deliveries queue earlier ≤ bound

/-- Along a trace a ready message is delivered in its turn, or still waits
behind those of its bound that were not delivered. -/
theorem WaitsBehind.of_trace
    {cfg : Config} {k k' : Kernel β} {acts : List (Act β)}
    {queue bound : Nat} {msg : Msg β}
    (sound : k.Sound cfg)
    (ring : k.HasRing cfg queue)
    (ready : msg.delay = 0)
    (waits : WaitsBehind msg bound (k.contents queue))
    (trace : Trace (Micro cfg) k acts k') :
    DeliversWithin queue msg bound (acts.flatMap Act.entries) ∨
      deliveries queue (acts.flatMap Act.entries) ≤ bound ∧
        WaitsBehind msg (bound - deliveries queue (acts.flatMap Act.entries))
          (k'.contents queue) := by
  induction trace generalizing bound with
  | nil k =>
      right
      exact ⟨Nat.zero_le _, waits⟩
  | @cons k middle k' act acts first rest inductionHypothesis =>
      rw [List.flatMap_cons, deliveries_append]
      rcases waits.of_shifts ready (first.shifts sound.queues ring) with
        rfl | ⟨within, waitsNext⟩
      · left
        exact ⟨[], acts.flatMap Act.entries, rfl, Nat.zero_le _⟩
      · rcases inductionHypothesis (sound.of_micro first)
          (first.hasRing sound.queues ring) waitsNext with
          ⟨earlier, later, split, few⟩ | ⟨few, waitsLast⟩
        · left
          refine ⟨act.entries ++ earlier, later, ?_, ?_⟩
          · rw [split, List.append_assoc]
          · rw [deliveries_append]
            omega
        · right
          rw [Nat.sub_sub] at waitsLast
          exact ⟨by omega, waitsLast⟩

/-- In a run that makes more deliveries than there were messages before it, a
ready message is delivered, and in its turn. -/
theorem delivers_within
    {cfg : Config} {s s' : Sys β} {labels : List (Label β)}
    {queue : Nat} {ahead behind : List (Msg β)} {msg : Msg β}
    (reachable : ReachableSys cfg s)
    (ring : s.kernel.HasRing cfg queue)
    (waits : s.kernel.contents queue = ahead ++ msg :: behind)
    (ready : msg.delay = 0)
    (runs : run (step cfg) s labels = .ok s')
    {entries : List (Entry β)}
    (history : s'.kernel.history = s.kernel.history ++ entries)
    (enough : ahead.length < deliveries queue entries) :
    DeliversWithin queue msg ahead.length entries := by
  have sound := reachable_sound reachable
  obtain ⟨acts, runActs⟩ := exists_runActs sound runs
  have recorded := Micro.history_of_trace runActs.trace
  rw [history, List.append_cancel_left_eq] at recorded
  have here : WaitsBehind msg ahead.length (s.kernel.contents queue) :=
    ⟨ahead, behind, waits, le_refl _⟩
  rcases here.of_trace sound ring ready runActs.trace with within | ⟨few, _⟩
  · rwa [recorded]
  · rw [← recorded] at few
    omega

/-! ## Messages told apart -/

/-- A message in a queue is the only one there with its tag. -/
theorem Sys.Fresh.copies_eq
    {s : Sys (β × Nat)} {count queue : Nat} {msg : Msg (β × Nat)}
    {messages : List (Msg (β × Nat))}
    (fresh : s.Fresh count)
    (replays : QueueLog queue s.kernel.history messages)
    (inside : msg ∈ messages) :
    copies (hasTag msg.tag) messages = [msg] := by
  have once : s.kernel.history.countP (Entry.accepts queue (hasTag msg.tag)) ≤
      1 := by
    calc s.kernel.history.countP (Entry.accepts queue (hasTag msg.tag))
        ≤ s.kernel.history.countP
            (fun entry => (entry.postTag.map (· == msg.tag)).getD false) := by
          apply List.countP_mono_left
          intro entry _ accepts
          rw [postTag_of_accepts accepts]
          simp
      _ = (acceptedTags s.kernel.history).count msg.tag :=
          List.countP_filterMap.symm
      _ ≤ 1 := List.nodup_iff_count_le_one.mp fresh.nodup msg.tag
  have copy := (replays.copies_eq_foldl (hasTag msg.tag) once).1
  have member : msg ∈ copies (hasTag msg.tag) messages :=
    List.mem_filter.mpr ⟨inside, beq_self_eq_true _⟩
  rw [copy, Option.mem_toList] at member
  rw [copy, Option.mem_def.mp member]
  rfl

/-- The positions of the labels of a longer run continue those of its first
part. -/
theorem exists_tagged_append (labels more : List (Label β)) :
    ∃ taggedMore, tagged (labels ++ more) = tagged labels ++ taggedMore ∧
      taggedMore.map (Label.map Prod.fst) = more := by
  have whole := map_fst_tagged (labels ++ more)
  unfold tagged at whole ⊢
  rw [List.zipIdx_append, List.map_append, List.map_append] at whole
  refine ⟨_, by rw [List.zipIdx_append, List.map_append], ?_⟩
  have first := map_fst_tagged labels
  unfold tagged at first
  rw [first] at whole
  exact List.append_cancel_left whole

/-- Two runs in a row are the images of two runs of tagged messages in a row. -/
theorem exists_tagged_runs
    {cfg : Config} {s₀ s s' : Sys β} {labels more : List (Label β)}
    (initial : Initial cfg s₀)
    (runs : run (step cfg) s₀ labels = .ok s)
    (runsOn : run (step cfg) s more = .ok s') :
    ∃ (t₀ t t' : Sys (β × Nat)) (taggedMore : List (Label (β × Nat))),
      Initial cfg t₀ ∧ t₀.map Prod.fst = s₀ ∧
      run (step cfg) t₀ (tagged labels) = .ok t ∧ t.map Prod.fst = s ∧
      tagged (labels ++ more) = tagged labels ++ taggedMore ∧
      run (step cfg) t taggedMore = .ok t' ∧ t'.map Prod.fst = s' := by
  obtain ⟨t₀, t, taggedInitial, start, taggedRuns, middle⟩ :=
    exists_tagged_run initial runs
  obtain ⟨taggedMore, continues, erased⟩ := exists_tagged_append labels more
  have image := run_map (Sys.map Prod.fst) (Label.map Prod.fst)
    (step_map (Prod.fst : β × Nat → β) cfg) t taggedMore
  rw [erased, middle, runsOn] at image
  obtain ⟨t', taggedOn, finish⟩ := map_eq_ok_iff.mp image.symm
  exact ⟨t₀, t, t', taggedMore, taggedInitial, start, taggedRuns, middle,
    continues, taggedOn, finish⟩

/-- Every ready message of every ring is the only one with its tag, and when the
entries make more deliveries of the queue than there are messages before it, it
is delivered, after at most as many others as there are before it. -/
def NoneStarves
    (cfg : Config) (t : Sys (β × Nat)) (entries : List (Entry (β × Nat))) :
    Prop :=
  ∀ queue ahead msg behind, t.kernel.HasRing cfg queue →
    t.kernel.contents queue = ahead ++ msg :: behind → msg.delay = 0 →
    copies (hasTag msg.tag) (t.kernel.contents queue) = [msg] ∧
    (ahead.length < deliveries queue entries →
      DeliversWithin queue msg ahead.length entries)

/-- No message starves, in whatever way a run goes on.  The run may be seen as
one whose messages carry the position of their label, so that a message is told
from every other with the same contents.  From any state of the run on, a ready
message with a number of messages before it in its queue is delivered by one of
the deliveries of the queue up to the one after that number. -/
theorem no_message_starves
    {cfg : Config} {s₀ s s' : Sys β} {labels more : List (Label β)}
    (initial : Initial cfg s₀)
    (runs : run (step cfg) s₀ labels = .ok s)
    (runsOn : run (step cfg) s more = .ok s') :
    ∃ (t₀ t t' : Sys (β × Nat)) (taggedMore : List (Label (β × Nat)))
        (entries : List (Entry (β × Nat))),
      Initial cfg t₀ ∧ t₀.map Prod.fst = s₀ ∧
      run (step cfg) t₀ (tagged labels) = .ok t ∧ t.map Prod.fst = s ∧
      tagged (labels ++ more) = tagged labels ++ taggedMore ∧
      run (step cfg) t taggedMore = .ok t' ∧ t'.map Prod.fst = s' ∧
      t'.kernel.history = t.kernel.history ++ entries ∧
      NoneStarves cfg t entries := by
  obtain ⟨t₀, t, t', taggedMore, taggedInitial, start, taggedRuns, middle,
    continues, taggedOn, finish⟩ := exists_tagged_runs initial runs runsOn
  have reachable : ReachableSys cfg t :=
    ⟨t₀, tagged labels, taggedInitial, taggedRuns⟩
  obtain ⟨acts, runActs⟩ := exists_runActs (reachable_sound reachable) taggedOn
  have history := Micro.history_of_trace runActs.trace
  refine ⟨t₀, t, t', taggedMore, _, taggedInitial, start, taggedRuns, middle,
    continues, taggedOn, finish, history,
    fun queue ahead msg behind ring waits ready => ⟨?_, fun enough => ?_⟩⟩
  · have inside : msg ∈ t.kernel.contents queue := by
      rw [waits]
      exact List.mem_append_right _ (List.mem_cons_self ..)
    exact (tagged_run_fresh taggedInitial taggedRuns).copies_eq
      ((reachable_logged reachable).ring queue ring) inside
  · exact delivers_within reachable ring waits ready taggedOn history enough

/-- A periodic message is passed over while it is delayed, and turns ready in
front of another: the other is delivered second. -/
theorem no_message_starves_setUp :
    ∃ s s' : Sys Nat,
      run (step (Config.small false)) (Sys.boot (Config.small false))
        [.create (.osTaskCreate 1 0 1 (fun _ => ⟨0, 0, 0, 0⟩) 3 20), .osStart,
          .osSchedule, .task (.msgPost 0 ⟨1, 0, 0, 7⟩ 1 1 true) 3,
          .task (.msgPost 0 ⟨2, 0, 0, 8⟩ 0 0 true) 4] = .ok s ∧
      run (step (Config.small false)) s
        [.call .osTick, .task (.msgReceive 0 ⟨0, 0, 0, 0⟩ true) 5,
          .task (.msgReceive 0 ⟨0, 0, 0, 0⟩ true) 6] = .ok s' ∧
      s.kernel.contents 0 = [⟨1, 1, 1, 7⟩, ⟨2, 0, 0, 8⟩] ∧
      s'.kernel.contents 0 = [⟨1, 1, 1, 7⟩] ∧
      ∃ (t : Sys (Nat × Nat)) (entries : List (Entry (Nat × Nat))),
        t.map Prod.fst = s ∧ NoneStarves (Config.small false) t entries := by
  obtain ⟨s, s', runs, runsOn, checked⟩ := exists_runs_of_returnsWith
    (step (Config.small false)) (Sys.boot (Config.small false))
    [.create (.osTaskCreate 1 0 1 (fun _ => ⟨0, 0, 0, 0⟩) 3 20), .osStart,
      .osSchedule, .task (.msgPost 0 ⟨1, 0, 0, 7⟩ 1 1 true) 3,
      .task (.msgPost 0 ⟨2, 0, 0, 8⟩ 0 0 true) 4]
    [.call .osTick, .task (.msgReceive 0 ⟨0, 0, 0, 0⟩ true) 5,
      .task (.msgReceive 0 ⟨0, 0, 0, 0⟩ true) 6]
    (fun states => decide
      (states.1.kernel.contents 0 = [⟨1, 1, 1, 7⟩, ⟨2, 0, 0, 8⟩] ∧
        states.2.kernel.contents 0 = [⟨1, 1, 1, 7⟩]))
    (by decide +kernel)
  obtain ⟨before, after⟩ := of_decide_eq_true checked
  obtain ⟨t₀, t, t', taggedMore, entries, _, _, _, middle, _, _, _, _, holds⟩ :=
    no_message_starves ⟨⟨Kernel.zeroed, rfl⟩, rfl⟩ runs runsOn
  exact ⟨s, s', runs, runsOn, before, after, t, entries, middle, holds⟩

end CocoOs
