import CocoOs.MessageTiming
import CocoOs.BlockedFrames
import Mathlib.Data.List.Nodup

/-!
# Delivery exactly once and in order

A post that completes has appended its message once, whatever happened while it
was blocked on a full queue.  A message that is not periodic is delivered once
at most and is in its queue until then, and messages without delay and period
are delivered in the order in which they were accepted.
-/

namespace CocoOs

open Foundation

variable {β : Type}

/-! ## Posts that complete -/

/-- The end of a message macro adds to the history and leaves the rings. -/
theorem Kernel.signalChange_keeps
    {cfg : Config} {k k' : Kernel β} {done : Bool} {event queue : Nat}
    (sound : k.Sound cfg)
    (ring : k.HasRing cfg queue)
    (returns : k.signalChange cfg done event = .ok k') :
    (∃ more, k'.history = k.history ++ more) ∧
      k'.contents queue = k.contents queue := by
  have trace := signalChange_trace returns
  refine ⟨⟨_, Micro.history_of_trace trace⟩,
    (Micro.untouched_of_trace trace sound ring ?_).2⟩
  cases done with
  | false => simp
  | true => exact not_touches_signalActs cfg event _ queue

/-- A turn of a blocking post that does not block appends the message to the
queue. -/
theorem Kernel.msgPostTurn_appends
    {cfg : Config} {k k' : Kernel β}
    {taskId delay period event line : Nat} {msg : Msg β}
    (sound : k.Sound cfg)
    (ring : k.HasRing cfg (k.queues.osMsgQFind cfg taskId))
    (returns : k.msgPostTurn cfg taskId msg delay period false event line =
      .ok (false, k')) :
    .posted (k.queues.osMsgQFind cfg taskId) (msg.armed delay period) ∈
        k'.history ∧
      k'.contents (k.queues.osMsgQFind cfg taskId) =
        k.contents (k.queues.osMsgQFind cfg taskId) ++
          [msg.armed delay period] := by
  unfold msgPostTurn at returns
  generalize k.queues.osMsgQFind cfg taskId = queue at ring returns ⊢
  obtain ⟨⟨result, armed, posted⟩, posts, returns⟩ := bind_eq_ok_iff.mp returns
  dsimp only at returns
  have ready := sound.queues.ready ring.1 ring.2
  obtain ⟨rfl, full | done⟩ := ready.post_cases ring.1.1 posts
  · obtain ⟨rfl, _⟩ := full
    rw [if_pos ⟨rfl, rfl⟩, bind_eq_ok_iff] at returns
    obtain ⟨_, _, wrong⟩ := returns
    cases wrong
  · obtain ⟨rfl, _, q, holds, size, rfl⟩ := done
    have acts : Micro cfg k (.post queue (msg.armed delay period)) _ :=
      .post posts
    rw [if_neg (by simp), bind_eq_ok_iff] at returns
    obtain ⟨signalled, signals, result⟩ := returns
    simp only [Except.ok.injEq, Prod.mk.injEq, true_and] at result
    subst result
    obtain ⟨⟨more, history⟩, contents⟩ := signalChange_keeps
      (sound.of_micro acts) (acts.hasRing sound.queues ring) signals
    refine ⟨?_, ?_⟩
    · rw [history]
      apply List.mem_append_left
      exact List.mem_append_right _ (List.mem_singleton_self _)
    · rw [contents]
      exact k.contents_setRing_self holds

/-- The step completes a post that may block: its macro is over at once, or the
task that was blocked in it goes on and leaves it. -/
inductive CompletesPost (cfg : Config) (s : Sys β) :
    Label β → Sys β → Nat → Msg β → Nat → Nat → Prop
  | atOnce {s' : Sys β} {taskId : UInt8} {msg : Msg β}
      {delay period : UInt32} {line : UInt16}
      (ends : s'.frame s.kernel.runningTid = .between) :
      CompletesPost cfg s (.task (.msgPost taskId msg delay period false) line)
        s' taskId.toNat msg delay.toNat period.toNat
  | resumed {s' : Sys β} {tid taskId delay period : Nat} {msg : Msg β}
      (chosen : scheduled cfg s .osSchedule = some tid)
      (blocked : s.frame tid = .post taskId msg delay period)
      (goesOn : (s.kernel.tasks.taskList tid).internalState ≠ 0)
      (ends : s'.frame tid = .between) :
      CompletesPost cfg s .osSchedule s' taskId msg delay period

/-- A post that completes has just appended its message to the queue. -/
theorem step_completesPost
    {cfg : Config} {s s' : Sys β} {label : Label β}
    {taskId delay period : Nat} {msg : Msg β}
    (reachable : ReachableSys cfg s)
    (ring : s.kernel.HasRing cfg (s.kernel.queues.osMsgQFind cfg taskId))
    (completes : CompletesPost cfg s label s' taskId msg delay period)
    (steps : step cfg s label = .ok s') :
    .posted (s.kernel.queues.osMsgQFind cfg taskId) (msg.armed delay period) ∈
        s'.kernel.history ∧
      s'.kernel.contents (s.kernel.queues.osMsgQFind cfg taskId) =
        s.kernel.contents (s.kernel.queues.osMsgQFind cfg taskId) ++
          [msg.armed delay period] := by
  have sound := reachable_sound reachable
  cases completes with
  | @atOnce _ target msg delay period line ends =>
      simp only [step, guard_eq_ok_iff] at steps
      obtain ⟨_, steps⟩ := steps
      obtain ⟨⟨blocked, k'⟩, returns, rfl⟩ := map_eq_ok_iff.mp steps
      rw [leaveMacro_eq] at ends ⊢
      cases blocked with
      | true =>
          change Function.update s.frame s.kernel.runningTid _
            s.kernel.runningTid = _ at ends
          rw [Function.update_self] at ends
          cases ends
      | false =>
          exact Kernel.msgPostTurn_appends (k := s.kernel.setWaitQueue cfg _)
            (sound.of_micro (s.kernel.setWaitQueue_micro cfg _)) ring returns
  | @resumed _ tid taskId delay period msg chosen blocked goesOn ends =>
      have inMacro := reachable_framesSound reachable tid taskId .full
        (congrArg Frame.waits blocked)
      simp only [step, guard_eq_ok_iff] at steps
      obtain ⟨idle, steps⟩ := steps
      obtain ⟨k, selects, steps⟩ := bind_eq_ok_iff.mp steps
      obtain ⟨_, taskList, _, _, _, queues, _⟩ := Kernel.selectTask_frame selects
      have here : k.runningTid = tid := by
        simpa [scheduled, selects] using chosen
      have isTask : k.runningTid ≠ noTid := by
        rw [here]
        exact Nat.ne_of_lt (inMacro.created.trans sound.nTasks_lt)
      dsimp only at steps
      rw [if_pos isTask, guard_eq_ok_iff] at steps
      obtain ⟨inside, steps⟩ := steps
      have selected : Micro cfg s.kernel (.select k.runningTid) k :=
        .select idle selects fun _ => inside
      unfold resumeStep Kernel.osGetRunningTid at steps
      dsimp only at steps
      rw [here, taskList, if_neg goesOn, blocked] at steps
      obtain ⟨⟨stays, k'⟩, returns, rfl⟩ := map_eq_ok_iff.mp steps
      rw [leaveMacro_eq] at ends ⊢
      cases stays with
      | true =>
          change Function.update s.frame tid _ tid = _ at ends
          rw [Function.update_self] at ends
          cases ends
      | false =>
          unfold Kernel.osMsgQPostResume at returns
          dsimp only [Kernel.osGetRunningTid] at returns
          rw [here, taskList, if_pos inMacro.noted] at returns
          rw [← queues] at ring ⊢
          have appends := Kernel.msgPostTurn_appends (sound.of_micro selected)
            (ring.of_queues queues) returns
          rwa [Kernel.contents_of_queues _ queues] at appends

/-! ## Messages that are not periodic -/

/-- A message that is not periodic is delivered once at most, and until then it
has one copy. -/
theorem AcceptedOnce.delivered_once
    {queue : Nat} {own : β → Bool} {earlier later : List (Entry β)}
    {msg : Msg β} {messages : List (Msg β)}
    (once : AcceptedOnce queue own earlier msg later)
    (replays : QueueLog queue (earlier ++ .posted queue msg :: later) messages)
    (single : msg.reload = 0) :
    (earlier ++ .posted queue msg :: later).countP (Entry.delivers queue own) =
        0 ∧
      copies own messages =
        [{ msg with delay := msg.delay - ticksIn later }] ∨
    (earlier ++ .posted queue msg :: later).countP (Entry.delivers queue own) =
        1 ∧
      copies own messages = [] := by
  have none : ∀ entries : List (Entry β),
      (∀ entry ∈ entries, ¬ entry.delivers queue own = true) →
      entries.countP (Entry.delivers queue own) = 0 :=
    fun entries => List.countP_eq_zero.mpr
  have counted : (earlier ++ .posted queue msg :: later).countP
      (Entry.delivers queue own) = later.countP (Entry.delivers queue own) := by
    rw [List.countP_append, none earlier (once.not_delivered_before replays),
      List.countP_cons_of_neg (by simp [Entry.delivers]), Nat.zero_add]
  rw [counted]
  by_cases delivered : ∃ entry ∈ later, entry.delivers queue own = true
  · right
    obtain ⟨entry, inside, delivers⟩ := delivered
    obtain ⟨taken, rfl, mine⟩ := AcceptedOnce.delivers_cases delivers
    obtain ⟨before, after, split⟩ := List.append_of_mem inside
    obtain ⟨gone, others⟩ :=
      (once.timing replays).single single before taken after split mine
    refine ⟨?_, gone⟩
    rw [split, List.countP_append, List.countP_cons_of_pos delivers,
      none before fun entry early => others entry (List.mem_append_left _ early),
      none after fun entry late => others entry (List.mem_append_right _ late)]
  · left
    have waits : ∀ entry ∈ later, ¬ entry.delivers queue own = true :=
      fun entry inside delivers => delivered ⟨entry, inside, delivers⟩
    exact ⟨none later waits, once.copies_waiting replays waits⟩

/-! ## Messages without delay and period -/

/-- The tag of a message that the queue accepts without delay and period. -/
def Entry.plainTag (queue : Nat) : Entry (β × Nat) → Option Nat
  | .posted other msg =>
      if other = queue ∧ msg.delay = 0 ∧ msg.reload = 0 then some msg.tag
      else none
  | _ => none

/-- The tag of a message that the queue delivers. -/
def Entry.receivedTag (queue : Nat) : Entry (β × Nat) → Option Nat
  | .received other msg => if other = queue then some msg.tag else none
  | _ => none

/-- The tags of the messages that the queue accepted without delay and period,
oldest first. -/
def plainTags (queue : Nat) (history : List (Entry (β × Nat))) : List Nat :=
  history.filterMap (Entry.plainTag queue)

/-- The tags of the messages that the queue delivered, oldest first. -/
def receivedTags (queue : Nat) (history : List (Entry (β × Nat))) : List Nat :=
  history.filterMap (Entry.receivedTag queue)

section

variable {s : Sys (β × Nat)} {count queue : Nat}

/-- A message that the queue accepted is plain exactly when its tag is. -/
theorem Sys.Fresh.mem_plainTags_iff
    (fresh : s.Fresh count)
    {msg : Msg (β × Nat)}
    (inside : .posted queue msg ∈ s.kernel.history) :
    msg.tag ∈ plainTags queue s.kernel.history ↔
      msg.delay = 0 ∧ msg.reload = 0 := by
  constructor
  · intro member
    obtain ⟨entry, other, tag⟩ := List.mem_filterMap.mp member
    obtain ⟨earlier, later, split⟩ := List.append_of_mem inside
    obtain ⟨before, after⟩ := fresh.acceptedOnce split queue
    cases entry with
    | posted toQueue twin =>
        dsimp only [Entry.plainTag] at tag
        split_ifs at tag with plainTwin
        obtain ⟨rfl, plain⟩ := plainTwin
        -- a twin of the same tag is the message itself
        have accepts : (Entry.posted toQueue twin).accepts toQueue
            (hasTag msg.tag) = true := by
          simp only [Entry.accepts, hasTag, beq_self_eq_true, Bool.true_and,
            beq_iff_eq]
          exact Option.some.inj tag
        rw [split] at other
        rcases List.mem_append.mp other with early | late
        · rw [before _ early] at accepts
          cases accepts
        · rcases List.mem_cons.mp late with same | later
          · cases same
            exact plain
          · rw [after _ later] at accepts
            cases accepts
    | _ => cases tag
  · intro plain
    exact List.mem_filterMap.mpr ⟨_, inside, if_pos ⟨rfl, plain⟩⟩

/-- Messages without delay and period are delivered in the order in which they
were accepted: those delivered are the first of those accepted. -/
theorem Sys.Fresh.delivered_in_order
    {messages : List (Msg (β × Nat))}
    (fresh : s.Fresh count)
    (replays : QueueLog queue s.kernel.history messages) :
    (receivedTags queue s.kernel.history).filter
        (· ∈ plainTags queue s.kernel.history) <+:
      plainTags queue s.kernel.history := by
  have isPlain : ∀ msg, .posted queue msg ∈ s.kernel.history →
      (msg.payload.2 ∈ plainTags queue s.kernel.history ↔
        msg.delay = 0 ∧ msg.reload = 0) :=
    fun msg inside => fresh.mem_plainTags_iff inside
  generalize tags : plainTags queue s.kernel.history = plain at isPlain ⊢
  have order := (replays.fifo (fun payload => decide (payload.2 ∈ plain))
    fun msg inside mine =>
      (isPlain msg inside).mp (of_decide_eq_true mine)).2
  have accepted : (s.kernel.history.filterMap (Entry.accepted queue
      fun payload => decide (payload.2 ∈ plain))).map Prod.snd = plain := by
    rw [List.map_filterMap]
    refine Eq.trans (List.filterMap_congr ?_) tags
    intro entry inside
    cases entry with
    | posted other msg =>
        by_cases same : other = queue
        · subst same
          by_cases now : msg.delay = 0 ∧ msg.reload = 0
          · simp [Entry.accepted, Entry.plainTag, now,
              (isPlain msg inside).mpr now, Msg.tag]
          · simp [Entry.accepted, Entry.plainTag, now,
              mt (isPlain msg inside).mp now]
        · simp [Entry.accepted, Entry.plainTag, same]
    | _ => rfl
  have delivered : (s.kernel.history.filterMap (Entry.delivered queue
      fun payload => decide (payload.2 ∈ plain))).map Prod.snd =
        (receivedTags queue s.kernel.history).filter (· ∈ plain) := by
    rw [List.map_filterMap, receivedTags, List.filter_filterMap]
    apply List.filterMap_congr
    intro entry _
    cases entry with
    | received other msg =>
        by_cases same : other = queue
        · by_cases member : msg.payload.2 ∈ plain <;>
            simp [Entry.delivered, Entry.receivedTag, same, member, Msg.tag,
              Option.filter]
        · simp [Entry.delivered, Entry.receivedTag, same]
    | _ => rfl
  refine ⟨((copies (fun payload => decide (payload.2 ∈ plain)) messages).map
    Msg.payload).map Prod.snd, ?_⟩
  rw [← delivered, ← List.map_append, ← order]
  exact accepted

end

/-! ## Every run -/

/-- An asynchronous post appends its message or drops it, there and then. -/
theorem step_asyncPost
    {cfg : Config} {s s' : Sys (β × Nat)}
    {taskId : UInt8} {msg : Msg (β × Nat)} {delay period : UInt32}
    {line : UInt16}
    (sound : s.kernel.Sound cfg)
    (steps : step cfg s (.task (.msgPost taskId msg delay period true) line) =
      .ok s') :
    (acceptedTags s'.kernel.history = acceptedTags s.kernel.history ∨
      acceptedTags s'.kernel.history =
        acceptedTags s.kernel.history ++ [msg.tag]) ∧
    s'.frame = Function.update s.frame s.kernel.runningTid .between := by
  obtain ⟨acts, shape, trace⟩ := step_trace sound steps
  have history : acceptedTags s'.kernel.history =
      acceptedTags s.kernel.history ++ postedTags acts := by
    rw [Micro.history_of_trace trace, ← acceptedTags_entries]
    exact List.filterMap_append ..
  rw [history]
  generalize s'.frame = frame at shape
  cases shape with
  | task runs takes =>
      cases takes with
      | @msgPost _ _ _ _ _ blocked acts turn =>
          have notBlocked : blocked = false := by
            cases turn with
            | blocked sync => cases sync
            | posted | refused => rfl
          subst notBlocked
          refine ⟨?_, rfl⟩
          change _ ++ postedTags acts = _ ∨ _ ++ postedTags acts = _
          rcases turn.postedTags_eq with none | ⟨_, one⟩
          · rw [none, List.append_nil]
            exact .inl rfl
          · rw [one]
            exact .inr rfl

/-- What holds of the messages in every state of a run in which they carry the
position of their label. -/
structure Delivery (cfg : Config) (t : Sys (β × Nat)) : Prop where
  /-- No message enters a queue twice. -/
  accepted : (acceptedTags t.kernel.history).Nodup
  /-- A message has not entered a queue while its post is blocked. -/
  blocked : ∀ tid taskId msg delay period,
    t.frame tid = .post taskId msg delay period →
    msg.tag ∉ acceptedTags t.kernel.history
  /-- A delivery is of the message that was accepted. -/
  unchanged : ∀ queue msg earlier later,
    t.kernel.history = earlier ++ .posted queue msg :: later →
    ∀ before taken after, later = before ++ .received queue taken :: after →
      taken.tag = msg.tag → taken = { msg with delay := 0 }
  /-- A message that is not periodic is delivered once at most, and until then
  it is in the queue once. -/
  single : ∀ queue msg earlier later,
    t.kernel.history = earlier ++ .posted queue msg :: later →
    msg.reload = 0 →
    t.kernel.history.countP (Entry.delivers queue (hasTag msg.tag)) = 0 ∧
      copies (hasTag msg.tag) (t.kernel.contents queue) =
        [{ msg with delay := msg.delay - ticksIn later }] ∨
    t.kernel.history.countP (Entry.delivers queue (hasTag msg.tag)) = 1 ∧
      copies (hasTag msg.tag) (t.kernel.contents queue) = []
  /-- Messages without delay and period are delivered in order. -/
  ordered : ∀ queue, t.kernel.HasRing cfg queue →
    (receivedTags queue t.kernel.history).filter
        (· ∈ plainTags queue t.kernel.history) <+:
      plainTags queue t.kernel.history

theorem delivery_of_tagged_run
    {cfg : Config} {t₀ t : Sys (β × Nat)} {labels : List (Label β)}
    (initial : Initial cfg t₀)
    (runs : run (step cfg) t₀ (tagged labels) = .ok t) :
    Delivery cfg t := by
  have reachable : ReachableSys cfg t := ⟨t₀, tagged labels, initial, runs⟩
  have fresh := tagged_run_fresh initial runs
  have logged := reachable_logged reachable
  have accepts : ∀ queue msg earlier later,
      t.kernel.history = earlier ++ .posted queue msg :: later →
      AcceptedOnce queue (hasTag msg.tag) earlier msg later ∧
        QueueLog queue (earlier ++ .posted queue msg :: later)
          (t.kernel.contents queue) := by
    intro queue msg earlier later split
    obtain ⟨before, after⟩ := fresh.acceptedOnce split queue
    refine ⟨⟨beq_self_eq_true _, before, after⟩, ?_⟩
    rw [← split]
    apply logged.ring queue
    apply reachable_ring_of_posted reachable
    rw [split]
    exact List.mem_append_right _ (List.mem_cons_self ..)
  refine ⟨fresh.nodup, fun tid taskId msg delay period here => ?_,
    fun queue msg earlier later split before taken after part tag => ?_,
    fun queue msg earlier later split reload => ?_,
    fun queue ring => fresh.delivered_in_order (logged.ring queue ring)⟩
  · exact (fresh.waiting tid msg.tag (congrArg Frame.postTag here)).2
  · obtain ⟨once, replays⟩ := accepts queue msg earlier later split
    exact (once.delivered replays part (beq_iff_eq.mpr tag)).2
  · obtain ⟨once, replays⟩ := accepts queue msg earlier later split
    rw [split]
    exact once.delivered_once replays reload

/-- Delivery in every run of the system, whatever else its tasks and interrupts
do.  The run may be seen as one whose messages carry the position of their
label.  A blocking post that completes on a ring has not appended its message
before, appends it then, and it is in the history once; an asynchronous post
appends its message or drops it.  What is accepted is delivered as `Delivery`
says. -/
theorem message_delivery
    {cfg : Config} {s₀ s : Sys β} {labels : List (Label β)}
    (initial : Initial cfg s₀)
    (runs : run (step cfg) s₀ labels = .ok s) :
    ∃ t₀ t : Sys (β × Nat), Initial cfg t₀ ∧ t₀.map Prod.fst = s₀ ∧
      run (step cfg) t₀ (tagged labels) = .ok t ∧ t.map Prod.fst = s ∧
      Delivery cfg t ∧
      ∀ (label : Label β) t',
        step cfg t (label.map fun payload => (payload, labels.length)) =
          .ok t' →
        (∀ taskId msg delay period,
          CompletesPost cfg t (label.map fun payload => (payload, labels.length))
            t' taskId msg delay period →
          t.kernel.HasRing cfg (t.kernel.queues.osMsgQFind cfg taskId) →
          msg.tag ∉ acceptedTags t.kernel.history ∧
          (acceptedTags t'.kernel.history).count msg.tag = 1 ∧
          t'.kernel.contents (t.kernel.queues.osMsgQFind cfg taskId) =
            t.kernel.contents (t.kernel.queues.osMsgQFind cfg taskId) ++
              [msg.armed delay period]) ∧
        ∀ taskId msg delay period line,
          label = .task (.msgPost taskId msg delay period true) line →
          (acceptedTags t'.kernel.history = acceptedTags t.kernel.history ∨
            acceptedTags t'.kernel.history =
              acceptedTags t.kernel.history ++ [labels.length]) ∧
          ∀ tid, (t'.frame tid).postTag ≠ some labels.length := by
  obtain ⟨t₀, t, taggedInitial, start, taggedRuns, finish⟩ :=
    exists_tagged_run initial runs
  have reachable : ReachableSys cfg t :=
    ⟨t₀, tagged labels, taggedInitial, taggedRuns⟩
  have sound := reachable_sound reachable
  have fresh := tagged_run_fresh taggedInitial taggedRuns
  refine ⟨t₀, t, taggedInitial, start, taggedRuns, finish,
    delivery_of_tagged_run taggedInitial taggedRuns,
    fun label t' steps => ⟨fun taskId msg delay period completes ring => ?_,
      fun taskId msg delay period line labelled => ?_⟩⟩
  · have freshNext := step_fresh sound fresh
      (fun _ => Label.postTag_of_tag) steps
    obtain ⟨posted, appended⟩ :=
      step_completesPost reachable ring completes steps
    have member : msg.tag ∈ acceptedTags t'.kernel.history :=
      List.mem_filterMap.mpr ⟨_, posted, rfl⟩
    refine ⟨?_, List.count_eq_one_of_mem freshNext.nodup member, appended⟩
    -- a new message has a new tag, and a blocked one is in no queue
    generalize same : (label.map fun payload => (payload, labels.length)) =
      tagLabel at completes
    cases completes with
    | atOnce ends =>
        have last : msg.tag = labels.length :=
          Label.postTag_of_tag (congrArg Label.postTag same)
        intro inside
        have before := fresh.accepted_lt msg.tag inside
        omega
    | @resumed _ tid _ _ _ _ chosen blocked goesOn ends =>
        exact (fresh.waiting tid msg.tag (congrArg Frame.postTag blocked)).2
  · subst labelled
    obtain ⟨tags, frames⟩ := step_asyncPost sound steps
    refine ⟨tags, fun tid here => ?_⟩
    rw [frames] at here
    by_cases runsHere : tid = t.kernel.runningTid
    · rw [runsHere, Function.update_self] at here
      cases here
    · rw [Function.update_of_ne runsHere] at here
      have before := (fresh.waiting tid labels.length here).1
      omega

/-- The second message of the first task waits until another task has received
the first, and then enters the queue. -/
theorem message_delivery_setUp :
    ∃ s : Sys Nat,
      run (step (Config.small false)) (Sys.boot (Config.small false))
        (setUp 1 2 3 ++ [.osSchedule, .task (.msgPost 0 ⟨1, 0, 0, 7⟩ 0 0 false) 3,
          .task (.msgPost 0 ⟨2, 0, 0, 8⟩ 0 0 false) 4, .osSchedule,
          .task (.msgReceive 0 ⟨0, 0, 0, 0⟩ true) 5, .task (.taskWaitId 0 9) 6,
          .osSchedule]) = .ok s ∧
      s.kernel.contents 0 = [⟨2, 0, 0, 8⟩] ∧
      ∃ t : Sys (Nat × Nat), t.map Prod.fst = s ∧
        Delivery (Config.small false) t := by
  obtain ⟨s, runs, checked⟩ := exists_of_returnsWith
    (fun s : Sys Nat => decide (s.kernel.contents 0 = [⟨2, 0, 0, 8⟩]))
    (run (step (Config.small false)) (Sys.boot (Config.small false))
      (setUp 1 2 3 ++ [.osSchedule, .task (.msgPost 0 ⟨1, 0, 0, 7⟩ 0 0 false) 3,
        .task (.msgPost 0 ⟨2, 0, 0, 8⟩ 0 0 false) 4, .osSchedule,
        .task (.msgReceive 0 ⟨0, 0, 0, 0⟩ true) 5, .task (.taskWaitId 0 9) 6,
        .osSchedule])) (by decide +kernel)
  obtain ⟨t₀, t, _, _, _, finish, delivery, _⟩ :=
    message_delivery ⟨⟨Kernel.zeroed, rfl⟩, rfl⟩ runs
  exact ⟨s, runs, of_decide_eq_true checked, t, finish, delivery⟩

end CocoOs
