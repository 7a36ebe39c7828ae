import CocoOs.Payloads
import CocoOs.MessageLives

/-!
# Messages are accepted once

In a run whose messages carry the position of their label, every message enters
a queue at most once, however often its macro was blocked: while it waits in
the frame of a task no queue has it, and the step that posts it takes it out of
the frame.
-/

namespace CocoOs

open Foundation

variable {β : Type}

/-! ## Tags -/

/-- The position of the label that sent the message. -/
def Msg.tag (msg : Msg (β × Nat)) : Nat := msg.payload.2

/-- The tag of the message that a task is about to post. -/
def Frame.postTag : Frame (β × Nat) → Option Nat
  | .post _ msg _ _ => some msg.tag
  | _ => none

/-- The tag of the message that a label posts. -/
def Label.postTag : Label (β × Nat) → Option Nat
  | .task (.msgPost _ msg _ _ _) _ => some msg.tag
  | _ => none

/-- The tag of the message that an entry adds to a queue. -/
def Entry.postTag : Entry (β × Nat) → Option Nat
  | .posted _ msg => some msg.tag
  | _ => none

/-- The tag of the message that an action adds to a queue. -/
def Act.postTag : Act (β × Nat) → Option Nat
  | .post _ msg => some msg.tag
  | _ => none

/-- The tags of the messages that entered a queue, oldest first. -/
def acceptedTags (history : List (Entry (β × Nat))) : List Nat :=
  history.filterMap Entry.postTag

/-- The tags that a list of actions adds. -/
def postedTags (acts : List (Act (β × Nat))) : List Nat :=
  acts.filterMap Act.postTag

theorem acceptedTags_entries (acts : List (Act (β × Nat))) :
    acceptedTags (acts.flatMap Act.entries) = postedTags acts := by
  induction acts with
  | nil => rfl
  | cons act acts inductionHypothesis =>
      unfold acceptedTags postedTags at inductionHypothesis ⊢
      rw [List.flatMap_cons, List.filterMap_append, inductionHypothesis,
        List.filterMap_cons]
      cases act <;> rfl

theorem postedTags_eq_nil
    {acts : List (Act (β × Nat))}
    (none : ∀ act ∈ acts, act.postTag = none) :
    postedTags acts = [] :=
  List.filterMap_eq_nil_iff.mpr none

theorem postedTags_signalActs (cfg : Config) (event tid : Nat) :
    postedTags (Kernel.signalActs (β := β × Nat) cfg event tid) = [] := by
  unfold Kernel.signalActs
  split_ifs <;> rfl

theorem postedTags_waitEventActs
    (cfg : Config) (k : Kernel (β × Nat)) (eventId : Nat) (wait : Wait)
    (line : Nat) :
    postedTags (k.waitEventActs cfg eventId wait line) = [] := by
  unfold Kernel.waitEventActs
  split_ifs <;> rfl

/-! ## What a step posts -/

/-- The messages that a step adds to a queue, and where the frames have them:
a message comes from the label or from the frame of the task that goes on, and
a frame takes a message from the label alone. -/
inductive Posting (s : Sys (β × Nat)) (label : Label (β × Nat))
    (frame : Nat → Frame (β × Nat)) : List Nat → Prop
  | none
      (frames : ∀ tid, (frame tid).postTag = (s.frame tid).postTag ∨
        (frame tid).postTag = none) :
      Posting s label frame []
  | waits {tid tag : Nat}
      (sent : label.postTag = some tag)
      (here : (frame tid).postTag = some tag)
      (frames : ∀ other, other ≠ tid → frame other = s.frame other) :
      Posting s label frame []
  | posts {tag : Nat}
      (sent : label.postTag = some tag)
      (frames : ∀ tid, (frame tid).postTag = (s.frame tid).postTag ∨
        (frame tid).postTag = none) :
      Posting s label frame [tag]
  | resumes {tid tag : Nat}
      (before : (s.frame tid).postTag = some tag)
      (after : (frame tid).postTag = none)
      (frames : ∀ other, other ≠ tid → frame other = s.frame other) :
      Posting s label frame [tag]

section

variable {cfg : Config} {s : Sys (β × Nat)} {label : Label (β × Nat)}
variable {acts : List (Act (β × Nat))} {frame : Nat → Frame (β × Nat)}

/-- Frames that differ in one task, which waits for no post now. -/
theorem frames_update (before : Nat → Frame (β × Nat)) (tid : Nat)
    {left : Frame (β × Nat)} (none : left.postTag = none) (other : Nat) :
    (Function.update before tid left other).postTag = (before other).postTag ∨
      (Function.update before tid left other).postTag = Option.none := by
  by_cases same : other = tid
  · right
    rw [same, Function.update_self, none]
  · left
    rw [Function.update_of_ne same]

theorem Kernel.ReceiveActs.postedTags_eq
    {k : Kernel (β × Nat)} {queue event line : Nat} {async blocked : Bool}
    (turn : Kernel.ReceiveActs cfg k queue async event line blocked acts) :
    postedTags acts = [] := by
  cases turn with
  | blocked => exact postedTags_waitEventActs cfg k event _ line
  | received => exact postedTags_signalActs cfg event _
  | nothing => rfl

theorem Kernel.PostActs.postedTags_eq
    {k : Kernel (β × Nat)} {queue delay period event line : Nat}
    {msg : Msg (β × Nat)} {async blocked : Bool}
    (turn : Kernel.PostActs cfg k queue delay period msg async event line
      blocked acts) :
    postedTags acts = [] ∨ blocked = false ∧ postedTags acts = [msg.tag] := by
  cases turn with
  | blocked => exact .inl (postedTags_waitEventActs cfg k event _ line)
  | posted =>
      right
      exact ⟨rfl, congrArg (msg.tag :: ·) (postedTags_signalActs cfg event _)⟩
  | refused => exact .inl rfl

theorem ResumeActs.posting
    {k : Kernel (β × Nat)}
    (resumes : ResumeActs cfg k s.frame acts frame) :
    Posting s label frame (postedTags acts) := by
  cases resumes with
  | begin fresh => exact .none (frames_update s.frame _ rfl)
  | between goesOn here => exact .none fun _ => .inl rfl
  | @post taskId delay period msg blocked acts goesOn here full turn =>
      rcases turn.postedTags_eq with none | ⟨rfl, one⟩
      · rw [none]
        refine .none fun tid => ?_
        cases blocked with
        | false => exact frames_update s.frame _ rfl tid
        | true =>
            left
            rw [if_pos rfl, ← here, Function.update_eq_self]
      · rw [one]
        refine .resumes (congrArg Frame.postTag here) ?_
          fun other apart => Function.update_of_ne apart _ _
        rw [Function.update_self]
        rfl
  | @receive taskId pMsg buffer blocked acts goesOn here empty turn =>
      rw [turn.postedTags_eq]
      refine .none (frames_update s.frame _ ?_)
      cases blocked <;> rfl
  | @done done goesOn wasPost wasReceive =>
      cases done with
      | true =>
          rw [if_pos rfl, postedTags_signalActs]
          exact .none (frames_update s.frame _ rfl)
      | false => exact .none (frames_update s.frame _ rfl)

/-- Only the steps of a task post. -/
theorem StepActs.posts_nothing
    (shape : StepActs cfg s label acts frame)
    (notTask : ∀ op line, label ≠ .task op line)
    (notPass : label ≠ .osSchedule) :
    postedTags acts = [] := by
  refine postedTags_eq_nil fun act inside => ?_
  have allowed := shape.allowed act inside
  cases act with
  | post queue msg =>
      obtain ⟨tid, ⟨op, line, labelled, _⟩ | ⟨labelled, _⟩⟩ := allowed
      · exact absurd labelled (notTask op line)
      · exact absurd labelled notPass
  | _ => rfl

theorem TaskActs.posting
    {op : TaskOp (β × Nat)} {line : UInt16} {left : Option (Frame (β × Nat))}
    (takes : TaskActs cfg s.kernel line.toNat op acts left) :
    Posting s (.task op line)
      (frameAfter s.frame s.kernel.runningTid left) (postedTags acts) := by
  have still : ∀ acts : List (Act (β × Nat)), postedTags acts = [] →
      Posting s (.task op line) s.frame (postedTags acts) := by
    intro acts none
    rw [none]
    exact .none fun _ => .inl rfl
  cases takes with
  | taskWaitId | eventWaitMultiple | eventWaitMultipleNone | semWaitTake
  | semWaitBlock | taskClose => exact still _ rfl
  | taskSuspend id | taskResume id =>
      refine still _ ?_
      unfold Kernel.selfYieldActs
      split_ifs <;> rfl
  | eventWaitTimeout event timeout =>
      exact still _ (postedTags_waitEventActs cfg _ _ _ _)
  | eventSignal event =>
      refine still _ ?_
      unfold Kernel.signalActs
      split_ifs <;> rfl
  | semSignal inside =>
      refine still _ ?_
      unfold Kernel.semSignalYieldActs Kernel.semSignalActs
      split_ifs <;> rfl
  | @msgPost taskId msg delay period async blocked acts turn =>
      change Posting s _ _ (postedTags acts)
      rcases turn.postedTags_eq with none | ⟨rfl, one⟩
      · rw [none]
        cases blocked with
        | false => exact .none (frames_update s.frame _ rfl)
        | true =>
            exact .waits rfl
              (congrArg Frame.postTag
                (Function.update_self s.kernel.runningTid _ s.frame))
              fun other apart => Function.update_of_ne apart _ _
      · rw [one]
        exact .posts rfl (frames_update s.frame _ rfl)
  | @msgReceive taskId pMsg async blocked acts buffer turn =>
      change Posting s _ _ (postedTags acts)
      rw [turn.postedTags_eq]
      refine .none (frames_update s.frame _ ?_)
      cases blocked <;> rfl

/-- What a step posts comes from its label or from the task that goes on. -/
theorem StepActs.posting
    (shape : StepActs cfg s label acts frame) :
    Posting s label frame (postedTags acts) := by
  cases shape with
  | create | osStart | sleep => exact .none fun _ => .inl rfl
  | osSchedule idle selects runs inside resumes => exact resumes.posting
  | call calls =>
      rw [StepActs.posts_nothing (.call calls) (fun _ _ wrong => by cases wrong)
        (fun wrong => by cases wrong)]
      exact .none fun _ => .inl rfl
  | task runs takes => exact takes.posting

end

/-! ## Runs -/

/-- Every message of the first labels entered a queue once, or is in the frame
of one task, or is lost. -/
structure Sys.Fresh (count : Nat) (s : Sys (β × Nat)) : Prop where
  nodup : (acceptedTags s.kernel.history).Nodup
  accepted_lt : ∀ tag ∈ acceptedTags s.kernel.history, tag < count
  waiting : ∀ tid tag, (s.frame tid).postTag = some tag →
    tag < count ∧ tag ∉ acceptedTags s.kernel.history
  apart : ∀ tid other tag, (s.frame tid).postTag = some tag →
    (s.frame other).postTag = some tag → tid = other

/-- Where frames only lose messages, a message in a frame was there before. -/
theorem postTag_of_frames
    {frame frame' : Nat → Frame (β × Nat)} {tid tag : Nat}
    (frames : ∀ tid, (frame' tid).postTag = (frame tid).postTag ∨
      (frame' tid).postTag = none)
    (here : (frame' tid).postTag = some tag) :
    (frame tid).postTag = some tag := by
  rcases frames tid with same | none
  · rw [← same, here]
  · rw [none] at here
    cases here

namespace Sys.Fresh

variable {s s' : Sys (β × Nat)} {tid tag count : Nat}

/-- A message that was not accepted yet is accepted. -/
theorem accepted_append
    (fresh : s.Fresh count)
    (before : tag < count + 1)
    (absent : tag ∉ acceptedTags s.kernel.history) :
    (acceptedTags s.kernel.history ++ [tag]).Nodup ∧
      ∀ seen ∈ acceptedTags s.kernel.history ++ [tag], seen < count + 1 := by
  constructor
  · refine List.nodup_append.mpr ⟨fresh.nodup, by simp, ?_⟩
    rintro seen inside other single rfl
    rw [List.mem_singleton.mp single] at inside
    exact absent inside
  · intro seen inside
    rcases List.mem_append.mp inside with old | single
    · exact Nat.lt_succ_of_lt (fresh.accepted_lt seen old)
    · rw [List.mem_singleton.mp single]
      exact before

/-- A message that has only just been sent was not accepted. -/
theorem not_accepted_of_new
    (fresh : s.Fresh count) (last : tag = count) :
    tag ∉ acceptedTags s.kernel.history := by
  intro inside
  have before := fresh.accepted_lt tag inside
  omega

/-- No frame gets a message, and none is accepted. -/
theorem of_none
    (fresh : s.Fresh count)
    (frames : ∀ tid, (s'.frame tid).postTag = (s.frame tid).postTag ∨
      (s'.frame tid).postTag = none)
    (history : acceptedTags s'.kernel.history =
      acceptedTags s.kernel.history) :
    s'.Fresh (count + 1) := by
  have back : ∀ tid tag, (s'.frame tid).postTag = some tag →
      (s.frame tid).postTag = some tag :=
    fun _ _ => postTag_of_frames frames
  refine ⟨history ▸ fresh.nodup, fun tag inside => ?_, fun tid tag here => ?_,
    fun tid other tag here there =>
      fresh.apart tid other tag (back tid tag here) (back other tag there)⟩
  · exact Nat.lt_succ_of_lt (fresh.accepted_lt tag (history ▸ inside))
  · obtain ⟨before, absent⟩ := fresh.waiting tid tag (back tid tag here)
    exact ⟨Nat.lt_succ_of_lt before, history ▸ absent⟩

/-- The new message waits in the frame of a task. -/
theorem of_waits
    (fresh : s.Fresh count)
    (last : tag = count)
    (here : (s'.frame tid).postTag = some tag)
    (frames : ∀ other, other ≠ tid → s'.frame other = s.frame other)
    (history : acceptedTags s'.kernel.history =
      acceptedTags s.kernel.history) :
    s'.Fresh (count + 1) := by
  have elsewhere : ∀ other seen, other ≠ tid →
      (s'.frame other).postTag = some seen →
      (s.frame other).postTag = some seen ∧ seen ≠ tag := by
    intro other seen apartTid there
    rw [frames other apartTid] at there
    have before := (fresh.waiting other seen there).1
    exact ⟨there, by omega⟩
  refine ⟨history ▸ fresh.nodup, fun seen inside => ?_,
    fun other seen there => ?_, fun first second seen one two => ?_⟩
  · exact Nat.lt_succ_of_lt (fresh.accepted_lt seen (history ▸ inside))
  · rw [history]
    by_cases same : other = tid
    · rw [same, here] at there
      cases there
      exact ⟨by omega, fresh.not_accepted_of_new last⟩
    · obtain ⟨before, absent⟩ := fresh.waiting other seen
        (elsewhere other seen same there).1
      exact ⟨Nat.lt_succ_of_lt before, absent⟩
  · by_cases isFirst : first = tid
    · by_cases isSecond : second = tid
      · rw [isFirst, isSecond]
      · rw [isFirst, here] at one
        cases one
        exact absurd rfl (elsewhere second tag isSecond two).2
    · by_cases isSecond : second = tid
      · rw [isSecond, here] at two
        cases two
        exact absurd rfl (elsewhere first tag isFirst one).2
      · exact fresh.apart first second seen (elsewhere first seen isFirst one).1
          (elsewhere second seen isSecond two).1

/-- The new message is accepted at once. -/
theorem of_posts
    (fresh : s.Fresh count)
    (last : tag = count)
    (frames : ∀ tid, (s'.frame tid).postTag = (s.frame tid).postTag ∨
      (s'.frame tid).postTag = none)
    (history : acceptedTags s'.kernel.history =
      acceptedTags s.kernel.history ++ [tag]) :
    s'.Fresh (count + 1) := by
  have back : ∀ tid seen, (s'.frame tid).postTag = some seen →
      (s.frame tid).postTag = some seen :=
    fun _ _ => postTag_of_frames frames
  obtain ⟨nodup, accepted_lt⟩ :=
    fresh.accepted_append (by omega) (fresh.not_accepted_of_new last)
  refine ⟨history ▸ nodup, history ▸ accepted_lt, fun tid seen here => ?_,
    fun tid other seen here there =>
      fresh.apart tid other seen (back tid seen here) (back other seen there)⟩
  obtain ⟨before, absent⟩ := fresh.waiting tid seen (back tid seen here)
  refine ⟨Nat.lt_succ_of_lt before, fun inside => ?_⟩
  rw [history] at inside
  rcases List.mem_append.mp inside with old | single
  · exact absent old
  · rw [List.mem_singleton.mp single] at before
    omega

/-- The message in the frame of a task is accepted. -/
theorem of_resumes
    (fresh : s.Fresh count)
    (before : (s.frame tid).postTag = some tag)
    (after : (s'.frame tid).postTag = none)
    (frames : ∀ other, other ≠ tid → s'.frame other = s.frame other)
    (history : acceptedTags s'.kernel.history =
      acceptedTags s.kernel.history ++ [tag]) :
    s'.Fresh (count + 1) := by
  obtain ⟨tag_lt, absent⟩ := fresh.waiting tid tag before
  have elsewhere : ∀ other seen, (s'.frame other).postTag = some seen →
      (s.frame other).postTag = some seen ∧ other ≠ tid := by
    intro other seen there
    by_cases same : other = tid
    · rw [same, after] at there
      cases there
    · rw [frames other same] at there
      exact ⟨there, same⟩
  obtain ⟨nodup, accepted_lt⟩ :=
    fresh.accepted_append (Nat.lt_succ_of_lt tag_lt) absent
  refine ⟨history ▸ nodup, history ▸ accepted_lt, fun other seen there => ?_,
    fun first second seen one two => fresh.apart first second seen
      (elsewhere first seen one).1 (elsewhere second seen two).1⟩
  obtain ⟨was, notTid⟩ := elsewhere other seen there
  obtain ⟨seen_lt, notBefore⟩ := fresh.waiting other seen was
  refine ⟨Nat.lt_succ_of_lt seen_lt, fun inside => ?_⟩
  rw [history] at inside
  rcases List.mem_append.mp inside with old | single
  · exact notBefore old
  · rw [List.mem_singleton.mp single] at was
    exact notTid (fresh.apart other tid tag was before)

theorem of_posting
    {label : Label (β × Nat)} {tags : List Nat}
    (fresh : s.Fresh count)
    (posting : Posting s label s'.frame tags)
    (history : acceptedTags s'.kernel.history =
      acceptedTags s.kernel.history ++ tags)
    (sent : ∀ tag, label.postTag = some tag → tag = count) :
    s'.Fresh (count + 1) := by
  cases posting with
  | none frames => exact fresh.of_none frames (by rw [history, List.append_nil])
  | waits new here frames =>
      exact fresh.of_waits (sent _ new) here frames
        (by rw [history, List.append_nil])
  | posts new frames => exact fresh.of_posts (sent _ new) frames history
  | resumes before after frames =>
      exact fresh.of_resumes before after frames history

end Sys.Fresh

theorem step_fresh
    {cfg : Config} {s s' : Sys (β × Nat)} {label : Label (β × Nat)}
    {count : Nat}
    (sound : s.kernel.Sound cfg)
    (fresh : s.Fresh count)
    (sent : ∀ tag, label.postTag = some tag → tag = count)
    (steps : step cfg s label = .ok s') :
    s'.Fresh (count + 1) := by
  obtain ⟨acts, shape, trace⟩ := step_trace sound steps
  refine fresh.of_posting shape.posting ?_ sent
  rw [Micro.history_of_trace trace, ← acceptedTags_entries]
  exact List.filterMap_append ..

/-- The label at a position posts under its own tag. -/
theorem Label.postTag_of_tag
    {label : Label β} {position tag : Nat}
    (sent : (label.map fun payload => (payload, position)).postTag = some tag) :
    tag = position := by
  cases label with
  | task op line =>
      cases op with
      | msgPost taskId msg delay period async =>
          exact (Option.some.inj sent).symm
      | _ => cases sent
  | _ => cases sent

/-- The labels of a run from a position on. -/
theorem run_fresh
    {cfg : Config} {s s' : Sys (β × Nat)} {labels : List (Label β)}
    {start : Nat}
    (sound : s.kernel.Sound cfg)
    (fresh : s.Fresh start)
    (runs : run (step cfg) s ((labels.zipIdx start).map
      fun (label, position) => label.map fun payload => (payload, position)) =
        .ok s') :
    s'.Fresh (start + labels.length) := by
  induction labels generalizing s start with
  | nil =>
      rw [List.zipIdx_nil, List.map_nil, run_nil, Except.ok.injEq] at runs
      exact runs ▸ fresh
  | cons label labels inductionHypothesis =>
      rw [List.zipIdx_cons, List.map_cons] at runs
      obtain ⟨next, steps, rest⟩ := run_cons_eq_ok_iff.mp runs
      have later := inductionHypothesis (step_sound sound steps)
        (step_fresh sound fresh (fun _ => Label.postTag_of_tag) steps) rest
      rw [List.length_cons]
      rwa [Nat.add_right_comm, Nat.add_assoc] at later

theorem fresh_of_initial
    {cfg : Config} {s : Sys (β × Nat)}
    (initial : Initial cfg s) :
    s.Fresh 0 := by
  obtain ⟨⟨k, kernel⟩, frame⟩ := initial
  have history : acceptedTags s.kernel.history = [] := by
    rw [kernel]
    rfl
  have none : ∀ tid, (s.frame tid).postTag = Option.none := by
    intro tid
    rw [frame]
    rfl
  refine ⟨by simp [history], by simp [history], fun tid tag here => ?_,
    fun tid other tag here => ?_⟩
  · rw [none] at here
    cases here
  · rw [none] at here
    cases here

/-- What a run of tagged messages reaches has accepted every message once at
most. -/
theorem tagged_run_fresh
    {cfg : Config} {s₀ s : Sys (β × Nat)} {labels : List (Label β)}
    (initial : Initial cfg s₀)
    (runs : run (step cfg) s₀ (tagged labels) = .ok s) :
    s.Fresh labels.length := by
  have sound := reachable_sound (.of_initial initial)
  have fresh := run_fresh sound (fresh_of_initial initial) runs
  rwa [Nat.zero_add] at fresh

/-! ## One message of a history -/

/-- The payload belongs to the message with this tag. -/
def hasTag (tag : Nat) (payload : β × Nat) : Bool := payload.2 == tag

theorem postTag_of_accepts
    {queue tag : Nat} {entry : Entry (β × Nat)}
    (accepts : entry.accepts queue (hasTag tag) = true) :
    entry.postTag = some tag := by
  cases entry with
  | posted other msg =>
      have both : (other == queue && msg.payload.2 == tag) = true := accepts
      simp only [Bool.and_eq_true, beq_iff_eq] at both
      exact congrArg some both.2
  | _ => cases accepts

/-- A message that a queue accepted is the only one with its tag. -/
theorem Sys.Fresh.acceptedOnce
    {s : Sys (β × Nat)} {count queue : Nat}
    (fresh : s.Fresh count)
    {earlier later : List (Entry (β × Nat))} {msg : Msg (β × Nat)}
    (split : s.kernel.history = earlier ++ .posted queue msg :: later)
    (other : Nat) :
    (∀ entry ∈ earlier, entry.accepts other (hasTag msg.tag) = false) ∧
      ∀ entry ∈ later, entry.accepts other (hasTag msg.tag) = false := by
  have nodup := fresh.nodup
  unfold acceptedTags at nodup
  rw [split, List.filterMap_append, List.filterMap_cons] at nodup
  obtain ⟨_, rest, apart⟩ := List.nodup_append.mp nodup
  obtain ⟨notLater, _⟩ := List.nodup_cons.mp rest
  constructor
  · intro entry inside
    by_contra accepts
    have tag := postTag_of_accepts (by simpa using accepts)
    exact apart msg.tag (List.mem_filterMap.mpr ⟨entry, inside, tag⟩) msg.tag
      (List.mem_cons_self ..) rfl
  · intro entry inside
    by_contra accepts
    have tag := postTag_of_accepts (by simpa using accepts)
    exact notLater (List.mem_filterMap.mpr ⟨entry, inside, tag⟩)

end CocoOs
