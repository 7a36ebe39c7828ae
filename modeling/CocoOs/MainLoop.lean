import CocoOs.Marks

/-!
# The main loop (`os_start`, `os_start_locking`)

The loop of `os_start` counts its scheduling passes in 32 bits, up to a limit or
forever, and `os_start_locking` brackets each pass with a lock of the user, for a
kernel whose ticks come from another thread.  The loop is a system of its own
around the steps of the kernel: it starts a pass, the task of the pass takes its
steps and creates objects, interrupt handlers make their calls at any time, and
so does, between the passes, a thread that the lock keeps out.
-/

namespace CocoOs

open Foundation

variable {β : Type}

/-! ## The loop -/

/-- Where the loop is: at its test, before `os_schedule`, or inside it. -/
inductive LoopPoint
  | test
  | entered
  | scheduling
  deriving DecidableEq

/-- The kernel, the counter of the loop and the lock of the user. -/
structure MainLoop (β : Type) where
  sys : Sys β
  i : UInt32
  point : LoopPoint
  locked : Bool

/-- The steps of the loop, of the task it runs, of interrupt handlers, and of
other code. -/
inductive LoopLabel (β : Type)
  | enter
  | osSchedule
  | task (op : TaskOp β) (line : UInt16)
  | create (creation : Creation β)
  | interrupt (call : Call)
  | next
  | other (call : Call)

namespace MainLoop

/-- The loop has returned: its test has failed. -/
def Returned (limit : UInt32) (loop : MainLoop β) : Prop :=
  loop.point = .test ∧ ¬ loop.i ≤ limit

/-- A step of the kernel inside the loop. -/
def onSys (cfg : Config) (loop : MainLoop β) (label : Label β) :
    Outcome (MainLoop β) :=
  (step cfg loop.sys label).map fun s => { loop with sys := s }

end MainLoop

/-- The loop of `os_start`, and with `locking` that of `os_start_locking`.  A
pass is over when the task it ran has yielded.  Other code is kept out while the
lock is taken. -/
def loopStep (cfg : Config) (locking : Bool) (limit : UInt32)
    (loop : MainLoop β) : LoopLabel β → Outcome (MainLoop β)
  | .enter =>
      if loop.point = .test ∧ loop.i ≤ limit then
        .ok { loop with point := .entered, locked := locking }
      else .error .disabled
  | .osSchedule =>
      if loop.point = .entered then
        { loop with point := .scheduling }.onSys cfg .osSchedule
      else .error .disabled
  | .task op line =>
      if loop.point = .scheduling then loop.onSys cfg (.task op line)
      else .error .disabled
  | .create creation =>
      if loop.point = .scheduling ∧ loop.sys.kernel.runningTid ≠ noTid then
        loop.onSys cfg (.create creation)
      else .error .disabled
  | .interrupt call => loop.onSys cfg (.call call)
  | .next =>
      if loop.point = .scheduling ∧ loop.sys.kernel.runningTid = noTid then
        .ok { loop with
          point := .test
          locked := false
          i := if limit ≠ 0 then loop.i + 1 else loop.i }
      else .error .disabled
  | .other call =>
      if loop.locked = false then loop.onSys cfg (.call call)
      else .error .disabled

/-- `os_start(limit)` and `os_start_locking(limit, ..)` before the first test. -/
def MainLoop.start (s : Sys β) : MainLoop β where
  sys := { s with kernel := s.kernel.osStart }
  i := 0
  point := .test
  locked := false

/-- The step of the kernel that a step of the loop takes. -/
def LoopLabel.toLabel : LoopLabel β → Option (Label β)
  | .enter => none
  | .osSchedule => some .osSchedule
  | .task op line => some (.task op line)
  | .create creation => some (.create creation)
  | .interrupt call => some (.call call)
  | .next => none
  | .other call => some (.call call)

/-- The step calls `os_schedule`. -/
def LoopLabel.isPass : LoopLabel β → Bool
  | .osSchedule => true
  | _ => false

/-- The number of calls of `os_schedule`. -/
def passes (labels : List (LoopLabel β)) : Nat :=
  labels.countP LoopLabel.isPass

/-- How many of a number of calls of `os_schedule` have returned. -/
def MainLoop.ended (loop : MainLoop β) (passes : Nat) : Nat :=
  if loop.point = .scheduling then passes - 1 else passes

/-! ## The counter -/

/-- The counter when a number of passes has returned.  It stays at zero when
there is no limit, and wraps around when the limit is the largest number. -/
structure Counted (limit : UInt32) (ended : Nat) (i : UInt32) : Prop where
  counter : i.toNat = if limit = 0 then 0 else ended % 2 ^ 32
  bound : limit ≠ 0 → limit.toNat + 1 < 2 ^ 32 → ended ≤ limit.toNat + 1

namespace Counted

variable {limit i : UInt32} {ended : Nat}

theorem zero (limit : UInt32) : Counted limit 0 0 where
  counter := by simp
  bound := fun _ _ => Nat.zero_le _

/-- One more pass, after a test that held. -/
theorem next (counted : Counted limit ended i) (below : i ≤ limit) :
    Counted limit (ended + 1) (if limit ≠ 0 then i + 1 else i) := by
  obtain ⟨counter, bound⟩ := counted
  have below := UInt32.le_iff_toNat_le.mp below
  by_cases forever : limit = 0
  · subst forever
    exact ⟨counter, fun wrong => absurd rfl wrong⟩
  · rw [if_neg forever] at counter
    rw [if_pos forever]
    refine ⟨?_, fun _ small => ?_⟩
    · rw [if_neg forever, UInt32.toNat_add, counter, UInt32.toNat_one]
      omega
    · have atMost := bound forever small
      omega

/-- The test fails exactly when the passes are one more than the limit. -/
theorem not_le_iff (counted : Counted limit ended i) :
    ¬ i ≤ limit ↔
      limit ≠ 0 ∧ limit.toNat + 1 < 2 ^ 32 ∧ ended = limit.toNat + 1 := by
  obtain ⟨counter, bound⟩ := counted
  rw [UInt32.le_iff_toNat_le, Nat.not_le]
  by_cases forever : limit = 0
  · simp [counter, forever]
  · rw [if_neg forever] at counter
    have word := limit.toNat_lt
    by_cases small : limit.toNat + 1 < 2 ^ 32
    · have atMost := bound forever small
      simp only [forever, small, ne_eq, not_false_eq_true, true_and]
      omega
    · simp only [small, false_and, and_false, iff_false]
      omega

end Counted

/-! ## The invariant of the loop -/

/-- What holds after a number of calls of `os_schedule`. -/
structure LoopSound
    (cfg : Config) (limit : UInt32) (passes : Nat) (loop : MainLoop β) :
    Prop where
  reachable : ReachableSys cfg loop.sys
  idle : loop.point ≠ .scheduling → loop.sys.kernel.runningTid = noTid
  started : loop.point = .scheduling → 0 < passes
  counted : Counted limit (loop.ended passes) loop.i
  below : loop.point ≠ .test → loop.i ≤ limit

section

variable {cfg : Config} {locking : Bool} {limit : UInt32} {count : Nat}
variable {s s' : Sys β} {loop loop' : MainLoop β}

/-- Steps of the kernel that start no pass and leave the processor free. -/
theorem LoopSound.of_onSys
    {label : Label β}
    (sound : LoopSound cfg limit count loop)
    (steps : loop.onSys cfg label = .ok loop')
    (idle : loop.point ≠ .scheduling → ∃ call, label = .call call) :
    LoopSound cfg limit count loop' := by
  obtain ⟨s, taken, rfl⟩ := map_eq_ok_iff.mp steps
  refine ⟨sound.reachable.step taken, fun outside => ?_, sound.started,
    sound.counted, sound.below⟩
  obtain ⟨call, rfl⟩ := idle outside
  exact (step_call_runningTid sound.reachable taken).trans (sound.idle outside)

theorem LoopSound.of_step
    {label : LoopLabel β}
    (sound : LoopSound cfg limit count loop)
    (steps : loopStep cfg locking limit loop label = .ok loop') :
    LoopSound cfg limit (count + if label.isPass then 1 else 0)
      loop' := by
  cases label with
  | enter =>
      obtain ⟨⟨test, below⟩, entered⟩ := guard_eq_ok_iff.mp steps
      cases Except.ok.inj entered
      have idle := sound.idle (by rw [test]; decide)
      have counted : Counted limit count loop.i := by
        simpa [MainLoop.ended, test] using sound.counted
      exact ⟨sound.reachable, fun _ => idle, nofun, counted, fun _ => below⟩
  | osSchedule =>
      obtain ⟨entered, starts⟩ := guard_eq_ok_iff.mp steps
      obtain ⟨s, taken, rfl⟩ := map_eq_ok_iff.mp starts
      have outside : loop.point ≠ .test := by
        rw [entered]
        decide
      have counted : Counted limit count loop.i := by
        simpa [MainLoop.ended, entered] using sound.counted
      exact ⟨sound.reachable.step taken, fun wrong => absurd rfl wrong,
        fun _ => Nat.succ_pos count, counted, fun _ => sound.below outside⟩
  | task op line =>
      obtain ⟨scheduling, taken⟩ := guard_eq_ok_iff.mp steps
      exact sound.of_onSys taken fun outside => absurd scheduling outside
  | create creation =>
      obtain ⟨scheduling, taken⟩ := guard_eq_ok_iff.mp steps
      exact sound.of_onSys taken fun outside => absurd scheduling.1 outside
  | interrupt call => exact sound.of_onSys steps fun _ => ⟨call, rfl⟩
  | next =>
      obtain ⟨⟨scheduling, idle⟩, returned⟩ := guard_eq_ok_iff.mp steps
      cases Except.ok.inj returned
      have started := sound.started scheduling
      have counted : Counted limit (count - 1) loop.i := by
        simpa [MainLoop.ended, scheduling] using sound.counted
      have below := sound.below (by rw [scheduling]; decide)
      have after := counted.next below
      rw [Nat.sub_add_cancel started] at after
      exact ⟨sound.reachable, fun _ => idle, nofun, after,
        fun wrong => absurd rfl wrong⟩
  | other call =>
      obtain ⟨_, taken⟩ := guard_eq_ok_iff.mp steps
      exact sound.of_onSys taken fun _ => ⟨call, rfl⟩

theorem LoopSound.of_run
    {labels : List (LoopLabel β)}
    (sound : LoopSound cfg limit count loop)
    (runs : run (loopStep cfg locking limit) loop labels = .ok loop') :
    LoopSound cfg limit (count + passes labels) loop' := by
  induction labels generalizing loop count with
  | nil =>
      cases Except.ok.inj runs
      exact sound
  | cons label labels inductionHypothesis =>
      obtain ⟨next, steps, rest⟩ := run_cons_eq_ok_iff.mp runs
      have later := inductionHypothesis (sound.of_step steps) rest
      rw [passes, List.countP_cons, Nat.add_comm (List.countP _ labels),
        ← Nat.add_assoc]
      exact later

/-- The kernel takes the steps that the loop makes it take. -/
theorem run_toLabel
    {labels : List (LoopLabel β)}
    (runs : run (loopStep cfg locking limit) loop labels = .ok loop') :
    run (step cfg) loop.sys (labels.filterMap LoopLabel.toLabel) =
      .ok loop'.sys := by
  induction labels generalizing loop with
  | nil =>
      cases Except.ok.inj runs
      rfl
  | cons label labels inductionHypothesis =>
      obtain ⟨next, steps, rest⟩ := run_cons_eq_ok_iff.mp runs
      have later := inductionHypothesis rest
      have taken : ∀ (before : MainLoop β) {kernelLabel : Label β},
          before.onSys cfg kernelLabel = .ok next →
          run (step cfg) before.sys (kernelLabel :: labels.filterMap
            LoopLabel.toLabel) = .ok loop'.sys := by
        intro before kernelLabel onSys
        obtain ⟨s, taken, rfl⟩ := map_eq_ok_iff.mp onSys
        exact run_cons_eq_ok_iff.mpr ⟨s, taken, later⟩
      cases label with
      | enter =>
          obtain ⟨_, entered⟩ := guard_eq_ok_iff.mp steps
          cases Except.ok.inj entered
          exact later
      | next =>
          obtain ⟨_, returned⟩ := guard_eq_ok_iff.mp steps
          cases Except.ok.inj returned
          exact later
      | osSchedule =>
          exact taken { loop with point := .scheduling }
            (guard_eq_ok_iff.mp steps).2
      | interrupt call => exact taken loop steps
      | _ => exact taken loop (guard_eq_ok_iff.mp steps).2

/-- The state before the first test. -/
theorem LoopSound.start
    (reachable : ReachableSys cfg s)
    (idle : s.kernel.runningTid = noTid) :
    LoopSound cfg limit 0 (MainLoop.start s) where
  reachable := reachable.step (show step cfg s .osStart = .ok _ from rfl)
  idle := fun _ => idle
  started := nofun
  counted := .zero limit
  below := fun wrong => absurd rfl wrong

/-- The loop of `os_start`, with the lock or without, runs the kernel as its
steps do, and it returns exactly after one scheduling pass more than its limit;
without a limit, and when the limit is the largest number of 32 bits, it never
returns. -/
theorem main_loop_passes
    {labels : List (LoopLabel β)}
    (reachable : ReachableSys cfg s)
    (idle : s.kernel.runningTid = noTid)
    (runs : run (loopStep cfg locking limit) (MainLoop.start s) labels =
      .ok loop) :
    run (step cfg) s (.osStart :: labels.filterMap LoopLabel.toLabel) =
      .ok loop.sys ∧
    (loop.Returned limit ↔
      loop.point = .test ∧ limit ≠ 0 ∧ limit.toNat + 1 < 2 ^ 32 ∧
        passes labels = limit.toNat + 1) := by
  have start : LoopSound cfg limit 0 (MainLoop.start s) :=
    .start reachable idle
  have sound := start.of_run runs
  refine ⟨run_cons_eq_ok_iff.mpr ⟨_, rfl, run_toLabel runs⟩, ?_⟩
  refine and_congr_right fun test => ?_
  have counted := sound.counted
  rw [MainLoop.ended, if_neg (by rw [test]; decide), Nat.zero_add] at counted
  exact counted.not_le_iff

end

/-- Two passes with a tick between them and an interrupt before the second is
over.  The first task creates a semaphore, and each task goes to sleep. -/
def twoPasses : List (LoopLabel Nat) :=
  [.enter, .osSchedule, .create (.semBinCreate true),
    .task (.taskWaitId 0 5) 1, .next, .other .osTick, .enter, .osSchedule,
    .task (.taskWaitId 0 5) 2, .interrupt (.eventIsrSignal 0), .next]

/-- `os_start(1)` returns after two passes. -/
theorem main_loop_passes_setUp :
    ∃ (s : Sys Nat) (loop : MainLoop Nat),
      run (step (Config.small false)) (Sys.boot (Config.small false))
        (setUp 1 2 3) = .ok s ∧
      run (loopStep (Config.small false) false 1) (.start s) twoPasses =
        .ok loop ∧
      loop.Returned 1 := by
  obtain ⟨s, loop, before, runs, checked⟩ := exists_pair_of_returnsWith
    (run (step (Config.small false)) (Sys.boot (Config.small false))
      (setUp 1 2 3))
    (fun s => run (loopStep (Config.small false) false 1) (.start s) twoPasses)
    (fun states : Sys Nat × MainLoop Nat =>
      decide (states.1.kernel.runningTid = noTid ∧ states.2.point = .test))
    (by decide +kernel)
  obtain ⟨idle, test⟩ := of_decide_eq_true checked
  obtain ⟨_, returned⟩ := main_loop_passes (reachable_of_run before) idle runs
  exact ⟨s, loop, before, runs,
    returned.mpr ⟨test, by decide, by decide, rfl⟩⟩

end CocoOs
