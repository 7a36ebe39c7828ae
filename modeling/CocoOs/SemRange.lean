import CocoOs.SemGrants

/-!
# The range of the semaphore values

Besides the macros, the counters of the semaphores can be called by themselves.
The `<` of `os_sem_increment` keeps a value at its maximum only when it starts
there or below, and `os_sem_create` stores the initial value it is given.  So
the values stay in range over a run exactly when every counting semaphore is
created within its own maximum.
-/

namespace CocoOs

open Foundation

variable {β : Type}

/-! ## Runs with calls of the counters -/

/-- The steps of the system, and the calls of a counter by itself. -/
inductive SemLabel (β : Type)
  | step (label : Label β)
  | osSemIncrement (sem : Int)
  | osSemDecrement (sem : Int)

/-- The system with other semaphores. -/
def Sys.withSems (s : Sys β) (sems : SemTable) : Sys β :=
  { s with kernel := { s.kernel with sems := sems } }

/-- One step of the system, or one call of a counter. -/
def semStep (cfg : Config) (s : Sys β) : SemLabel β → Outcome (Sys β)
  | .step label => step cfg s label
  | .osSemIncrement sem =>
      if cfg.HasSem sem then
        .ok (s.withSems (s.kernel.sems.osSemIncrement cfg sem))
      else .error .bounds
  | .osSemDecrement sem =>
      if cfg.HasSem sem then
        .ok (s.withSems (s.kernel.sems.osSemDecrement cfg sem))
      else .error .bounds

namespace SemLabel

/-- The step waits for, signals, creates or counts the semaphore. -/
def On (s : Sys β) (sem : Int) : SemLabel β → Prop
  | .step label =>
      label.WaitsSem sem ∨ label.SignalsSem sem ∨
        (label.createsSem s sem).isSome
  | .osSemIncrement other => other = sem
  | .osSemDecrement other => other = sem

/-- A counting semaphore is created with an initial value that its maximum
allows. -/
def WithinMax (cfg : Config) : SemLabel β → Prop
  | .step (.create (.semCountingCreate max initial)) =>
      0 < cfg.nTotalSemaphores → initial.toNat ≤ max.toNat
  | _ => True

end SemLabel

/-! ## The range -/

/-- The value is at most the maximum, which is a byte: an increment below the
maximum does not wrap. -/
structure SemValue.InRange (counter : SemValue) : Prop where
  value_le : counter.value ≤ counter.maxValue
  byte : counter.maxValue < 256

namespace SemTable

/-- Every created semaphore is in range. -/
def InRange (cfg : Config) (sems : SemTable) : Prop :=
  ∀ sem, sems.Created cfg sem → (sems.semList sem).InRange

/-- A decrement keeps the range. -/
theorem InRange.osSemDecrement
    {cfg : Config} {sems : SemTable}
    (inRange : sems.InRange cfg)
    (sem : Int) :
    (sems.osSemDecrement cfg sem).InRange cfg := by
  intro other created
  rw [Created, osSemDecrement_nSemaphores] at created
  have before := inRange other created
  by_cases same : other = sem
  · subst same
    unfold SemTable.osSemDecrement
    split_ifs
    · simp only [Function.update_self]
      exact ⟨(Nat.sub_le _ _).trans before.value_le, before.byte⟩
    · exact before
  · rw [osSemDecrement_semList_of_ne same]
    exact before

/-- An increment keeps the range: it stops at the maximum. -/
theorem InRange.osSemIncrement
    {cfg : Config} {sems : SemTable}
    (inRange : sems.InRange cfg)
    (sem : Int) :
    (sems.osSemIncrement cfg sem).InRange cfg := by
  intro other created
  rw [Created, osSemIncrement_nSemaphores] at created
  have before := inRange other created
  by_cases same : other = sem
  · subst same
    unfold SemTable.osSemIncrement
    split_ifs with below
    · simp only [Function.update_self]
      exact ⟨below.2, before.byte⟩
    · exact before
  · rw [osSemIncrement_semList_of_ne same]
    exact before

/-- A creation keeps the range when the new counter is in range. -/
theorem InRange.osSemCreate
    {cfg : Config} {sems sems' : SemTable} {counter : SemValue} {sem : Int}
    (inRange : sems.InRange cfg)
    (within : 0 < cfg.nTotalSemaphores → counter.InRange)
    (returns : sems.osSemCreate cfg counter.maxValue counter.value =
      .ok (sem, sems')) :
    sems'.InRange cfg := by
  rcases osSemCreate_cases returns with ⟨_, same⟩ | ⟨_, same⟩
  · rw [same]
    exact inRange
  · rintro other ⟨some, nonneg, below⟩
    rw [same] at below ⊢
    dsimp only at below ⊢
    by_cases new : other = sems.nSemaphores
    · rw [new, Function.update_self]
      exact within some
    · rw [Function.update_of_ne new]
      have counted : (sems.nSemaphores + 1) % 256 ≤ sems.nSemaphores + 1 :=
        Nat.mod_le _ _
      exact inRange other ⟨some, nonneg, by omega⟩

/-- A creation that puts its counter out of range breaks the range. -/
theorem not_inRange_of_osSemCreate
    {cfg : Config} {sems sems' : SemTable} {max initial : Nat} {sem : Int}
    (few : cfg.nTotalSemaphores ≤ 255)
    (some : 0 < cfg.nTotalSemaphores)
    (above : max < initial)
    (returns : sems.osSemCreate cfg max initial = .ok (sem, sems')) :
    ¬ sems'.InRange cfg := by
  intro inRange
  rcases osSemCreate_cases returns with ⟨none, _⟩ | ⟨room, same⟩
  · omega
  · have next : (sems.nSemaphores + 1) % 256 = sems.nSemaphores + 1 :=
      Nat.mod_eq_of_lt (by omega)
    have created : sems'.Created cfg sems.nSemaphores := by
      rw [same, next]
      exact ⟨some, by omega, by dsimp only; omega⟩
    have bounded := (inRange _ created).value_le
    simp only [same, Function.update_self] at bounded
    omega

end SemTable

/-! ## One step -/

/-- The counter of a creation is in range when its label is. -/
theorem Creation.semValue_inRange
    {cfg : Config} {creation : Creation β} {counter : SemValue}
    (value : creation.semValue = some counter)
    (within : (SemLabel.step (.create creation)).WithinMax cfg)
    (some : 0 < cfg.nTotalSemaphores) :
    counter.InRange := by
  cases creation with
  | semBinCreate initial =>
      cases value
      exact ⟨Bool.toNat_le initial, by simp⟩
  | semCountingCreate max initial =>
      cases value
      exact ⟨within some, max.toNat_lt⟩
  | _ => cases value

/-- A creation within its maximum keeps the range. -/
theorem creationStep_inRange
    {cfg : Config} {k k' : Kernel β} {creation : Creation β}
    (within : (SemLabel.step (.create creation)).WithinMax cfg)
    (inRange : k.sems.InRange cfg)
    (creates : creationStep cfg k creation = .ok k') :
    k'.sems.InRange cfg := by
  rcases creationStep_sems creates with
    ⟨_, same⟩ | ⟨counter, sem, value, made, _⟩
  · rw [same]
    exact inRange
  · exact inRange.osSemCreate
      (fun some => Creation.semValue_inRange value within some) made

/-- An action other than a creation keeps the range. -/
theorem Micro.inRange
    {cfg : Config} {k k' : Kernel β} {act : Act β}
    (acts : Micro cfg k act k')
    (notCreate : act.Quiet)
    (inRange : k.sems.InRange cfg) :
    k'.sems.InRange cfg := by
  rcases acts.sems_cases with
    same | ⟨sem, _, same⟩ | ⟨sem, _, same⟩ | ⟨creation, rfl, _⟩
  · rw [same]
    exact inRange
  · rw [same]
    exact inRange.osSemDecrement sem
  · rw [same]
    exact inRange.osSemIncrement sem
  · exact notCreate.elim

/-- A step that creates within the maximum keeps the range. -/
theorem semStep_inRange
    {cfg : Config} {s s' : Sys β} {label : SemLabel β}
    (sound : s.kernel.Sound cfg)
    (within : label.WithinMax cfg)
    (inRange : s.kernel.sems.InRange cfg)
    (steps : semStep cfg s label = .ok s') :
    s'.kernel.sems.InRange cfg := by
  cases label with
  | step label =>
      by_cases creates : ∃ creation, label = .create creation
      · obtain ⟨creation, rfl⟩ := creates
        obtain ⟨k', made, rfl⟩ := map_eq_ok_iff.mp steps
        exact creationStep_inRange within inRange made
      · obtain ⟨acts, shape, trace⟩ := step_trace sound steps
        refine trace.invariant (fun act => act.Allowed cfg s label)
          (fun k => k.sems.InRange cfg)
          (fun k act k' may holds acts => acts.inRange ?_ holds)
          shape.allowed inRange
        cases act with
        | create creation => exact absurd ⟨creation, may⟩ creates
        | _ => trivial
  | osSemIncrement sem =>
      obtain ⟨_, result⟩ := guard_eq_ok_iff.mp steps
      rw [← Except.ok.inj result]
      exact inRange.osSemIncrement sem
  | osSemDecrement sem =>
      obtain ⟨_, result⟩ := guard_eq_ok_iff.mp steps
      rw [← Except.ok.inj result]
      exact inRange.osSemDecrement sem

/-- A step leaves the counters of the semaphores alone that it is not on. -/
theorem semStep_semList
    {cfg : Config} {s s' : Sys β} {label : SemLabel β} {other : Int}
    (sound : s.kernel.Sound cfg)
    (apart : ¬ label.On s other)
    (steps : semStep cfg s label = .ok s') :
    s'.kernel.sems.semList other = s.kernel.sems.semList other := by
  cases label with
  | step label =>
      obtain ⟨notWait, notOther⟩ := not_or.mp apart
      obtain ⟨notSignal, notCreate⟩ := not_or.mp notOther
      exact step_semList sound notWait notSignal
        (Option.not_isSome_iff_eq_none.mp notCreate) steps
  | osSemIncrement sem =>
      obtain ⟨_, result⟩ := guard_eq_ok_iff.mp steps
      rw [← Except.ok.inj result]
      exact SemTable.osSemIncrement_semList_of_ne (Ne.symm apart)
  | osSemDecrement sem =>
      obtain ⟨_, result⟩ := guard_eq_ok_iff.mp steps
      rw [← Except.ok.inj result]
      exact SemTable.osSemDecrement_semList_of_ne (Ne.symm apart)

/-- Tasks and queues stay consistent when the semaphores change. -/
theorem Kernel.Sound.withSems
    {cfg : Config} {s : Sys β}
    (sound : s.kernel.Sound cfg)
    (sems : SemTable) :
    (s.withSems sems).kernel.Sound cfg :=
  ⟨sound.queues.of_tasks rfl rfl fun _ _ => rfl, sound.tasks⟩

/-- A step keeps the kernel consistent. -/
theorem semStep_sound
    {cfg : Config} {s s' : Sys β} {label : SemLabel β}
    (sound : s.kernel.Sound cfg)
    (steps : semStep cfg s label = .ok s') :
    s'.kernel.Sound cfg := by
  cases label with
  | step label => exact step_sound sound steps
  | osSemIncrement sem | osSemDecrement sem =>
      obtain ⟨_, result⟩ := guard_eq_ok_iff.mp steps
      rw [← Except.ok.inj result]
      exact sound.withSems _

/-! ## Runs -/

/-- Over the run every created semaphore is in range, and each step leaves the
counters of all semaphores alone that it is not on. -/
structure SemsKept
    (cfg : Config) (s₀ : Sys β) (labels : List (SemLabel β)) : Prop where
  inRange : ∀ done later s,
    labels = done ++ later →
    run (semStep cfg) s₀ done = .ok s →
    s.kernel.sems.InRange cfg
  others : ∀ done label later s s' other,
    labels = done ++ label :: later →
    run (semStep cfg) s₀ done = .ok s →
    semStep cfg s label = .ok s' →
    ¬ label.On s other →
    s'.kernel.sems.semList other = s.kernel.sems.semList other

/-- The kernel stays consistent over a run. -/
theorem semRun_sound
    {cfg : Config} {s₀ s : Sys β} {labels : List (SemLabel β)}
    (initial : Initial cfg s₀)
    (runs : run (semStep cfg) s₀ labels = .ok s) :
    s.kernel.Sound cfg :=
  run_invariant (fun s => s.kernel.Sound cfg)
    (fun _ _ _ sound steps => semStep_sound sound steps)
    (reachable_sound (Reachable.of_initial initial)) runs

/-- No semaphore is created yet. -/
theorem Initial.sems_inRange
    {cfg : Config} {s₀ : Sys β}
    (initial : Initial cfg s₀) :
    s₀.kernel.sems.InRange cfg := by
  obtain ⟨⟨k, kernel⟩, _⟩ := initial
  rintro sem ⟨some, nonneg, below⟩
  rw [kernel] at below
  simp only [Kernel.osInit, SemTable.osSemInit, if_pos some] at below
  omega

/-- A run that creates every counting semaphore within its maximum keeps the
range. -/
theorem semRun_inRange
    {cfg : Config} {s₀ s : Sys β} {labels : List (SemLabel β)}
    (initial : Initial cfg s₀)
    (within : ∀ label ∈ labels, label.WithinMax cfg)
    (runs : run (semStep cfg) s₀ labels = .ok s) :
    s.kernel.sems.InRange cfg := by
  have meets : Meets (semStep cfg) (fun _ label => label.WithinMax cfg) s₀
      labels := Meets.of_forall (fun label inside _ => within label inside) s₀
  have both := meets.run_invariant
    (fun s => s.kernel.Sound cfg ∧ s.kernel.sems.InRange cfg)
    (fun s label s' holds allowed steps =>
      ⟨semStep_sound holds.1 steps, semStep_inRange holds.1 allowed holds.2 steps⟩)
    ⟨reachable_sound (Reachable.of_initial initial), initial.sems_inRange⟩ runs
  exact both.2

/-- A step out of range ends out of range. -/
theorem not_inRange_of_not_withinMax
    {cfg : Config} {s s' : Sys β} {label : SemLabel β}
    (few : cfg.nTotalSemaphores ≤ 255)
    (beyond : ¬ label.WithinMax cfg)
    (steps : semStep cfg s label = .ok s') :
    ¬ s'.kernel.sems.InRange cfg := by
  cases label with
  | step label =>
      cases label with
      | create creation =>
          cases creation with
          | semCountingCreate max initial =>
              obtain ⟨some, above⟩ := Classical.not_imp.mp beyond
              obtain ⟨k', made, rfl⟩ := map_eq_ok_iff.mp steps
              obtain ⟨created, returns, rfl⟩ := map_eq_ok_iff.mp made
              exact SemTable.not_inRange_of_osSemCreate few some
                (Nat.lt_of_not_le above) returns
          | _ => exact absurd trivial beyond
      | _ => exact absurd trivial beyond
  | _ => exact absurd trivial beyond

/-- From `os_init`, in every run of creations, macros and calls of the counters,
every created semaphore stays in range and no step touches another semaphore,
exactly when no counting semaphore is created above its maximum. -/
theorem semsKept_iff
    {cfg : Config} {s₀ s : Sys β} {labels : List (SemLabel β)}
    (few : cfg.nTotalSemaphores ≤ 255)
    (initial : Initial cfg s₀)
    (runs : run (semStep cfg) s₀ labels = .ok s) :
    SemsKept cfg s₀ labels ↔ ∀ label ∈ labels, label.WithinMax cfg := by
  constructor
  · intro kept label inside
    obtain ⟨done, later, rfl⟩ := List.append_of_mem inside
    obtain ⟨here, earlier, rest⟩ := run_append_eq_ok_iff.mp runs
    obtain ⟨next, steps, _⟩ := run_cons_eq_ok_iff.mp rest
    by_contra beyond
    apply not_inRange_of_not_withinMax few beyond steps
    apply kept.inRange (done ++ [label]) later next
    · rw [List.append_assoc, List.singleton_append]
    · exact run_append_eq_ok_iff.mpr
        ⟨here, earlier, run_cons_eq_ok_iff.mpr ⟨next, steps, rfl⟩⟩
  · intro within
    refine ⟨?_, ?_⟩
    · rintro done later s rfl earlier
      refine semRun_inRange initial (fun label inside => ?_) earlier
      exact within label (List.mem_append_left _ inside)
    · rintro done label later s s' other rfl earlier steps apart
      exact semStep_semList (semRun_sound initial earlier) apart steps

/-- A counter of maximum two is filled up, taken from and signalled. -/
theorem semsKept_setUp :
    ∃ s : Sys Nat, ∃ labels : List (SemLabel Nat),
      run (semStep (Config.small false)) (Sys.boot (Config.small false))
        labels = .ok s ∧
      s.kernel.sems.semList 1 = ⟨2, 2⟩ ∧
      SemsKept (Config.small false) (Sys.boot (Config.small false)) labels := by
  obtain ⟨s, runs, checked⟩ := exists_of_returnsWith
    (fun s : Sys Nat => decide (s.kernel.sems.semList 1 = ⟨2, 2⟩))
    (run (semStep (Config.small false)) (Sys.boot (Config.small false))
      ((setUp 1 2 3).map SemLabel.step ++
        [.step (.create (.semCountingCreate 2 1)), .osSemIncrement 1,
          .osSemIncrement 1, .step .osSchedule, .step (.task (.semWait 1) 5),
          .step (.call (.semIsrSignal 1)), .osSemDecrement 0]))
    (by decide +kernel)
  refine ⟨s, _, runs, of_decide_eq_true checked, ?_⟩
  refine (semsKept_iff (by decide) ⟨⟨Kernel.zeroed, rfl⟩, rfl⟩ runs).mpr ?_
  simp [setUp, SemLabel.WithinMax]

/-- A counting semaphore of maximum one that is created with the value five. -/
theorem semCounting_above_max :
    ∃ s : Sys Nat,
      run (semStep (Config.small false)) (Sys.boot (Config.small false))
        [.step (.create (.semCountingCreate 1 5))] = .ok s ∧
      s.kernel.sems.Created (Config.small false) 0 ∧
      (s.kernel.sems.semList 0).maxValue < (s.kernel.sems.semList 0).value ∧
      ¬ SemsKept (Config.small false) (Sys.boot (Config.small false))
        ([.step (.create (.semCountingCreate 1 5))] : List (SemLabel Nat)) := by
  obtain ⟨s, runs, checked⟩ := exists_of_returnsWith
    (fun s : Sys Nat => decide (s.kernel.sems.Created (Config.small false) 0 ∧
      (s.kernel.sems.semList 0).maxValue < (s.kernel.sems.semList 0).value))
    (run (semStep (Config.small false)) (Sys.boot (Config.small false))
      [.step (.create (.semCountingCreate 1 5))])
    (by decide +kernel)
  obtain ⟨created, above⟩ := of_decide_eq_true checked
  refine ⟨s, runs, created, above, fun kept => ?_⟩
  have bounded := (kept.inRange _ [] s rfl runs _ created).value_le
  omega

end CocoOs
