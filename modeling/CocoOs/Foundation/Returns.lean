import CocoOs.Foundation.Transition

/-!
# Computations that return

Which computations return, compositionally, and from it which runs do: a run
returns exactly when each of its steps does at the state it is taken in.
-/

namespace Foundation

universe u

variable {σ ι ε : Type*} {α β : Type u}

/-- The computation returns. -/
def Returns (computation : Except ε α) : Prop :=
  ∃ result, computation = .ok result

@[simp] theorem returns_ok (value : α) :
    Returns (.ok value : Except ε α) := ⟨value, rfl⟩

@[simp] theorem not_returns_error (stopped : ε) :
    ¬ Returns (.error stopped : Except ε α) := by
  rintro ⟨_, wrong⟩
  cases wrong

@[simp] theorem returns_map_iff
    {computation : Except ε α}
    {observe : α → β} :
    Returns (computation.map observe) ↔ Returns computation := by
  cases computation <;> simp

theorem returns_guard_iff
    {guard : Prop} [Decidable guard]
    {stopped : ε}
    {computation : Except ε α} :
    Returns (if guard then computation else .error stopped) ↔
      guard ∧ Returns computation := by
  by_cases holds : guard <;> simp [holds]

/-- A computation that is skipped unless it is needed. -/
theorem returns_skip_iff
    {needed : Prop} [Decidable needed]
    {value : α}
    {computation : Except ε α} :
    Returns (if needed then computation else .ok value) ↔
      (needed → Returns computation) := by
  by_cases holds : needed <;> simp [holds]

theorem returns_bind_iff
    {computation : Except ε α}
    {next : α → Except ε β} :
    Returns (computation >>= next) ↔
      ∃ value, computation = .ok value ∧ Returns (next value) := by
  cases computation <;> simp

/-- A sequence returns when its parts do. -/
theorem Returns.bind
    {computation : Except ε α}
    {next : α → Except ε β}
    (first : Returns computation)
    (later : ∀ value, computation = .ok value → Returns (next value)) :
    Returns (computation >>= next) := by
  obtain ⟨value, returns⟩ := first
  exact returns_bind_iff.mpr ⟨value, returns, later value returns⟩

/-- A sequence whose end always returns. -/
theorem returns_bind_ok_iff
    {computation : Except ε α}
    {next : α → β} :
    Returns (computation >>= fun value => .ok (next value)) ↔
      Returns computation := by
  cases computation <;> simp

/-- Run rule: when the invariant makes a step return exactly under a condition,
the runs that return are those that meet the condition at every step. -/
theorem returns_run_iff
    {step : σ → ι → Except ε σ}
    {allowed : ι → Prop}
    {condition : σ → ι → Prop}
    (invariant : σ → Prop)
    (exact_ : ∀ state label, invariant state → allowed label →
      (Returns (step state label) ↔ condition state label))
    (preserved : ∀ state label next, invariant state → allowed label →
      step state label = .ok next → invariant next)
    {start : σ}
    {labels : List ι}
    (initially : invariant start)
    (allows : ∀ label ∈ labels, allowed label) :
    Returns (run step start labels) ↔ Meets step condition start labels := by
  induction labels generalizing start with
  | nil => exact iff_of_true (returns_ok start) trivial
  | cons label labels inductionHypothesis =>
      obtain ⟨here, later⟩ := List.forall_mem_cons.mp allows
      have continues : ∀ next, step start label = .ok next →
          (Returns (run step next labels) ↔ Meets step condition next labels) :=
        fun next steps => inductionHypothesis
          (preserved start label next initially here steps) later
      rw [run_cons, returns_bind_iff]
      constructor
      · rintro ⟨next, steps, rest⟩
        refine (meets_cons_iff steps).mpr ⟨?_, (continues next steps).mp rest⟩
        exact (exact_ start label initially here).mp ⟨next, steps⟩
      · rintro ⟨holds, rest⟩
        obtain ⟨next, steps⟩ := (exact_ start label initially here).mpr holds
        exact ⟨next, steps, (continues next steps).mpr (rest next steps)⟩

end Foundation
