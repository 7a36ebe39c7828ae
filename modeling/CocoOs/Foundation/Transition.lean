import CocoOs.Foundation.Outcome

/-!
# Runs of a partial transition function

A system is a function that takes a state and a label to the next state, or
stops.  A run is the fold of that function over a list of labels.  The rules
below carry a state invariant along runs, with and without a condition that
the labels of the run meet at the states where they are taken.
-/

namespace Foundation

variable {σ τ ι κ ε : Type*}

/-- The state after a list of labels, when every step returns. -/
def run
    (step : σ → ι → Except ε σ)
    (start : σ) : List ι → Except ε σ
  | [] => .ok start
  | label :: labels => step start label >>= fun next => run step next labels

@[simp] theorem run_nil
    (step : σ → ι → Except ε σ)
    (start : σ) :
    run step start [] = .ok start := rfl

theorem run_cons
    (step : σ → ι → Except ε σ)
    (start : σ)
    (label : ι)
    (labels : List ι) :
    run step start (label :: labels) =
      step start label >>= fun next => run step next labels := rfl

/-- A run over two lists is a run over the first followed by a run over the
second. -/
theorem run_append
    (step : σ → ι → Except ε σ)
    (start : σ)
    (first second : List ι) :
    run step start (first ++ second) =
      run step start first >>= fun middle => run step middle second := by
  induction first generalizing start with
  | nil => rfl
  | cons label labels inductionHypothesis =>
      rw [List.cons_append, run_cons, run_cons]
      cases step start label with
      | error stopped => rfl
      | ok next => simpa using inductionHypothesis next

theorem run_cons_eq_ok_iff
    {step : σ → ι → Except ε σ}
    {start finish : σ}
    {label : ι}
    {labels : List ι} :
    run step start (label :: labels) = .ok finish ↔
      ∃ next, step start label = .ok next ∧
        run step next labels = .ok finish := by
  rw [run_cons, bind_eq_ok_iff]

theorem run_append_eq_ok_iff
    {step : σ → ι → Except ε σ}
    {start finish : σ}
    {first second : List ι} :
    run step start (first ++ second) = .ok finish ↔
      ∃ middle, run step start first = .ok middle ∧
        run step middle second = .ok finish := by
  rw [run_append, bind_eq_ok_iff]

/-- The states some run from an initial state ends in. -/
def Reachable
    (step : σ → ι → Except ε σ)
    (initial : σ → Prop)
    (state : σ) : Prop :=
  ∃ start labels, initial start ∧ run step start labels = .ok state

/-- Two runs in a row whose results pass a check. -/
theorem exists_runs_of_returnsWith
    (step : σ → ι → Except ε σ)
    (start : σ)
    (first second : List ι)
    (check : σ × σ → Bool)
    (checked : returnsWith check
      (run step start first >>= fun middle =>
        (run step middle second).map fun finish => (middle, finish)) = true) :
    ∃ middle finish, run step start first = .ok middle ∧
      run step middle second = .ok finish ∧ check (middle, finish) = true :=
  exists_pair_of_returnsWith _ _ check checked

theorem Reachable.of_initial
    {step : σ → ι → Except ε σ}
    {initial : σ → Prop}
    {state : σ}
    (starts : initial state) :
    Reachable step initial state :=
  ⟨state, [], starts, rfl⟩

theorem Reachable.run
    {step : σ → ι → Except ε σ}
    {initial : σ → Prop}
    {state finish : σ}
    {labels : List ι}
    (reachable : Reachable step initial state)
    (runs : run step state labels = .ok finish) :
    Reachable step initial finish := by
  obtain ⟨start, earlier, starts, reaches⟩ := reachable
  exact ⟨start, earlier ++ labels, starts,
    run_append_eq_ok_iff.mpr ⟨state, reaches, runs⟩⟩

theorem Reachable.step
    {step : σ → ι → Except ε σ}
    {initial : σ → Prop}
    {state next : σ}
    {label : ι}
    (reachable : Reachable step initial state)
    (steps : step state label = .ok next) :
    Reachable step initial next := by
  have runs : Foundation.run step state [label] = .ok next :=
    run_cons_eq_ok_iff.mpr ⟨next, steps, rfl⟩
  exact reachable.run runs

/-- Run rule: an invariant every step preserves holds at the end of every run
that starts in it. -/
theorem run_invariant
    {step : σ → ι → Except ε σ}
    (invariant : σ → Prop)
    (preserved : ∀ state label next, invariant state →
      step state label = .ok next → invariant next)
    {start finish : σ}
    {labels : List ι}
    (initially : invariant start)
    (runs : run step start labels = .ok finish) :
    invariant finish := by
  induction labels generalizing start with
  | nil =>
      simp only [run_nil, Except.ok.injEq] at runs
      exact runs ▸ initially
  | cons label labels inductionHypothesis =>
      obtain ⟨next, steps, rest⟩ := run_cons_eq_ok_iff.mp runs
      exact inductionHypothesis (preserved start label next initially steps) rest

/-- Induction over the reachable states. -/
theorem Reachable.invariant
    {step : σ → ι → Except ε σ}
    {initial : σ → Prop}
    (invariant : σ → Prop)
    (starts : ∀ state, initial state → invariant state)
    (preserved : ∀ state label next, invariant state →
      step state label = .ok next → invariant next)
    {state : σ}
    (reachable : Reachable step initial state) :
    invariant state := by
  obtain ⟨start, labels, startsHere, runs⟩ := reachable
  exact run_invariant invariant preserved (starts start startsHere) runs

/-- Induction over the reachable states, where the state before a step is known
to be reachable. -/
theorem Reachable.induction
    {step : σ → ι → Except ε σ}
    {initial : σ → Prop}
    (invariant : σ → Prop)
    (starts : ∀ state, initial state → invariant state)
    (preserved : ∀ state label next, Reachable step initial state →
      invariant state → step state label = .ok next → invariant next)
    {state : σ}
    (reachable : Reachable step initial state) :
    invariant state := by
  have both := reachable.invariant
    (fun state => Reachable step initial state ∧ invariant state)
    (fun state starting => ⟨.of_initial starting, starts state starting⟩)
    (fun state label next holds steps =>
      ⟨holds.1.step steps, preserved state label next holds.1 holds.2 steps⟩)
  exact both.2

/-! ## Runs whose steps all meet a condition -/

/-- Every step of the run from `start` meets the condition at the state where
it is taken. -/
def Meets
    (step : σ → ι → Except ε σ)
    (condition : σ → ι → Prop)
    (start : σ) : List ι → Prop
  | [] => True
  | label :: labels =>
      condition start label ∧
        ∀ next, step start label = .ok next → Meets step condition next labels

@[simp] theorem meets_nil
    (step : σ → ι → Except ε σ)
    (condition : σ → ι → Prop)
    (start : σ) :
    Meets step condition start [] := trivial

theorem meets_cons_iff
    {step : σ → ι → Except ε σ}
    {condition : σ → ι → Prop}
    {start next : σ}
    {label : ι}
    {labels : List ι}
    (steps : step start label = .ok next) :
    Meets step condition start (label :: labels) ↔
      condition start label ∧ Meets step condition next labels := by
  constructor
  · rintro ⟨here, later⟩
    exact ⟨here, later next steps⟩
  · rintro ⟨here, later⟩
    refine ⟨here, fun next' steps' => ?_⟩
    rw [steps] at steps'
    exact Except.ok.inj steps' ▸ later

/-- Run rule under a condition: an invariant preserved by every step that
meets the condition holds at the end of every run whose steps all meet it. -/
theorem Meets.run_invariant
    {step : σ → ι → Except ε σ}
    {condition : σ → ι → Prop}
    (invariant : σ → Prop)
    (preserved : ∀ state label next, invariant state →
      condition state label → step state label = .ok next → invariant next)
    {start finish : σ}
    {labels : List ι}
    (meets : Meets step condition start labels)
    (initially : invariant start)
    (runs : run step start labels = .ok finish) :
    invariant finish := by
  induction labels generalizing start with
  | nil =>
      simp only [run_nil, Except.ok.injEq] at runs
      exact runs ▸ initially
  | cons label labels inductionHypothesis =>
      obtain ⟨next, steps, rest⟩ := run_cons_eq_ok_iff.mp runs
      exact inductionHypothesis (meets.2 next steps)
        (preserved start label next initially meets.1 steps) rest

/-- A condition that the labels alone ensure is met. -/
theorem Meets.of_forall
    {step : σ → ι → Except ε σ}
    {condition : σ → ι → Prop}
    {labels : List ι}
    (ensured : ∀ label ∈ labels, ∀ state, condition state label)
    (start : σ) :
    Meets step condition start labels := by
  induction labels generalizing start with
  | nil => trivial
  | cons label labels inductionHypothesis =>
      refine ⟨ensured label (List.mem_cons_self ..) start, fun next _ => ?_⟩
      apply inductionHypothesis
      intro other inside
      exact ensured other (List.mem_cons_of_mem _ inside)

/-- A weaker condition is met as well. -/
theorem Meets.mono
    {step : σ → ι → Except ε σ}
    {first second : σ → ι → Prop}
    {start : σ}
    {labels : List ι}
    (meets : Meets step first start labels)
    (weaker : ∀ state label, first state label → second state label) :
    Meets step second start labels := by
  induction labels generalizing start with
  | nil => trivial
  | cons label labels inductionHypothesis =>
      refine ⟨weaker start label meets.1, fun next steps => ?_⟩
      exact inductionHypothesis (meets.2 next steps)

/-- Two conditions met by every step are met together. -/
theorem Meets.and
    {step : σ → ι → Except ε σ}
    {first second : σ → ι → Prop}
    {start : σ}
    {labels : List ι}
    (meetsFirst : Meets step first start labels)
    (meetsSecond : Meets step second start labels) :
    Meets step (fun state label => first state label ∧ second state label)
      start labels := by
  induction labels generalizing start with
  | nil => trivial
  | cons label labels inductionHypothesis =>
      refine ⟨⟨meetsFirst.1, meetsSecond.1⟩, fun next steps => ?_⟩
      exact inductionHypothesis (meetsFirst.2 next steps)
        (meetsSecond.2 next steps)

/-- A condition met by every step holds of every prefix of the run. -/
theorem Meets.of_append
    {step : σ → ι → Except ε σ}
    {condition : σ → ι → Prop}
    {start middle : σ}
    {first second : List ι}
    (meets : Meets step condition start (first ++ second))
    (runs : run step start first = .ok middle) :
    Meets step condition start first ∧ Meets step condition middle second := by
  induction first generalizing start with
  | nil =>
      simp only [run_nil, Except.ok.injEq] at runs
      exact ⟨trivial, runs ▸ meets⟩
  | cons label labels inductionHypothesis =>
      obtain ⟨next, steps, rest⟩ := run_cons_eq_ok_iff.mp runs
      obtain ⟨earlier, later⟩ := inductionHypothesis (meets.2 next steps) rest
      exact ⟨(meets_cons_iff steps).mpr ⟨meets.1, earlier⟩, later⟩

/-- A condition that holds at every step of a run is met. -/
theorem Meets.of_steps
    {step : σ → ι → Except ε σ}
    {condition : σ → ι → Prop}
    {start finish : σ}
    {labels : List ι}
    (runs : run step start labels = .ok finish)
    (holds : ∀ done label later state next, labels = done ++ label :: later →
      run step start done = .ok state → step state label = .ok next →
        condition state label) :
    Meets step condition start labels := by
  induction labels generalizing start with
  | nil => trivial
  | cons label labels inductionHypothesis =>
      obtain ⟨next, steps, rest⟩ := run_cons_eq_ok_iff.mp runs
      refine (meets_cons_iff steps).mpr
        ⟨holds [] label labels start next rfl rfl steps, ?_⟩
      apply inductionHypothesis rest
      intro done other later state after split reaches
      apply holds (label :: done) other later state after (by rw [split]; rfl)
      exact run_cons_eq_ok_iff.mpr ⟨next, steps, reaches⟩

/-- The condition as a computation, for worked runs. -/
def meetsCheck
    (step : σ → ι → Except ε σ)
    (check : σ → ι → Bool)
    (start : σ) : List ι → Bool
  | [] => true
  | label :: labels =>
      check start label &&
        match step start label with
        | .ok next => meetsCheck step check next labels
        | .error _ => true

theorem Meets.of_check
    {step : σ → ι → Except ε σ}
    {condition : σ → ι → Prop}
    (check : σ → ι → Bool)
    (ensures : ∀ state label, check state label = true → condition state label)
    {start : σ}
    {labels : List ι}
    (checked : meetsCheck step check start labels = true) :
    Meets step condition start labels := by
  induction labels generalizing start with
  | nil => trivial
  | cons label labels inductionHypothesis =>
      rw [meetsCheck, Bool.and_eq_true] at checked
      refine ⟨ensures start label checked.1, fun next steps => ?_⟩
      apply inductionHypothesis
      have later := checked.2
      rw [steps] at later
      exact later

/-! ## Sums along a run -/

/-- The sum of what the steps of a run weigh. -/
def total
    (step : σ → ι → Except ε σ)
    (weight : σ → ι → Nat)
    (start : σ) : List ι → Nat
  | [] => 0
  | label :: labels =>
      match step start label with
      | .ok next => weight start label + total step weight next labels
      | .error _ => 0

theorem total_cons
    {step : σ → ι → Except ε σ}
    {weight : σ → ι → Nat}
    {start next : σ}
    {label : ι}
    {labels : List ι}
    (steps : step start label = .ok next) :
    total step weight start (label :: labels) =
      weight start label + total step weight next labels := by
  rw [total, steps]

/-! ## Simulations -/

/-- A map of states and labels that commutes with the step function commutes
with runs. -/
theorem run_map
    {step : σ → ι → Except ε σ}
    {step' : τ → κ → Except ε τ}
    (states : σ → τ)
    (labelling : ι → κ)
    (commutes : ∀ state label,
      step' (states state) (labelling label) =
        (step state label).map states)
    (start : σ)
    (labels : List ι) :
    run step' (states start) (labels.map labelling) =
      (run step start labels).map states := by
  induction labels generalizing start with
  | nil => rfl
  | cons label labels inductionHypothesis =>
      rw [List.map_cons, run_cons, run_cons, commutes]
      cases step start label with
      | error stopped => rfl
      | ok next => simpa using inductionHypothesis next

end Foundation
