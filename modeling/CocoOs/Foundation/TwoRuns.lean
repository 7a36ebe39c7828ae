import CocoOs.Foundation.Transition

/-!
# Two runs side by side

A relation between the states of two runs, carried through fallible
computations: both stop for the same reason, or both return related results.
For a system whose calls return values the transcript of a run lists what its
calls return.  When related states return equal values exactly where a
condition holds, two transcripts are equal exactly when every call of the run
meets the condition.
-/

namespace Foundation

universe u v

variable {α γ σ : Type u} {β δ τ : Type v} {ι ε ν : Type*}

/-! ## Related computations -/

/-- Both computations stop for the same reason, or both return and their
results are related. -/
inductive Related (relation : α → β → Prop) : Except ε α → Except ε β → Prop
  | stop (stopped : ε) : Related relation (.error stopped) (.error stopped)
  | value {first : α} {second : β} (related : relation first second) :
      Related relation (.ok first) (.ok second)

namespace Related

variable {relation : α → β → Prop}

/-- A computation is related to itself by a reflexive relation. -/
theorem of_eq
    {relation : α → α → Prop}
    {first second : Except ε α}
    (reflexive : ∀ value, relation value value)
    (same : first = second) :
    Related relation first second := by
  subst same
  cases first with
  | error stopped => exact .stop stopped
  | ok value => exact .value (reflexive value)

theorem mono
    {relation' : α → β → Prop}
    {first : Except ε α}
    {second : Except ε β}
    (related : Related relation first second)
    (weaker : ∀ value value', relation value value' → relation' value value') :
    Related relation' first second := by
  cases related with
  | stop stopped => exact .stop stopped
  | value related => exact .value (weaker _ _ related)

/-- What is known of the two results may be added to the relation. -/
theorem strengthen
    {relation' : α → β → Prop}
    {first : Except ε α}
    {second : Except ε β}
    (related : Related relation first second)
    (stronger : ∀ value value', first = .ok value → second = .ok value' →
      relation value value' → relation' value value') :
    Related relation' first second := by
  cases related with
  | stop stopped => exact .stop stopped
  | value related => exact .value (stronger _ _ rfl rfl related)

/-- Sequences of related computations are related. -/
theorem bind
    {relation' : γ → δ → Prop}
    {first : Except ε α}
    {second : Except ε β}
    {next : α → Except ε γ}
    {next' : β → Except ε δ}
    (related : Related relation first second)
    (continues : ∀ value value', relation value value' →
      Related relation' (next value) (next' value')) :
    Related relation' (first >>= next) (second >>= next') := by
  cases related with
  | stop stopped => exact .stop stopped
  | value related => exact continues _ _ related

theorem map
    {relation' : γ → δ → Prop}
    {first : Except ε α}
    {second : Except ε β}
    {observe : α → γ}
    {observe' : β → δ}
    (related : Related relation first second)
    (observes : ∀ value value', relation value value' →
      relation' (observe value) (observe' value')) :
    Related relation' (first.map observe) (second.map observe') := by
  cases related with
  | stop stopped => exact .stop stopped
  | value related => exact .value (observes _ _ related)

/-- Two computations under equivalent conditions. -/
theorem ite
    {condition condition' : Prop} [Decidable condition] [Decidable condition']
    {first other : Except ε α}
    {second other' : Except ε β}
    (same : condition ↔ condition')
    (holds : condition → Related relation first second)
    (fails : ¬ condition → Related relation other other') :
    Related relation (if condition then first else other)
      (if condition' then second else other') := by
  by_cases decided : condition
  · rw [if_pos decided, if_pos (same.mp decided)]
    exact holds decided
  · rw [if_neg decided, if_neg fun decided' => decided (same.mpr decided')]
    exact fails decided

/-- Two computations behind equivalent guards. -/
theorem guard
    {condition condition' : Prop} [Decidable condition] [Decidable condition']
    {first : Except ε α}
    {second : Except ε β}
    {stopped : ε}
    (same : condition ↔ condition')
    (holds : condition → Related relation first second) :
    Related relation (if condition then first else .error stopped)
      (if condition' then second else .error stopped) :=
  ite same holds fun _ => .stop stopped

/-- Loops whose bodies keep states related are related. -/
theorem forRange
    {relation : σ → τ → Prop}
    {body : Nat → σ → Except ε σ}
    {body' : Nat → τ → Except ε τ}
    {count : Nat}
    {start : σ}
    {start' : τ}
    (initially : relation start start')
    (advances : ∀ index state state', index < count → relation state state' →
      Related relation (body index state) (body' index state')) :
    Related relation (Foundation.forRange count body start)
      (Foundation.forRange count body' start') := by
  induction count with
  | zero => exact .value initially
  | succ prior inductionHypothesis =>
      rw [forRange_succ, forRange_succ]
      apply bind (inductionHypothesis fun index state state' before =>
        advances index state state' (Nat.lt_succ_of_lt before))
      exact fun state state' => advances prior state state' (Nat.lt_succ_self prior)

/-- Runs are related when their steps keep states related under a condition that
the second run meets. -/
theorem run_of_meets
    {relation : σ → τ → Prop}
    {condition : τ → ι → Prop}
    {step : σ → ι → Except ε σ}
    {step' : τ → ι → Except ε τ}
    (advances : ∀ state state' label, relation state state' →
      condition state' label →
      Related relation (step state label) (step' state' label))
    {start : σ}
    {start' : τ}
    (initially : relation start start')
    {labels : List ι}
    (meets : Meets step' condition start' labels) :
    Related relation (Foundation.run step start labels)
      (Foundation.run step' start' labels) := by
  induction labels generalizing start start' with
  | nil => exact .value initially
  | cons label labels inductionHypothesis =>
      obtain ⟨allowed, later⟩ := meets
      have stepped : Related
          (fun next next' => relation next next' ∧ Meets step' condition next' labels)
          (step start label) (step' start' label) :=
        (advances start start' label initially allowed).strengthen
          fun next next' _ steps' related => ⟨related, later next' steps'⟩
      exact stepped.bind fun next next' both => inductionHypothesis both.1 both.2

/-- Runs whose steps keep states related are related. -/
theorem run
    {relation : σ → τ → Prop}
    {step : σ → ι → Except ε σ}
    {step' : τ → ι → Except ε τ}
    (advances : ∀ state state' label, relation state state' →
      Related relation (step state label) (step' state' label))
    {start : σ}
    {start' : τ}
    (initially : relation start start')
    (labels : List ι) :
    Related relation (Foundation.run step start labels)
      (Foundation.run step' start' labels) := by
  have always : Meets step' (fun _ _ => True) start' labels :=
    .of_forall (fun _ _ _ => trivial) start'
  exact run_of_meets (fun state state' label related _ =>
    advances state state' label related) initially always

end Related

/-- Loops that cannot stop are equal when their bodies agree below the count. -/
theorem forEach_congr
    {body body' : Nat → σ → σ}
    {count : Nat}
    (state : σ)
    (agree : ∀ index, index < count → body index = body' index) :
    forEach count body state = forEach count body' state := by
  induction count with
  | zero => rfl
  | succ prior inductionHypothesis =>
      rw [forEach_succ, forEach_succ, agree prior (Nat.lt_succ_self prior),
        inductionHypothesis fun index before =>
          agree index (Nat.lt_succ_of_lt before)]

/-! ## Transcripts -/

/-- Two answers have the same value, and leave related states. -/
def Alike (relation : σ → τ → Prop) (answer : ν × σ) (answer' : ν × τ) : Prop :=
  answer.1 = answer'.1 ∧ relation answer.2 answer'.2

/-- The state a call leaves, without the value it returns. -/
def follow
    (call : σ → ι → Except ε (ν × σ))
    (state : σ)
    (label : ι) : Except ε σ :=
  (call state label).map Prod.snd

/-- What the calls of a run return, up to the first that stops. -/
def transcript
    (call : σ → ι → Except ε (ν × σ))
    (start : σ) : List ι → List (Except ε ν)
  | [] => []
  | label :: labels =>
      match call start label with
      | .error stopped => [.error stopped]
      | .ok (value, next) => .ok value :: transcript call next labels

/-- When related states answer alike in every valid call that meets the
condition, and with different values in every other valid call, the transcripts of a
run of valid calls from related states are equal exactly when every call of the
run meets the condition. -/
theorem transcript_eq_iff
    {call : σ → ι → Except ε (ν × σ)}
    {relation : σ → σ → Prop}
    {valid condition : σ → ι → Prop}
    (agree : ∀ state state' label, relation state state' → valid state label →
      condition state label →
        Related (Alike relation) (call state label) (call state' label))
    (differ : ∀ state state' label, relation state state' →
      valid state label → ¬ condition state label →
        ∃ value value' next next', call state label = .ok (value, next) ∧
          call state' label = .ok (value', next') ∧ value ≠ value')
    {start start' : σ}
    {labels : List ι}
    (related : relation start start')
    (meetsValid : Meets (follow call) valid start labels) :
    transcript call start labels = transcript call start' labels ↔
      Meets (follow call) condition start labels := by
  induction labels generalizing start start' with
  | nil => simp [transcript]
  | cons label labels inductionHypothesis =>
      by_cases decided : condition start label
      · have answers := agree start start' label related meetsValid.1 decided
        unfold transcript
        generalize first : call start label = answer at answers
        generalize second : call start' label = answer' at answers
        cases answers with
        | stop stopped =>
            refine iff_of_true rfl ⟨decided, fun next steps => ?_⟩
            simp [follow, first] at steps
        | @value answer answer' same =>
            obtain ⟨value, next⟩ := answer
            obtain ⟨value', next'⟩ := answer'
            obtain ⟨rfl, relatedNext⟩ := same
            have steps : follow call start label = .ok next := by
              simp [follow, first]
            rw [meets_cons_iff steps]
            simp only [List.cons.injEq, true_and, decided]
            exact inductionHypothesis relatedNext (meetsValid.2 next steps)
      · obtain ⟨value, value', next, next', first, second, different⟩ :=
          differ start start' label related meetsValid.1 decided
        unfold transcript
        rw [first, second]
        refine iff_of_false (fun same => different ?_) fun meets => decided meets.1
        simp only [List.cons.injEq, Except.ok.injEq] at same
        exact same.1

end Foundation
