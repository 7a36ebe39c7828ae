import Mathlib.Logic.Function.Basic
import Mathlib.Data.Nat.Notation

/-!
# Fallible computations and counting loops

A computation that may stop before it returns is an `Except` value.  This
module inverts sequencing and gives the invariant and totality rules of the
counting loop `for (i = 0; i != count; ++i)`, in a form that stops with the
body and in a form that cannot stop.
-/

namespace Foundation

/-- A sequence of two computations returns exactly when both return. -/
theorem bind_eq_ok_iff
    {computation : Except ε α}
    {next : α → Except ε β}
    {result : β} :
    (computation >>= next) = .ok result ↔
      ∃ value, computation = .ok value ∧ next value = .ok result := by
  cases computation with
  | error stopped => simp [bind, Except.bind]
  | ok value => simp [bind, Except.bind]

@[simp] theorem ok_bind
    (value : α)
    (next : α → Except ε β) :
    ((.ok value : Except ε α) >>= next) = next value := rfl

@[simp] theorem error_bind
    (stopped : ε)
    (next : α → Except ε β) :
    ((.error stopped : Except ε α) >>= next) = .error stopped := rfl

@[simp] theorem bind_ok
    (computation : Except ε α) :
    computation >>= Except.ok = computation := by
  cases computation <;> rfl

@[simp] theorem ok_map
    (value : α)
    (observe : α → β) :
    (.ok value : Except ε α).map observe = .ok (observe value) := rfl

@[simp] theorem error_map
    (stopped : ε)
    (observe : α → β) :
    (.error stopped : Except ε α).map observe = .error stopped := rfl

theorem map_eq_ok_iff
    {computation : Except ε α}
    {observe : α → β}
    {result : β} :
    computation.map observe = .ok result ↔
      ∃ value, computation = .ok value ∧ observe value = result := by
  cases computation <;> simp

/-- Sequencing after an observed computation. -/
theorem mapped_bind
    (computation : Except ε α)
    (observe : α → β)
    (next : β → Except ε γ) :
    computation.map observe >>= next =
      computation >>= fun value => next (observe value) := by
  cases computation <;> rfl

/-- Observing a sequence is observing its last computation. -/
theorem bind_mapped
    (computation : Except ε α)
    (next : α → Except ε β)
    (observe : β → γ) :
    (computation >>= next).map observe =
      computation >>= fun value => (next value).map observe := by
  cases computation <;> rfl

theorem map_mapped
    (computation : Except ε α)
    (first : α → β)
    (second : β → γ) :
    (computation.map first).map second =
      computation.map fun value => second (first value) := by
  cases computation <;> rfl

/-- A guarded computation returns only when its guard holds. -/
theorem guard_eq_ok_iff
    {guard : Prop} [Decidable guard]
    {stopped : ε}
    {computation : Except ε α}
    {result : α} :
    (if guard then computation else .error stopped) = .ok result ↔
      guard ∧ computation = .ok result := by
  by_cases holds : guard <;> simp [holds]

/-- A computation known to return has a result. -/
theorem exists_of_isOk
    (computation : Except ε α)
    (returns : computation.isOk = true) :
    ∃ result, computation = .ok result := by
  cases computation with
  | error stopped => simp [Except.isOk, Except.toBool] at returns
  | ok result => exact ⟨result, rfl⟩

/-- The computation returns, and its result passes a check. -/
def returnsWith (check : α → Bool) : Except ε α → Bool
  | .ok result => check result
  | .error _ => false

theorem exists_of_returnsWith
    (check : α → Bool)
    (computation : Except ε α)
    (checked : returnsWith check computation = true) :
    ∃ result, computation = .ok result ∧ check result = true := by
  cases computation with
  | error stopped => simp [returnsWith] at checked
  | ok result => exact ⟨result, rfl, checked⟩

/-- Two computations in a row whose results pass a check. -/
theorem exists_pair_of_returnsWith
    {α γ : Type*}
    (first : Except ε α)
    (second : α → Except ε γ)
    (check : α × γ → Bool)
    (checked : returnsWith check
      (first.bind fun value =>
        (second value).map fun result => (value, result)) = true) :
    ∃ value result, first = .ok value ∧ second value = .ok result ∧
      check (value, result) = true := by
  cases first with
  | error stopped => simp [Except.bind, returnsWith] at checked
  | ok value =>
      refine ⟨value, ?_⟩
      cases answer : second value with
      | error stopped =>
          simp [Except.bind, Except.map, answer, returnsWith] at checked
      | ok result =>
          simp only [Except.bind, Except.map, answer, returnsWith] at checked
          exact ⟨result, rfl, rfl, checked⟩

/-! ## Counting loops that may stop -/

/-- `for (i = 0; i != count; ++i)` over a body that may stop. -/
def forRange
    (count : Nat)
    (body : Nat → σ → Except ε σ)
    (state : σ) : Except ε σ :=
  match count with
  | 0 => .ok state
  | prior + 1 => forRange prior body state >>= body prior

@[simp] theorem forRange_zero
    (body : Nat → σ → Except ε σ)
    (state : σ) :
    forRange 0 body state = .ok state := rfl

theorem forRange_succ
    (count : Nat)
    (body : Nat → σ → Except ε σ)
    (state : σ) :
    forRange (count + 1) body state =
      forRange count body state >>= body count := rfl

/-- Invariant rule: what holds before the loop and is advanced by each
iteration holds after the loop. -/
theorem forRange_invariant
    {body : Nat → σ → Except ε σ}
    (invariant : Nat → σ → Prop)
    {start finish : σ}
    (initially : invariant 0 start)
    (advances : ∀ index state state', index < count →
      invariant index state → body index state = .ok state' →
        invariant (index + 1) state')
    (returns : forRange count body start = .ok finish) :
    invariant count finish := by
  induction count generalizing finish with
  | zero =>
      simp only [forRange_zero, Except.ok.injEq] at returns
      exact returns ▸ initially
  | succ prior inductionHypothesis =>
      rw [forRange_succ, bind_eq_ok_iff] at returns
      obtain ⟨middle, priorReturns, lastReturns⟩ := returns
      have holds := inductionHypothesis
        (fun index state state' before =>
          advances index state state' (Nat.lt_succ_of_lt before))
        priorReturns
      exact advances prior middle finish (Nat.lt_succ_self prior)
        holds lastReturns

/-- Totality rule: when the invariant makes every iteration return, the loop
returns. -/
theorem forRange_returns
    {body : Nat → σ → Except ε σ}
    (invariant : Nat → σ → Prop)
    {start : σ}
    (initially : invariant 0 start)
    (advances : ∀ index state, index < count → invariant index state →
      ∃ state', body index state = .ok state' ∧
        invariant (index + 1) state') :
    ∃ finish, forRange count body start = .ok finish ∧
      invariant count finish := by
  induction count with
  | zero => exact ⟨start, rfl, initially⟩
  | succ prior inductionHypothesis =>
      obtain ⟨middle, priorReturns, holds⟩ := inductionHypothesis
        fun index state before =>
          advances index state (Nat.lt_succ_of_lt before)
      obtain ⟨finish, lastReturns, after⟩ :=
        advances prior middle (Nat.lt_succ_self prior) holds
      exact ⟨finish, by rw [forRange_succ, priorReturns, ok_bind, lastReturns],
        after⟩

/-- A map of states that commutes with the body commutes with the loop. -/
theorem forRange_map
    {σ τ : Type u}
    {body : Nat → σ → Except ε σ}
    {body' : Nat → τ → Except ε τ}
    (states : σ → τ)
    (commutes : ∀ index state,
      body' index (states state) = (body index state).map states)
    (count : Nat)
    (start : σ) :
    forRange count body' (states start) =
      (forRange count body start).map states := by
  induction count with
  | zero => rfl
  | succ prior inductionHypothesis =>
      rw [forRange_succ, forRange_succ, inductionHypothesis, mapped_bind,
        bind_mapped]
      congr 1
      funext state
      exact commutes prior state

/-! ## Counting loops that cannot stop -/

/-- `for (i = 0; i != count; ++i)` over a body that always returns. -/
def forEach
    (count : Nat)
    (body : Nat → σ → σ)
    (state : σ) : σ :=
  match count with
  | 0 => state
  | prior + 1 => body prior (forEach prior body state)

@[simp] theorem forEach_zero
    (body : Nat → σ → σ)
    (state : σ) :
    forEach 0 body state = state := rfl

theorem forEach_succ
    (count : Nat)
    (body : Nat → σ → σ)
    (state : σ) :
    forEach (count + 1) body state = body count (forEach count body state) :=
  rfl

/-- Invariant rule of the loop that cannot stop. -/
theorem forEach_invariant
    {body : Nat → σ → σ}
    (invariant : Nat → σ → Prop)
    {start : σ}
    (initially : invariant 0 start)
    (advances : ∀ index state, index < count → invariant index state →
      invariant (index + 1) (body index state)) :
    invariant count (forEach count body start) := by
  induction count with
  | zero => exact initially
  | succ prior inductionHypothesis =>
      rw [forEach_succ]
      exact advances prior _ (Nat.lt_succ_self prior)
        (inductionHypothesis fun index state before =>
          advances index state (Nat.lt_succ_of_lt before))

/-- A loop that rewrites entry `i` of an array in iteration `i` rewrites every
entry below its bound once. -/
theorem forEach_update_apply
    (count : Nat)
    (rewrite : Nat → α → α)
    (array : Nat → α)
    (entry : Nat) :
    forEach count
        (fun index current =>
          Function.update current index (rewrite index (current index)))
        array entry =
      if entry < count then rewrite entry (array entry) else array entry := by
  induction count with
  | zero => simp
  | succ prior inductionHypothesis =>
      rw [forEach_succ]
      by_cases same : entry = prior
      · subst same
        simp [inductionHypothesis]
      · rw [Function.update_of_ne same, inductionHypothesis]
        have shifted : entry < prior + 1 ↔ entry < prior := by omega
        simp only [shifted]

end Foundation
