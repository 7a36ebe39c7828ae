import Mathlib.Tactic.TypeStar
import Mathlib.Data.List.Dedup
import Mathlib.Data.List.Perm.Basic

/-!
# Folds of effects that commute

When the effects of a list commute and repeating one adds nothing, the fold
depends only on which effects occur in the list.
-/

namespace Foundation

variable {σ α : Type*} {effect : σ → α → σ} {list list' : List α}

/-- An effect that occurs later may be left out now. -/
theorem foldl_absorb
    {element : α}
    (commutes : ∀ state, ∀ first ∈ list, ∀ second ∈ list,
      effect (effect state first) second = effect (effect state second) first)
    (absorbs : ∀ state, ∀ element ∈ list,
      effect (effect state element) element = effect state element)
    (inside : element ∈ list)
    (state : σ) :
    list.foldl effect (effect state element) = list.foldl effect state := by
  obtain ⟨earlier, later, rfl⟩ := List.append_of_mem inside
  have toFront : ∀ start, (earlier ++ element :: later).foldl effect start =
      (element :: (earlier ++ later)).foldl effect start :=
    fun start => List.perm_middle.foldl_eq'
      (fun first firstInside second secondInside state =>
        commutes state first firstInside second secondInside) start
  rw [toFront, toFront, List.foldl_cons, List.foldl_cons,
    absorbs state element inside]

variable [DecidableEq α]

/-- Repeated effects may be left out. -/
theorem foldl_dedup
    (commutes : ∀ state, ∀ first ∈ list, ∀ second ∈ list,
      effect (effect state first) second = effect (effect state second) first)
    (absorbs : ∀ state, ∀ element ∈ list,
      effect (effect state element) element = effect state element)
    (state : σ) :
    list.dedup.foldl effect state = list.foldl effect state := by
  induction list generalizing state with
  | nil => rfl
  | cons head tail inductionHypothesis =>
      have commutesTail : ∀ state, ∀ first ∈ tail, ∀ second ∈ tail,
          effect (effect state first) second =
            effect (effect state second) first :=
        fun state first firstInside second secondInside =>
          commutes state first (List.mem_cons_of_mem _ firstInside) second
            (List.mem_cons_of_mem _ secondInside)
      have absorbsTail : ∀ state, ∀ element ∈ tail,
          effect (effect state element) element = effect state element :=
        fun state element inside =>
          absorbs state element (List.mem_cons_of_mem _ inside)
      by_cases again : head ∈ tail
      · rw [List.dedup_cons_of_mem again, List.foldl_cons,
          foldl_absorb commutesTail absorbsTail again]
        exact inductionHypothesis commutesTail absorbsTail state
      · rw [List.dedup_cons_of_notMem again, List.foldl_cons, List.foldl_cons]
        exact inductionHypothesis commutesTail absorbsTail _

/-- Lists of the same effects have the same fold. -/
theorem foldl_eq_of_mem_iff
    (commutes : ∀ state, ∀ first ∈ list, ∀ second ∈ list,
      effect (effect state first) second = effect (effect state second) first)
    (absorbs : ∀ state, ∀ element ∈ list,
      effect (effect state element) element = effect state element)
    (same : ∀ element, element ∈ list ↔ element ∈ list')
    (state : σ) :
    list.foldl effect state = list'.foldl effect state := by
  have perm : list.dedup.Perm list'.dedup := by
    rw [List.perm_ext_iff_of_nodup (List.nodup_dedup list)
      (List.nodup_dedup list')]
    simpa using same
  rw [← foldl_dedup commutes absorbs, ← foldl_dedup
    (fun state first firstInside second secondInside =>
      commutes state first ((same first).mpr firstInside) second
        ((same second).mpr secondInside))
    (fun state element inside => absorbs state element ((same element).mpr inside))]
  apply perm.foldl_eq'
  intro first firstInside second secondInside start
  exact commutes start first (List.mem_dedup.mp firstInside) second
    (List.mem_dedup.mp secondInside)

end Foundation
