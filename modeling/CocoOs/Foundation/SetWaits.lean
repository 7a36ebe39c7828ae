import Mathlib.Order.BooleanAlgebra.Set

/-!
# Waiting for the events of a set

A wait for any of several events, or for all of them, and the signals that end
it.  A wait for all that is not ended yet goes on with the events that are left.
-/

namespace Foundation.SetWaits

variable {ι : Type*}

/-- The signals end a wait for the events: for any of them when one of them is
signalled, for all when all are. -/
def Ends (signalled events : Set ι) (all : Bool) : Prop :=
  (events ∩ signalled).Nonempty ∧ (all = true → events ⊆ signalled)

theorem ends_all_iff (signalled events : Set ι) :
    Ends signalled events true ↔ events.Nonempty ∧ events ⊆ signalled := by
  constructor
  · rintro ⟨some, whole⟩
    exact ⟨some.mono Set.inter_subset_left, whole rfl⟩
  · rintro ⟨⟨event, inside⟩, whole⟩
    exact ⟨⟨event, inside, whole inside⟩, fun _ => whole⟩

theorem ends_any_iff (signalled events : Set ι) :
    Ends signalled events false ↔ (events ∩ signalled).Nonempty :=
  and_iff_left fun wrong => absurd wrong (by decide)

/-- What is left of a wait ends with the signals that complete it. -/
theorem ends_sdiff_iff
    {first second events : Set ι} {all : Bool}
    (notYet : ¬ Ends first events all) :
    Ends second (events \ first) all ↔ Ends (first ∪ second) events all := by
  cases all with
  | true =>
      rw [ends_all_iff] at notYet
      rw [ends_all_iff, ends_all_iff]
      constructor
      · rintro ⟨some, whole⟩
        refine ⟨some.mono Set.sdiff_subset, fun event inside => ?_⟩
        by_cases isFirst : event ∈ first
        · exact .inl isFirst
        · exact .inr (whole ⟨inside, isFirst⟩)
      · rintro ⟨some, whole⟩
        obtain ⟨event, inside, notFirst⟩ :=
          Set.not_subset.mp fun subset => notYet ⟨some, subset⟩
        exact ⟨⟨event, inside, notFirst⟩, fun event inside =>
          (whole inside.1).resolve_left inside.2⟩
  | false =>
      rw [ends_any_iff] at notYet
      rw [ends_any_iff, ends_any_iff]
      constructor
      · rintro ⟨event, inside, isSecond⟩
        exact ⟨event, inside.1, .inr isSecond⟩
      · rintro ⟨event, inside, isFirst | isSecond⟩
        · exact absurd ⟨event, inside, isFirst⟩ notYet
        · exact ⟨event, ⟨inside, fun isFirst => notYet ⟨event, inside, isFirst⟩⟩,
            isSecond⟩

end Foundation.SetWaits
