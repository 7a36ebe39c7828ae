import CocoOs.Foundation.Outcome
import Mathlib.Order.Lattice

/-!
# Scans for a least key

The loop that walks a table and keeps the first entry with the least key among
those it selects, starting from a bound and a sentinel.  An entry is found
exactly when some selected key is below the bound.
-/

namespace Foundation.Scan

variable {κ : Type*} [LinearOrder κ]

/-- One iteration, on the least key and its index so far. -/
def scanStep
    (selects : Nat → Prop) [DecidablePred selects]
    (key : Nat → κ)
    (index : Nat)
    (found : κ × Nat) : κ × Nat :=
  if selects index then
    if key index < found.1 then (key index, index) else found
  else found

/-- What the scan of the first `count` entries has found. -/
inductive Found
    (selects : Nat → Prop)
    (key : Nat → κ)
    (bound : κ)
    (sentinel count : Nat) : κ × Nat → Prop
  | none
      (noneBelow : ∀ index, index < count → selects index →
        bound ≤ key index) :
      Found selects key bound sentinel count (bound, sentinel)
  | least
      (index : Nat)
      (inside : index < count)
      (selected : selects index)
      (below : key index < bound)
      (least : ∀ other, other < count → selects other →
        key index ≤ key other) :
      Found selects key bound sentinel count (key index, index)

/-- The scan finds the least selected key below the bound, if there is one. -/
theorem found_forEach
    (selects : Nat → Prop) [DecidablePred selects]
    (key : Nat → κ)
    (bound : κ)
    (sentinel count : Nat) :
    Found selects key bound sentinel count
      (forEach count (scanStep selects key) (bound, sentinel)) := by
  apply forEach_invariant fun count =>
    Found selects key bound sentinel count
  · exact .none fun index inside => absurd inside (Nat.not_lt_zero index)
  · intro next found _ holds
    -- the new entry either replaces the least one so far or is not below it
    have extend : ∀ {threshold : κ},
        (∀ index, index < next → selects index → threshold ≤ key index) →
        (selects next → threshold ≤ key next) →
        ∀ index, index < next + 1 → selects index → threshold ≤ key index := by
      intro threshold earlier last index inside selected
      rcases Nat.lt_succ_iff_lt_or_eq.mp inside with before | same
      · exact earlier index before selected
      · subst same
        exact last selected
    unfold scanStep
    cases holds with
    | none noneBelow =>
        split_ifs with selected below
        · exact .least next (Nat.lt_succ_self next) selected below
            (extend (fun index before chosen =>
              below.le.trans (noneBelow index before chosen)) fun _ => le_rfl)
        · exact .none (extend noneBelow fun _ => not_lt.mp below)
        · exact .none (extend noneBelow fun chosen => absurd chosen selected)
    | least index inside chosen belowBound least =>
        split_ifs with selected below
        · exact .least next (Nat.lt_succ_self next) selected
            (below.trans belowBound)
            (extend (fun other before otherChosen =>
              below.le.trans (least other before otherChosen)) fun _ => le_rfl)
        · exact .least index (Nat.lt_succ_of_lt inside) chosen belowBound
            (extend least fun _ => not_lt.mp below)
        · exact .least index (Nat.lt_succ_of_lt inside) chosen belowBound
            (extend least fun chosen => absurd chosen selected)

end Foundation.Scan
