import Mathlib.Logic.Function.Basic
import Mathlib.Data.List.Basic
import Mathlib.Data.Nat.ModEq

/-!
# Ring buffers with one unused slot

A ring of `size` slots keeps a list between two indices: the first item is in
the slot after `tail`, and `head` is the slot the next item goes to.  One slot
stays unused, so `head = tail` means that the ring is full.  `Represents`
relates the slots and the two indices to the list; the lemmas below carry it
through appending at the head, dropping at the tail and replacing an item in
place.
-/

namespace Foundation.Ring

variable {α : Type*}

/-- The ring with these slots and indices holds exactly these items. -/
structure Represents
    (size : Nat)
    (slots : Nat → α)
    (tail head : Nat)
    (items : List α) : Prop where
  tail_lt : tail < size
  fits : items.length < size
  head_eq : head = (tail + 1 + items.length) % size
  slot_eq : ∀ position (inside : position < items.length),
    slots ((tail + 1 + position) % size) = items[position]

/-- An index below twice the size wraps at most once. -/
theorem mod_eq_ite
    {index size : Nat}
    (below : index < 2 * size) :
    index % size = if index < size then index else index - size := by
  by_cases inside : index < size
  · simp [inside, Nat.mod_eq_of_lt inside]
  · rw [if_neg inside, Nat.mod_eq_sub_mod (by omega), Nat.mod_eq_of_lt (by omega)]

/-- Different positions after the tail are different slots. -/
theorem slot_injective
    {size tail left right : Nat}
    (left_lt : left < size)
    (right_lt : right < size)
    (same : (tail + 1 + left) % size = (tail + 1 + right) % size) :
    left = right := by
  have congruent : left ≡ right [MOD size] :=
    Nat.ModEq.add_left_cancel' (tail + 1) same
  exact Nat.ModEq.eq_of_lt_of_lt congruent left_lt right_lt

/-- Advancing an index before or after wrapping it is the same. -/
theorem advance_mod (base offset size : Nat) :
    ((base + offset) % size + 1) % size = (base + (offset + 1)) % size := by
  rw [Nat.mod_add_mod, Nat.add_assoc]

/-- A position whose slot is not that of the end lies before the end. -/
theorem lt_of_slot_ne
    {size tail position count : Nat}
    (upTo : position ≤ count)
    (apart : (tail + 1 + position) % size ≠ (tail + 1 + count) % size) :
    position < count := by
  rcases Nat.lt_or_eq_of_le upTo with ahead | last
  · exact ahead
  · exact absurd (by rw [last]) apart

/-- A walk of the ring: its slots are inside the ring, and there are at most so
many of them. -/
structure Walk (size bound : Nat) (slots : List Nat) : Prop where
  inside : ∀ slot ∈ slots, slot < size
  length_le : slots.length ≤ bound

theorem Walk.nil (size bound : Nat) : Walk size bound [] :=
  ⟨by simp, Nat.zero_le bound⟩

theorem Walk.cons
    {size bound slot : Nat} {slots : List Nat}
    (inside : slot < size)
    (rest : Walk size bound slots) :
    Walk size (bound + 1) (slot :: slots) := by
  refine ⟨fun other visited => ?_, Nat.succ_le_succ rest.length_le⟩
  rcases List.mem_cons.mp visited with rfl | later
  · exact inside
  · exact rest.inside other later

theorem Walk.single
    {size bound slot : Nat}
    (inside : slot < size)
    (positive : 0 < bound) :
    Walk size bound [slot] := by
  obtain ⟨prior, rfl⟩ := Nat.exists_eq_succ_of_ne_zero (Nat.ne_of_gt positive)
  exact .cons inside (.nil size prior)

namespace Represents

variable {size tail head : Nat} {slots : Nat → α} {item : α} {items : List α}

theorem size_pos
    (represents : Represents size slots tail head items) : 0 < size :=
  Nat.zero_lt_of_lt represents.tail_lt

theorem head_lt
    (represents : Represents size slots tail head items) : head < size := by
  rw [represents.head_eq]
  exact Nat.mod_lt _ represents.size_pos

/-- The head meets the tail exactly when only the unused slot is left. -/
theorem full_iff
    (represents : Represents size slots tail head items) :
    head = tail ↔ items.length + 1 = size := by
  have tail_lt := represents.tail_lt
  have fits := represents.fits
  rw [represents.head_eq, mod_eq_ite (by omega)]
  split <;> omega

/-- The head is the slot after the tail exactly when the ring is empty. -/
theorem empty_iff
    (represents : Represents size slots tail head items) :
    (tail + 1) % size = head ↔ items = [] := by
  have tail_lt := represents.tail_lt
  have fits := represents.fits
  rw [represents.head_eq, mod_eq_ite (by omega), mod_eq_ite (by omega),
    ← List.length_eq_zero_iff]
  split <;> split <;> omega

/-- A ring with the head right after the tail is empty. -/
theorem nil
    (slots : Nat → α)
    (tail_lt : tail < size) :
    Represents size slots tail ((tail + 1) % size) [] where
  tail_lt := tail_lt
  fits := Nat.zero_lt_of_lt tail_lt
  head_eq := rfl
  slot_eq := by
    intro position inside
    simp at inside

/-- Writing the head slot and advancing the head appends an item. -/
theorem append
    (represents : Represents size slots tail head items)
    (room : items.length + 1 < size)
    (item : α) :
    Represents size (Function.update slots head item) tail
      ((head + 1) % size) (items ++ [item]) where
  tail_lt := represents.tail_lt
  fits := by simpa using room
  head_eq := by
    rw [represents.head_eq, advance_mod, List.length_append]
    rfl
  slot_eq := by
    intro position inside
    rw [List.length_append, List.length_singleton] at inside
    by_cases old : position < items.length
    · have different : (tail + 1 + position) % size ≠ head := by
        rw [represents.head_eq]
        intro same
        have equal := slot_injective (by omega)
          represents.fits same
        omega
      rw [Function.update_of_ne different, represents.slot_eq position old,
        List.getElem_append_left old]
    · have last : position = items.length := by omega
      subst last
      rw [← represents.head_eq, Function.update_self,
        List.getElem_append_right (Nat.le_refl _)]
      simp

/-- The first item is in the slot after the tail. -/
theorem front
    (represents : Represents size slots tail head (item :: items)) :
    slots ((tail + 1) % size) = item :=
  represents.slot_eq 0 (by simp)

/-- Advancing the tail drops the first item. -/
theorem drop
    (represents : Represents size slots tail head (item :: items)) :
    Represents size slots ((tail + 1) % size) head items where
  tail_lt := Nat.mod_lt _ represents.size_pos
  fits := by
    have fits := represents.fits
    rw [List.length_cons] at fits
    omega
  head_eq := by
    rw [represents.head_eq, List.length_cons,
      Nat.add_assoc ((tail + 1) % size), Nat.mod_add_mod]
    congr 1
    omega
  slot_eq := by
    intro position inside
    have shifted : ((tail + 1) % size + 1 + position) % size =
        (tail + 1 + (position + 1)) % size := by
      rw [Nat.add_assoc, Nat.mod_add_mod]
      congr 1
      omega
    rw [shifted, represents.slot_eq (position + 1) (by simpa using inside)]
    simp

/-- Writing an occupied slot replaces its item. -/
theorem set
    (represents : Represents size slots tail head items)
    (position : Nat)
    (inside : position < items.length)
    (item : α) :
    Represents size
      (Function.update slots ((tail + 1 + position) % size) item)
      tail head (items.set position item) := by
  have fits := represents.fits
  refine ⟨represents.tail_lt, by simpa using fits, ?_, ?_⟩
  · simpa using represents.head_eq
  · intro other otherInside
    rw [List.length_set] at otherInside
    by_cases same : other = position
    · subst same
      simp
    · have different : (tail + 1 + other) % size ≠
          (tail + 1 + position) % size := by
        intro equal
        exact same (slot_injective (by omega) (by omega)
          equal)
      rw [Function.update_of_ne different, represents.slot_eq other otherInside,
        List.getElem_set_ne (Ne.symm same)]

/-- The slots and indices determine the items. -/
theorem unique
    {other : List α}
    (represents : Represents size slots tail head items)
    (representsOther : Represents size slots tail head other) :
    items = other := by
  have sameLength : items.length = other.length := by
    apply slot_injective represents.fits representsOther.fits
    rw [← represents.head_eq, ← representsOther.head_eq]
  apply List.ext_getElem sameLength
  intro position inside otherInside
  rw [← represents.slot_eq position inside,
    ← representsOther.slot_eq position otherInside]

end Represents

/-! ## Reading the items back -/

/-- Number of occupied slots. -/
def count (size tail head : Nat) : Nat :=
  (head + size - tail - 1) % size

/-- The items between the tail and the head, first to last. -/
def contents
    (size : Nat)
    (slots : Nat → α)
    (tail head : Nat) : List α :=
  (List.range (count size tail head)).map fun position =>
    slots ((tail + 1 + position) % size)

/-- A ring whose indices are in range represents its contents. -/
theorem represents_contents
    {size tail head : Nat}
    {slots : Nat → α}
    (tail_lt : tail < size)
    (head_lt : head < size) :
    Represents size slots tail head (contents size slots tail head) where
  tail_lt := tail_lt
  fits := by
    simpa [contents, count] using Nat.mod_lt _ (Nat.zero_lt_of_lt tail_lt)
  head_eq := by
    simp only [contents, count, List.length_map, List.length_range]
    rw [Nat.add_mod_mod]
    have total : tail + 1 + (head + size - tail - 1) = head + size := by omega
    rw [total, Nat.add_mod_right, Nat.mod_eq_of_lt head_lt]
  slot_eq := by
    intro position inside
    simp [contents]

/-- What a ring represents is its contents. -/
theorem Represents.eq_contents
    {size tail head : Nat}
    {slots : Nat → α}
    {items : List α}
    (represents : Represents size slots tail head items) :
    contents size slots tail head = items :=
  (represents_contents represents.tail_lt represents.head_lt).unique represents

end Foundation.Ring
