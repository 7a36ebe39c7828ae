import Mathlib.Logic.Function.Basic
import Mathlib.Data.Nat.Notation

/-!
# Sets of small numbers packed into bytes

Number `e` is bit `e % 8` of byte `e / 8`.  The module relates the usual mask
operations on the byte to membership in the packed set.
-/

namespace Foundation.ByteSet

/-- Number `e` is in the packed set. -/
def Mem (bytes : Nat → BitVec 8) (e : Nat) : Prop :=
  (bytes (e / 8)).getLsbD (e % 8) = true

instance (bytes : Nat → BitVec 8) (e : Nat) : Decidable (Mem bytes e) :=
  inferInstanceAs (Decidable (_ = true))

/-- The mask of a number inside its byte. -/
def mask (e : Nat) : BitVec 8 := 1#8 <<< (e % 8)

/-- Add a number to the packed set. -/
def insert (bytes : Nat → BitVec 8) (e : Nat) : Nat → BitVec 8 :=
  Function.update bytes (e / 8) (bytes (e / 8) ||| mask e)

/-- Remove a number from the packed set. -/
def erase (bytes : Nat → BitVec 8) (e : Nat) : Nat → BitVec 8 :=
  Function.update bytes (e / 8) (bytes (e / 8) &&& ~~~ mask e)

/-- The first `size` bytes are all zero. -/
def Empty (size : Nat) (bytes : Nat → BitVec 8) : Prop :=
  ∀ index, index < size → bytes index = 0

@[simp] theorem getLsbD_mask (e bit : Nat) :
    (mask e).getLsbD bit = decide (bit = e % 8) := by
  have below : e % 8 < 8 := Nat.mod_lt _ (by omega)
  rw [mask, BitVec.getLsbD_shiftLeft, BitVec.getLsbD_one]
  by_cases same : bit = e % 8
  · subst same
    simp [below]
  · by_cases before : bit < e % 8
    · simp [same, before]
    · have later : bit - e % 8 ≠ 0 := by omega
      simp [same, later]

/-- Masking with seven takes the remainder modulo eight. -/
theorem and_seven (e : Nat) : e &&& 0x07 = e % 8 :=
  Nat.and_two_pow_sub_one_eq_mod e 3

/-- Two numbers with the same byte and bit are equal. -/
theorem eq_of_byte_of_bit
    {left right : Nat}
    (byte : left / 8 = right / 8)
    (bit : left % 8 = right % 8) :
    left = right := by
  omega

/-- The masked byte is non-zero exactly when the number is in the set. -/
theorem and_mask_ne_zero_iff (bytes : Nat → BitVec 8) (e : Nat) :
    bytes (e / 8) &&& mask e ≠ 0 ↔ Mem bytes e := by
  unfold Mem
  constructor
  · intro nonzero
    by_contra absent
    apply nonzero
    apply BitVec.eq_of_getLsbD_eq
    intro bit inside
    rw [BitVec.getLsbD_and, getLsbD_mask]
    by_cases same : bit = e % 8
    · simpa [same] using absent
    · simp [same]
  · intro present zero
    have bitZero := congrArg (fun byte : BitVec 8 => byte.getLsbD (e % 8)) zero
    simp [present] at bitZero

/-- A number joins the set; every other number stays as it was. -/
@[simp] theorem mem_insert_iff
    (bytes : Nat → BitVec 8)
    (e other : Nat) :
    Mem (insert bytes e) other ↔ other = e ∨ Mem bytes other := by
  unfold Mem insert
  by_cases byte : other / 8 = e / 8
  · rw [byte, Function.update_self, BitVec.getLsbD_or, getLsbD_mask]
    by_cases bit : other % 8 = e % 8
    · have same := eq_of_byte_of_bit byte bit
      simp [same]
    · have different : other ≠ e := by
        rintro rfl
        exact bit rfl
      simp [bit, different]
  · have different : other ≠ e := by
      rintro rfl
      exact byte rfl
    rw [Function.update_of_ne byte]
    simp [different]

/-- A number leaves the set; every other number stays as it was. -/
@[simp] theorem mem_erase_iff
    (bytes : Nat → BitVec 8)
    (e other : Nat) :
    Mem (erase bytes e) other ↔ other ≠ e ∧ Mem bytes other := by
  unfold Mem erase
  by_cases byte : other / 8 = e / 8
  · have below : other % 8 < 8 := Nat.mod_lt _ (by omega)
    rw [byte, Function.update_self, BitVec.getLsbD_and, BitVec.getLsbD_not,
      getLsbD_mask]
    by_cases bit : other % 8 = e % 8
    · have same := eq_of_byte_of_bit byte bit
      simp [same]
    · have different : other ≠ e := by
        rintro rfl
        exact bit rfl
      simp [bit, different, below]
  · have different : other ≠ e := by
      rintro rfl
      exact byte rfl
    rw [Function.update_of_ne byte]
    simp [different]

/-- Packed sets with the same numbers are the same bytes. -/
theorem ext
    {bytes bytes' : Nat → BitVec 8}
    (same : ∀ e, Mem bytes e ↔ Mem bytes' e) :
    bytes = bytes' := by
  funext index
  apply BitVec.eq_of_getLsbD_eq
  intro bit bitInside
  have here := same (8 * index + bit)
  have byte : (8 * index + bit) / 8 = index := by omega
  have position : (8 * index + bit) % 8 = bit := by omega
  rw [Mem, Mem, byte, position] at here
  exact Bool.eq_iff_iff.mpr here

theorem erase_comm (bytes : Nat → BitVec 8) (e other : Nat) :
    erase (erase bytes e) other = erase (erase bytes other) e := by
  apply ext
  intro member
  rw [mem_erase_iff, mem_erase_iff, mem_erase_iff, mem_erase_iff]
  exact and_left_comm

/-- The bytes are all zero exactly when no number of theirs is in the set. -/
theorem empty_iff (size : Nat) (bytes : Nat → BitVec 8) :
    Empty size bytes ↔ ∀ e, e / 8 < size → ¬ Mem bytes e := by
  constructor
  · intro zeros e inside
    simp [Mem, zeros _ inside]
  · intro absent index inside
    apply BitVec.eq_of_getLsbD_eq
    intro bit bitInside
    have missing := absent (8 * index + bit) (by omega)
    have byte : (8 * index + bit) / 8 = index := by omega
    have position : (8 * index + bit) % 8 = bit := by omega
    rw [Mem, byte, position] at missing
    simpa using missing

end Foundation.ByteSet
