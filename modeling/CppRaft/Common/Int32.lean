import Mathlib.Data.Int.Order.Basic

/-!
# The type `int`

A value of the C++ type `int` is an integer from `-2147483648` to `2147483647`.
A sum that leaves this range has no meaning in the language; here it is the one
that the machine computes, which wraps around.
-/

namespace CppRaft.Common

/-- `x` is a value of type `int`. -/
def IsInt (x : Int) : Prop :=
  -2147483648 ≤ x ∧ x ≤ 2147483647

instance (x : Int) : Decidable (IsInt x) :=
  inferInstanceAs (Decidable (_ ∧ _))

/-- The result `x` of an operation on `int`s, reduced to 32 bits. -/
def int32 (x : Int) : Int :=
  x.bmod 4294967296

/-- An `int` converted to `size_t` for a comparison with one. -/
def toSize (x : Int) : Int :=
  x % 18446744073709551616

theorem isInt_zero : IsInt 0 := by
  decide

theorem isInt_int32 (x : Int) : IsInt (int32 x) := by
  have low := Int.le_bmod (x := x) (m := 4294967296) (by decide)
  have high := Int.bmod_le (x := x) (m := 4294967296) (by decide)
  exact ⟨by simpa [int32] using low, by simpa [int32] using high⟩

/-- Reduction leaves exactly the values of type `int` alone. -/
theorem int32_eq_self_iff {x : Int} : int32 x = x ↔ IsInt x := by
  constructor
  · intro same
    rw [← same]
    exact isInt_int32 x
  · rintro ⟨low, high⟩
    exact Int.bmod_eq_of_le (by omega) (by omega)

theorem IsInt.int32 {x : Int} (fits : IsInt x) : int32 x = x :=
  int32_eq_self_iff.mpr fits

/-- An increment stays in the range, except at the last value, from which it
goes to the first. -/
theorem int32_succ {x : Int} (fits : IsInt x) :
    x < 2147483647 ∧ int32 (x + 1) = x + 1 ∨ x = 2147483647 ∧ int32 (x + 1) = -2147483648 := by
  obtain ⟨low, high⟩ := fits
  rcases Int.lt_or_eq_of_le high with below | rfl
  · exact Or.inl ⟨below, IsInt.int32 ⟨by omega, by omega⟩⟩
  · exact Or.inr ⟨rfl, rfl⟩

theorem toSize_of_nonneg {x : Int} (nonneg : 0 ≤ x) (fits : IsInt x) : toSize x = x := by
  obtain ⟨_, high⟩ := fits
  exact Int.emod_eq_of_lt nonneg (by omega)

theorem IsInt.max {x y : Int} (left : IsInt x) (right : IsInt y) : IsInt (max x y) :=
  ⟨le_trans left.1 (le_max_left _ _), max_le left.2 right.2⟩

theorem IsInt.min {x y : Int} (left : IsInt x) (right : IsInt y) : IsInt (min x y) :=
  ⟨le_min left.1 right.1, le_trans (min_le_left _ _) left.2⟩

end CppRaft.Common
