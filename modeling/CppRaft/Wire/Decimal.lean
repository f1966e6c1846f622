import Mathlib.Algebra.Group.Nat.Defs
import Mathlib.Data.List.TakeWhile

/-!
# Numbers as decimal text

`std::to_string` writes a number and `atoi` reads the number at the front of a
text.  A character stands for one byte.
-/

namespace CppRaft.Wire.Decimal

/-- The contents of a string. -/
abbrev Text := List Char

/-- `std::to_string`. -/
protected def toString : Int → Text
  | .ofNat value => Nat.toDigits 10 value
  | .negSucc value => '-' :: Nat.toDigits 10 (value + 1)

/-- `isspace` in the classic locale. -/
def isSpace (character : Char) : Bool :=
  character.toNat == 32 || (9 ≤ character.toNat && character.toNat ≤ 13)

/-- The number that the leading digits stand for. -/
def leading (text : Text) : Nat :=
  Nat.ofDigitChars 10 (text.takeWhile Char.isDigit) 0

/-- `atoi` of a number that fits. -/
def atoi (text : Text) : Int :=
  match text.dropWhile isSpace with
  | '-' :: rest => -(leading rest : Int)
  | '+' :: rest => leading rest
  | rest => leading rest

theorem isDigit_of_mem_toDigits {value : Nat} {character : Char}
    (member : character ∈ Nat.toDigits 10 value) : character.isDigit = true :=
  Nat.isDigit_of_mem_toDigits (by decide) (by decide) member

theorem leading_toDigits (value : Nat) : leading (Nat.toDigits 10 value) = value := by
  have all : (Nat.toDigits 10 value).takeWhile Char.isDigit = Nat.toDigits 10 value :=
    List.takeWhile_eq_self_iff.mpr fun _ => isDigit_of_mem_toDigits
  rw [leading, all, Nat.ofDigitChars_ten_toDigits]

/-- Neither white space nor a sign comes before a digit. -/
theorem atoi_of_isDigit {first : Char} {rest : Text} (digit : first.isDigit = true) :
    atoi (first :: rest) = leading (first :: rest) := by
  have bounds := Char.isDigit_iff_toNat.mp digit
  have low : 48 ≤ first.toNat := bounds.1
  have kept : (first :: rest).dropWhile isSpace = first :: rest := by
    refine List.dropWhile_cons_of_neg ?_
    simp only [isSpace, Bool.or_eq_true, beq_iff_eq, Bool.and_eq_true, decide_eq_true_eq]
    omega
  have minus : first ≠ '-' := by
    rintro rfl
    exact absurd low (by decide)
  have plus : first ≠ '+' := by
    rintro rfl
    exact absurd low (by decide)
  rw [atoi, kept]
  split
  · rename_i same
    exact absurd (List.cons.inj same).1 minus
  · rename_i same
    exact absurd (List.cons.inj same).1 plus
  · rfl

theorem atoi_toString (value : Int) : atoi (Decimal.toString value) = value := by
  cases value with
  | ofNat value =>
      change atoi (Nat.toDigits 10 value) = value
      obtain ⟨first, rest, digits⟩ := List.exists_cons_of_ne_nil (Nat.toDigits_ne_nil (n := value))
      have digit : first.isDigit = true := by
        apply isDigit_of_mem_toDigits
        rw [digits]
        exact List.mem_cons_self
      rw [digits, atoi_of_isDigit digit, ← digits, leading_toDigits]
  | negSucc value =>
      change -(leading (Nat.toDigits 10 (value + 1)) : Int) = _
      rw [leading_toDigits]
      rfl

theorem toString_injective : Function.Injective Decimal.toString :=
  Function.LeftInverse.injective atoi_toString

/-- Numbers are made of digits, and of a sign in front. -/
theorem isDigit_or_eq_of_mem_toString {value : Int} {character : Char}
    (member : character ∈ Decimal.toString value) :
    character.isDigit = true ∨ character = '-' := by
  cases value with
  | ofNat value => exact Or.inl (isDigit_of_mem_toDigits member)
  | negSucc value =>
      rcases List.mem_cons.mp member with sign | digit
      · exact Or.inr sign
      · exact Or.inl (isDigit_of_mem_toDigits digit)

theorem length_toString_le {value : Int} {count : Nat} (positive : 0 < count)
    (bound : value.natAbs < 10 ^ count) : (Decimal.toString value).length ≤ count + 1 := by
  cases value with
  | ofNat value =>
      exact Nat.le_succ_of_le ((Nat.length_toDigits_le_iff (by decide) positive).mpr bound)
  | negSucc value =>
      exact Nat.succ_le_succ ((Nat.length_toDigits_le_iff (by decide) positive).mpr bound)

end CppRaft.Wire.Decimal
