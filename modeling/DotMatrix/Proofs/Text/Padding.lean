import Mathlib.Data.Nat.Notation
import DotMatrix.Text.Numeral

/-!
# Numerals of a least width

Zeros stand in front of a numeral up to its width only: one that is longer starts with another digit.
-/
namespace DotMatrix

/-- At least `width` digits, with no zeros in front of more than that. -/
structure Padded (width : Nat) (digits : List Char) : Prop where
  wide : width ≤ digits.length
  bare : width < digits.length → digits.head? ≠ some '0'

/-- The first digit of a positive number is positive. -/
theorem head?_toDigits {base n : Nat} (proper : 1 < base) (positive : 0 < n) :
    ∃ digit, 0 < digit ∧ digit < base ∧ (Nat.toDigits base n).head? = some digit.digitChar := by
  induction n using Nat.strongRecOn with
  | ind n ih =>
    by_cases small : n < base
    · exact ⟨n, positive, small, by rw [Nat.toDigits_of_lt_base small, List.head?_cons]⟩
    · have large := Nat.le_of_not_lt small
      obtain ⟨digit, digitPositive, below, first⟩ := ih (n / base)
        (Nat.div_lt_self positive proper) (Nat.div_pos large (by omega))
      refine ⟨digit, digitPositive, below, ?_⟩
      rw [Nat.toDigits_of_base_le proper large, List.head?_append, first, Option.some_or]

theorem padded_padZeros {width : Nat} {digits : List Char}
    (bare : width < digits.length → digits.head? ≠ some '0') :
    Padded width (padZeros width digits) := by
  have length : (padZeros width digits).length = width - digits.length + digits.length := by
    rw [padZeros, List.length_append, List.length_replicate]
  refine ⟨by omega, fun long => ?_⟩
  have none : width - digits.length = 0 := by omega
  rw [padZeros, none, List.replicate_zero, List.nil_append]
  exact bare (by omega)

theorem positive_of_length_toDigits {base n : Nat} (long : 1 < (Nat.toDigits base n).length) :
    0 < n := by
  rcases Nat.eq_zero_or_pos n with rfl | positive
  · rw [Nat.toDigits_zero] at long
    exact absurd long (by decide)
  · exact positive

theorem padded_decimalNumeral {width : Nat} (positive : 0 < width) (n : Nat) :
    Padded width (decimalNumeral width n) := by
  refine padded_padZeros fun long => ?_
  obtain ⟨digit, digitPositive, -, first⟩ := head?_toDigits (by decide : 1 < 10)
    (positive_of_length_toDigits (Nat.lt_of_le_of_lt positive long))
  rw [first, ne_eq, Option.some_inj, Nat.digitChar_eq_zero]
  exact Nat.pos_iff_ne_zero.1 digitPositive

theorem padded_hexNumeral {width : Nat} (positive : 0 < width) (n : Nat) :
    Padded width (hexNumeral width n) := by
  refine padded_padZeros fun long => ?_
  rw [List.length_map] at long
  obtain ⟨digit, digitPositive, below, first⟩ := head?_toDigits (by decide : 1 < 16)
    (positive_of_length_toDigits (Nat.lt_of_le_of_lt positive long))
  have capital : ∀ digit : Fin 16, 0 < digit.val → digit.val.digitChar.toUpper ≠ '0' := by decide
  rw [List.head?_map, first, Option.map_some, ne_eq, Option.some_inj]
  exact capital ⟨digit, below⟩ digitPositive

end DotMatrix
