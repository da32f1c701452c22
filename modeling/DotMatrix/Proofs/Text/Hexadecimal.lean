import Mathlib.Algebra.Group.Nat.Defs
import DotMatrix.Text.Numeral

/-!
# Reading hexadecimal numerals back

Whatever its width, a hexadecimal numeral tells its number. Those of bytes and of words always have
two and four digits, so that in a text one sees where they end. Other numerals end before the first
character that is no digit.
-/
namespace DotMatrix

/-- The number that digits stand for. -/
def hexValue (digits : List Char) : Nat :=
  digits.foldl (fun value c => 16 * value + (digitValue? 16 c).getD 0) 0

theorem hexValue_concat (digits : List Char) (c : Char) :
    hexValue (digits ++ [c]) = 16 * hexValue digits + (digitValue? 16 c).getD 0 := by
  rw [hexValue, List.foldl_append]
  rfl

theorem digitValue?_digitChar {digit : Nat} (small : digit < 16) :
    digitValue? 16 digit.digitChar.toUpper = some digit := by
  have all : ∀ digit : Fin 16, digitValue? 16 digit.val.digitChar.toUpper = some digit.val := by
    decide
  exact all ⟨digit, small⟩

theorem digitValue?_lowerDigitChar {digit : Nat} (small : digit < 16) :
    digitValue? 16 digit.digitChar = some digit := by
  have all : ∀ digit : Fin 16, digitValue? 16 digit.val.digitChar = some digit.val := by decide
  exact all ⟨digit, small⟩

theorem hexValue_toDigits (n : Nat) : hexValue ((Nat.toDigits 16 n).map Char.toUpper) = n := by
  induction n using Nat.strongRecOn with
  | ind n ih =>
    by_cases small : n < 16
    · rw [Nat.toDigits_of_lt_base small, List.map_singleton]
      exact (hexValue_concat [] _).trans (by simp [digitValue?_digitChar small, hexValue])
    · rw [Nat.toDigits_of_base_le (by decide) (Nat.le_of_not_lt small), List.map_append,
        List.map_singleton, hexValue_concat, ih (n / 16) (by omega),
        digitValue?_digitChar (Nat.mod_lt n (by decide)), Option.getD_some]
      omega

/-- Zeros in front do not count. -/
theorem hexValue_padZeros (width : Nat) (digits : List Char) :
    hexValue (padZeros width digits) = hexValue digits := by
  have zeros : ∀ count, hexValue (List.replicate count '0') = 0 := by
    intro count
    induction count with
    | zero => rfl
    | succ count ih =>
      rw [List.replicate_succ', hexValue_concat, ih]
      rfl
  rw [padZeros, hexValue, List.foldl_append]
  exact congrArg (digits.foldl _ ·) (zeros _)

theorem hexValue_hexNumeral (width n : Nat) : hexValue (hexNumeral width n) = n := by
  rw [hexNumeral, hexValue_padZeros, hexValue_toDigits]

theorem hexNumeral_injective {width n m : Nat} (same : hexNumeral width n = hexNumeral width m) :
    n = m := by
  rw [← hexValue_hexNumeral width n, same, hexValue_hexNumeral]

theorem length_hexNumeral {width n : Nat} (positive : 0 < width) (fits : n < 16 ^ width) :
    (hexNumeral width n).length = width := by
  have short : (Nat.toDigits 16 n).length ≤ width :=
    (Nat.length_toDigits_le_iff (by decide) positive).2 fits
  rw [hexNumeral, padZeros, List.length_append, List.length_replicate, List.length_map]
  omega

theorem exists_digit_of_mem_toDigits {base n : Nat} (proper : 1 < base) {c : Char}
    (member : c ∈ Nat.toDigits base n) : ∃ digit < base, c = digit.digitChar := by
  induction n using Nat.strongRecOn with
  | ind n ih =>
    by_cases small : n < base
    · rw [Nat.toDigits_of_lt_base small] at member
      exact ⟨n, small, List.mem_singleton.1 member⟩
    · have large := Nat.le_of_not_lt small
      rw [Nat.toDigits_of_base_le proper large, List.mem_append, List.mem_singleton] at member
      obtain earlier | rfl := member
      · exact ih (n / base) (Nat.div_lt_self (by omega) proper) earlier
      · exact ⟨n % base, Nat.mod_lt n (by omega), rfl⟩

theorem mem_capitals_of_mem_hexNumeral {width n : Nat} {c : Char}
    (member : c ∈ hexNumeral width n) : c ∈ "0123456789ABCDEF".toList := by
  obtain zero | other := List.mem_append.1 member
  · rw [List.eq_of_mem_replicate zero]
    decide
  · obtain ⟨_, plain, rfl⟩ := List.mem_map.1 other
    obtain ⟨digit, small, rfl⟩ := exists_digit_of_mem_toDigits (by decide) plain
    have capital : ∀ digit : Fin 16,
        digit.val.digitChar.toUpper ∈ "0123456789ABCDEF".toList := by decide
    exact capital ⟨digit, small⟩

@[simp] theorem length_hexByte (byte : UInt8) : (hexByte byte).length = 2 :=
  length_hexNumeral (by decide) byte.toNat_lt

@[simp] theorem length_hexWord (word : UInt16) : (hexWord word).length = 4 :=
  length_hexNumeral (by decide) word.toNat_lt

theorem hexByte_injective {byte other : UInt8} (same : hexByte byte = hexByte other) :
    byte = other :=
  UInt8.toNat_inj.1 (hexNumeral_injective same)

theorem hexWord_injective {word other : UInt16} (same : hexWord word = hexWord other) :
    word = other :=
  UInt16.toNat_inj.1 (hexNumeral_injective same)

/-- A byte in small letters has two digits, too. -/
theorem lowerHexByte_eq (byte : UInt8) :
    lowerHexByte byte = [(byte.toNat / 16).digitChar, (byte.toNat % 16).digitChar] := by
  have bound := byte.toNat_lt
  rw [lowerHexByte]
  generalize byte.toNat = n at bound
  by_cases small : n < 16
  · rw [Nat.toDigits_of_lt_base small, Nat.div_eq_of_lt small, Nat.mod_eq_of_lt small]
    rfl
  · have first : n / 16 < 16 := Nat.div_lt_of_lt_mul bound
    rw [Nat.toDigits_of_base_le (by decide) (Nat.le_of_not_lt small), Nat.toDigits_of_lt_base first]
    rfl

end DotMatrix
