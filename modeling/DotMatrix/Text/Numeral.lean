/-! Numerals: capital hexadecimal with a least width, padded decimal, and the reader of unsigned
numerals with the reasons why it refuses a text. -/
namespace DotMatrix

/-- The text with zeros in front, at least `width` characters long. -/
def padZeros (width : Nat) (text : List Char) : List Char :=
  List.replicate (width - text.length) '0' ++ text

/-- Capital hexadecimal digits, at least `width` of them. -/
def hexNumeral (width n : Nat) : List Char :=
  padZeros width ((Nat.toDigits 16 n).map Char.toUpper)

def hexByte (byte : UInt8) : List Char := hexNumeral 2 byte.toNat

def hexWord (word : UInt16) : List Char := hexNumeral 4 word.toNat

def lowerHexByte (byte : UInt8) : List Char := padZeros 2 (Nat.toDigits 16 byte.toNat)

/-- Decimal digits, at least `width` of them. -/
def decimalNumeral (width n : Nat) : List Char := padZeros width (Nat.toDigits 10 n)

/-- The value of a digit below `radix`, in either case. -/
def digitValue? (radix : Nat) (c : Char) : Option Nat :=
  let value :=
    if '0' ≤ c ∧ c ≤ '9' then c.toNat - '0'.toNat
    else if 'a' ≤ c ∧ c ≤ 'z' then c.toNat - 'a'.toNat + 10
    else if 'A' ≤ c ∧ c ≤ 'Z' then c.toNat - 'A'.toNat + 10
    else radix
  if value < radix then some value else none

inductive NumeralFault where
  | empty
  | invalidDigit
  | tooLarge
deriving DecidableEq, Repr

def NumeralFault.message : NumeralFault → String
  | .empty => "cannot parse integer from empty string"
  | .invalidDigit => "invalid digit found in string"
  | .tooLarge => "number too large to fit in target type"

/-- Reads digits from the left onto `value`. Whichever comes first decides: a character that is no
digit, or a digit with which the value exceeds `limit`. -/
def readDigits (radix limit value : Nat) : List Char → Except NumeralFault Nat
  | [] => .ok value
  | c :: rest =>
    match digitValue? radix c with
    | none => .error .invalidDigit
    | some digit =>
      if value * radix + digit ≤ limit then readDigits radix limit (value * radix + digit) rest
      else .error .tooLarge

/-- Reads an unsigned numeral of at most `limit`: an optional plus sign, then at least one digit. -/
def readNumeral (radix limit : Nat) : List Char → Except NumeralFault Nat
  | [] => .error .empty
  | ['+'] => .error .invalidDigit
  | '+' :: rest => readDigits radix limit 0 rest
  | text => readDigits radix limit 0 text

end DotMatrix
