import DotMatrix.Text.Numeral

/-! Dumps of bytes: sixteen to a row, in two groups of eight, behind the address of the row and
before its printable characters between bars. -/
namespace DotMatrix

namespace HexDump

def printable (byte : UInt8) : Char :=
  if 0x20 ≤ byte ∧ byte < 0x7F then Char.ofNat byte.toNat else '.'

/-- One column; a missing byte leaves its place blank. -/
def cell : Option UInt8 → List Char
  | some byte => lowerHexByte byte ++ [' ']
  | none => [' ', ' ', ' ']

def group (bytes : List UInt8) (first : Nat) : List Char :=
  (List.range' first 8).flatMap fun column => cell bytes[column]?

def row (address : Nat) (bytes : List UInt8) : List Char :=
  hexNumeral 4 address ++ [' ', ' '] ++ group bytes 0 ++ [' '] ++ group bytes 8 ++
    [' ', '|'] ++ bytes.map printable ++ ['|', '\n']

def rows (address : Nat) : List UInt8 → List Char
  | [] => []
  | byte :: rest =>
    row address ((byte :: rest).take 16) ++ rows (address + 16) ((byte :: rest).drop 16)
termination_by bytes => bytes.length
decreasing_by
  simp only [List.length_drop, List.length_cons]
  omega

end HexDump

/-- The dump of `bytes`, the first of which stands at `address`. -/
def hexDump (bytes : List UInt8) (address : Nat) : String :=
  String.ofList (HexDump.rows address bytes)

end DotMatrix
