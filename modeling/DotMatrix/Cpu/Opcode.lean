import DotMatrix.Text.Numeral
import DotMatrix.Cpu.Instruction

/-! Opcodes and what they decode to. An opcode is one byte, or the byte 0xCB and a second byte that
selects from a table of its own. Main statement: what is fetched never is the bare byte 0xCB. -/
namespace DotMatrix

/-- What the processor sees of the address space. -/
abbrev Reader := UInt16 → UInt8

inductive Opcode where
  | primary (byte : UInt8)
  | extended (byte : UInt8)
deriving DecidableEq, Repr

namespace Opcode

/-- The byte that announces an extended opcode. -/
def extension : UInt8 := 0xCB

def fetch (read : Reader) (address : UInt16) : Opcode :=
  if read address = extension then .extended (read (address + 1)) else .primary (read address)

/-- Bytes taken by the opcode itself. -/
def size : Opcode → UInt16
  | .primary _ => 1
  | .extended _ => 2

/-- The two high bits of an opcode byte select a quarter of the table. -/
def quarter (byte : UInt8) : Fin 4 := ⟨byte.toNat / 64, by have := byte.toNat_lt; omega⟩

/-- Bits 3 to 5. -/
def row (byte : UInt8) : Fin 8 := ⟨byte.toNat / 8 % 8, by omega⟩

/-- Bits 0 to 2. -/
def column (byte : UInt8) : Fin 8 := ⟨byte.toNat % 8, by omega⟩

/-- Bits 4 and 5. -/
def pairIndex (byte : UInt8) : Fin 4 := ⟨byte.toNat / 16 % 4, by omega⟩

/-- Bits 3 and 4. -/
def conditionIndex (byte : UInt8) : Fin 4 := ⟨byte.toNat / 8 % 4, by omega⟩

/-- Halting has no instruction here: nothing could ever wake the processor. -/
def primary? (byte : UInt8) : Option Instruction :=
  match quarter byte, column byte, row byte with
  | 0, 0, 0 => some .nop
  | 0, 0, 3 => some .jumpRelative
  | 0, 0, 4 | 0, 0, 5 | 0, 0, 6 | 0, 0, 7 =>
    some (.jumpRelativeIf (Condition.ofIndex (conditionIndex byte)))
  | 0, 1, 0 | 0, 1, 2 | 0, 1, 4 | 0, 1, 6 =>
    some (.loadPairImmediate (Pair.ofIndex (pairIndex byte)))
  | 0, 2, 0 | 0, 2, 2 | 0, 2, 4 | 0, 2, 6 =>
    some (.storeA (.pointer (Pointer.ofIndex (pairIndex byte))))
  | 0, 2, 1 | 0, 2, 3 | 0, 2, 5 | 0, 2, 7 =>
    some (.loadA (.pointer (Pointer.ofIndex (pairIndex byte))))
  | 0, 3, 0 | 0, 3, 2 | 0, 3, 4 | 0, 3, 6 => some (.incrementPair (Pair.ofIndex (pairIndex byte)))
  | 0, 3, 1 | 0, 3, 3 | 0, 3, 5 | 0, 3, 7 => some (.decrementPair (Pair.ofIndex (pairIndex byte)))
  | 0, 4, y => some (.increment (Operand.ofIndex y))
  | 0, 5, y => some (.decrement (Operand.ofIndex y))
  | 0, 6, y => some (.loadImmediate (Operand.ofIndex y))
  | 0, 7, 2 => some .rotateA
  | 1, 6, 6 => none
  | 1, z, y => some (.load (Operand.ofIndex y) (Operand.ofIndex z))
  | 2, z, y => some (.arithmetic (AluOp.ofIndex y) (Operand.ofIndex z))
  | 3, 0, 4 => some (.storeA .topPage)
  | 3, 0, 6 => some (.loadA .topPage)
  | 3, 1, 1 => some .ret
  | 3, 1, 0 | 3, 1, 2 | 3, 1, 4 | 3, 1, 6 => some (.pop (StackPair.ofIndex (pairIndex byte)))
  | 3, 2, 4 => some (.storeA .topPageC)
  | 3, 2, 5 => some (.storeA .absolute)
  | 3, 2, 6 => some (.loadA .topPageC)
  | 3, 2, 7 => some (.loadA .absolute)
  | 3, 3, 0 => some .jump
  | 3, 5, 1 => some .call
  | 3, 5, 0 | 3, 5, 2 | 3, 5, 4 | 3, 5, 6 => some (.push (StackPair.ofIndex (pairIndex byte)))
  | 3, 6, y => some (.arithmeticImmediate (AluOp.ofIndex y))
  | _, _, _ => none

def extended? (byte : UInt8) : Option Instruction :=
  match quarter byte, row byte with
  | 0, 2 => some (.rotate (Operand.ofIndex (column byte)))
  | 1, y => some (.testBit y (Operand.ofIndex (column byte)))
  | _, _ => none

def instruction? : Opcode → Option Instruction
  | .primary byte => primary? byte
  | .extended byte => extended? byte

/-- The bare byte 0xCB counts as supported: it leads to the second table. -/
def isSupported : Opcode → Bool
  | .primary byte => byte == extension || (primary? byte).isSome
  | .extended byte => (extended? byte).isSome

def text : Opcode → String
  | .primary byte => "0x" ++ String.ofList (hexByte byte)
  | .extended byte => "0xCB 0x" ++ String.ofList (hexByte byte)

theorem fetch_ne_extension (read : Reader) (address : UInt16) :
    fetch read address ≠ .primary extension := by
  unfold fetch
  split <;> simp_all

theorem isSupported_fetch (read : Reader) (address : UInt16) :
    (fetch read address).isSupported = (fetch read address).instruction?.isSome := by
  have bare := fetch_ne_extension read address
  cases h : fetch read address <;> simp_all [isSupported, instruction?]

end Opcode

end DotMatrix
