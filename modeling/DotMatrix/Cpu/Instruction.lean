import DotMatrix.Cpu.Alu

/-! The instructions and their operands, with the order in which opcodes number them. -/
namespace DotMatrix

/-- An 8-bit operand: a register, or the cell that HL points to. -/
inductive Operand where
  | b | c | d | e | h | l | atHL | a
deriving DecidableEq, Repr

def Operand.ofIndex : Fin 8 → Operand
  | 0 => .b
  | 1 => .c
  | 2 => .d
  | 3 => .e
  | 4 => .h
  | 5 => .l
  | 6 => .atHL
  | 7 => .a

inductive Pair where
  | bc | de | hl | sp
deriving DecidableEq, Repr

def Pair.ofIndex : Fin 4 → Pair
  | 0 => .bc
  | 1 => .de
  | 2 => .hl
  | 3 => .sp

/-- The pairs that can be pushed and popped. -/
inductive StackPair where
  | bc | de | hl | af
deriving DecidableEq, Repr

def StackPair.ofIndex : Fin 4 → StackPair
  | 0 => .bc
  | 1 => .de
  | 2 => .hl
  | 3 => .af

/-- A pair used as an address. The last two move HL after its old value has been used. -/
inductive Pointer where
  | bc | de | hlUp | hlDown
deriving DecidableEq, Repr

def Pointer.ofIndex : Fin 4 → Pointer
  | 0 => .bc
  | 1 => .de
  | 2 => .hlUp
  | 3 => .hlDown

/-- A cell that A is stored to or loaded from: behind a pointer, in the top page at an immediate
offset or at C, or at an immediate address. -/
inductive Location where
  | pointer (p : Pointer)
  | topPage
  | topPageC
  | absolute
deriving DecidableEq, Repr

inductive Condition where
  | notZero | zero | notCarry | carry
deriving DecidableEq, Repr

def Condition.ofIndex : Fin 4 → Condition
  | 0 => .notZero
  | 1 => .zero
  | 2 => .notCarry
  | 3 => .carry

def Condition.holds (flags : Flags) : Condition → Bool
  | .notZero => !flags.zero
  | .zero => flags.zero
  | .notCarry => !flags.carry
  | .carry => flags.carry

inductive Instruction where
  | nop
  | loadPairImmediate (target : Pair)
  | loadImmediate (target : Operand)
  | load (target source : Operand)
  | storeA (target : Location)
  | loadA (source : Location)
  | increment (target : Operand)
  | decrement (target : Operand)
  | incrementPair (target : Pair)
  | decrementPair (target : Pair)
  | arithmetic (op : AluOp) (source : Operand)
  | arithmeticImmediate (op : AluOp)
  | rotateA
  | rotate (target : Operand)
  | testBit (bit : Fin 8) (source : Operand)
  | jumpRelative
  | jumpRelativeIf (condition : Condition)
  | jump
  | call
  | ret
  | push (source : StackPair)
  | pop (target : StackPair)
deriving DecidableEq, Repr

end DotMatrix
