import DotMatrix.Cpu.Flags

/-! Eight-bit arithmetic: each operation gives a byte and the flags that follow it. The flags it is
given supply the carry and whatever the operation keeps. -/
namespace DotMatrix

structure AluResult where
  value : UInt8
  flags : Flags
deriving DecidableEq, Repr

namespace Alu

def carryBit (flags : Flags) : UInt8 := if flags.carry then 1 else 0

def add (policy : FlagPolicy) (flags : Flags) (carryIn a operand : UInt8) : AluResult where
  value := a + operand + carryIn
  flags :=
    { zero := a + operand + carryIn == 0
      subtract := false
      halfCarry := policy.halfCarry ((a &&& 0x0F) + (operand &&& 0x0F) + carryIn > 0x0F) flags.halfCarry
      carry := a.toNat + operand.toNat + carryIn.toNat > 0xFF }

/-- The carry is a borrow: it is set exactly when more is taken away than there is. -/
def subtract (policy : FlagPolicy) (flags : Flags) (borrow a operand : UInt8) : AluResult where
  value := a - operand - borrow
  flags :=
    { zero := a - operand - borrow == 0
      subtract := true
      halfCarry := policy.halfCarry ((a &&& 0x0F) < (operand &&& 0x0F) + borrow) flags.halfCarry
      carry := a.toNat < operand.toNat + borrow.toNat }

def and (a operand : UInt8) : AluResult where
  value := a &&& operand
  flags := { zero := a &&& operand == 0, halfCarry := true }

def xor (a operand : UInt8) : AluResult where
  value := a ^^^ operand
  flags := { zero := a ^^^ operand == 0 }

def or (a operand : UInt8) : AluResult where
  value := a ||| operand
  flags := { zero := a ||| operand == 0 }

/-- The carry flag is kept. -/
def increment (policy : FlagPolicy) (flags : Flags) (value : UInt8) : AluResult where
  value := value + 1
  flags :=
    { zero := value + 1 == 0
      subtract := false
      halfCarry := policy.halfCarry (value &&& 0x0F == 0x0F) flags.halfCarry
      carry := flags.carry }

/-- The carry flag is kept. -/
def decrement (policy : FlagPolicy) (flags : Flags) (value : UInt8) : AluResult where
  value := value - 1
  flags :=
    { zero := value - 1 == 0
      subtract := true
      halfCarry := policy.halfCarry (value &&& 0x0F == 0) flags.halfCarry
      carry := flags.carry }

/-- Rotates the byte left through the carry flag. -/
def rotateLeft (flags : Flags) (value : UInt8) : AluResult where
  value := (value <<< 1) ||| carryBit flags
  flags := { zero := (value <<< 1) ||| carryBit flags == 0, carry := value &&& 0x80 != 0 }

/-- The zero flag tells that the bit is clear; the carry flag is kept. -/
def testBit (flags : Flags) (bit : Fin 8) (value : UInt8) : Flags where
  zero := !value.toNat.testBit bit.val
  subtract := false
  halfCarry := true
  carry := flags.carry

end Alu

/-- The eight operations on A and an operand, in the order of their codes. -/
inductive AluOp where
  | add | adc | sub | sbc | and | xor | or | cp
deriving DecidableEq, Repr

def AluOp.ofIndex : Fin 8 → AluOp
  | 0 => .add
  | 1 => .adc
  | 2 => .sub
  | 3 => .sbc
  | 4 => .and
  | 5 => .xor
  | 6 => .or
  | 7 => .cp

/-- The new value of A and the flags; comparing gives A back. -/
def AluOp.apply (policy : FlagPolicy) (flags : Flags) (a operand : UInt8) : AluOp → AluResult
  | .add => Alu.add policy flags 0 a operand
  | .adc => Alu.add policy flags (Alu.carryBit flags) a operand
  | .sub => Alu.subtract policy flags 0 a operand
  | .sbc => Alu.subtract policy flags (Alu.carryBit flags) a operand
  | .and => Alu.and a operand
  | .xor => Alu.xor a operand
  | .or => Alu.or a operand
  | .cp => { Alu.subtract policy flags 0 a operand with value := a }

end DotMatrix
