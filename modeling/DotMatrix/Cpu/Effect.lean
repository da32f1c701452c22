import DotMatrix.Cpu.Registers
import DotMatrix.Cpu.Opcode

/-! What one instruction does, as a function of the registers and of what it can read: the registers
afterwards and the cells it writes, in order. No instruction reads after it has written. -/
namespace DotMatrix

structure Write where
  address : UInt16
  value : UInt8
deriving DecidableEq, Repr

structure Effect where
  registers : Registers
  writes : List Write := []
deriving DecidableEq, Repr

def Operand.get (read : Reader) (r : Registers) : Operand → UInt8
  | .b => r.b
  | .c => r.c
  | .d => r.d
  | .e => r.e
  | .h => r.h
  | .l => r.l
  | .atHL => read r.hl
  | .a => r.a

def Operand.set (r : Registers) (value : UInt8) : Operand → Effect
  | .b => { registers := { r with b := value } }
  | .c => { registers := { r with c := value } }
  | .d => { registers := { r with d := value } }
  | .e => { registers := { r with e := value } }
  | .h => { registers := { r with h := value } }
  | .l => { registers := { r with l := value } }
  | .atHL => { registers := r, writes := [⟨r.hl, value⟩] }
  | .a => { registers := { r with a := value } }

def Pair.get (r : Registers) : Pair → UInt16
  | .bc => r.bc
  | .de => r.de
  | .hl => r.hl
  | .sp => r.sp

def Pair.set (r : Registers) (word : UInt16) : Pair → Registers
  | .bc => r.setBC word
  | .de => r.setDE word
  | .hl => r.setHL word
  | .sp => { r with sp := word }

def StackPair.get (r : Registers) : StackPair → UInt16
  | .bc => r.bc
  | .de => r.de
  | .hl => r.hl
  | .af => r.af

def StackPair.set (r : Registers) (word : UInt16) : StackPair → Registers
  | .bc => r.setBC word
  | .de => r.setDE word
  | .hl => r.setHL word
  | .af => r.setAF word

/-- The little-endian word at an address. -/
def wordAt (read : Reader) (address : UInt16) : UInt16 :=
  Word.join (read (address + 1)) (read address)

namespace Registers

def skip (r : Registers) (bytes : UInt16) : Registers := { r with pc := r.pc + bytes }

/-- The high byte goes to SP and the low byte below it, then SP moves below both. -/
def push (r : Registers) (word : UInt16) : Effect where
  registers := { r with sp := r.sp - 2 }
  writes := [⟨r.sp, Word.high word⟩, ⟨r.sp - 1, Word.low word⟩]

/-- The word that `push` left above SP. -/
def top (r : Registers) (read : Reader) : UInt16 := wordAt read (r.sp + 1)

def drop (r : Registers) : Registers := { r with sp := r.sp + 2 }

/-- Moves PC by a displacement in two's complement. -/
def branch (r : Registers) (displacement : UInt8) : Registers :=
  { r with pc := r.pc + (displacement.toUInt16 + if displacement < 0x80 then 0 else 0xFF00) }

end Registers

def Location.address (read : Reader) (r : Registers) : Location → UInt16
  | .pointer .bc => r.bc
  | .pointer .de => r.de
  | .pointer .hlUp => r.hl
  | .pointer .hlDown => r.hl
  | .topPage => 0xFF00 + (read r.pc).toUInt16
  | .topPageC => 0xFF00 + r.c.toUInt16
  | .absolute => wordAt read r.pc

/-- The registers once the address has been formed: its immediate bytes are passed, HL has moved. -/
def Location.advance (r : Registers) : Location → Registers
  | .pointer .bc => r
  | .pointer .de => r
  | .pointer .hlUp => r.setHL (r.hl + 1)
  | .pointer .hlDown => r.setHL (r.hl - 1)
  | .topPage => r.skip 1
  | .topPageC => r
  | .absolute => r.skip 2

def Registers.setResult (r : Registers) (result : AluResult) : Registers :=
  { r with a := result.value, f := result.flags }

def Operand.setResult (r : Registers) (result : AluResult) (target : Operand) : Effect :=
  target.set { r with f := result.flags } result.value

/-- The effect of an instruction whose opcode has been passed: PC points to what follows it. -/
def Instruction.effect (policy : FlagPolicy) (read : Reader) (r : Registers) : Instruction → Effect
  | .nop => { registers := r }
  | .loadPairImmediate target => { registers := target.set (r.skip 2) (wordAt read r.pc) }
  | .loadImmediate target => target.set (r.skip 1) (read r.pc)
  | .load target source => target.set r (source.get read r)
  | .storeA target =>
    { registers := target.advance r, writes := [⟨target.address read r, r.a⟩] }
  | .loadA source => { registers := { source.advance r with a := read (source.address read r) } }
  | .increment target =>
    target.setResult r (Alu.increment policy r.f (target.get read r))
  | .decrement target =>
    target.setResult r (Alu.decrement policy r.f (target.get read r))
  | .incrementPair target => { registers := target.set r (target.get r + 1) }
  | .decrementPair target => { registers := target.set r (target.get r - 1) }
  | .arithmetic op source =>
    { registers := r.setResult (op.apply policy r.f r.a (source.get read r)) }
  | .arithmeticImmediate op =>
    { registers := (r.skip 1).setResult (op.apply policy r.f r.a (read r.pc)) }
  | .rotateA =>
    let result := Alu.rotateLeft r.f r.a
    { registers := { r with a := result.value, f := { result.flags with zero := false } } }
  | .rotate target => target.setResult r (Alu.rotateLeft r.f (target.get read r))
  | .testBit bit source =>
    { registers := { r with f := Alu.testBit r.f bit (source.get read r) } }
  | .jumpRelative => { registers := (r.skip 1).branch (read r.pc) }
  | .jumpRelativeIf condition =>
    { registers :=
        if condition.holds r.f then (r.skip 1).branch (read r.pc) else r.skip 1 }
  | .jump => { registers := { r with pc := wordAt read r.pc } }
  | .call => { (r.push (r.pc + 2)) with
      registers := { (r.push (r.pc + 2)).registers with pc := wordAt read r.pc } }
  | .ret => { registers := { r.drop with pc := r.top read } }
  | .push source => r.push (source.get r)
  | .pop target => { registers := target.set r.drop (r.top read) }

end DotMatrix
