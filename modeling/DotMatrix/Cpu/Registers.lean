import DotMatrix.Word
import DotMatrix.Cpu.Flags

/-! The register file. Pairs hold their high byte first; writing AF drops the low half of F. -/
namespace DotMatrix

structure Registers where
  a : UInt8 := 0
  f : Flags := {}
  b : UInt8 := 0
  c : UInt8 := 0
  d : UInt8 := 0
  e : UInt8 := 0
  h : UInt8 := 0
  l : UInt8 := 0
  sp : UInt16 := 0
  pc : UInt16 := 0
deriving DecidableEq, Repr, Inhabited

namespace Registers

def af (r : Registers) : UInt16 := Word.join r.a r.f.toByte

def bc (r : Registers) : UInt16 := Word.join r.b r.c

def de (r : Registers) : UInt16 := Word.join r.d r.e

def hl (r : Registers) : UInt16 := Word.join r.h r.l

def setAF (r : Registers) (word : UInt16) : Registers :=
  { r with a := Word.high word, f := Flags.ofByte (Word.low word) }

def setBC (r : Registers) (word : UInt16) : Registers :=
  { r with b := Word.high word, c := Word.low word }

def setDE (r : Registers) (word : UInt16) : Registers :=
  { r with d := Word.high word, e := Word.low word }

def setHL (r : Registers) (word : UInt16) : Registers :=
  { r with h := Word.high word, l := Word.low word }

@[simp] theorem bc_setBC (r : Registers) (word : UInt16) : (r.setBC word).bc = word := by
  simp [bc, setBC]

@[simp] theorem de_setDE (r : Registers) (word : UInt16) : (r.setDE word).de = word := by
  simp [de, setDE]

@[simp] theorem hl_setHL (r : Registers) (word : UInt16) : (r.setHL word).hl = word := by
  simp [hl, setHL]

end Registers

end DotMatrix
