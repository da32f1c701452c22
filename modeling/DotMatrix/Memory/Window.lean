import DotMatrix.Cpu.Opcode
import DotMatrix.Text.HexDump

/-! A copy of the memory around an address, cut off at both ends of the address space. -/
namespace DotMatrix

structure Window where
  start : UInt16
  bytes : List UInt8
deriving DecidableEq, Repr

namespace Window

/-- Cells kept on each side of the centre. -/
def radius : Nat := 16

def around (read : Reader) (center : UInt16) : Window :=
  let first := center.toNat - radius
  let last := min (center.toNat + radius) 0xFFFF
  { start := UInt16.ofNat first
    bytes := (List.range' first (last + 1 - first)).map fun address => read (UInt16.ofNat address) }

def get? (window : Window) (address : UInt16) : Option UInt8 :=
  if window.start ≤ address then window.bytes[address.toNat - window.start.toNat]? else none

def text (window : Window) : String := hexDump window.bytes window.start.toNat

end Window

end DotMatrix
