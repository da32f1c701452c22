import DotMatrix.Memory.Basic
import DotMatrix.Video.Shade

/-! Tiles of eight by eight pixels. Two bytes hold a row: the low bits of its shades, then the high
bits, the leftmost pixel in the highest bit. -/
namespace DotMatrix

structure Tile where
  rows : Vector (Vector Shade 8) 8
deriving DecidableEq

namespace Tile

def blank : Tile := ⟨Vector.replicate 8 (Vector.replicate 8 0)⟩

def decode (bytes : Vector UInt8 16) : Tile where
  rows := Vector.ofFn fun y : Fin 8 => Vector.ofFn fun x : Fin 8 =>
    Shade.ofBits (bytes[2 * y.val].toNat.testBit (7 - x.val))
      (bytes[2 * y.val + 1].toNat.testBit (7 - x.val))

def ofMemory (memory : Memory) (base : UInt16) : Tile := decode (memory.bytesAt base 16)

def pixel? (tile : Tile) (x y : Nat) : Option Shade := tile.rows[y]? >>= fun row => row[x]?

end Tile

end DotMatrix
