import DotMatrix.Video.Background

/-! Frames: the 160 by 144 pixels of the background that the screen shows. -/
namespace DotMatrix

structure Frame where
  /-- Row after row. -/
  pixels : Vector Shade 23040
deriving DecidableEq

namespace Frame

def width : Nat := 160

def height : Nat := 144

/-- The part of the plane whose upper left corner is at (`scrollX`, `scrollY`). -/
def extract (background : Background) (scrollX scrollY : UInt8) : Frame where
  pixels := Vector.ofFn fun index : Fin 23040 =>
    background.sample (scrollX.toNat + index.val % 160) (scrollY.toNat + index.val / 160)

/-- What the screen shows of a memory. -/
def render (memory : Memory) : Frame :=
  extract (Background.compose memory) memory.scrollX memory.scrollY

/-- Columns past the edge run on into the next row. -/
def pixel? (frame : Frame) (x y : Nat) : Option Shade := frame.pixels[160 * y + x]?

/-- From top to bottom, each from left to right. -/
def rows (frame : Frame) : List (List Shade) :=
  List.ofFn fun y : Fin 144 => List.ofFn fun x : Fin 160 => frame.pixels[160 * y.val + x.val]

/-- The number of pixels that are not empty. -/
def lit (frame : Frame) : Nat := frame.pixels.countP (· ≠ 0)

def summary (frame : Frame) : String :=
  "Frame \x7b width: 160, height: 144, lit: " ++ toString frame.lit ++ " \x7d"

end Frame

end DotMatrix
