/-! Shades of a pixel, and the two colours they are drawn in. -/
namespace DotMatrix

/-- Two bits; shade 0 is the empty screen. -/
abbrev Shade := Fin 4

/-- There is a shade 0. The zero is spelled as the literals of `Fin` take it. -/
instance Shade.instNeZero : @NeZero Nat Zero.ofOfNat0 4 := ⟨by decide⟩

/-- The shade whose low and high bit are given. -/
def Shade.ofBits (low high : Bool) : Shade :=
  ⟨2 * high.toNat + low.toNat, by cases low <;> cases high <;> decide⟩

structure Color where
  red : UInt8
  green : UInt8
  blue : UInt8
deriving DecidableEq, Repr

namespace Color

def black : Color := ⟨0, 0, 0⟩

/-- The tint of the empty screen. -/
def paleGreen : Color := ⟨222, 249, 208⟩

/-- Only index 0 is drawn in the colour of the screen. -/
def ofIndex (index : Nat) : Color := if index = 0 then paleGreen else black

end Color

end DotMatrix
