/-! The picture in a logo of 48 bytes: 48 by 8 pixels, four to a half byte. The first 24 bytes hold the
upper four rows. Bytes at even places hold the upper two rows of their half, bytes at odd places the
lower two; of two rows the upper one is in the high half byte. -/
namespace DotMatrix

structure LogoPicture where
  rows : Vector (Vector Bool 48) 8
deriving DecidableEq

namespace LogoPicture

/-- The place of the byte that holds a pixel. -/
def byteIndex (x y : Nat) : Nat := 24 * (y / 4) + 2 * (x / 4) + y % 4 / 2

/-- The bit of that byte. -/
def bitIndex (x y : Nat) : Nat := (if y % 2 = 0 then 4 else 0) + (3 - x % 4)

theorem byteIndex_lt {x y : Nat} (hx : x < 48) (hy : y < 8) : byteIndex x y < 48 := by
  unfold byteIndex
  omega

/-- Missing bytes count as zero. -/
def decode (logo : List UInt8) : LogoPicture where
  rows := Vector.ofFn fun y : Fin 8 => Vector.ofFn fun x : Fin 48 =>
    (logo[byteIndex x.val y.val]?.getD 0).toNat.testBit (bitIndex x.val y.val)

def pixel? (picture : LogoPicture) (x y : Nat) : Option Bool :=
  picture.rows[y]? >>= fun row => row[x]?

/-- A line of blocks and blanks for each row. -/
def text (picture : LogoPicture) : String :=
  String.ofList (picture.rows.toList.flatMap fun row =>
    row.toList.map (fun set => if set then '█' else ' ') ++ ['\n'])

end LogoPicture

end DotMatrix
