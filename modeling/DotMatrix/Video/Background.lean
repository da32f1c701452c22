import DotMatrix.Video.Tile

/-! The background: a plane of 256 by 256 pixels, laid out of 32 rows of 32 tiles. -/
namespace DotMatrix

structure Background where
  /-- Row after row. -/
  pixels : Vector Shade 65536
deriving DecidableEq

namespace Background

/-- The tile shown in a cell of the map. -/
def tileOf (memory : Memory) (cell : Nat) : Tile :=
  let index := memory.read (Memory.tileMap + UInt16.ofNat cell)
  Tile.ofMemory memory (Memory.tileData + 16 * index.toUInt16)

/-- Where a pixel of the tile in a cell of the map lies in the plane. -/
def place (cell : Fin 1024) (y x : Fin 8) : Fin 65536 :=
  ⟨256 * (8 * (cell.val / 32) + y.val) + (8 * (cell.val % 32) + x.val), by omega⟩

/-- Copies a row of a tile into the plane. -/
def paintRow (cell : Fin 1024) (y : Fin 8) (row : Vector Shade 8) (plane : Vector Shade 65536) :
    Vector Shade 65536 :=
  Fin.foldl 8 (fun plane x => plane.set (place cell y x) row[x]) plane

/-- Copies a tile into the plane, row after row. -/
def paintTile (cell : Fin 1024) (tile : Tile) (plane : Vector Shade 65536) :
    Vector Shade 65536 :=
  Fin.foldl 8 (fun plane y => paintRow cell y tile.rows[y] plane) plane

/-- Lays the tiles of the map one after another into an empty plane. -/
def compose (memory : Memory) : Background where
  pixels :=
    Fin.foldl 1024 (fun plane cell => paintTile cell (tileOf memory cell) plane)
      (Vector.replicate 65536 0)

/-- Columns past the edge run on into the next row. -/
def pixel? (background : Background) (x y : Nat) : Option Shade := background.pixels[256 * y + x]?

/-- The plane goes round at its edges. -/
def sample (background : Background) (x y : Nat) : Shade :=
  background.pixels[256 * (y % 256) + x % 256]

def summary : String := "Background \x7b size: 256, .. \x7d"

end Background

end DotMatrix
