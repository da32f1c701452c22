import DotMatrix.Proofs.Checked.Basic
import DotMatrix.Video.Scheduler

/-!
# Drawing with its checks turned on

Addresses of the map and of the tile patterns are words, and are not to go round; places in the
plane are sizes. The cells of the map are visited row by row, so that a cell is a row and a column of it.
-/
namespace DotMatrix

/-- Sizes and counters have 64 bits. -/
def Checked.size (n : Nat) : Checked Nat := Checked.unsigned 64 n

theorem Checked.size_eq {n : Nat} (h : n < 2 ^ 64) : size n = pure n := unsigned_eq h

namespace Memory

def checkedRead (memory : Memory) (address : UInt16) : Checked UInt8 :=
  if address = lineRegister then pure frameComplete
  else Checked.get memory.ram.cells address.toNat

def checkedWrite (memory : Memory) (address : UInt16) (value : UInt8) : Checked Memory := do
  let cells ← Checked.set memory.ram.cells address.toNat value
  return { ram := { cells } }

/-- These addresses do go round. -/
def checkedBytesAt (memory : Memory) (address : UInt16) (count : Nat) :
    Checked (Vector UInt8 count) :=
  Vector.ofFnM fun offset => memory.checkedRead (address + UInt16.ofNat offset.val)

theorem checkedRead_eq (memory : Memory) (address : UInt16) :
    memory.checkedRead address = pure (memory.read address) := by
  rw [checkedRead, read, Checked.get_eq _ address.toNat_lt]
  split <;> rfl

theorem checkedWrite_eq (memory : Memory) (address : UInt16) (value : UInt8) :
    memory.checkedWrite address value = pure (memory.write address value) := by
  rw [checkedWrite, Checked.set_eq _ address.toNat_lt, pure_bind]
  rfl

theorem checkedBytesAt_eq (memory : Memory) (address : UInt16) (count : Nat) :
    memory.checkedBytesAt address count = pure (memory.bytesAt address count) := by
  simp only [checkedBytesAt, checkedRead_eq, Vector.ofFnM_pure, bytesAt]

end Memory

namespace Tile

/-- One bit of a byte, brought to the lowest place. -/
def checkedBit (byte : UInt8) (bit : Nat) : Checked Bool := do
  let distance ← Checked.distance bit
  return byte >>> distance &&& 1 != 0

def checkedShade (low high : UInt8) (x : Fin 8) : Checked Shade := do
  let bit ← Checked.minus 7 x.val
  return Shade.ofBits (← checkedBit low bit) (← checkedBit high bit)

def checkedRow (bytes : Vector UInt8 16) (y : Fin 8) : Checked (Vector Shade 8) := do
  let start ← Checked.size (y.val * 2)
  let low ← Checked.get bytes start
  let next ← Checked.size (start + 1)
  let high ← Checked.get bytes next
  Vector.ofFnM (checkedShade low high)

def checkedDecode (bytes : Vector UInt8 16) : Checked Tile :=
  return { rows := ← Vector.ofFnM (checkedRow bytes) }

theorem checkedBit_eq (byte : UInt8) {bit : Nat} (h : bit < 8) :
    checkedBit byte bit = pure (byte.toNat.testBit bit) := by
  have all : ∀ (bit : Fin 8) (n : Fin 256),
      (UInt8.ofNat n >>> UInt8.ofNat bit.val &&& 1 != 0) = n.val.testBit bit.val := by
    decide +kernel
  have shifted := all ⟨bit, h⟩ ⟨byte.toNat, byte.toNat_lt⟩
  rw [UInt8.ofNat_toNat] at shifted
  rw [checkedBit, Checked.distance_eq h, pure_bind, shifted]

theorem checkedShade_eq (low high : UInt8) (x : Fin 8) :
    checkedShade low high x =
      pure (Shade.ofBits (low.toNat.testBit (7 - x.val)) (high.toNat.testBit (7 - x.val))) := by
  rw [checkedShade, Checked.minus_eq (by omega), pure_bind, checkedBit_eq low (by omega), pure_bind,
    checkedBit_eq high (by omega), pure_bind]

theorem checkedRow_eq (bytes : Vector UInt8 16) (y : Fin 8) :
    checkedRow bytes y = pure ((decode bytes).rows.get y) := by
  change checkedRow bytes y = pure (decode bytes).rows[y.val]
  rw [checkedRow, Checked.size_eq (by omega), pure_bind, Checked.get_eq _ (by omega), pure_bind,
    Checked.size_eq (by omega), pure_bind, Checked.get_eq _ (by omega), pure_bind]
  simp only [funext (checkedShade_eq _ _), Vector.ofFnM_pure, decode, Vector.getElem_ofFn,
    Nat.mul_comm]

theorem checkedDecode_eq (bytes : Vector UInt8 16) :
    checkedDecode bytes = pure (decode bytes) := by
  rw [checkedDecode, funext (checkedRow_eq bytes), Vector.ofFnM_pure, pure_bind]
  change pure (Tile.mk (Vector.ofFn fun y => (decode bytes).rows[y.val])) = _
  simp only [decode, Vector.getElem_ofFn]

end Tile

namespace Background

/-- The tile shown in a cell of the map. The cell is cut down to a word, which may not be more. -/
def checkedTileOf (memory : Memory) (cell : Fin 1024) : Checked Tile := do
  let row ← Checked.size (cell.val / 32 * 32)
  let place ← Checked.size (row + cell.val % 32)
  let address ← Checked.unsigned 16 (Memory.tileMap.toNat + place % 2 ^ 16)
  let index ← memory.checkedRead (UInt16.ofNat address)
  let offset ← Checked.unsigned 16 (index.toNat * 16)
  let base ← Checked.unsigned 16 (Memory.tileData.toNat + offset)
  Tile.checkedDecode (← memory.checkedBytesAt (UInt16.ofNat base) 16)

/-- Copies a row of a tile into the plane, as a slice of as many pixels. -/
def checkedPaintRow (cell : Fin 1024) (row : Vector Shade 8) (y : Fin 8)
    (plane : Vector Shade 65536) : Checked (Vector Shade 65536) := do
  let above ← Checked.size (cell.val / 32 * 8)
  let line ← Checked.size (above + y.val)
  let first ← Checked.size (line * 256)
  let left ← Checked.size (cell.val % 32 * 8)
  let start ← Checked.size (first + left)
  let stop ← Checked.size (start + 8)
  Checked.copy plane start stop row

def checkedPaintTile (cell : Fin 1024) (tile : Tile) (plane : Vector Shade 65536) :
    Checked (Vector Shade 65536) :=
  Fin.foldlM 8 (fun plane y => checkedPaintRow cell (tile.rows.get y) y plane) plane

def checkedCompose (memory : Memory) : Checked Background := do
  let pixels ← Fin.foldlM 1024
    (fun plane cell => do checkedPaintTile cell (← checkedTileOf memory cell) plane)
    (Vector.replicate 65536 0)
  return { pixels }

def checkedPixel (background : Background) (x y : Nat) : Checked Shade := do
  let line ← Checked.size (y * 256)
  let index ← Checked.size (line + x)
  Checked.get background.pixels index

theorem checkedTileOf_eq (memory : Memory) (cell : Fin 1024) :
    checkedTileOf memory cell = pure (tileOf memory cell.val) := by
  have map : Memory.tileMap.toNat = 0x9800 := rfl
  have data : Memory.tileData.toNat = 0x8000 := rfl
  have whole : (cell.val / 32 * 32 + cell.val % 32) % 2 ^ 16 = cell.val := by omega
  have mapAddress : UInt16.ofNat (Memory.tileMap.toNat + cell.val) =
      Memory.tileMap + UInt16.ofNat cell.val := by
    rw [UInt16.ofNat_add, UInt16.ofNat_toNat]
  have base (index : UInt8) : UInt16.ofNat (Memory.tileData.toNat + index.toNat * 16) =
      Memory.tileData + 16 * index.toUInt16 := by
    rw [UInt16.ofNat_add, UInt16.ofNat_toNat, Nat.mul_comm, UInt16.ofNat_mul,
      UInt16.ofNat_uInt8ToNat]
    rfl
  rw [checkedTileOf, Checked.size_eq (by omega), pure_bind, Checked.size_eq (by omega), pure_bind,
    whole, Checked.unsigned_eq (by omega), pure_bind, mapAddress, Memory.checkedRead_eq, pure_bind]
  generalize hindex : memory.read (Memory.tileMap + UInt16.ofNat cell.val) = index
  have := index.toNat_lt
  rw [Checked.unsigned_eq (by omega), pure_bind, Checked.unsigned_eq (by omega), pure_bind, base,
    Memory.checkedBytesAt_eq, pure_bind, Tile.checkedDecode_eq, tileOf, hindex, Tile.ofMemory]

theorem checkedPaintRow_eq (cell : Fin 1024) (row : Vector Shade 8) (y : Fin 8)
    (plane : Vector Shade 65536) :
    checkedPaintRow cell row y plane = pure (paintRow cell y row plane) := by
  rw [checkedPaintRow, Checked.size_eq (by omega), pure_bind, Checked.size_eq (by omega), pure_bind,
    Checked.size_eq (by omega), pure_bind, Checked.size_eq (by omega), pure_bind,
    Checked.size_eq (by omega), pure_bind, Checked.size_eq (by omega), pure_bind,
    Checked.copy_eq _ _ (by omega), paintRow]
  have places (x : Fin 8) :
      (cell.val / 32 * 8 + y.val) * 256 + cell.val % 32 * 8 + x.val = (place cell y x).val := by
    simp only [place]
    omega
  simp only [places]

theorem checkedPaintTile_eq (cell : Fin 1024) (tile : Tile) (plane : Vector Shade 65536) :
    checkedPaintTile cell tile plane = pure (paintTile cell tile plane) := by
  simp only [checkedPaintTile, checkedPaintRow_eq, Fin.foldlM_pure, paintTile]
  rfl

theorem checkedCompose_eq (memory : Memory) : checkedCompose memory = pure (compose memory) := by
  simp only [checkedCompose, checkedTileOf_eq, checkedPaintTile_eq, pure_bind, Fin.foldlM_pure,
    compose]

theorem checkedPixel_eq (background : Background) (x y : Nat) :
    checkedPixel background (x % 256) (y % 256) = pure (background.sample x y) := by
  rw [checkedPixel, Checked.size_eq (by omega), pure_bind, Checked.size_eq (by omega), pure_bind,
    Checked.get_eq _ (by omega), sample]
  simp only [Nat.mul_comm]

end Background

def Frame.checkedExtract (background : Background) (scrollX scrollY : UInt8) : Checked Frame := do
  let pixels ← Vector.ofFnM fun index : Fin 23040 => do
    let y ← Checked.size (scrollY.toNat + index.val / 160)
    let x ← Checked.size (scrollX.toNat + index.val % 160)
    background.checkedPixel (x % 256) (y % 256)
  return { pixels }

theorem Frame.checkedExtract_eq (background : Background) (scrollX scrollY : UInt8) :
    checkedExtract background scrollX scrollY = pure (extract background scrollX scrollY) := by
  have := scrollX.toNat_lt
  have := scrollY.toNat_lt
  have line (index : Fin 23040) : Checked.size (scrollY.toNat + index.val / 160) =
      pure (scrollY.toNat + index.val / 160) := Checked.size_eq (by omega)
  have column (index : Fin 23040) : Checked.size (scrollX.toNat + index.val % 160) =
      pure (scrollX.toNat + index.val % 160) := Checked.size_eq (by omega)
  simp only [checkedExtract, line, column, pure_bind, Background.checkedPixel_eq,
    Vector.ofFnM_pure, extract]

namespace Scheduler

def checkedTick {σ : Type} [FrameSink σ] (scheduler : Scheduler) (memory : Memory) (sink : σ) :
    Checked (Except Fault Bool × Scheduler × σ) := do
  let scrollY ← memory.checkedRead Memory.scrollYRegister
  if scheduler.drawn = some scrollY then return (.ok false, scheduler, sink)
  let scrollX ← memory.checkedRead Memory.scrollXRegister
  let background ← Background.checkedCompose memory
  let frame ← Frame.checkedExtract background scrollX scrollY
  match FrameSink.present frame sink with
  | (.ok (), sink) =>
    let frames ← Checked.unsigned 64 (scheduler.frames + 1)
    return (.ok true, { drawn := some scrollY, frames }, sink)
  | (.error reason, sink) => return (.error (.sink reason), scheduler, sink)

theorem checkedTick_eq {σ : Type} [FrameSink σ] {scheduler : Scheduler}
    (countable : scheduler.frames < 2 ^ 64 - 1) (memory : Memory) (sink : σ) :
    scheduler.checkedTick memory sink = pure (scheduler.tick memory sink) := by
  have counted : Checked.unsigned 64 (scheduler.frames + 1) = pure (scheduler.frames + 1) :=
    Checked.unsigned_eq (by omega)
  simp only [checkedTick, Memory.checkedRead_eq, Background.checkedCompose_eq,
    Frame.checkedExtract_eq, pure_bind, counted]
  rw [tick, Frame.render, Memory.scrollX, Memory.scrollY]
  split
  · rfl
  · rcases FrameSink.present _ sink with ⟨reason | _, sink⟩ <;> rfl

end Scheduler

end DotMatrix
