import Mathlib.Algebra.Group.Nat.Defs
import Mathlib.Data.List.OfFn
import DotMatrix.Video.Frame

/-!
# What the screen shows

The painted tiles cover the plane without gap or overlap, so every pixel of the plane, and through
the scroll position every pixel of the screen, is given by the bytes of the map and of the tile
patterns.
-/
namespace DotMatrix

/-- One bit of a byte, as a number. -/
def bitOf (byte : UInt8) (bit : Nat) : Nat := byte.toNat / 2 ^ bit % 2

/-- The number that the map and the tile patterns of a memory give to a point of the plane. -/
def Memory.shown (memory : Memory) (x y : Nat) : Nat :=
  let tile := (memory.read (UInt16.ofNat (0x9800 + 32 * (y / 8) + x / 8))).toNat
  let low := 0x8000 + 16 * tile + 2 * (y % 8)
  2 * bitOf (memory.read (UInt16.ofNat (low + 1))) (7 - x % 8) +
    bitOf (memory.read (UInt16.ofNat low)) (7 - x % 8)

theorem Shade.val_ofBits (low high : Bool) :
    (Shade.ofBits low high).val = 2 * high.toNat + low.toNat := rfl

theorem Tile.val_rows_ofMemory (memory : Memory) (base : UInt16) (y x : Fin 8) :
    (((ofMemory memory base).rows.get y).get x).val =
      2 * bitOf (memory.read (base + UInt16.ofNat (2 * y.val + 1))) (7 - x.val) +
        bitOf (memory.read (base + UInt16.ofNat (2 * y.val))) (7 - x.val) := by
  change ((ofMemory memory base).rows[y.val][x.val]).val = _
  simp only [ofMemory, decode, Memory.bytesAt, Vector.getElem_ofFn, Shade.val_ofBits, bitOf,
    Nat.toNat_testBit]

namespace Background

/-- A change of the plane that gives each cell of a region its final content and leaves every other
cell alone. -/
structure Paints (change : Vector Shade 65536 → Vector Shade 65536) (region : Fin 65536 → Prop)
    (content : Fin 65536 → Shade) : Prop where
  inside : ∀ plane i, region i → (change plane)[i] = content i
  outside : ∀ plane i, ¬region i → (change plane)[i] = plane[i]

/-- A loop paints what its rounds paint, all regions together. -/
theorem Paints.foldl {n : Nat} {change : Vector Shade 65536 → Fin n → Vector Shade 65536}
    {region : Fin n → Fin 65536 → Prop} {content : Fin 65536 → Shade}
    (round : ∀ k, Paints (change · k) (region k) content) :
    Paints (Fin.foldl n change) (fun i => ∃ k, region k i) content := by
  induction n with
  | zero => exact ⟨fun _ _ ⟨k, _⟩ => k.elim0, fun _ _ _ => by rw [Fin.foldl_zero]⟩
  | succ n ih =>
    obtain ⟨inside, outside⟩ := ih fun k => round k.castSucc
    refine ⟨fun plane i painted => ?_, fun plane i bare => ?_⟩
    · rw [Fin.foldl_succ_last]
      by_cases last : region (Fin.last n) i
      · exact (round _).inside _ i last
      · rw [(round _).outside _ i last]
        obtain ⟨k, hk⟩ := painted
        cases k using Fin.lastCases with
        | last => exact absurd hk last
        | cast k => exact inside plane i ⟨k, hk⟩
    · rw [Fin.foldl_succ_last, (round _).outside _ i fun last => bare ⟨_, last⟩]
      exact outside plane i fun ⟨k, hk⟩ => bare ⟨_, hk⟩

theorem paints_set (place : Fin 65536) (content : Fin 65536 → Shade) :
    Paints (fun plane => plane.set place (content place)) (place = ·) content := by
  constructor
  · rintro plane i rfl
    simp
  · intro plane i other
    simp only [Fin.getElem_fin]
    exact Vector.getElem_set_ne _ _ fun same => other (Fin.ext same)

theorem paints_paintRow (cell : Fin 1024) (y : Fin 8) (row : Vector Shade 8)
    (content : Fin 65536 → Shade) (agrees : ∀ x : Fin 8, row.get x = content (place cell y x)) :
    Paints (paintRow cell y row) (fun i => ∃ x, place cell y x = i) content := by
  apply Paints.foldl
  intro x
  have pixel : row[x] = content (place cell y x) := agrees x
  rw [pixel]
  exact paints_set _ content

theorem paints_paintTile (cell : Fin 1024) (tile : Tile) (content : Fin 65536 → Shade)
    (agrees : ∀ y x : Fin 8, (tile.rows.get y).get x = content (place cell y x)) :
    Paints (paintTile cell tile) (fun i => ∃ y x, place cell y x = i) content :=
  Paints.foldl fun y => paints_paintRow cell y tile.rows[y] content (agrees y)

/-- Every index of the plane belongs to a pixel of a tile. -/
theorem exists_place (i : Fin 65536) : ∃ cell y x, place cell y x = i := by
  refine ⟨⟨32 * (i.val / 2048) + i.val % 256 / 8, by omega⟩, ⟨i.val / 256 % 8, by omega⟩,
    ⟨i.val % 8, by omega⟩, Fin.ext ?_⟩
  simp only [place]
  omega

/-- The pixel of a tile that lies at an index of the plane. -/
def tilePixel (memory : Memory) (i : Fin 65536) : Shade :=
  (tileOf memory (32 * (i.val / 2048) + i.val % 256 / 8)).rows[i.val / 256 % 8][i.val % 8]

theorem tilePixel_place (memory : Memory) (cell : Fin 1024) (y x : Fin 8) :
    tilePixel memory (place cell y x) = ((tileOf memory cell).rows.get y).get x := by
  have cellEq : 32 * ((place cell y x).val / 2048) + (place cell y x).val % 256 / 8 = cell.val := by
    simp only [place]
    omega
  have yEq : (place cell y x).val / 256 % 8 = y.val := by
    simp only [place]
    omega
  have xEq : (place cell y x).val % 8 = x.val := by
    simp only [place]
    omega
  simp only [tilePixel, cellEq, yEq, xEq]
  rfl

/-- No pixel of the plane is left empty or painted over. -/
theorem getElem_compose (memory : Memory) (i : Fin 65536) :
    (compose memory).pixels[i] = tilePixel memory i := by
  have all : Paints (Fin.foldl 1024 fun plane cell => paintTile cell (tileOf memory cell) plane)
      (fun i => ∃ cell y x, place cell y x = i) (tilePixel memory) :=
    Paints.foldl fun cell => paints_paintTile cell (tileOf memory cell) (tilePixel memory)
      fun y x => (tilePixel_place memory cell y x).symm
  simpa only [compose] using all.inside (Vector.replicate 65536 0) i (exists_place i)

theorem mapAddress_eq (cell : Nat) :
    Memory.tileMap + UInt16.ofNat cell = UInt16.ofNat (0x9800 + cell) := by
  rw [UInt16.ofNat_add]
  rfl

theorem patternAddress_eq (tile : UInt8) (offset : Nat) :
    Memory.tileData + 16 * tile.toUInt16 + UInt16.ofNat offset =
      UInt16.ofNat (0x8000 + 16 * tile.toNat + offset) := by
  rw [UInt16.ofNat_add, UInt16.ofNat_add, UInt16.ofNat_mul, UInt16.ofNat_uInt8ToNat]
  rfl

theorem val_rows_tileOf (memory : Memory) (cell : Nat) (y x : Fin 8) :
    let tile := (memory.read (UInt16.ofNat (0x9800 + cell))).toNat
    (((tileOf memory cell).rows.get y).get x).val =
      2 * bitOf (memory.read (UInt16.ofNat (0x8000 + 16 * tile + (2 * y.val + 1)))) (7 - x.val) +
        bitOf (memory.read (UInt16.ofNat (0x8000 + 16 * tile + 2 * y.val))) (7 - x.val) := by
  intro tile
  rw [tileOf, Tile.val_rows_ofMemory, patternAddress_eq, patternAddress_eq, mapAddress_eq]

theorem val_tilePixel (memory : Memory) (i : Fin 65536) :
    (tilePixel memory i).val = memory.shown (i.val % 256) (i.val / 256) := by
  have row : i.val / 2048 = i.val / 256 / 8 := by omega
  have column : i.val % 256 % 8 = i.val % 8 := by omega
  have pixel := val_rows_tileOf memory (32 * (i.val / 2048) + i.val % 256 / 8)
    ⟨i.val / 256 % 8, by omega⟩ ⟨i.val % 8, by omega⟩
  refine pixel.trans ?_
  simp only [Memory.shown, row, column, Nat.add_assoc]

theorem val_sample_compose (memory : Memory) (x y : Nat) :
    ((compose memory).sample x y).val = memory.shown (x % 256) (y % 256) := by
  have pixel := val_tilePixel memory ⟨256 * (y % 256) + x % 256, by omega⟩
  rw [← getElem_compose] at pixel
  have column : (256 * (y % 256) + x % 256) % 256 = x % 256 := by omega
  have row : (256 * (y % 256) + x % 256) / 256 = y % 256 := by omega
  simpa only [sample, column, row, Fin.getElem_fin] using pixel

end Background

namespace Frame

/-- The flat index of a pixel of the screen gives its column and row back. -/
theorem pixel?_extract (background : Background) (scrollX scrollY : UInt8) {x y : Nat}
    (hx : x < 160) (hy : y < 144) :
    (extract background scrollX scrollY).pixel? x y =
      some (background.sample (scrollX.toNat + x) (scrollY.toNat + y)) := by
  have inside : 160 * y + x < 23040 := by omega
  have column : (160 * y + x) % 160 = x := by omega
  have row : (160 * y + x) / 160 = y := by omega
  simp only [pixel?, extract, Vector.getElem?_ofFn, inside, dite_true, column, row]

theorem getElem?_rows (frame : Frame) {y : Nat} (hy : y < 144) :
    ∃ row, frame.rows[y]? = some row ∧ row.length = 160 ∧
      ∀ x < 160, row[x]? = frame.pixel? x y := by
  refine ⟨List.ofFn fun x : Fin 160 => frame.pixels[160 * y + x.val], ?_, List.length_ofFn, ?_⟩
  · rw [rows, List.getElem?_ofFn, dif_pos hy]
  · intro x hx
    have inside : 160 * y + x < 23040 := by omega
    rw [List.getElem?_ofFn, dif_pos hx, pixel?, Vector.getElem?_eq_getElem inside]

/-- Put one after another, the rows are the pixels, none twice and none left out. -/
theorem flatten_rows (frame : Frame) : frame.rows.flatten = frame.pixels.toList := by
  have pixels : frame.pixels.toList = List.ofFn fun i : Fin (144 * 160) => frame.pixels[i.val] := by
    rw [← Vector.toList_ofFn]
    simp
  rw [pixels, List.ofFn_mul]
  simp only [rows, Nat.mul_comm 160]

end Frame

/-- Every pixel of the screen is the one that the bytes of the memory give to the point of the plane
under it, the plane going round at its edges. Plane and screen have these pixels and no others, and
the rows of the screen are its pixels in order. -/
theorem frame_shows_memory (memory : Memory) (scrollX scrollY : UInt8) :
    let background := Background.compose memory
    let frame := Frame.extract background scrollX scrollY
    (∀ x < 160, ∀ y < 144, (frame.pixel? x y).map Fin.val =
      some (memory.shown ((scrollX.toNat + x) % 256) ((scrollY.toNat + y) % 256))) ∧
    background.pixels.toList.length = 65536 ∧
    frame.pixels.toList.length = 160 * 144 ∧
    frame.rows.length = 144 ∧
    (∀ y < 144, ∃ row, frame.rows[y]? = some row ∧ row.length = 160 ∧
      ∀ x < 160, row[x]? = frame.pixel? x y) ∧
    frame.rows.flatten = frame.pixels.toList := by
  intro background frame
  refine ⟨fun x hx y hy => ?_, Vector.length_toList, Vector.length_toList, List.length_ofFn,
    fun y hy => Frame.getElem?_rows frame hy, Frame.flatten_rows frame⟩
  rw [Frame.pixel?_extract background scrollX scrollY hx hy, Option.map_some,
    Background.val_sample_compose]

/-- The last pixel of a screen that goes round both edges of the plane, from the last pattern. -/
theorem frame_shows_last_pattern :
    (159 < 160 ∧ 143 < 144) ∧
      ((Frame.extract (Background.compose ((Memory.blank.write 0x9A33 0xFF).write 0x8FFD 0x02))
        0xFF 0xFF).pixel? 159 143).map Fin.val = some 2 := by
  have shown : ∀ memory : Memory, memory.read 0x9A33 = 0xFF → memory.read 0x8FFD = 0x02 →
      memory.read 0x8FFC = 0 → memory.shown 158 142 = 2 := by
    intro memory tile high low
    simp [Memory.shown, bitOf, tile, high, low]
  have pixel := (frame_shows_memory ((Memory.blank.write 0x9A33 0xFF).write 0x8FFD 0x02)
    0xFF 0xFF).1 159 (by decide) 143 (by decide)
  refine ⟨by decide, pixel.trans (congrArg some (shown _ ?_ ?_ ?_))⟩ <;>
    simp [Memory.read_write, Memory.lineRegister]

end DotMatrix
