import Mathlib.Logic.Function.Basic
import DotMatrix.Proofs.Bits
import DotMatrix.Proofs.Video.Picture

/-!
# Tiles as bit planes

A row of a tile is two bytes: one of the low bits of its pixels, one of the high bits. Bytes and
tiles are told apart by the bits in these planes, and each bit of a byte is that of one pixel. So
packing undoes decoding, and decoding undoes packing.
-/
namespace DotMatrix

theorem Shade.testBit_ofBits (low high : Bool) (plane : Fin 2) :
    (ofBits low high).val.testBit plane = if plane = 0 then low else high := by
  revert low high plane
  decide

theorem Shade.eq_of_testBit {shade other : Shade}
    (same : ∀ plane : Fin 2, shade.val.testBit plane = other.val.testBit plane) :
    shade = other := by
  revert shade other
  decide

namespace Tile

/-- The byte at this place: the low bits of a row if the place is even, the high bits if it is odd,
the leftmost pixel in the highest bit. -/
def packed (tile : Tile) (index : Fin 16) : UInt8 :=
  byteOfBits fun bit => tile.rows[index.val / 2][7 - bit.val].val.testBit (index.val % 2)

def pack (tile : Tile) : Vector UInt8 16 := Vector.ofFn tile.packed

theorem testBit_decode (bytes : Vector UInt8 16) {x y : Nat} (hx : x < 8) (hy : y < 8)
    (plane : Fin 2) :
    (decode bytes).rows[y][x].val.testBit plane =
      bytes[2 * y + plane.val].toNat.testBit (7 - x) := by
  simp only [decode, Vector.getElem_ofFn, Shade.testBit_ofBits]
  obtain rfl | rfl : plane = 0 ∨ plane = 1 := by omega
  · rfl
  · rfl

theorem testBit_pack (tile : Tile) {x y : Nat} (hx : x < 8) (hy : y < 8) (plane : Fin 2) :
    tile.pack[2 * y + plane.val].toNat.testBit (7 - x) = tile.rows[y][x].val.testBit plane := by
  have row : (2 * y + plane.val) / 2 = y := by omega
  have kind : (2 * y + plane.val) % 2 = plane.val := by omega
  have column : 7 - (7 - x) = x := by omega
  simp only [pack, packed, Vector.getElem_ofFn]
  rw [testBit_byteOfBits _ (by omega)]
  simp only [row, kind, column]

theorem pack_decode (bytes : Vector UInt8 16) : (decode bytes).pack = bytes := by
  ext index inside : 1
  refine byte_eq_of_testBit fun k small => ?_
  have place : 2 * (index / 2) + index % 2 = index := by omega
  have column : 7 - (7 - k) = k := by omega
  have x : 7 - k < 8 := by omega
  have y : index / 2 < 8 := by omega
  have bit := (testBit_pack (decode bytes) x y ⟨index % 2, by omega⟩).trans
    (testBit_decode bytes x y _)
  simpa only [place, column] using bit

theorem decode_pack (tile : Tile) : decode tile.pack = tile := by
  obtain ⟨rows⟩ := tile
  refine congrArg mk ?_
  ext y hy x hx : 2
  exact Shade.eq_of_testBit fun plane =>
    (testBit_decode _ hx hy plane).trans (testBit_pack ⟨rows⟩ hx hy plane)

theorem ofMemory_eq (memory : Memory) (base : UInt16) :
    ofMemory memory base = decode (Vector.ofFn fun offset : Fin 16 =>
      memory.read (UInt16.ofNat ((base.toNat + offset.val) % 0x10000))) := by
  have address : ∀ offset : Fin 16, base + UInt16.ofNat offset.val =
      UInt16.ofNat ((base.toNat + offset.val) % 0x10000) := by
    intro offset
    apply UInt16.toNat_inj.1
    rw [UInt16.toNat_add, UInt16.toNat_ofNat', UInt16.toNat_ofNat']
    omega
  rw [ofMemory, Memory.bytesAt]
  simp only [address]

theorem pixel?_decode (bytes : Vector UInt8 16) (x y : Fin 8) :
    ∃ low high shade, bytes[2 * y.val]? = some low ∧ bytes[2 * y.val + 1]? = some high ∧
      (decode bytes).pixel? x y = some shade ∧
      shade.val = 2 * bitOf high (7 - x.val) + bitOf low (7 - x.val) := by
  refine ⟨bytes[2 * y.val], bytes[2 * y.val + 1], (decode bytes).rows[y.val][x.val],
    Vector.getElem?_eq_getElem _, Vector.getElem?_eq_getElem _, ?_, ?_⟩
  · rw [pixel?, Vector.getElem?_eq_getElem y.isLt, Option.bind_eq_bind, Option.bind_some,
      Vector.getElem?_eq_getElem x.isLt]
  · simp only [decode, Vector.getElem_ofFn, Shade.val_ofBits, bitOf, Nat.toNat_testBit]

/-- Sixteen bytes and the tile in them tell the same. The pixels are the numbers that two bits make,
one from each plane of their row, with the leftmost pixel in bit 7. Packed into planes again they
give back the bytes, whichever these were, and every tile comes out of the bytes that it is packed
into. A tile of the memory is decoded from what reads at sixteen addresses in a row; the last address
of all is followed by the first. -/
theorem decode_matches_planes :
    (∀ bytes : Vector UInt8 16, (decode bytes).pack = bytes ∧
      ∀ x y : Fin 8, ∃ low high shade,
        bytes[2 * y.val]? = some low ∧ bytes[2 * y.val + 1]? = some high ∧
        (decode bytes).pixel? x y = some shade ∧ shade.val < 4 ∧
        shade.val = 2 * bitOf high (7 - x.val) + bitOf low (7 - x.val)) ∧
    (∀ tile : Tile, decode tile.pack = tile) ∧
    Function.Bijective decode ∧
    ∀ (memory : Memory) (base : UInt16),
      ofMemory memory base = decode (Vector.ofFn fun offset : Fin 16 =>
        memory.read (UInt16.ofNat ((base.toNat + offset.val) % 0x10000))) := by
  refine ⟨fun bytes => ⟨pack_decode bytes, fun x y => ?_⟩, decode_pack,
    Function.bijective_iff_has_inverse.2 ⟨pack, pack_decode, decode_pack⟩, ofMemory_eq⟩
  obtain ⟨low, high, shade, first, second, pixel, value⟩ := pixel?_decode bytes x y
  exact ⟨low, high, shade, first, second, pixel, shade.isLt, value⟩

end Tile

end DotMatrix
