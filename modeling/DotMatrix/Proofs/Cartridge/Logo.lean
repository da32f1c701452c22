import Mathlib.Logic.Function.Basic
import DotMatrix.Cartridge.Logo
import DotMatrix.Proofs.Bits
import DotMatrix.Proofs.Text.Lines

/-!
# Logos as pictures

The bits of the 48 bytes and the pixels of the picture go together one to one: the place of a byte
and of a bit in it give a row and a column, and these give the places back. What is shown of a
picture tells all of its pixels, too.
-/
namespace DotMatrix

namespace LogoPicture

/-! ## Packing -/

/-- The row of the pixel in a bit of a byte. -/
def rowOf (index : Fin 48) (bit : Fin 8) : Fin 8 :=
  ⟨4 * (index.val / 24) + 2 * (index.val % 2) + (1 - bit.val / 4), by omega⟩

/-- The column of the pixel in a bit of a byte. -/
def columnOf (index : Fin 48) (bit : Fin 8) : Fin 48 :=
  ⟨4 * (index.val % 24 / 2) + (3 - bit.val % 4), by omega⟩

def packed (picture : LogoPicture) (index : Fin 48) : UInt8 :=
  byteOfBits fun bit => (picture.rows.get (rowOf index bit)).get (columnOf index bit)

def pack (picture : LogoPicture) : Vector UInt8 48 := Vector.ofFn picture.packed

theorem bitIndex_eq (x y : Nat) : bitIndex x y = 4 * (1 - y % 2) + (3 - x % 4) := by
  unfold bitIndex
  split <;> omega

theorem bitIndex_lt (x y : Nat) : bitIndex x y < 8 := by
  rw [bitIndex_eq]
  omega

theorem byteIndex_of_place (index : Fin 48) (bit : Fin 8) :
    byteIndex (columnOf index bit) (rowOf index bit) = index := by
  simp only [byteIndex, columnOf, rowOf]
  omega

theorem bitIndex_of_place (index : Fin 48) (bit : Fin 8) :
    bitIndex (columnOf index bit) (rowOf index bit) = bit := by
  rw [bitIndex_eq]
  simp only [columnOf, rowOf]
  omega

theorem rowOf_index (x : Fin 48) (y : Fin 8) :
    rowOf ⟨byteIndex x y, byteIndex_lt x.isLt y.isLt⟩ ⟨bitIndex x y, bitIndex_lt x y⟩ = y := by
  apply Fin.ext
  simp only [rowOf, byteIndex, bitIndex_eq]
  omega

theorem columnOf_index (x : Fin 48) (y : Fin 8) :
    columnOf ⟨byteIndex x y, byteIndex_lt x.isLt y.isLt⟩ ⟨bitIndex x y, bitIndex_lt x y⟩ = x := by
  apply Fin.ext
  simp only [columnOf, byteIndex, bitIndex_eq]
  omega

theorem get_decode (logo : List UInt8) (x : Fin 48) (y : Fin 8) :
    ((decode logo).rows.get y).get x =
      (logo[byteIndex x y]?.getD 0).toNat.testBit (bitIndex x y) := by
  change (decode logo).rows[y.val][x.val] = _
  simp only [decode, Vector.getElem_ofFn]

theorem testBit_pack (picture : LogoPicture) (index : Fin 48) (bit : Fin 8) :
    (picture.pack.get index).toNat.testBit bit =
      (picture.rows.get (rowOf index bit)).get (columnOf index bit) := by
  change (picture.pack[index.val]).toNat.testBit bit = _
  rw [pack, Vector.getElem_ofFn, packed, testBit_byteOfBits _ bit.isLt]

theorem getD_toList (logo : Vector UInt8 48) (index : Fin 48) :
    logo.toList[index.val]?.getD 0 = logo.get index := by
  rw [Vector.getElem?_toList, Vector.getElem?_eq_getElem index.isLt]
  rfl

theorem pack_decode (logo : Vector UInt8 48) : (decode logo.toList).pack = logo := by
  ext index inside : 1
  refine byte_eq_of_testBit fun bit small => ?_
  have pixel := testBit_pack (decode logo.toList) ⟨index, inside⟩ ⟨bit, small⟩
  rw [get_decode, byteIndex_of_place, bitIndex_of_place, getD_toList] at pixel
  exact pixel

theorem decode_pack (picture : LogoPicture) : decode picture.pack.toList = picture := by
  obtain ⟨rows⟩ := picture
  refine congrArg mk ?_
  ext y hy x hx : 2
  have pixel := get_decode (pack ⟨rows⟩).toList ⟨x, hx⟩ ⟨y, hy⟩
  rw [getD_toList _ ⟨_, byteIndex_lt hx hy⟩] at pixel
  refine pixel.trans ((testBit_pack ⟨rows⟩ _ ⟨_, bitIndex_lt x y⟩).trans ?_)
  rw [rowOf_index ⟨x, hx⟩ ⟨y, hy⟩, columnOf_index ⟨x, hx⟩ ⟨y, hy⟩]
  rfl

/-- What is missing counts as zero, and what is left over does not count. -/
theorem decode_padded (bytes : List UInt8) :
    decode (bytes.take 48 ++ List.replicate (48 - bytes.length) 0) = decode bytes := by
  have read : ∀ index < 48,
      (bytes.take 48 ++ List.replicate (48 - bytes.length) 0)[index]?.getD 0 =
        bytes[index]?.getD 0 := by
    intro index inside
    by_cases present : index < bytes.length
    · rw [List.getElem?_append_left (by rw [List.length_take]; omega),
        List.getElem?_take_of_lt inside]
    · have length : (bytes.take 48).length = bytes.length := by
        rw [List.length_take]
        omega
      rw [List.getElem?_append_right (by omega), length, List.getElem?_replicate, if_pos (by omega),
        List.getElem?_eq_none (Nat.le_of_not_lt present)]
      rfl
  simp only [decode, byteIndex_lt, Fin.isLt, read]

/-- The bit of a pixel within its half byte. -/
theorem testBit_bitIndex (byte x y : Nat) :
    byte.testBit (bitIndex x y) =
      (if y % 2 = 0 then byte / 16 else byte % 16).testBit (3 - x % 4) := by
  rw [bitIndex]
  split
  · rw [Nat.testBit_div_two_pow (n := 4), Nat.add_comm]
  · rw [Nat.testBit_mod_two_pow byte 4, Nat.zero_add, decide_eq_true (by omega), Bool.true_and]

theorem pixel?_decode (logo : Vector UInt8 48) (x : Fin 48) (y : Fin 8) :
    ∃ byte, logo[24 * (y.val / 4) + 2 * (x.val / 4) + y.val % 4 / 2]? = some byte ∧
      (decode logo.toList).pixel? x y =
        some ((if y.val % 2 = 0 then byte.toNat / 16 else byte.toNat % 16).testBit
          (3 - x.val % 4)) := by
  have place := byteIndex_lt x.isLt y.isLt
  have pixel := get_decode logo.toList x y
  rw [getD_toList logo ⟨_, place⟩, testBit_bitIndex] at pixel
  refine ⟨logo.get ⟨byteIndex x y, place⟩, Vector.getElem?_eq_getElem place, ?_⟩
  rw [pixel?, Vector.getElem?_eq_getElem y.isLt, Option.bind_eq_bind, Option.bind_some,
    Vector.getElem?_eq_getElem x.isLt]
  exact congrArg some pixel

/-! ## What is shown -/

def line (row : Vector Bool 48) : List Char := row.toList.map fun set => if set then '█' else ' '

/-- A block where a pixel belongs is a pixel that is set. -/
def ofText (text : String) : LogoPicture where
  rows := Vector.ofFn fun y : Fin 8 => Vector.ofFn fun x : Fin 48 =>
    ((text.toList.splitOn '\n')[y.val]? >>= fun shown => shown[x.val]?) = some '█'

theorem length_line (row : Vector Bool 48) : (line row).length = 48 := by
  rw [line, List.length_map, Vector.length_toList]

theorem toList_text (picture : LogoPicture) :
    picture.text.toList = (picture.rows.toList.map line).flatMap (· ++ ['\n']) := by
  rw [text, String.toList_ofList, List.flatMap_map]
  rfl

theorem newline_notMem_line (row : Vector Bool 48) : '\n' ∉ line row := by
  intro member
  obtain ⟨set, -, shown⟩ := List.mem_map.1 member
  cases set <;> exact absurd shown (by decide)

theorem splitOn_text (picture : LogoPicture) :
    picture.text.toList.splitOn '\n' = picture.rows.toList.map line ++ [[]] := by
  rw [toList_text, splitOn_flatMap]
  intro shown member
  obtain ⟨row, -, rfl⟩ := List.mem_map.1 member
  exact newline_notMem_line row

theorem getElem?_line (row : Vector Bool 48) (x : Fin 48) :
    (line row)[x.val]? = some (if row.get x then '█' else ' ') := by
  rw [line, List.getElem?_map, Vector.getElem?_toList, Vector.getElem?_eq_getElem x.isLt]
  rfl

theorem ofText_text (picture : LogoPicture) : ofText picture.text = picture := by
  obtain ⟨rows⟩ := picture
  refine congrArg mk ?_
  ext y hy x hx : 2
  have row : (rows.toList.map line ++ [[]])[y]? = some (line rows[y]) := by
    rw [List.getElem?_append_left (by simpa using hy), List.getElem?_map, Vector.getElem?_toList,
      Vector.getElem?_eq_getElem hy, Option.map_some]
  have shown : (line rows[y])[x]? = some (if rows[y][x] then '█' else ' ') :=
    getElem?_line rows[y] ⟨x, hx⟩
  simp only [Vector.getElem_ofFn, splitOn_text, row, Option.bind_eq_bind, Option.bind_some, shown]
  cases rows[y][x] <;> rfl

/-- Logos and pictures tell the same. A pixel is a bit of the high half byte if its row is even, and
of the low one if it is odd; the pixels of any logo can be packed into its bytes again, and any
picture comes out of the bytes that it is packed into. With fewer bytes the missing ones are zero, and
more than 48 do not matter. The picture is shown as eight lines of 48 characters, from which it can be
read. -/
theorem decode_matches_layout :
    (∀ logo : Vector UInt8 48, (decode logo.toList).pack = logo ∧
      ∀ (x : Fin 48) (y : Fin 8), ∃ byte,
        logo[24 * (y.val / 4) + 2 * (x.val / 4) + y.val % 4 / 2]? = some byte ∧
        (decode logo.toList).pixel? x y =
          some ((if y.val % 2 = 0 then byte.toNat / 16 else byte.toNat % 16).testBit
            (3 - x.val % 4))) ∧
    (∀ picture : LogoPicture, decode picture.pack.toList = picture) ∧
    Function.Bijective (fun logo : Vector UInt8 48 => decode logo.toList) ∧
    (∀ bytes : List UInt8,
      decode bytes = decode (bytes.take 48 ++ List.replicate (48 - bytes.length) 0)) ∧
    ∀ picture : LogoPicture, ofText picture.text = picture ∧
      ∃ lines : List (List Char), picture.text.toList = lines.flatMap (· ++ ['\n']) ∧
        lines.map List.length = List.replicate 8 48 ∧ '\n' ∉ lines.flatten := by
  refine ⟨fun logo => ⟨pack_decode logo, pixel?_decode logo⟩, decode_pack,
    Function.bijective_iff_has_inverse.2 ⟨pack, pack_decode, decode_pack⟩,
    fun bytes => (decode_padded bytes).symm, fun picture => ⟨ofText_text picture,
      picture.rows.toList.map line, toList_text picture, ?_, ?_⟩⟩
  · have lengths : List.length ∘ line = fun _ => 48 := funext length_line
    rw [List.map_map, lengths, List.map_const', Vector.length_toList]
  · intro member
    obtain ⟨shown, found, inside⟩ := List.mem_flatten.1 member
    obtain ⟨row, -, rfl⟩ := List.mem_map.1 found
    exact newline_notMem_line row inside

end LogoPicture

end DotMatrix
