import Mathlib.Data.List.Basic
import DotMatrix.Proofs.Text.Hexadecimal
import DotMatrix.Proofs.Text.Lines
import DotMatrix.Proofs.Text.Padding
import DotMatrix.Text.HexDump

/-!
# Reading dumps back

A row ends at its newline, since nothing that is shown in one is a newline, and its address ends at the
first blank. From there on every byte has its own column, so that it does not matter which characters
stand between the bars. A dump of at least one byte therefore tells the bytes and the address of the
first.
-/
namespace DotMatrix

namespace HexDump

/-- Where the digits of a byte are in a row, behind an address of so many digits. -/
def column (digits k : Nat) : Nat := digits + 2 + 3 * k + k / 8

/-- A row up to the first bar. -/
def front (address : Nat) (bytes : List UInt8) : List Char :=
  hexNumeral 4 address ++ [' ', ' '] ++ group bytes 0 ++ [' '] ++ group bytes 8 ++ [' ']

/-- A row without the newline that ends it. -/
def line (address : Nat) (bytes : List UInt8) : List Char :=
  front address bytes ++ '|' :: bytes.map printable ++ ['|']

/-- The bytes of the row with this number. -/
def chunk (bytes : List UInt8) (index : Nat) : List UInt8 := (bytes.drop (16 * index)).take 16

def lines (address : Nat) (bytes : List UInt8) : List (List Char) :=
  (List.range ((bytes.length + 15) / 16)).map fun index =>
    line (address + 16 * index) (chunk bytes index)

/-! ## The reader -/

def addressOf (line : List Char) : List Char := line.takeWhile (· ≠ ' ')

/-- Reads a byte from its two digits. -/
def byte? : List Char → Option UInt8
  | [high, low] => do
    let high ← digitValue? 16 high
    let low ← digitValue? 16 low
    return UInt8.ofNat (16 * high + low)
  | _ => none

/-- The bytes that are in their columns. -/
def bytesOf (line : List Char) : List UInt8 :=
  (List.range 16).filterMap fun k => byte? ((line.drop (column (addressOf line).length k)).take 2)

/-- Reads the bytes of a dump and the address of the first one. -/
def read? (dump : String) : Option (List UInt8 × Nat) :=
  let lines := (dump.toList.splitOn '\n').dropLast
  lines.head?.map fun first => (lines.flatMap bytesOf, hexValue (addressOf first))

/-! ## Columns -/

@[simp] theorem length_cell (byte : Option UInt8) : (cell byte).length = 3 := by
  cases byte with
  | none => rfl
  | some byte =>
    rw [cell, lowerHexByte_eq]
    rfl

theorem take_cell (byte : Option UInt8) :
    (cell byte).take 2 = byte.elim [' ', ' '] lowerHexByte := by
  cases byte with
  | none => rfl
  | some byte =>
    rw [cell, Option.elim, lowerHexByte_eq]
    rfl

/-- A cell tells whether there is a byte, and which one. -/
theorem byte?_cell (byte : Option UInt8) : byte? ((cell byte).take 2) = byte := by
  rw [take_cell]
  cases byte with
  | none => decide
  | some byte =>
    have high : byte.toNat / 16 < 16 := Nat.div_lt_of_lt_mul byte.toNat_lt
    have low : byte.toNat % 16 < 16 := Nat.mod_lt _ (by decide)
    have read : byte? (lowerHexByte byte) =
        some (UInt8.ofNat (16 * (byte.toNat / 16) + byte.toNat % 16)) := by
      rw [lowerHexByte_eq, byte?, digitValue?_lowerDigitChar high, digitValue?_lowerDigitChar low]
      rfl
    rw [Option.elim, read, Nat.div_add_mod, UInt8.ofNat_toNat]

theorem length_flatMap_cell (bytes : List UInt8) (columns : List Nat) :
    (columns.flatMap fun column => cell bytes[column]?).length = 3 * columns.length := by
  induction columns with
  | nil => rfl
  | cons column rest ih =>
    rw [List.flatMap_cons, List.length_append, length_cell, ih, List.length_cons]
    omega

@[simp] theorem length_group (bytes : List UInt8) (first : Nat) : (group bytes first).length = 24 :=
  length_flatMap_cell bytes (List.range' first 8)

theorem group_split (bytes : List UInt8) (first : Nat) {k : Nat} (inside : k < 8) :
    ∃ before after, group bytes first = before ++ (cell bytes[first + k]? ++ after) ∧
      before.length = 3 * k := by
  have split : List.range' first 8 =
      List.range' first k ++ (first + k) :: List.range' (first + k + 1) (7 - k) := by
    rw [← List.range'_succ, List.range'_append_1]
    congr 1
    omega
  refine ⟨(List.range' first k).flatMap fun column => cell bytes[column]?,
    (List.range' (first + k + 1) (7 - k)).flatMap fun column => cell bytes[column]?, ?_, ?_⟩
  · rw [group, split, List.flatMap_append, List.flatMap_cons]
  · rw [length_flatMap_cell, List.length_range']

/-- Every byte of a row stands in its column, and one that is missing leaves it blank. -/
theorem line_split (address : Nat) (bytes : List UInt8) {k : Nat} (inside : k < 16) :
    ∃ before after, line address bytes = before ++ (cell bytes[k]? ++ after) ∧
      before.length = column (hexNumeral 4 address).length k := by
  by_cases left : k < 8
  · obtain ⟨before, after, split, length⟩ := group_split bytes 0 left
    refine ⟨hexNumeral 4 address ++ [' ', ' '] ++ before, after ++ [' '] ++ group bytes 8 ++
      [' '] ++ '|' :: bytes.map printable ++ ['|'], ?_, ?_⟩
    · rw [line, front, split, Nat.zero_add]
      simp only [List.append_assoc]
    · simp only [List.length_append, length, column, Nat.div_eq_of_lt left]
      rfl
  · obtain ⟨k, rfl⟩ := Nat.exists_eq_add_of_le (Nat.le_of_not_lt left)
    obtain ⟨before, after, split, length⟩ := group_split bytes 8 (Nat.lt_of_add_lt_add_left inside)
    refine ⟨hexNumeral 4 address ++ [' ', ' '] ++ group bytes 0 ++ [' '] ++ before, after ++
      [' '] ++ '|' :: bytes.map printable ++ ['|'], ?_, ?_⟩
    · rw [line, front, split]
      simp only [List.append_assoc]
    · simp only [List.length_append, length, length_group, column, List.length_cons, List.length_nil]
      omega

theorem take_drop_line (address : Nat) (bytes : List UInt8) {k : Nat} (inside : k < 16) :
    ((line address bytes).drop (column (hexNumeral 4 address).length k)).take 2 =
      (cell bytes[k]?).take 2 := by
  obtain ⟨before, after, split, length⟩ := line_split address bytes inside
  rw [split, ← length, List.drop_left, List.take_append_of_le_length (by rw [length_cell]; decide)]

/-! ## Characters -/

theorem mem_cell {byte : Option UInt8} {c : Char} (member : c ∈ cell byte) :
    c ∈ " 0123456789abcdef".toList := by
  cases byte with
  | none =>
    obtain rfl : c = ' ' := by simpa [cell] using member
    decide
  | some byte =>
    have small : ∀ digit : Fin 16, digit.val.digitChar ∈ " 0123456789abcdef".toList := by decide
    rw [cell, lowerHexByte_eq] at member
    simp only [List.cons_append, List.nil_append, List.mem_cons, List.not_mem_nil, or_false]
      at member
    obtain rfl | rfl | rfl := member
    · exact small ⟨_, Nat.div_lt_of_lt_mul byte.toNat_lt⟩
    · exact small ⟨_, Nat.mod_lt _ (by decide)⟩
    · decide

theorem mem_group {bytes : List UInt8} {first : Nat} {c : Char} (member : c ∈ group bytes first) :
    c ∈ " 0123456789abcdef".toList := by
  obtain ⟨_, -, inCell⟩ := List.mem_flatMap.1 member
  exact mem_cell inCell

/-- There are only digits and blanks before the first bar. -/
theorem mem_front {address : Nat} {bytes : List UInt8} {c : Char}
    (member : c ∈ front address bytes) : c ∈ " 0123456789ABCDEFabcdef".toList := by
  have capitals : "0123456789ABCDEF".toList ⊆ " 0123456789ABCDEFabcdef".toList := by decide
  have small : " 0123456789abcdef".toList ⊆ " 0123456789ABCDEFabcdef".toList := by decide
  have blanks : [' ', ' '] ⊆ " 0123456789ABCDEFabcdef".toList := by decide
  have blank : [' '] ⊆ " 0123456789ABCDEFabcdef".toList := by decide
  simp only [front, List.mem_append] at member
  obtain ((((numeral | gap) | left) | gap) | right) | gap := member
  · exact capitals (mem_capitals_of_mem_hexNumeral numeral)
  · exact blanks gap
  · exact small (mem_group left)
  · exact blank gap
  · exact small (mem_group right)
  · exact blank gap

theorem bar_notMem_front (address : Nat) (bytes : List UInt8) : '|' ∉ front address bytes :=
  fun member => absurd (mem_front member) (by decide)

theorem printable_ne_newline (byte : UInt8) : printable byte ≠ '\n' := by
  have all : ∀ n : Fin 127, 0x20 ≤ n.val → Char.ofNat n.val ≠ '\n' := by decide
  rw [printable]
  split
  next shown => exact all ⟨byte.toNat, shown.2⟩ shown.1
  next => decide

/-- No byte breaks its row. -/
theorem newline_notMem_line (address : Nat) (bytes : List UInt8) : '\n' ∉ line address bytes := by
  intro member
  simp only [line, List.mem_append, List.mem_cons, List.mem_map, List.not_mem_nil, or_false] at member
  obtain (before | bar | ⟨byte, -, shown⟩) | bar := member
  · exact absurd (mem_front before) (by decide)
  · exact absurd bar (by decide)
  · exact printable_ne_newline byte shown
  · exact absurd bar (by decide)

/-! ## Rows -/

theorem row_eq (address : Nat) (bytes : List UInt8) :
    row address bytes = line address bytes ++ ['\n'] := by
  simp [row, line, front]

theorem lines_of_ne_nil (address : Nat) {bytes : List UInt8} (nonempty : bytes ≠ []) :
    lines address bytes =
      line address (bytes.take 16) :: lines (address + 16) (bytes.drop 16) := by
  have count : (bytes.length + 15) / 16 = ((bytes.drop 16).length + 15) / 16 + 1 := by
    have positive := List.length_pos_iff.2 nonempty
    rw [List.length_drop]
    omega
  rw [lines, lines, count, List.range_succ_eq_map, List.map_cons, List.map_map]
  refine congrArg₂ List.cons rfl (List.map_congr_left fun index _ => ?_)
  have address_eq : address + 16 * (index + 1) = address + 16 + 16 * index := by omega
  have chunk_eq : chunk bytes (index + 1) = chunk (bytes.drop 16) index := by
    rw [chunk, chunk, List.drop_drop, Nat.mul_succ, Nat.add_comm]
  rw [Function.comp_apply, Nat.succ_eq_add_one, address_eq, chunk_eq]

theorem rows_eq (address : Nat) (bytes : List UInt8) :
    rows address bytes = (lines address bytes).flatMap (· ++ ['\n']) := by
  induction address, bytes using rows.induct with
  | case1 => rw [rows]; rfl
  | case2 address byte rest ih =>
    rw [rows, lines_of_ne_nil address (List.cons_ne_nil byte rest), List.flatMap_cons, row_eq, ih]

theorem newline_notMem_of_mem_lines {address : Nat} {bytes : List UInt8} {text : List Char}
    (member : text ∈ lines address bytes) : '\n' ∉ text := by
  obtain ⟨index, -, rfl⟩ := List.mem_map.1 member
  exact newline_notMem_line _ _

theorem splitOn_hexDump (bytes : List UInt8) (address : Nat) :
    (hexDump bytes address).toList.splitOn '\n' = lines address bytes ++ [[]] := by
  rw [hexDump, String.toList_ofList, rows_eq,
    splitOn_flatMap fun text => newline_notMem_of_mem_lines]

/-! ## Reading back -/

theorem addressOf_line (address : Nat) (bytes : List UInt8) :
    addressOf (line address bytes) = hexNumeral 4 address := by
  have digits : ∀ c ∈ hexNumeral 4 address, decide (c ≠ ' ') = true := by
    intro c member
    have capital := mem_capitals_of_mem_hexNumeral member
    rw [decide_eq_true_eq]
    rintro rfl
    revert capital
    decide
  simp only [addressOf, line, front, List.append_assoc]
  rw [List.takeWhile_append_of_pos digits]
  simp

theorem filterMap_range (bytes : List UInt8) (count : Nat) :
    (List.range count).filterMap (fun k => bytes[k]?) = bytes.take count := by
  induction count with
  | zero => rfl
  | succ count ih =>
    rw [List.range_succ, List.filterMap_append, ih, List.take_add_one]
    cases found : bytes[count]? <;> simp [found]

theorem bytesOf_line (address : Nat) (bytes : List UInt8) :
    bytesOf (line address bytes) = bytes.take 16 := by
  rw [bytesOf, ← filterMap_range]
  apply List.filterMap_congr
  intro k member
  rw [addressOf_line, take_drop_line address bytes (List.mem_range.1 member), byte?_cell]

theorem flatMap_bytesOf_lines (address : Nat) (bytes : List UInt8) :
    (lines address bytes).flatMap bytesOf = bytes := by
  induction address, bytes using rows.induct with
  | case1 => rfl
  | case2 address byte rest ih =>
    rw [lines_of_ne_nil address (List.cons_ne_nil byte rest), List.flatMap_cons, ih, bytesOf_line,
      List.take_take, Nat.min_self, List.take_append_drop]

/-- Reading a dump gives back what it shows, if there is anything. -/
theorem read?_hexDump (bytes : List UInt8) (address : Nat) :
    read? (hexDump bytes address) = if bytes = [] then none else some (bytes, address) := by
  rw [read?, splitOn_hexDump, List.dropLast_concat, flatMap_bytesOf_lines]
  by_cases empty : bytes = []
  · subst empty
    rfl
  · rw [lines_of_ne_nil address empty, if_neg empty, List.head?_cons, Option.map_some,
      addressOf_line, hexValue_hexNumeral]

theorem eq_of_hexDump_eq {bytes other : List UInt8} {address otherAddress : Nat}
    (nonempty : bytes ≠ []) (same : hexDump bytes address = hexDump other otherAddress) :
    bytes = other ∧ address = otherAddress := by
  have read := read?_hexDump bytes address
  rw [same, read?_hexDump, if_neg nonempty] at read
  by_cases empty : other = []
  · rw [if_pos empty] at read
    cases read
  · rw [if_neg empty] at read
    cases read
    exact ⟨rfl, rfl⟩

/-- A dump of at least one byte can be read back, so that different ones differ. Its rows end at the
newlines and show sixteen bytes each, but for the last one. A row starts with its address. Each byte has
its column, which depends on how long the address is only, and is blank where there is none. Between the
first bar and the one at the end every byte has one character, whatever that is. -/
theorem hexDump_loses_nothing :
    (∀ bytes address, bytes ≠ [] → read? (hexDump bytes address) = some (bytes, address)) ∧
    (∀ bytes other address otherAddress, bytes ≠ [] →
      hexDump bytes address = hexDump other otherAddress →
        bytes = other ∧ address = otherAddress) ∧
    ∀ bytes address, ∃ rows : List (List Char),
      (hexDump bytes address).toList = rows.flatMap (· ++ ['\n']) ∧ (∀ row ∈ rows, '\n' ∉ row) ∧
      rows.length = (bytes.length + 15) / 16 ∧
      ∀ index (inside : index < rows.length),
        let shown := (bytes.drop (16 * index)).take 16
        ∃ digits,
          (Padded 4 digits ∧ (∀ c ∈ digits, c ∈ "0123456789ABCDEF".toList) ∧
            hexValue digits = address + 16 * index) ∧
          (∃ rest, rows[index] = digits ++ [' ', ' '] ++ rest) ∧
          (∀ k < 16, (rows[index].drop (column digits.length k)).take 2 =
            shown[k]?.elim [' ', ' '] lowerHexByte) ∧
          ∃ before, '|' ∉ before ∧
            rows[index] = before ++ '|' :: shown.map printable ++ ['|'] := by
  refine ⟨fun bytes address nonempty => ?_, fun _ _ _ _ => eq_of_hexDump_eq, fun bytes address =>
    ⟨lines address bytes, ?_, ?_, ?_, fun index inside => ?_⟩⟩
  · rw [read?_hexDump, if_neg nonempty]
  · rw [hexDump, String.toList_ofList, rows_eq]
  · exact fun row => newline_notMem_of_mem_lines
  · rw [lines, List.length_map, List.length_range]
  intro shown
  have row : (lines address bytes)[index] = line (address + 16 * index) shown := by
    simp only [lines, List.getElem_map, List.getElem_range, chunk, shown]
  rw [row]
  refine ⟨hexNumeral 4 (address + 16 * index), ⟨padded_hexNumeral (by decide) _,
    fun c => mem_capitals_of_mem_hexNumeral, hexValue_hexNumeral 4 _⟩, ?_, fun k inside => ?_,
    front (address + 16 * index) shown, bar_notMem_front _ _, rfl⟩
  · rw [line, front]
    simp only [List.append_assoc]
    exact ⟨_, rfl⟩
  · rw [take_drop_line _ _ inside, take_cell]

/-- Bars, newlines and characters that look like digits do not matter, nor that the second address is
longer than the first. -/
theorem hexDump_loses_nothing_of_bars :
    let bytes : List UInt8 := List.replicate 16 0x7C ++ [0x0A, 0x7C, 0x20, 0x41]
    bytes ≠ [] ∧ read? (hexDump bytes 0xFFF8) = some (bytes, 0xFFF8) ∧
      ∃ rows : List (List Char), (hexDump bytes 0xFFF8).toList = rows.flatMap (· ++ ['\n']) ∧
        rows.length = 2 := by
  intro bytes
  obtain ⟨reads, -, rowsOf⟩ := hexDump_loses_nothing
  obtain ⟨rows, text, -, count, -⟩ := rowsOf bytes 0xFFF8
  exact ⟨by decide, reads bytes 0xFFF8 (by decide), rows, text, count.trans (by decide)⟩

end HexDump

end DotMatrix
