import DotMatrix.Report
import DotMatrix.Proofs.Cpu.Step
import DotMatrix.Proofs.Memory.Reading
import DotMatrix.Proofs.Text.HexDump
import DotMatrix.Proofs.Text.Lines

/-!
# Reading reports back

A report has three parts. The headline has five or six words, by the table of its opcode. Three
lines of labelled values show the registers: all of them are in the first two, and the third shows
the flags once more. The dump of the window comes last, since it may have any number of rows. No
line shows anything that looks like its end, so that the parts can be told apart.
-/
namespace DotMatrix

/-! ## Numerals -/

/-- Digits behind the mark of hexadecimal numerals. -/
def marked (digits : List Char) : List Char := "0x".toList ++ digits

@[simp] theorem drop_marked (digits : List Char) : (marked digits).drop 2 = digits := by
  simp [marked]

@[simp] theorem byte_hexValue (byte : UInt8) : UInt8.ofNat (hexValue (hexByte byte)) = byte := by
  rw [hexByte, hexValue_hexNumeral, UInt8.ofNat_toNat]

@[simp] theorem word_hexValue (word : UInt16) : UInt16.ofNat (hexValue (hexWord word)) = word := by
  rw [hexWord, hexValue_hexNumeral, UInt16.ofNat_toNat]

theorem plain_hexNumeral (width n : Nat) : Plain (hexNumeral width n) := by
  have capitals : Plain "0123456789ABCDEF".toList := by decide
  exact List.all_eq_true.2 fun c member =>
    List.all_eq_true.1 capitals c (mem_capitals_of_mem_hexNumeral member)

theorem plain_marked {digits : List Char} (plain : Plain digits) : Plain (marked digits) := by
  simp only [Plain, marked, List.all_append, Bool.and_eq_true]
  exact ⟨by decide, plain⟩

/-! ## Registers -/

namespace Registers

def words (r : Registers) : List (String × UInt16) := [("PC", r.pc), ("SP", r.sp)]

def bytes (r : Registers) : List (String × UInt8) :=
  [("A", r.a), ("F", r.f.toByte), ("B", r.b), ("C", r.c), ("D", r.d), ("E", r.e), ("H", r.h),
    ("L", r.l)]

def flags (r : Registers) : List (String × Bool) :=
  [("Z", r.f.zero), ("N", r.f.subtract), ("H", r.f.halfCarry), ("C", r.f.carry)]

def wordText (word : UInt16) : List Char := marked (hexWord word)

def flagText (flag : Bool) : List Char := [if flag then '1' else '0']

theorem legible_words (r : Registers) : Legible wordText r.words where
  nonempty := List.cons_ne_nil _ _
  labels := by simp [words, Plain]
  values word := plain_marked (plain_hexNumeral 4 word.toNat)

theorem legible_bytes (r : Registers) : Legible hexByte r.bytes where
  nonempty := List.cons_ne_nil _ _
  labels := by simp [bytes, Plain]
  values byte := plain_hexNumeral 2 byte.toNat

theorem legible_flags (r : Registers) : Legible flagText r.flags where
  nonempty := List.cons_ne_nil _ _
  labels := by simp [flags, Plain]
  values flag := by cases flag <;> decide

theorem toList_report (r : Registers) :
    r.report.toList = entryLine wordText r.words ++ '\n' :: (entryLine hexByte r.bytes ++
      '\n' :: (entryLine flagText r.flags ++ ['\n'])) := by
  have flag : ∀ flag : Bool, (if flag then "1" else "0").toList = flagText flag := by
    intro flag
    cases flag <;> simp [flagText]
  unfold report
  simp only [String.toList_append, String.toList_ofList, flag, entryLine, joinWords, labelled]
  simp [words, bytes, flags, wordText, marked, List.intercalate_cons_cons]

/-- Reads the registers from the line of the words and the line of the bytes. -/
def read? (words bytes : List Char) : Option Registers :=
  let word label := (valueOf? label words).map fun text => UInt16.ofNat (hexValue (text.drop 2))
  let byte label := (valueOf? label bytes).map fun text => UInt8.ofNat (hexValue text)
  do
    let pc ← word "PC"
    let sp ← word "SP"
    let a ← byte "A"
    let f ← byte "F"
    let b ← byte "B"
    let c ← byte "C"
    let d ← byte "D"
    let e ← byte "E"
    let h ← byte "H"
    let l ← byte "L"
    return { a, f := Flags.ofByte f, b, c, d, e, h, l, sp, pc }

theorem read?_entryLine (r : Registers) :
    read? (entryLine wordText r.words) (entryLine hexByte r.bytes) = some r := by
  simp only [read?, (legible_words r).valueOf?_entryLine, (legible_bytes r).valueOf?_entryLine,
    Option.map_map, Function.comp_def, wordText, drop_marked, word_hexValue, byte_hexValue,
    Option.map_id']
  -- Every label is found where it stands, so that only the flags are left to compare.
  exact congrArg (fun flags => some { r with f := flags }) r.f.ofByte_toByte

end Registers

theorem Flags.testBit_toByte (flags : Flags) :
    flags.toByte.toNat.testBit 7 = flags.zero ∧ flags.toByte.toNat.testBit 6 = flags.subtract ∧
      flags.toByte.toNat.testBit 5 = flags.halfCarry ∧
      flags.toByte.toNat.testBit 4 = flags.carry := by
  obtain ⟨zero, subtract, halfCarry, carry⟩ := flags
  revert zero subtract halfCarry carry
  decide

/-! ## Headlines -/

/-- The words that stand for an opcode: a second one for the second table. -/
def Opcode.words : Opcode → List (List Char)
  | .primary byte => [marked (hexByte byte)]
  | .extended byte => [marked (hexByte extension), marked (hexByte byte)]

namespace DecodeFault

def headline (fault : DecodeFault) : List (List Char) :=
  "unsupported".toList :: "opcode".toList :: fault.opcode.words ++
    ["at".toList, marked (hexWord fault.address)]

theorem toList_message (fault : DecodeFault) : fault.message.toList = joinWords fault.headline := by
  obtain ⟨opcode, address, registers, window⟩ := fault
  have extension : hexByte Opcode.extension = ['C', 'B'] := by decide
  unfold message
  cases opcode <;>
    simp [headline, Opcode.text, Opcode.words, joinWords, marked, extension,
      List.intercalate_cons_cons]

theorem plain_headline (fault : DecodeFault) : ∀ word ∈ fault.headline, Plain word := by
  have byte (byte : UInt8) : Plain (marked (hexByte byte)) :=
    plain_marked (plain_hexNumeral 2 byte.toNat)
  have word (word : UInt16) : Plain (marked (hexWord word)) :=
    plain_marked (plain_hexNumeral 4 word.toNat)
  obtain ⟨opcode, address, registers, window⟩ := fault
  cases opcode <;> simp [headline, Opcode.words, byte, word] <;> decide

/-- Reads the opcode and its address. The number of words tells the table. -/
def readHeadline? (line : List Char) : Option (Opcode × UInt16) :=
  let byte (word : List Char) := UInt8.ofNat (hexValue (word.drop 2))
  let address (word : List Char) := UInt16.ofNat (hexValue (word.drop 2))
  match line.splitOn ' ' with
  | [_, _, opcode, _, place] => some (.primary (byte opcode), address place)
  | [_, _, _, opcode, _, place] => some (.extended (byte opcode), address place)
  | _ => none

theorem readHeadline?_message (fault : DecodeFault) :
    readHeadline? fault.message.toList = some (fault.opcode, fault.address) := by
  have words : fault.message.toList.splitOn ' ' = fault.headline := by
    rw [toList_message]
    refine splitOn_joinWords (List.cons_ne_nil _ _) fun word member => ?_
    exact (fault.plain_headline word member).notMem rfl
  obtain ⟨opcode, address, registers, window⟩ := fault
  cases opcode <;> simp [readHeadline?, words, headline, Opcode.words]

theorem newline_notMem_message (fault : DecodeFault) : '\n' ∉ fault.message.toList := by
  rw [toList_message]
  exact newline_notMem_joinWords fun word member => (fault.plain_headline word member).notMem rfl

/-! ## Whole reports -/

theorem splitOn_report (fault : DecodeFault) :
    fault.report.toList.splitOn '\n' =
      fault.message.toList :: entryLine Registers.wordText fault.registers.words ::
        entryLine hexByte fault.registers.bytes ::
        entryLine Registers.flagText fault.registers.flags ::
        fault.window.text.toList.splitOn '\n' := by
  have lines : fault.report.toList = fault.message.toList ++ '\n' ::
      (entryLine Registers.wordText fault.registers.words ++ '\n' ::
        (entryLine hexByte fault.registers.bytes ++ '\n' ::
          (entryLine Registers.flagText fault.registers.flags ++ '\n' ::
            fault.window.text.toList))) := by
    simp [report, Registers.toList_report]
  rw [lines, List.splitOn_append_cons_self_of_not_mem fault.newline_notMem_message,
    List.splitOn_append_cons_self_of_not_mem fault.registers.legible_words.newline_notMem,
    List.splitOn_append_cons_self_of_not_mem fault.registers.legible_bytes.newline_notMem,
    List.splitOn_append_cons_self_of_not_mem fault.registers.legible_flags.newline_notMem]

def read? (report : String) : Option DecodeFault :=
  match report.toList.splitOn '\n' with
  | headline :: words :: bytes :: _ :: dump => do
    let (opcode, address) ← readHeadline? headline
    let registers ← Registers.read? words bytes
    let (bytes, start) ← HexDump.read? (String.ofList (['\n'].intercalate dump))
    return { opcode, address, registers, window := { start := UInt16.ofNat start, bytes } }
  | _ => none

theorem read?_report {fault : DecodeFault} (nonempty : fault.window.bytes ≠ []) :
    read? fault.report = some fault := by
  have dump : HexDump.read? fault.window.text =
      some (fault.window.bytes, fault.window.start.toNat) := by
    rw [Window.text, HexDump.read?_hexDump, if_neg nonempty]
  simp [read?, splitOn_report, List.intercalate_splitOn, readHeadline?_message,
    Registers.read?_entryLine, dump]

end DecodeFault

theorem Window.around_ne_nil (read : Reader) (center : UInt16) :
    (around read center).bytes ≠ [] := by
  have := center.toNat_lt
  simp [around, List.range'_eq_nil_iff]
  omega

namespace Cpu

variable {β : Type} [Bus β] {cpu : Cpu} {bus : β} {fault : DecodeFault}

theorem read?_report_of_failed (failed : (cpu.step bus).1 = .error fault) :
    DecodeFault.read? fault.report = some fault := by
  obtain ⟨-, rfl, -⟩ := step_eq_error_iff.1 (Prod.ext failed rfl)
  exact DecodeFault.read?_report (Window.around_ne_nil _ _)

/-- Nothing of a failed step is lost in its report. Everything can be read from it: the opcode and
its table, the address, all registers, and the window with its start. Steps that fail with different
faults are therefore reported differently, whichever processors they are from. The flags are shown
twice, as the byte F and one by one, and both show the same. -/
theorem report_loses_nothing (failed : (cpu.step bus).1 = .error fault) :
    DecodeFault.read? fault.report = some fault ∧
    (∀ {γ : Type} [Bus γ] {cpu' : Cpu} {bus' : γ} {fault' : DecodeFault},
      (cpu'.step bus').1 = .error fault' → fault.report = fault'.report → fault = fault') ∧
    ∃ headline words bytes flags dump, ∃ f : UInt8,
      fault.report.toList.splitOn '\n' = headline :: words :: bytes :: flags :: dump ∧
      valueOf? "F" bytes = some (hexByte f) ∧
      ∀ label place, (label, place) ∈ [("Z", 7), ("N", 6), ("H", 5), ("C", 4)] →
        valueOf? label flags = some [if f.toNat.testBit place then '1' else '0'] := by
  have reads := read?_report_of_failed failed
  refine ⟨reads, fun failed' same => ?_, _, _, _, _, _, fault.registers.f.toByte,
    fault.splitOn_report, ?_, ?_⟩
  · have reads' := read?_report_of_failed failed'
    rw [← same, reads] at reads'
    exact Option.some.inj reads'
  · exact fault.registers.legible_bytes.valueOf?_entryLine "F"
  · -- The digits show the flags, and the bits of F are the flags by their places.
    intro label place member
    rw [fault.registers.legible_flags.valueOf?_entryLine]
    simp only [List.mem_cons, Prod.mk.injEq, List.not_mem_nil, or_false] at member
    obtain ⟨rfl, rfl⟩ | ⟨rfl, rfl⟩ | ⟨rfl, rfl⟩ | ⟨rfl, rfl⟩ := member <;>
      simp [Registers.flags, Registers.flagText, Flags.testBit_toByte, List.lookup_cons]

/-- The opcode has a byte at each end of the address space, and the window ends with its first. -/
theorem report_loses_nothing_at_end :
    let cpu : Cpu := { registers := { f := { zero := true }, pc := 0xFFFF } }
    let bus := (Ram.blank.write 0xFFFF 0xCB).write 0x0000 0x37
    ∃ fault, (cpu.step bus).1 = .error fault ∧ DecodeFault.read? fault.report = some fault ∧
      fault.opcode = .extended 0x37 ∧ fault.window.start = 0xFFEF ∧
      fault.window.bytes.length = 17 := by
  intro cpu bus
  have first : Bus.read bus 0xFFFF = 0xCB := by simp [bus, Bus.read, Ram.read_write]
  have second : Bus.read bus (0xFFFF + 1) = 0x37 := by simp [bus, Bus.read, Ram.read_write]
  have fetched : Opcode.fetch (Bus.read bus) cpu.registers.pc = .extended 0x37 := by
    rw [Opcode.fetch]
    exact (if_pos first).trans (congrArg Opcode.extended second)
  have missing : (Opcode.fetch (Bus.read bus) cpu.registers.pc).instruction? = none := by
    rw [fetched]
    decide
  have window : ∀ read : Reader, (Window.around read 0xFFFF).start = 0xFFEF ∧
      (Window.around read 0xFFFF).bytes.length = 17 := by
    simp [Window.around, Window.radius]
  have failed := congrArg Prod.fst (step_of_missing missing)
  have reports := cpu.fault_reports (Bus.read bus)
  exact ⟨_, failed, (report_loses_nothing failed).1, reports.opcode_eq.trans fetched, window _⟩

end Cpu

end DotMatrix
