import DotMatrix.Proofs.Cpu.Subroutine

/-!
# The stack at any depth

Words come back from the stack in the opposite order, up to as many of them as fill the address
space. The stack may go on at the other end of it: two of its cells are the same only if they lie a
whole address space apart.

In the machine's memory one byte may be lost, the one that is pushed into the line register. So a
single word comes back unless it has another byte there than the one that is always read.
-/
namespace DotMatrix

/-- What the cells of a bus read as once a byte has been stored there. -/
def Bus.Settles (β : Type) [Bus β] (shown : UInt16 → UInt8 → UInt8) : Prop :=
  ∀ (bus : β) (address : UInt16) (value : UInt8),
    Bus.read (Bus.write bus address value) address = shown address value

theorem Ram.settles : Bus.Settles Ram fun _ value => value := fun ram address value =>
  Ram.plain address ram value

/-- What a cell of the machine's memory reads as once this byte has been stored there. -/
def Memory.shownAt (address : UInt16) (value : UInt8) : UInt8 :=
  if address = lineRegister then frameComplete else value

theorem Memory.settles : Bus.Settles Memory Memory.shownAt := by
  intro memory address value
  refine (memory.read_write address address value).trans ?_
  rw [if_pos rfl, shownAt]

/-- What is popped of a word whose high byte was pushed to this address, where a stored byte may
read as another. -/
def Word.returned (shown : UInt16 → UInt8 → UInt8) (address word : UInt16) : UInt16 :=
  join (shown address (high word)) (shown (address - 1) (low word))

theorem Word.returned_eq_iff {shown : UInt16 → UInt8 → UInt8} {address word : UInt16} :
    returned shown address word = word ↔
      shown address (high word) = high word ∧ shown (address - 1) (low word) = low word := by
  constructor
  · intro same
    have highs := congrArg high same
    have lows := congrArg low same
    rw [returned, high_join] at highs
    rw [returned, low_join] at lows
    exact ⟨highs, lows⟩
  · rintro ⟨highs, lows⟩
    rw [returned, highs, lows, join_high_low]

namespace Registers

/-- Pushes words, the first one first. -/
def pushAll {β : Type} [Bus β] : Registers → β → List UInt16 → Registers × β
  | r, bus, [] => (r, bus)
  | r, bus, word :: rest =>
    pushAll (r.push word).registers (Bus.apply bus (r.push word).writes) rest

/-- Pops so many words, and gives them in the order in which they come. -/
def popAll : (count : Nat) → Registers → Reader → List UInt16 × Registers
  | 0, r, _ => ([], r)
  | count + 1, r, read => (r.top read :: (popAll count r.drop read).1, (popAll count r.drop read).2)

/-- The word that is popped last. -/
theorem popAll_succ (count : Nat) (r : Registers) (read : Reader) :
    popAll (count + 1) r read =
      ((popAll count r read).1 ++ [(popAll count r read).2.top read],
        (popAll count r read).2.drop) := by
  induction count generalizing r with
  | zero => rfl
  | succ count ih =>
    rw [popAll, ih]
    rfl

theorem drop_push (r : Registers) (word : UInt16) : (r.push word).registers.drop = r := by
  simp [push, drop]

theorem cell_sub_two (sp : UInt16) (offset : Nat) :
    sp - 2 - UInt16.ofNat offset = sp - UInt16.ofNat (offset + 2) := by
  have two : UInt16.ofNat (offset + 2) = UInt16.ofNat offset + 2 := UInt16.ofNat_add _ _
  grind

/-- Cells of the stack that are less than an address space apart are different. -/
theorem cell_ne {sp : UInt16} {offset other : Nat} (below : offset < other) (near : other < 65536) :
    sp - UInt16.ofNat offset ≠ sp - UInt16.ofNat other := by
  intro same
  have offsets : UInt16.ofNat offset = UInt16.ofNat other := by grind
  have values := congrArg UInt16.toNat offsets
  rw [UInt16.toNat_ofNat', UInt16.toNat_ofNat'] at values
  omega

section

variable {β : Type} [Bus β]

/-- Pushing moves the stack pointer, and no other register. -/
theorem registers_pushAll (r : Registers) (bus : β) (words : List UInt16) :
    (r.pushAll bus words).1 = { r with sp := r.sp - UInt16.ofNat (2 * words.length) } := by
  induction words generalizing r bus with
  | nil => simp [pushAll]
  | cons word rest ih =>
    have moved := cell_sub_two r.sp (2 * rest.length)
    rw [pushAll, ih]
    simp only [push, List.length_cons, Nat.mul_add, Nat.mul_one, moved]

variable [LawfulBus β]

/-- Pushing changes no other cells than those that the words take up. -/
theorem read_pushAll_of_outside (r : Registers) (bus : β) (words : List UInt16) {address : UInt16}
    (outside : ∀ offset < 2 * words.length, address ≠ r.sp - UInt16.ofNat offset) :
    Bus.read (r.pushAll bus words).2 address = Bus.read bus address := by
  induction words generalizing r bus with
  | nil => rfl
  | cons word rest ih =>
    rw [List.length_cons] at outside
    have high : address ≠ r.sp := by simpa using outside 0 (by omega)
    have low : address ≠ r.sp - 1 := by simpa using outside 1 (by omega)
    have absent : address ∉ (r.push word).writes.map Write.address := by simp [push, high, low]
    have further : ∀ offset < 2 * rest.length,
        address ≠ (r.push word).registers.sp - UInt16.ofNat offset := by
      intro offset within
      rw [push, cell_sub_two]
      exact outside (offset + 2) (by omega)
    rw [pushAll, ih _ _ further, Bus.read_apply_of_notMem bus absent]

variable {shown : UInt16 → UInt8 → UInt8} (settles : Bus.Settles β shown)
include settles

theorem holds_push_returned (r : Registers) (bus : β) (word : UInt16) :
    Bus.Holds (Bus.apply bus (r.push word).writes) r.sp (Word.returned shown r.sp word) := by
  constructor
  · have kept : Bus.read (Bus.apply bus (r.push word).writes) r.sp =
        Bus.read (Bus.write bus r.sp (Word.high word)) r.sp :=
      LawfulBus.read_write_of_ne _ _ r.sp_ne_sub_one.symm
    rw [kept, settles, Word.returned, Word.high_join]
  · refine (settles _ _ _).trans ?_
    rw [Word.returned, Word.low_join]

/-- As many words as fill the address space come back, as far as the cells that they were pushed to
show what is stored there. -/
theorem popAll_pushAll (r : Registers) (bus : β) (words : List UInt16)
    (fits : words.length ≤ 32768) :
    popAll words.length (r.pushAll bus words).1 (Bus.read (r.pushAll bus words).2) =
      ((words.mapIdx fun i word =>
        Word.returned shown (r.sp - UInt16.ofNat (2 * i)) word).reverse, r) := by
  induction words generalizing r bus with
  | nil => rfl
  | cons word rest ih =>
    rw [List.length_cons] at fits
    let below := (r.push word).registers
    let bus' := Bus.apply bus (r.push word).writes
    -- The words above it leave the first one in its two cells.
    have kept : ∀ offset < 2, Bus.read (below.pushAll bus' rest).2 (r.sp - UInt16.ofNat offset) =
        Bus.read bus' (r.sp - UInt16.ofNat offset) := by
      intro offset high
      apply read_pushAll_of_outside
      intro other within
      rw [show below.sp = r.sp - 2 from rfl, cell_sub_two]
      exact cell_ne (by omega) (by omega)
    have pushed := holds_push_returned settles r bus word
    have holds : Bus.Holds (below.pushAll bus' rest).2 r.sp (Word.returned shown r.sp word) := by
      constructor
      · simpa using (kept 0 (by decide)).trans (by simpa using pushed.high)
      · exact (kept 1 (by decide)).trans pushed.low
    have popped := ih below bus' (by omega)
    have top : below.top (Bus.read (below.pushAll bus' rest).2) = Word.returned shown r.sp word :=
      top_of_holds holds rfl
    have cells : ∀ i, below.sp - UInt16.ofNat (2 * i) = r.sp - UInt16.ofNat (2 * (i + 1)) :=
      fun i => cell_sub_two r.sp (2 * i)
    have first : r.sp - UInt16.ofNat (2 * 0) = r.sp := UInt16.sub_zero r.sp
    rw [List.length_cons, popAll_succ, pushAll, popped, top, drop_push, List.mapIdx_cons,
      List.reverse_cons, first]
    simp only [cells]

end

theorem ram_pushAll (r : Registers) (memory : Memory) (words : List UInt16) :
    (r.pushAll memory words).2.ram = (r.pushAll memory.ram words).2 := by
  induction words generalizing r memory with
  | nil => rfl
  | cons word rest ih => exact ih _ _

/-- Any words that fit on the stack come back in the opposite order when as many are popped, and all
registers are then as before; meanwhile only the stack pointer has moved. On plain memory the words
come back unchanged. In the machine's memory so do all their bytes but the one that was pushed into
the line register; that one is read as the line. No other cells have changed than those of the
words. A single word comes back unless one of its bytes is in the line register and is not the one
that is read there. -/
theorem pops_return_pushes (r : Registers) (words : List UInt16) (fits : words.length ≤ 32768) :
    (∀ ram : Ram,
      let after := r.pushAll ram words
      after.1 = { r with sp := r.sp - UInt16.ofNat (2 * words.length) } ∧
      popAll words.length after.1 after.2.read = (words.reverse, r) ∧
      ∀ address, (∀ offset < 2 * words.length, address ≠ r.sp - UInt16.ofNat offset) →
        after.2.read address = ram.read address) ∧
    (∀ memory : Memory,
      let after := r.pushAll memory words
      after.1 = { r with sp := r.sp - UInt16.ofNat (2 * words.length) } ∧
      popAll words.length after.1 after.2.read =
        ((words.mapIdx fun i word =>
          Word.returned Memory.shownAt (r.sp - UInt16.ofNat (2 * i)) word).reverse, r) ∧
      ∀ address, (∀ offset < 2 * words.length, address ≠ r.sp - UInt16.ofNat offset) →
        after.2.ram.read address = memory.ram.read address ∧
          after.2.read address = memory.read address) ∧
    ∀ (memory : Memory) (word : UInt16),
      (r.push word).registers.top (Bus.apply memory (r.push word).writes).read = word ↔
        ¬ (r.sp = 0xFF44 ∧ Word.high word ≠ 0x90) ∧ ¬ (r.sp = 0xFF45 ∧ Word.low word ≠ 0x90) := by
  refine ⟨fun ram => ⟨r.registers_pushAll ram words, ?_, fun _ =>
      r.read_pushAll_of_outside ram words⟩,
    fun memory => ⟨r.registers_pushAll memory words,
      popAll_pushAll Memory.settles r memory words fits, fun address outside =>
        ⟨?_, r.read_pushAll_of_outside memory words outside⟩⟩, fun memory word => ?_⟩
  · have popped := popAll_pushAll Ram.settles r ram words fits
    have unchanged : (words.mapIdx fun _ word => word) = words :=
      List.ext_getElem List.length_mapIdx fun _ _ _ => List.getElem_mapIdx
    simp only [Word.returned, Word.join_high_low, unchanged] at popped
    exact popped
  · rw [ram_pushAll]
    exact r.read_pushAll_of_outside memory.ram words outside
  · have level : (r.push word).registers.sp = r.sp - 2 := rfl
    have top := top_of_holds (holds_push_returned Memory.settles r memory word) level
    have below : r.sp - 1 = 0xFF44 ↔ r.sp = 0xFF45 := by grind
    change (r.push word).registers.top (Bus.read (Bus.apply memory (r.push word).writes)) = word ↔ _
    rw [top, Word.returned_eq_iff]
    simp only [Memory.shownAt, Memory.lineRegister, Memory.frameComplete, below]
    grind

/-- Two words on a stack that goes on at the other end of the address space, where the cell below
them is left alone, and two of which the first one ends in the line register. -/
theorem pops_return_pushes_around :
    let words : List UInt16 := [0x1234, 0x5678]
    let onRam := ({ sp := 0x0000 } : Registers).pushAll Ram.blank words
    let onMemory := ({ sp := 0xFF45 } : Registers).pushAll Memory.blank words
    (words.length ≤ 32768 ∧ ∀ offset < 2 * words.length, 0xFFFC ≠ 0x0000 - UInt16.ofNat offset) ∧
    popAll 2 onRam.1 onRam.2.read = ([0x5678, 0x1234], { sp := 0x0000 }) ∧
    onRam.2.read 0xFFFC = 0 ∧
    popAll 2 onMemory.1 onMemory.2.read = ([0x5678, 0x1290], { sp := 0xFF45 }) := by
  intro words onRam onMemory
  have fits : words.length ≤ 32768 := by decide
  have outside : ∀ offset < 2 * words.length, 0xFFFC ≠ 0x0000 - UInt16.ofNat offset := by decide
  obtain ⟨-, popped, kept⟩ := (pops_return_pushes { sp := 0x0000 } words fits).1 Ram.blank
  obtain ⟨-, popped', -⟩ := (pops_return_pushes { sp := 0xFF45 } words fits).2.1 Memory.blank
  exact ⟨⟨fits, outside⟩, popped, (kept 0xFFFC outside).trans (Ram.read_blank _), popped'⟩

end Registers

end DotMatrix
