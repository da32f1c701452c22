import DotMatrix.Proofs.Cpu.CarryChain

/-!
# Shifting numbers in memory

A number of many bytes is doubled in place by rotating its bytes through the carry flag one after
another, the lowest first. HL goes along, and moving it leaves the flags alone, so that the bit that
a byte loses comes into the next one. As in a chain of sums there is a balance: the bytes left so
far, and the carry at its place, make up twice the bytes that were there and the first carry.

The number may go on at the other end of the address space, as may the program. They must not meet.
-/
namespace DotMatrix

/-- Neighbouring cells, going from the last address on to the first. -/
def Word.row (address : UInt16) : (count : Nat) → List UInt16
  | 0 => []
  | count + 1 => address :: row (address + 1) count

theorem Word.length_row (address : UInt16) (count : Nat) : (row address count).length = count := by
  induction count generalizing address with
  | zero => rfl
  | succ count ih => rw [row, List.length_cons, ih]

theorem Word.mem_row_iff {address cell : UInt16} {count : Nat} :
    cell ∈ row address count ↔ ∃ i < count, cell = address + UInt16.ofNat i := by
  induction count generalizing address with
  | zero => simp [row]
  | succ count ih =>
    rw [row, List.mem_cons, ih]
    constructor
    · rintro (rfl | ⟨i, within, rfl⟩)
      · exact ⟨0, Nat.succ_pos _, by simp⟩
      · exact ⟨i + 1, Nat.succ_lt_succ within, (add_ofNat_succ address i).symm⟩
    · rintro ⟨i, within, rfl⟩
      cases i with
      | zero => simp
      | succ i => exact .inr ⟨i, Nat.lt_of_succ_lt_succ within, add_ofNat_succ address i⟩

/-- A row that fills the address space leaves out no cell. -/
theorem Word.mem_row_of_le {count : Nat} (fills : 65536 ≤ count) (address cell : UInt16) :
    cell ∈ row address count := by
  have := (cell - address).toNat_lt
  refine mem_row_iff.2 ⟨(cell - address).toNat, by omega, ?_⟩
  rw [UInt16.ofNat_toNat, UInt16.add_comm, UInt16.sub_add_cancel]

/-- A shorter one does not come back to its first cell. -/
theorem Word.notMem_row_add_one {address : UInt16} {count : Nat} (short : count < 65536) :
    address ∉ row (address + 1) count := by
  rw [mem_row_iff]
  rintro ⟨i, within, same⟩
  have := address.toNat_lt
  have one : (1 : UInt16).toNat = 1 := rfl
  have numbers := congrArg UInt16.toNat same
  rw [UInt16.toNat_add, UInt16.toNat_add, one, UInt16.toNat_ofNat'] at numbers
  omega

theorem Word.nodup_row {count : Nat} (fits : count ≤ 65536) (address : UInt16) :
    (row address count).Nodup := by
  induction count generalizing address with
  | zero => exact List.nodup_nil
  | succ count ih => exact List.nodup_cons.2 ⟨notMem_row_add_one fits, ih (by omega) _⟩

namespace Bus

variable {β : Type} [Bus β] {bus : β} {address : UInt16} {count : Nat}

/-- The bytes in a row of cells. -/
def bytesAt (bus : β) (address : UInt16) (count : Nat) : List UInt8 :=
  (Word.row address count).map (Bus.read bus)

theorem length_bytesAt : (bytesAt bus address count).length = count := by
  rw [bytesAt, List.length_map, Word.length_row]

/-- Bytes that are written to a row of plain cells are found there. -/
theorem bytesAt_apply [LawfulBus β] {writes : List Write} (fits : count ≤ 65536)
    (addresses : writes.map Write.address = Word.row address count)
    (plain : ∀ cell ∈ Word.row address count, Bus.Plain β cell) :
    bytesAt (Bus.apply bus writes) address count = writes.map Write.value := by
  have once : (writes.map Write.address).Nodup := addresses ▸ Word.nodup_row fits address
  rw [bytesAt, ← addresses, List.map_map]
  apply List.map_congr_left
  intro write member
  have cell : write.address ∈ Word.row address count := addresses ▸ List.mem_map_of_mem member
  exact read_apply_of_mem bus (plain _ cell) once member

end Bus

/-- Rotating doubles a byte and takes the carry in; the bit that is lost counts 256. -/
theorem Alu.balance_rotateLeft (flags : Flags) (value : UInt8) :
    (rotateLeft flags value).value.toNat + 256 * (rotateLeft flags value).flags.carry.toNat =
      2 * value.toNat + flags.carry.toNat := by
  have := value.toNat_lt
  have := flags.carry.toNat_lt
  have turned : (2 * value.toNat + flags.carry.toNat) % 512 =
      256 * (rotateLeft flags value).flags.carry.toNat + (rotateLeft flags value).value.toNat :=
    Reference.File.turned_ofRegisters { f := flags } value
  omega

/-- So many times `RL (HL)`, `INC HL`. -/
def shiftCode : Nat → List UInt8
  | 0 => []
  | n + 1 => 0xCB :: 0x16 :: 0x23 :: shiftCode n

theorem length_shiftCode (n : Nat) : (shiftCode n).length = 3 * n := by
  induction n with
  | zero => rfl
  | succ n ih =>
    simp only [shiftCode, List.length_cons, ih]
    omega

namespace Cpu

/-- The processor so many bytes of a number further on, with other flags. -/
def shifted (cpu : Cpu) (f : Flags) (n : UInt16) : Cpu :=
  { cpu with registers := { cpu.registers.setHL (cpu.registers.hl + n) with
      f, pc := cpu.registers.pc + 3 * n } }

theorem hl_shifted (cpu : Cpu) (f : Flags) (n : UInt16) :
    (cpu.shifted f n).registers.hl = cpu.registers.hl + n :=
  cpu.registers.hl_setHL _

theorem shifted_zero (cpu : Cpu) : cpu.shifted cpu.registers.f 0 = cpu := by
  simp [shifted, Registers.setHL, Registers.hl]

theorem shifted_shifted (cpu : Cpu) (f f' : Flags) (n m : UInt16) :
    (cpu.shifted f n).shifted f' m = cpu.shifted f' (n + m) := by
  rw [shifted, hl_shifted]
  simp only [shifted, Registers.setHL, UInt16.add_assoc, UInt16.mul_add]

variable {β : Type} [Bus β] {cpu : Cpu} {bus : β} {rest : List UInt8}

theorem step_rotate (holds : Bus.HoldsCode bus cpu.registers.pc (0xCB :: 0x16 :: rest)) :
    let result := Alu.rotateLeft cpu.registers.f (Bus.read bus cpu.registers.hl)
    cpu.step bus =
      (.ok (), { cpu with registers := { cpu.registers.skip 2 with f := result.flags } },
        Bus.write bus cpu.registers.hl result.value) := by
  obtain ⟨here, behind⟩ := Bus.holdsCode_cons.1 holds
  obtain ⟨selects, -⟩ := Bus.holdsCode_cons.1 behind
  have decodes : Opcode.extended? 0x16 = some (.rotate .atHL) := by decide
  rw [step_extended here selects decodes]
  rfl

theorem step_incrementHL (holds : Bus.HoldsCode bus cpu.registers.pc (0x23 :: rest)) :
    cpu.step bus =
      (.ok (), { cpu with registers := (cpu.registers.skip 1).setHL (cpu.registers.hl + 1) },
        bus) := by
  obtain ⟨here, -⟩ := Bus.holdsCode_cons.1 holds
  have decodes : Opcode.primary? 0x23 = some (.incrementPair .hl) := by decide
  rw [step_primary here decodes]
  rfl

/-- Both steps for one byte. -/
theorem advance_shift [LawfulBus β]
    (holds : Bus.HoldsCode bus cpu.registers.pc (0xCB :: 0x16 :: 0x23 :: rest))
    (apart : cpu.registers.hl ∉ Word.row cpu.registers.pc (rest.length + 3)) :
    let result := Alu.rotateLeft cpu.registers.f (Bus.read bus cpu.registers.hl)
    let next := cpu.shifted result.flags 1
    let after := Bus.write bus cpu.registers.hl result.value
    (∀ steps, cpu.advance (steps + 2) bus = next.advance steps after) ∧
      Bus.HoldsCode after next.registers.pc rest := by
  intro result next after
  have spared : ∀ i < (0xCB :: 0x16 :: 0x23 :: rest).length,
      cpu.registers.hl ≠ cpu.registers.pc + UInt16.ofNat i := fun i within same =>
    apart (Word.mem_row_iff.2 ⟨i, within, same⟩)
  have kept := holds.write spared result.value
  obtain ⟨-, behind⟩ := Bus.holdsCode_cons.1 kept
  obtain ⟨-, behind⟩ := Bus.holdsCode_cons.1 behind
  rw [Word.add_one_add_one] at behind
  obtain ⟨-, further⟩ := Bus.holdsCode_cons.1 behind
  have passed : next.registers.pc = cpu.registers.pc + 2 + 1 := (UInt16.add_assoc _ 2 1).symm
  let turned : Cpu := { cpu with registers := { cpu.registers.skip 2 with f := result.flags } }
  have ready : Bus.HoldsCode after turned.registers.pc (0x23 :: rest) := behind
  have moved : turned.step after = (.ok (), next, after) := by
    refine (step_incrementHL ready).trans ?_
    simp only [next, shifted, turned, Registers.skip, Registers.setHL, UInt16.add_assoc]
    rfl
  refine ⟨fun steps => ?_, passed ▸ further⟩
  rw [advance_succ (step_rotate holds), advance_succ moved]

/-- The bytes of a number have been written anew, each once, and they balance. -/
structure Shifts (cpu : Cpu) (bus : β) (n : Nat) (f : Flags) (writes : List Write) : Prop where
  advance : cpu.advance (2 * n) bus =
    (.ok (), cpu.shifted f (UInt16.ofNat n), Bus.apply bus writes)
  addresses : writes.map Write.address = Word.row cpu.registers.hl n
  balance : littleEndian (writes.map Write.value) + 256 ^ n * f.carry.toNat =
    2 * littleEndian (Bus.bytesAt bus cpu.registers.hl n) + cpu.registers.f.carry.toNat

theorem shifts_nil : Shifts cpu bus 0 cpu.registers.f [] where
  advance := by
    rw [Nat.mul_zero, advance_zero]
    simp [shifted_zero, Bus.apply]
  addresses := rfl
  balance := by simp [littleEndian, Bus.bytesAt, Word.row]

theorem Shifts.cons [LawfulBus β] {value : UInt8} {flags f : Flags} {n : Nat} {writes : List Write}
    (short : n < 65536)
    (onwards : ∀ steps, cpu.advance (steps + 2) bus =
      (cpu.shifted flags 1).advance steps (Bus.write bus cpu.registers.hl value))
    (first : value.toNat + 256 * flags.carry.toNat =
      2 * (Bus.read bus cpu.registers.hl).toNat + cpu.registers.f.carry.toNat)
    (others : Shifts (cpu.shifted flags 1) (Bus.write bus cpu.registers.hl value) n f writes) :
    Shifts cpu bus (n + 1) f (⟨cpu.registers.hl, value⟩ :: writes) where
  advance := by
    have count : 1 + UInt16.ofNat n = UInt16.ofNat (n + 1) := by
      rw [UInt16.ofNat_add, UInt16.add_comm]
      rfl
    rw [Nat.mul_add, onwards, others.advance, shifted_shifted, count]
    rfl
  addresses := by
    rw [List.map_cons, others.addresses, hl_shifted]
    rfl
  balance := by
    have unread : Bus.bytesAt (Bus.write bus cpu.registers.hl value) (cpu.registers.hl + 1) n =
        Bus.bytesAt bus (cpu.registers.hl + 1) n := by
      apply List.map_congr_left
      intro cell member
      refine LawfulBus.read_write_of_ne bus value ?_
      rintro rfl
      exact Word.notMem_row_add_one short member
    have bytes : Bus.bytesAt bus cpu.registers.hl (n + 1) =
        Bus.read bus cpu.registers.hl :: Bus.bytesAt bus (cpu.registers.hl + 1) n := rfl
    have carried : (cpu.shifted flags 1).registers.f = flags := rfl
    have balance := others.balance
    rw [hl_shifted, unread, carried] at balance
    rw [List.map_cons, bytes, littleEndian_cons, littleEndian_cons, pow_succ, mul_right_comm]
    dsimp only
    omega

/-- A program that does not meet the cells of the number leaves room for them. -/
theorem fits_of_apart {hl pc : UInt16} {n : Nat}
    (apart : ∀ cell ∈ Word.row hl n, cell ∉ Word.row pc (3 * n)) : n ≤ 65536 := by
  by_contra long
  have member : hl ∈ Word.row hl n := Word.mem_row_of_le (by omega) _ _
  exact apart hl member (Word.mem_row_of_le (by omega) _ _)

theorem exists_shifts [LawfulBus β] {n : Nat}
    (holds : Bus.HoldsCode bus cpu.registers.pc (shiftCode n))
    (apart : ∀ cell ∈ Word.row cpu.registers.hl n, cell ∉ Word.row cpu.registers.pc (3 * n)) :
    ∃ f writes, Shifts cpu bus n f writes := by
  induction n generalizing cpu bus with
  | zero => exact ⟨_, _, shifts_nil⟩
  | succ n ih =>
    have first := apart cpu.registers.hl (List.mem_cons_self ..)
    have short : 3 * (n + 1) < 65536 := by
      by_contra long
      exact first (Word.mem_row_of_le (Nat.le_of_not_lt long) _ _)
    rw [shiftCode] at holds
    obtain ⟨onwards, further⟩ := advance_shift holds (by rwa [length_shiftCode])
    have passed : cpu.registers.pc + 3 * 1 = cpu.registers.pc + 1 + 1 + 1 := by
      rw [UInt16.add_assoc, UInt16.add_assoc]
      rfl
    obtain ⟨f, writes, others⟩ := ih further (by
      rw [hl_shifted, shifted, passed]
      intro cell member inCode
      refine apart cell (List.mem_cons_of_mem _ member) ?_
      exact List.mem_cons_of_mem _ (List.mem_cons_of_mem _ (List.mem_cons_of_mem _ inCode)))
    exact ⟨f, _, .cons (by omega) onwards (Alu.balance_rotateLeft _ _) others⟩

/-- A balance tells the number that is left, and the carry, which is the highest bit there was. -/
theorem doubled_of_balance {n value doubled : Nat} {carryIn carryOut : Bool}
    (value_lt : value < 256 ^ n) (doubled_lt : doubled < 256 ^ n)
    (balance : doubled + 256 ^ n * carryOut.toNat = 2 * value + carryIn.toNat) :
    doubled = (2 * value + carryIn.toNat) % 256 ^ n ∧
      carryOut = if n = 0 then carryIn else value.testBit (8 * n - 1) := by
  have small := carryIn.toNat_le
  refine ⟨by rw [← balance, Nat.add_mul_mod_self_left, Nat.mod_eq_of_lt doubled_lt], ?_⟩
  cases n with
  | zero =>
    rw [if_pos rfl]
    rw [pow_zero, Nat.lt_one_iff] at value_lt doubled_lt
    rw [value_lt, doubled_lt, pow_zero] at balance
    cases carryIn <;> cases carryOut <;> simp at balance ⊢
  | succ n =>
    have half : 256 ^ (n + 1) = 2 * 2 ^ (8 * (n + 1) - 1) := by
      rw [← pow_succ', show (256 : Nat) = 2 ^ 8 from rfl, ← pow_mul]
      congr 1
    have range : 2 ^ (8 * (n + 1) - 1 + 1) = 2 * 2 ^ (8 * (n + 1) - 1) := pow_succ' ..
    rw [if_neg (Nat.succ_ne_zero n)]
    rw [half] at value_lt doubled_lt balance
    cases carryOut with
    | true =>
      rw [Bool.toNat_true] at balance
      exact (Nat.testBit_of_two_pow_le_and_two_pow_add_one_gt (by omega) (by omega)).symm
    | false =>
      rw [Bool.toNat_false] at balance
      exact (Nat.testBit_lt_two_pow (by omega)).symm

/-- The bytes of a number have been doubled in place. -/
structure Doubles (cpu : Cpu) (bus : β) (n : Nat) (f : Flags) (after : β) : Prop where
  advance : cpu.advance (2 * n) bus = (.ok (), cpu.shifted f (UInt16.ofNat n), after)
  number : littleEndian (Bus.bytesAt after cpu.registers.hl n) =
    (2 * littleEndian (Bus.bytesAt bus cpu.registers.hl n) + cpu.registers.f.carry.toNat) % 256 ^ n
  carry : f.carry = if n = 0 then cpu.registers.f.carry
    else (littleEndian (Bus.bytesAt bus cpu.registers.hl n)).testBit (8 * n - 1)

theorem Shifts.doubles [LawfulBus β] {n : Nat} {f : Flags} {writes : List Write}
    (shifts : Shifts cpu bus n f writes) (fits : n ≤ 65536)
    (plain : ∀ cell ∈ Word.row cpu.registers.hl n, Bus.Plain β cell) :
    Doubles cpu bus n f (Bus.apply bus writes) := by
  have left : Bus.bytesAt (Bus.apply bus writes) cpu.registers.hl n = writes.map Write.value :=
    Bus.bytesAt_apply fits shifts.addresses plain
  have count : (writes.map Write.value).length = n := by
    rw [← left, Bus.length_bytesAt]
  have value_lt := littleEndian_lt (Bus.bytesAt bus cpu.registers.hl n)
  have doubled_lt := littleEndian_lt (writes.map Write.value)
  rw [Bus.length_bytesAt] at value_lt
  rw [count] at doubled_lt
  obtain ⟨number, carry⟩ := doubled_of_balance value_lt doubled_lt shifts.balance
  exact ⟨shifts.advance, left ▸ number, carry⟩

/-- Wherever a number and the program lie, as long as they do not meet, the program doubles the
number in its cells and adds the carry, modulo a power of 256. The highest bit goes to the carry
flag. HL moves past the number and PC past the program; no other register and no other cell has
changed. In the machine's memory the number must not lie in the line register. -/
theorem shiftCode_doubles (cpu : Cpu) (n : Nat) :
    let number := Word.row cpu.registers.hl n
    let program := Word.row cpu.registers.pc (3 * n)
    (∀ ram : Ram, Bus.HoldsCode ram cpu.registers.pc (shiftCode n) →
      (∀ cell ∈ number, cell ∉ program) →
        ∃ f after, cpu.Doubles ram n f after ∧
          ∀ cell ∉ number, after.read cell = ram.read cell) ∧
    ∀ memory : Memory, Bus.HoldsCode memory cpu.registers.pc (shiftCode n) →
      (∀ cell ∈ number, cell ∉ program) → Memory.lineRegister ∉ number →
        ∃ f after, cpu.Doubles memory n f after ∧
          ∀ cell ∉ number, after.ram.read cell = memory.ram.read cell ∧
            after.read cell = memory.read cell := by
  intro number program
  constructor
  · intro ram holds apart
    obtain ⟨f, writes, shifts⟩ := exists_shifts holds apart
    refine ⟨f, _, shifts.doubles (fits_of_apart apart) fun cell _ => Ram.plain cell, ?_⟩
    intro cell outside
    exact Bus.read_apply_of_notMem ram (shifts.addresses ▸ outside)
  · intro memory holds apart elsewhere
    obtain ⟨f, writes, shifts⟩ := exists_shifts holds apart
    have plain : ∀ cell ∈ number, Bus.Plain Memory cell := fun cell member =>
      Memory.plain_iff.2 (ne_of_mem_of_not_mem member elsewhere)
    refine ⟨f, _, shifts.doubles (fits_of_apart apart) plain, ?_⟩
    intro cell outside
    have outside : cell ∉ writes.map Write.address := shifts.addresses ▸ outside
    refine ⟨?_, Bus.read_apply_of_notMem memory outside⟩
    rw [Memory.ram_apply]
    exact Bus.read_apply_of_notMem memory.ram outside

/-- A number in the last cell and the first one, the carry of which comes out again at the top. -/
theorem shiftCode_doubles_around :
    let cpu : Cpu := { registers := { f := { carry := true }, h := 0xFF, l := 0xFF, pc := 0x4000 } }
    let memory : Memory :=
      ⟨((Ram.blank.store 0x4000 (shiftCode 2)).write 0xFFFF 0xFF).write 0x0000 0x80⟩
    (Bus.HoldsCode memory cpu.registers.pc (shiftCode 2) ∧
      (∀ cell ∈ Word.row cpu.registers.hl 2, cell ∉ Word.row cpu.registers.pc (3 * 2)) ∧
      Memory.lineRegister ∉ Word.row cpu.registers.hl 2) ∧
    ∃ last after, cpu.advance 4 memory = (.ok (), last, after) ∧
      last.registers.hl = 0x0001 ∧ last.registers.pc = 0x4006 ∧
      last.registers.f.carry = true ∧
      littleEndian (Bus.bytesAt after 0xFFFF 2) = 0x01FF ∧ after.read 0x4000 = 0xCB := by
  intro cpu memory
  have inRam : Bus.HoldsCode memory.ram 0x4000 (shiftCode 2) :=
    ((Ram.blank.holdsCode_store 0x4000 (by decide)).write (by decide) 0xFF).write (by decide) 0x80
  have holds : Bus.HoldsCode memory cpu.registers.pc (shiftCode 2) :=
    Memory.holdsCode_of_ram inRam (by decide)
  have apart : ∀ cell ∈ Word.row cpu.registers.hl 2, cell ∉ Word.row cpu.registers.pc (3 * 2) := by
    have cells : Word.row cpu.registers.hl 2 = [0xFFFF, 0x0000] := by decide
    intro cell member
    rw [cells, List.mem_cons, List.mem_singleton] at member
    obtain rfl | rfl := member <;> decide
  have elsewhere : Memory.lineRegister ∉ Word.row cpu.registers.hl 2 := by decide
  obtain ⟨f, after, doubles, kept⟩ := (shiftCode_doubles cpu 2).2 memory holds apart elsewhere
  have bytes : Bus.bytesAt memory 0xFFFF 2 = [0xFF, 0x80] := by
    have last : Bus.read memory 0xFFFF = 0xFF := by
      simp [memory, Bus.read, Memory.read, Memory.lineRegister, Ram.read_write]
    have first : Bus.read memory (0xFFFF + 1) = 0x80 := by
      simp [memory, Bus.read, Memory.read, Memory.lineRegister, Ram.read_write]
    simp only [Bus.bytesAt, Word.row, List.map_cons, List.map_nil, last, first]
  have value : littleEndian (Bus.bytesAt memory 0xFFFF 2) = 0x80FF := by
    rw [bytes]
    rfl
  have number := doubles.number
  have carry := doubles.carry
  have top : cpu.registers.hl = 0xFFFF := by decide
  have set : cpu.registers.f.carry = true := rfl
  rw [top, value, set] at number
  rw [top, value] at carry
  refine ⟨⟨holds, apart, elsewhere⟩, _, after, doubles.advance, ?_, rfl, carry, ?_, ?_⟩
  · rw [hl_shifted, top]
    rfl
  · simpa using number
  · rw [(kept 0x4000 (by decide)).2]
    exact holds 0 (by decide)

end Cpu

end DotMatrix
