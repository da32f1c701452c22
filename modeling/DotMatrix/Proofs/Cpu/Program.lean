import DotMatrix.Proofs.Cpu.Bus
import DotMatrix.Proofs.Cpu.Step
import DotMatrix.Proofs.Memory.Images

/-!
# Programs in memory

A program lies in a row of cells, and the row goes on from the last cell of the address space to the
first. Advanced by so many steps, a processor works through it until a step fails.
-/
namespace DotMatrix

theorem Word.add_ofNat_succ (word : UInt16) (i : Nat) :
    word + UInt16.ofNat (i + 1) = word + 1 + UInt16.ofNat i := by
  rw [UInt16.ofNat_add, UInt16.add_comm (UInt16.ofNat i), ← UInt16.add_assoc]
  rfl

section Code

variable {β : Type} [Bus β] {bus : β} {address : UInt16}

def Bus.HoldsCode (bus : β) (address : UInt16) (code : List UInt8) : Prop :=
  ∀ i (inside : i < code.length), Bus.read bus (address + UInt16.ofNat i) = code[i]

theorem Bus.holdsCode_cons {byte : UInt8} {rest : List UInt8} :
    Bus.HoldsCode bus address (byte :: rest) ↔
      Bus.read bus address = byte ∧ Bus.HoldsCode bus (address + 1) rest := by
  have shift := Word.add_ofNat_succ address
  constructor
  · intro holds
    refine ⟨by simpa using holds 0 (Nat.zero_lt_succ _), ?_⟩
    intro i inside
    have next := holds (i + 1) (Nat.succ_lt_succ inside)
    rwa [shift, List.getElem_cons_succ] at next
  · rintro ⟨first, behind⟩ i inside
    cases i with
    | zero => simpa using first
    | succ i =>
      rw [shift, List.getElem_cons_succ]
      exact behind i (Nat.lt_of_succ_lt_succ inside)

/-- A store next to a program leaves it as it is. -/
theorem Bus.HoldsCode.write [LawfulBus β] {code : List UInt8}
    (holds : Bus.HoldsCode bus address code) {cell : UInt16}
    (elsewhere : ∀ i < code.length, cell ≠ address + UInt16.ofNat i) (value : UInt8) :
    Bus.HoldsCode (Bus.write bus cell value) address code := fun i inside =>
  (LawfulBus.read_write_of_ne bus value (elsewhere i inside)).trans (holds i inside)

end Code

namespace Ram

/-- A program of any length can be put anywhere. -/
theorem holdsCode_store (ram : Ram) (address : UInt16) {code : List UInt8}
    (fits : code.length ≤ 65536) : Bus.HoldsCode (ram.store address code) address code := by
  intro i inside
  have offset : (address + UInt16.ofNat i - address).toNat = i := by
    have := address.toNat_lt
    rw [UInt16.toNat_sub, UInt16.toNat_add, UInt16.toNat_ofNat']
    omega
  have found := ram.read_store_around address (address + UInt16.ofNat i) code fits
  rwa [offset, List.getElem?_eq_getElem inside, Option.getD_some] at found

end Ram

/-- What cells hold can be run from memory unless it lies in the line register. -/
theorem Memory.holdsCode_of_ram {memory : Memory} {address : UInt16} {code : List UInt8}
    (holds : Bus.HoldsCode memory.ram address code)
    (elsewhere : ∀ i < code.length, address + UInt16.ofNat i ≠ lineRegister) :
    Bus.HoldsCode memory address code := fun i inside =>
  (read_of_ne (elsewhere i inside)).trans (holds i inside)

namespace Cpu

variable {β : Type} [Bus β] {cpu cpu' : Cpu} {bus bus' : β}

/-- So many steps, or all up to the first that fails. -/
def advance : (steps : Nat) → Cpu → β → Except DecodeFault Unit × Cpu × β
  | 0, cpu, bus => (.ok (), cpu, bus)
  | steps + 1, cpu, bus =>
    match cpu.step bus with
    | (.ok (), cpu', bus') => advance steps cpu' bus'
    | (.error fault, cpu', bus') => (.error fault, cpu', bus')

@[simp] theorem advance_zero : cpu.advance 0 bus = (.ok (), cpu, bus) := rfl

theorem advance_succ (stepped : cpu.step bus = (.ok (), cpu', bus')) (steps : Nat) :
    cpu.advance (steps + 1) bus = cpu'.advance steps bus' := by
  rw [advance, stepped]

/-- An opcode of one byte that has an instruction does what the instruction does. -/
theorem step_primary {byte : UInt8} {instruction : Instruction}
    (here : Bus.read bus cpu.registers.pc = byte)
    (decodes : Opcode.primary? byte = some instruction) :
    let effect := instruction.effect cpu.policy (Bus.read bus) (cpu.registers.skip 1)
    cpu.step bus =
      (.ok (), { cpu with registers := effect.registers }, Bus.apply bus effect.writes) := by
  have bare : byte ≠ Opcode.extension := by
    rintro rfl
    have missing : Opcode.primary? Opcode.extension = none := by decide
    cases missing.symm.trans decodes
  have fetched : Opcode.fetch (Bus.read bus) cpu.registers.pc = .primary byte := by
    rw [Opcode.fetch, here, if_neg bare]
  have found : (Opcode.fetch (Bus.read bus) cpu.registers.pc).instruction? = some instruction := by
    rw [fetched]
    exact decodes
  rw [step_of_found found, fetched]
  rfl

/-- So does an opcode of two bytes. -/
theorem step_extended {byte : UInt8} {instruction : Instruction}
    (here : Bus.read bus cpu.registers.pc = Opcode.extension)
    (selects : Bus.read bus (cpu.registers.pc + 1) = byte)
    (decodes : Opcode.extended? byte = some instruction) :
    let effect := instruction.effect cpu.policy (Bus.read bus) (cpu.registers.skip 2)
    cpu.step bus =
      (.ok (), { cpu with registers := effect.registers }, Bus.apply bus effect.writes) := by
  have fetched : Opcode.fetch (Bus.read bus) cpu.registers.pc = .extended byte := by
    rw [Opcode.fetch, here, if_pos rfl, selects]
  have found : (Opcode.fetch (Bus.read bus) cpu.registers.pc).instruction? = some instruction := by
    rw [fetched]
    exact decodes
  rw [step_of_found found, fetched]
  rfl

end Cpu

end DotMatrix
