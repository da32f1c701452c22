import DotMatrix.Cpu.Step

/-!
# The two outcomes of a processor step

Either the opcode at PC has an instruction, and the step does what the instruction does, or it has
none, and the step is a fault that leaves everything as it was.
-/
namespace DotMatrix

/-- What a fault has to tell about the step that met it: the opcode, where it stands, all registers,
and the memory at most sixteen cells away, as far as the address space goes. -/
structure DecodeFault.Reports (fault : DecodeFault) (opcode : Opcode) (r : Registers)
    (read : Reader) : Prop where
  opcode_eq : fault.opcode = opcode
  address_eq : fault.address = r.pc
  registers_eq : fault.registers = r
  get?_window : ∀ address : UInt16, fault.window.get? address =
    if ((address.toNat : Int) - r.pc.toNat).natAbs ≤ 16 then some (read address) else none

theorem Window.get?_around (read : Reader) (center address : UInt16) :
    (around read center).get? address =
      if ((address.toNat : Int) - center.toNat).natAbs ≤ 16 then some (read address) else none := by
  have := center.toNat_lt
  have := address.toNat_lt
  have start : (UInt16.ofNat (center.toNat - 16)).toNat = center.toNat - 16 := by
    rw [UInt16.toNat_ofNat']
    omega
  simp only [around, get?, radius, UInt16.le_iff_toNat_le, start, List.getElem?_map]
  by_cases near : ((address.toNat : Int) - center.toNat).natAbs ≤ 16
  · have offset : center.toNat - 16 + 1 * (address.toNat - (center.toNat - 16)) =
        address.toNat := by
      omega
    rw [if_pos (by omega), if_pos near, List.getElem?_range' (by omega), offset, Option.map_some,
      UInt16.ofNat_toNat]
  · rw [if_neg near]
    split
    · rw [List.getElem?_eq_none (by rw [List.length_range']; omega), Option.map_none]
    · rfl

namespace Cpu

variable {β : Type} [Bus β]

/-- The fault of a step that finds no instruction. -/
def fault (cpu : Cpu) (read : Reader) : DecodeFault where
  opcode := Opcode.fetch read cpu.registers.pc
  address := cpu.registers.pc
  registers := cpu.registers
  window := Window.around read cpu.registers.pc

theorem fault_reports (cpu : Cpu) (read : Reader) :
    (cpu.fault read).Reports (Opcode.fetch read cpu.registers.pc) cpu.registers read :=
  ⟨rfl, rfl, rfl, Window.get?_around read cpu.registers.pc⟩

theorem step_of_found {cpu : Cpu} {bus : β} {instruction : Instruction}
    (found : (Opcode.fetch (Bus.read bus) cpu.registers.pc).instruction? = some instruction) :
    let effect := instruction.effect cpu.policy (Bus.read bus)
      (cpu.registers.skip (Opcode.fetch (Bus.read bus) cpu.registers.pc).size)
    cpu.step bus =
      (.ok (), { cpu with registers := effect.registers }, Bus.apply bus effect.writes) := by
  simp only [step, effect, found]

theorem step_of_missing {cpu : Cpu} {bus : β}
    (missing : (Opcode.fetch (Bus.read bus) cpu.registers.pc).instruction? = none) :
    cpu.step bus = (.error (cpu.fault (Bus.read bus)), cpu, bus) := by
  simp only [step, effect, missing, fault]

theorem step_nop {cpu : Cpu} {bus : β} (zero : Bus.read bus cpu.registers.pc = 0) :
    cpu.step bus = (.ok (), { cpu with registers := cpu.registers.skip 1 }, bus) := by
  have fetched : Opcode.fetch (Bus.read bus) cpu.registers.pc = .primary 0 := by
    rw [Opcode.fetch, zero, if_neg (by decide)]
  have found : (Opcode.fetch (Bus.read bus) cpu.registers.pc).instruction? = some .nop := by
    rw [fetched]
    rfl
  rw [step_of_found found, fetched]
  rfl

theorem policy_step (cpu : Cpu) (bus : β) : (cpu.step bus).2.1.policy = cpu.policy := by
  cases found : (Opcode.fetch (Bus.read bus) cpu.registers.pc).instruction? with
  | some instruction => rw [step_of_found found]
  | none => rw [step_of_missing found]

/-- A step fails where its opcode is not supported, and nowhere else. -/
theorem step_eq_error_iff {cpu : Cpu} {bus : β} {fault : DecodeFault} {cpu' : Cpu} {bus' : β} :
    cpu.step bus = (.error fault, cpu', bus') ↔
      (Opcode.fetch (Bus.read bus) cpu.registers.pc).isSupported = false ∧
        fault = cpu.fault (Bus.read bus) ∧ cpu' = cpu ∧ bus' = bus := by
  rw [Opcode.isSupported_fetch]
  cases found : (Opcode.fetch (Bus.read bus) cpu.registers.pc).instruction? with
  | some instruction => simp [step_of_found found]
  | none =>
    rw [step_of_missing found]
    simp only [Prod.mk.injEq, Except.error.injEq, Option.isSome_none, true_and, eq_comm]

end Cpu

end DotMatrix
