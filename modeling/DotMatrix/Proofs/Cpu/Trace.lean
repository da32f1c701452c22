import DotMatrix.Proofs.Cpu.Step

/-!
# Steps in a row

What can be seen of each of so many steps of a processor: where it stood, the opcode it met, the
cells it wrote, how the step ended, and the state that it left. A step that fails is the last one.

A step writes one cell at most, or the two cells of a word that is pushed.
-/
namespace DotMatrix

theorem Operand.length_writes_set_le (target : Operand) (r : Registers) (value : UInt8) :
    (target.set r value).writes.length ≤ 1 := by
  cases target <;> simp [set]

theorem Instruction.writes_effect (instruction : Instruction) (policy : FlagPolicy) (read : Reader)
    (r : Registers) :
    (instruction.effect policy read r).writes.length ≤ 1 ∨
      ∃ word, (instruction.effect policy read r).writes = (r.push word).writes := by
  cases instruction with
  | loadImmediate target | load target _ | increment target | decrement target | rotate target =>
    exact .inl (target.length_writes_set_le _ _)
  | push source => exact .inr ⟨source.get r, rfl⟩
  | call => exact .inr ⟨r.pc + 2, rfl⟩
  | storeA target => exact .inl (Nat.le_refl 1)
  | _ => exact .inl (Nat.zero_le 1)

theorem Registers.sp_ne_sub_one (r : Registers) : r.sp ≠ r.sp - 1 := by
  intro same
  have numbers := congrArg UInt16.toNat same
  rw [UInt16.toNat_sub] at numbers
  have := r.sp.toNat_lt
  have : (1 : UInt16).toNat = 1 := rfl
  omega

/-- No instruction writes a cell twice. -/
theorem Instruction.nodup_writes (instruction : Instruction) (policy : FlagPolicy) (read : Reader)
    (r : Registers) : ((instruction.effect policy read r).writes.map Write.address).Nodup := by
  obtain few | ⟨word, pushed⟩ := instruction.writes_effect policy read r
  · generalize (instruction.effect policy read r).writes = writes at few
    match writes, few with
    | [], _ => exact List.nodup_nil
    | [_], _ => simp
  · rw [pushed]
    simp [Registers.push, r.sp_ne_sub_one]

/-- What can be seen of one step. -/
structure Turn (β : Type) where
  address : UInt16
  opcode : Opcode
  writes : List Write
  outcome : Except DecodeFault Unit
  /-- The processor after the step. -/
  cpu : Cpu
  /-- The bus after the step. -/
  bus : β

namespace Cpu

variable {β : Type} [Bus β]

/-- The cells that the next step writes; a step that fails writes none. -/
def writes (cpu : Cpu) (read : Reader) : List Write :=
  match cpu.effect read with
  | .ok effect => effect.writes
  | .error _ => []

def turn (cpu : Cpu) (bus : β) : Turn β where
  address := cpu.registers.pc
  opcode := Opcode.fetch (Bus.read bus) cpu.registers.pc
  writes := cpu.writes (Bus.read bus)
  outcome := (cpu.step bus).1
  cpu := (cpu.step bus).2.1
  bus := (cpu.step bus).2.2

/-- So many steps, or fewer if one of them fails. -/
def trace : (steps : Nat) → Cpu → β → List (Turn β)
  | 0, _, _ => []
  | steps + 1, cpu, bus =>
    cpu.turn bus :: match (cpu.turn bus).outcome with
      | .ok () => trace steps (cpu.turn bus).cpu (cpu.turn bus).bus
      | .error _ => []

theorem turn_of_found {cpu : Cpu} {bus : β} {instruction : Instruction}
    (found : (Opcode.fetch (Bus.read bus) cpu.registers.pc).instruction? = some instruction) :
    let effect := instruction.effect cpu.policy (Bus.read bus)
      (cpu.registers.skip (Opcode.fetch (Bus.read bus) cpu.registers.pc).size)
    cpu.turn bus =
      { address := cpu.registers.pc
        opcode := Opcode.fetch (Bus.read bus) cpu.registers.pc
        writes := effect.writes
        outcome := .ok ()
        cpu := { cpu with registers := effect.registers }
        bus := Bus.apply bus effect.writes } := by
  simp only [turn, writes, step_of_found found, Cpu.effect, found]

theorem turn_of_missing {cpu : Cpu} {bus : β}
    (missing : (Opcode.fetch (Bus.read bus) cpu.registers.pc).instruction? = none) :
    cpu.turn bus =
      { address := cpu.registers.pc
        opcode := Opcode.fetch (Bus.read bus) cpu.registers.pc
        writes := []
        outcome := .error (cpu.fault (Bus.read bus))
        cpu
        bus } := by
  simp only [turn, writes, step_of_missing missing, Cpu.effect, missing]

/-- The writes of a step are all that it does to the bus. -/
theorem bus_turn (cpu : Cpu) (bus : β) :
    (cpu.turn bus).bus = Bus.apply bus (cpu.turn bus).writes := by
  cases found : (Opcode.fetch (Bus.read bus) cpu.registers.pc).instruction? with
  | some instruction => rw [turn_of_found found]
  | none =>
    rw [turn_of_missing found]
    rfl

/-- A step depends on what can be read, and on nothing else of the bus. -/
theorem turn_congr {β' : Type} [Bus β'] {bus : β} {bus' : β'}
    (alike : Bus.read bus = Bus.read bus') (cpu : Cpu) :
    cpu.turn bus = { cpu.turn bus' with bus := Bus.apply bus (cpu.turn bus').writes } := by
  simp only [turn, writes, step, alike]
  cases cpu.effect (Bus.read bus') <;> rfl

/-- No step writes a cell twice. -/
theorem nodup_writes_turn (cpu : Cpu) (bus : β) :
    ((cpu.turn bus).writes.map Write.address).Nodup := by
  cases found : (Opcode.fetch (Bus.read bus) cpu.registers.pc).instruction? with
  | some instruction =>
    rw [turn_of_found found]
    exact instruction.nodup_writes _ _ _
  | none =>
    rw [turn_of_missing found]
    exact List.nodup_nil

end Cpu

end DotMatrix
