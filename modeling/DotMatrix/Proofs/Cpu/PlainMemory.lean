import Mathlib.Data.List.Forall2
import DotMatrix.Proofs.Cpu.Bus
import DotMatrix.Proofs.Cpu.Trace

/-!
# The memory in place of plain cells

Plain cells mirror a memory if they hold what the memory reads as. A processor that runs on either of
them does the same, and the cells go on mirroring the memory, up to the first step that stores in the
line register anything but the line that is always read there. From that step on the two are apart:
the cell reads as what was stored, the register does not.
-/
namespace DotMatrix

/-- Plain cells that hold what a memory reads as. -/
def Ram.Mirrors (ram : Ram) (memory : Memory) : Prop :=
  ∀ address, ram.read address = memory.read address

/-- A write that plain cells and the memory cannot be told apart by. -/
def Write.KeepsLine (write : Write) : Prop :=
  write.address = Memory.lineRegister → write.value = Memory.frameComplete

namespace Ram.Mirrors

variable {ram : Ram} {memory : Memory}

theorem readers_eq (mirrors : ram.Mirrors memory) : Bus.read memory = Bus.read ram :=
  funext fun address => (mirrors address).symm

theorem write (mirrors : ram.Mirrors memory) {write : Write} (keeps : write.KeepsLine) :
    (ram.write write.address write.value).Mirrors (memory.write write.address write.value) := by
  intro other
  rw [Ram.read_write, Memory.read_write]
  by_cases line : other = Memory.lineRegister
  · rw [if_pos line]
    by_cases here : write.address = other
    · rw [if_pos here, keeps (here.trans line)]
    · rw [if_neg here, mirrors other, line, Memory.read_lineRegister]
  · rw [if_neg line, mirrors other]

theorem apply (mirrors : ram.Mirrors memory) {writes : List Write}
    (keep : ∀ write ∈ writes, write.KeepsLine) :
    (Bus.apply ram writes).Mirrors (Bus.apply memory writes) := by
  induction writes generalizing ram memory with
  | nil => exact mirrors
  | cons first rest ih =>
    obtain ⟨here, later⟩ := List.forall_mem_cons.1 keep
    exact ih (mirrors.write here) later

end Ram.Mirrors

/-- A step on the memory and a step on plain cells of which the same is seen, and after which the
cells mirror the memory. -/
structure Turn.Mirrored (turn : Turn Memory) (turn' : Turn Ram) : Prop where
  address_eq : turn'.address = turn.address
  opcode_eq : turn'.opcode = turn.opcode
  writes_eq : turn'.writes = turn.writes
  outcome_eq : turn'.outcome = turn.outcome
  cpu_eq : turn'.cpu = turn.cpu
  mirrors : turn'.bus.Mirrors turn.bus

namespace Cpu

variable {ram : Ram} {memory : Memory} (mirrors : ram.Mirrors memory)

include mirrors

theorem turn_mirrored (cpu : Cpu) (keep : ∀ write ∈ (cpu.turn memory).writes, write.KeepsLine) :
    (cpu.turn memory).Mirrored (cpu.turn ram) := by
  have same := turn_congr mirrors.readers_eq.symm cpu
  have after : (cpu.turn memory).bus = Bus.apply memory (cpu.turn memory).writes :=
    cpu.bus_turn memory
  rw [same]
  refine ⟨rfl, rfl, rfl, rfl, rfl, ?_⟩
  rw [after]
  exact mirrors.apply keep

omit mirrors in
/-- What a mirrored step stores in the line register is the line that is read there. -/
theorem keepsLine_of_mirrored {cpu : Cpu} (mirrored : (cpu.turn memory).Mirrored (cpu.turn ram)) :
    ∀ write ∈ (cpu.turn memory).writes, write.KeepsLine := by
  intro write member line
  rw [← mirrored.writes_eq] at member
  have stored : (cpu.turn ram).bus.read write.address = write.value := by
    rw [bus_turn]
    exact Bus.read_apply_of_mem ram (Ram.plain _) (cpu.nodup_writes_turn ram) member
  rw [← stored, mirrored.mirrors, line, Memory.read_lineRegister]

/-- A processor on the memory and the same processor on plain cells that mirror it: they go through
the same steps, with the same writes, registers and faults, and the cells mirror the memory after
each of them, if no step stores in the line register anything but the line read there, and only if
so. -/
theorem trace_mirrored_iff (cpu : Cpu) (steps : Nat) :
    (∀ turn ∈ cpu.trace steps memory, ∀ write ∈ turn.writes, write.KeepsLine) ↔
      List.Forall₂ Turn.Mirrored (cpu.trace steps memory) (cpu.trace steps ram) := by
  induction steps generalizing cpu ram memory with
  | zero => simp [trace]
  | succ steps ih =>
    unfold trace
    rw [List.forall_mem_cons, List.forall₂_cons]
    constructor
    · rintro ⟨here, later⟩
      have mirrored := cpu.turn_mirrored mirrors here
      refine ⟨mirrored, ?_⟩
      rw [mirrored.outcome_eq, mirrored.cpu_eq]
      cases ended : (cpu.turn memory).outcome with
      | ok =>
        rw [ended] at later
        exact (ih mirrored.mirrors _).1 later
      | error fault => exact .nil
    · rintro ⟨mirrored, others⟩
      refine ⟨keepsLine_of_mirrored mirrored, ?_⟩
      rw [mirrored.outcome_eq, mirrored.cpu_eq] at others
      cases ended : (cpu.turn memory).outcome with
      | ok =>
        rw [ended] at others
        exact (ih mirrored.mirrors _).2 others
      | error fault => exact List.forall_mem_nil _

omit mirrors in
/-- A store in the line register: of the line that is read there, and of another one. -/
theorem trace_mirrored_iff_storing_line :
    let program := (Ram.blank.write 0 0xE0).write 1 0x44
    let memory : Memory := ⟨program⟩
    let ram := program.write Memory.lineRegister Memory.frameComplete
    let storing (line : UInt8) : Cpu := { registers := { a := line } }
    ram.Mirrors memory ∧
    ((storing 0x90).turn memory).writes = [⟨Memory.lineRegister, 0x90⟩] ∧
    List.Forall₂ Turn.Mirrored ((storing 0x90).trace 1 memory) ((storing 0x90).trace 1 ram) ∧
    ¬ List.Forall₂ Turn.Mirrored ((storing 0x12).trace 1 memory) ((storing 0x12).trace 1 ram) := by
  intro program memory ram storing
  have mirrors : ram.Mirrors memory := by
    intro address
    rw [Ram.read_write, Memory.read]
    by_cases line : address = Memory.lineRegister
    · rw [if_pos line, if_pos line.symm]
    · rw [if_neg line, if_neg (Ne.symm line)]
  have opcode : Bus.read memory 0 = 0xE0 := by
    refine (Memory.read_of_ne (by decide)).trans ?_
    simp [memory, program, Ram.read_write]
  have offset : Bus.read memory (0 + 1) = 0x44 := by
    refine (Memory.read_of_ne (by decide)).trans ?_
    simp [memory, program, Ram.read_write]
  have fetched : Opcode.fetch (Bus.read memory) 0 = .primary 0xE0 := by
    rw [Opcode.fetch, opcode]
    rfl
  have stored : ∀ line, ((storing line).turn memory).writes = [⟨Memory.lineRegister, line⟩] := by
    intro line
    have found : (Opcode.fetch (Bus.read memory) 0).instruction? = some (.storeA .topPage) := by
      rw [fetched]
      rfl
    rw [turn_of_found found]
    simp only [storing, Instruction.effect, Location.address, fetched, Opcode.size, Registers.skip]
    rw [offset]
    rfl
  have writes : ∀ line, (∀ turn ∈ (storing line).trace 1 memory, ∀ write ∈ turn.writes,
      write.KeepsLine) ↔ line = Memory.frameComplete := by
    intro line
    have single : (storing line).trace 1 memory = [(storing line).turn memory] := by
      unfold trace
      split <;> rfl
    simp only [single, List.mem_singleton, forall_eq, stored, Write.KeepsLine, forall_true_left]
  refine ⟨mirrors, stored 0x90, ?_, ?_⟩
  · exact (trace_mirrored_iff mirrors (storing 0x90) 1).1 ((writes _).2 rfl)
  · intro mirrored
    have kept := (writes _).1 ((trace_mirrored_iff mirrors (storing 0x12) 1).2 mirrored)
    revert kept
    decide

end Cpu

end DotMatrix
