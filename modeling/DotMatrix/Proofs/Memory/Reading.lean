import DotMatrix.Memory.Load
import DotMatrix.Video.Scheduler

/-!
# Memories that read alike

Two memories read alike if they differ at most in what is stored in the line register. Whatever is
done with a memory, by the processor, by the screen or from outside, goes through reads and writes of
single cells, so it has the same result on both, and leaves memories that read alike again.
-/
namespace DotMatrix

namespace Memory

variable {memory memory' : Memory}

theorem read_eq_read_iff :
    memory.read = memory'.read ↔
      ∀ address, address ≠ lineRegister → memory.ram.read address = memory'.ram.read address := by
  constructor
  · intro alike address elsewhere
    rw [← read_of_ne elsewhere, ← read_of_ne elsewhere, alike]
  · intro alike
    funext address
    by_cases line : address = lineRegister
    · rw [line, read_lineRegister, read_lineRegister]
    · rw [read_of_ne line, read_of_ne line, alike address line]

section

variable (alike : memory.read = memory'.read)

include alike

theorem read_write_congr (address : UInt16) (value : UInt8) :
    (memory.write address value).read = (memory'.write address value).read := by
  funext other
  rw [read_write, read_write, alike]

theorem read_apply_congr (writes : List Write) :
    (Bus.apply memory writes).read = (Bus.apply memory' writes).read := by
  induction writes generalizing memory memory' with
  | nil => exact alike
  | cons write rest ih => exact ih (read_write_congr alike write.address write.value)

theorem read_store_congr (address : UInt16) (bytes : List UInt8) :
    (memory.store address bytes).read = (memory'.store address bytes).read := by
  induction bytes generalizing memory memory' address with
  | nil => exact alike
  | cons byte rest ih => exact ih (read_write_congr alike address byte) (address + 1)

/-- A boot image fits into both memories or into neither. -/
theorem loadBoot_cases (image : List UInt8) :
    (∃ fault, memory.loadBoot image = .error fault ∧ memory'.loadBoot image = .error fault) ∨
    ∃ after after', memory.loadBoot image = .ok after ∧ memory'.loadBoot image = .ok after' ∧
      after.read = after'.read := by
  unfold loadBoot
  split
  · exact .inr ⟨_, _, rfl, rfl, read_store_congr alike 0 image⟩
  · exact .inl ⟨_, rfl, rfl⟩

theorem read_loadCartridge_congr (image : List UInt8) :
    (memory.loadCartridge image).2.read = (memory'.loadCartridge image).2.read :=
  read_store_congr alike _ _

theorem scrollX_congr : memory.scrollX = memory'.scrollX := congrFun alike scrollXRegister

theorem scrollY_congr : memory.scrollY = memory'.scrollY := congrFun alike scrollYRegister

theorem bytesAt_congr (address : UInt16) (count : Nat) :
    memory.bytesAt address count = memory'.bytesAt address count := by
  simp only [bytesAt, alike]

end

end Memory

variable {memory memory' : Memory} (alike : memory.read = memory'.read)

include alike

theorem Background.tileOf_congr (cell : Nat) : tileOf memory cell = tileOf memory' cell := by
  simp only [tileOf, Tile.ofMemory, Memory.bytesAt_congr alike, alike]

theorem Frame.render_congr : render memory = render memory' := by
  simp only [render, Background.compose, Background.tileOf_congr alike,
    Memory.scrollX_congr alike, Memory.scrollY_congr alike]

theorem Scheduler.tick_congr {σ : Type} [FrameSink σ] (scheduler : Scheduler) (sink : σ) :
    scheduler.tick memory sink = scheduler.tick memory' sink := by
  simp only [tick, Frame.render_congr alike, Memory.scrollY_congr alike]

/-- What a step of the processor reports and does to the registers depends on the bytes that can be
read, and it writes the same bytes. -/
theorem Cpu.step_congr (cpu : Cpu) :
    (cpu.step memory).1 = (cpu.step memory').1 ∧
      (cpu.step memory).2.1 = (cpu.step memory').2.1 ∧
      (cpu.step memory).2.2.read = (cpu.step memory').2.2.read := by
  have effects : cpu.effect (Bus.read memory) = cpu.effect (Bus.read memory') :=
    congrArg cpu.effect alike
  unfold step
  rw [effects]
  cases cpu.effect (Bus.read memory') with
  | ok effect => exact ⟨rfl, rfl, Memory.read_apply_congr alike effect.writes⟩
  | error fault => exact ⟨rfl, rfl, alike⟩

end DotMatrix
