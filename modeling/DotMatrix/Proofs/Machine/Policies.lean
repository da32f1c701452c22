import DotMatrix.Proofs.Cpu.HalfCarry
import DotMatrix.Proofs.Machine.Lockstep

/-!
# Machines under the two flag policies

What the policies decide, the half carry, reaches memory only when AF is pushed. As long as a machine
does not push AF it draws the same frames, takes the same steps and ends its runs in the same way
under either policy.
-/
namespace DotMatrix

def Fault.blur : Fault → Fault
  | .decode fault => .decode fault.blur
  | fault => fault

namespace Machine

variable {σ : Type}

/-- A machine of which neither the half carry nor the policy is seen. -/
def blur (m : Machine σ NoDebugger) : Machine σ NoDebugger :=
  { m with config := { m.config with policy := .legacy }, cpu := m.cpu.blur }

variable [FrameSink σ]

theorem blur_step {m m' : Machine σ NoDebugger} (alike : m.blur = m'.blur)
    (unpushed : Opcode.fetch m.memory.read m.cpu.registers.pc ≠ .pushAF) :
    seen blur Fault.blur m.step = seen blur Fault.blur m'.step := by
  obtain ⟨config, cpu, memory, scheduler, sink, debugger, steps⟩ := m
  obtain ⟨config', cpu', memory', scheduler', sink', debugger', steps'⟩ := m'
  injection alike with configs cpus memories schedulers sinks debuggers counts
  dsimp only at configs memories schedulers sinks debuggers counts
  subst memories schedulers sinks debuggers counts
  have agree := (Cpu.turn_agree cpus memory unpushed).blur_eq
  have outcome : (cpu.step memory).1.mapError _ = (cpu'.step memory).1.mapError _ :=
    congrArg Turn.outcome agree
  have next : (cpu.step memory).2.1.blur = (cpu'.step memory).2.1.blur := congrArg Turn.cpu agree
  have bus : (cpu.step memory).2.2 = (cpu'.step memory).2.2 := (congrArg Turn.bus agree :)
  simp only [step, Debugger.beforeStep]
  generalize cpu.step memory = stepped at outcome next bus ⊢
  generalize cpu'.step memory = stepped' at outcome next bus ⊢
  rcases stepped with ⟨fault | _, after, memory⟩ <;>
    rcases stepped' with ⟨fault' | _, after', memory'⟩ <;>
    first | (cases outcome; done) | skip
  · have told : fault.blur = fault'.blur := Except.error.inj outcome
    dsimp only at next bus
    simp only [seen, blur, mapError_error, Fault.blur, told, next, bus, configs]
  · dsimp only at next bus
    subst bus
    dsimp only
    rcases scheduler.tick memory sink with ⟨refusal | drawn, scheduler, sink⟩
    · simp only [seen, blur, next, configs]
    · simp only [seen, blur, next, configs]

/-- Limits are not set on the half carry. -/
theorem lockstep_blur :
    Lockstep (@blur σ) blur Fault.blur Fault.blur fun call =>
      Opcode.fetch call.memory.read call.cpu.registers.pc ≠ .pushAF where
  limits _ _ alike := (congrArg limit? alike :)
  steps _ _ := blur_step

end Machine

/-- Two processors on one bus under different policies, with registers that are the same but perhaps
for the half carry: as long as the first does not push AF they go through turns that agree. Hence two
machines that differ in that way, and are watched by no debugger, draw the same frames, count the
same steps and end in the same way after any number of rounds. -/
theorem policies_agree {β : Type} [Bus β] (bus : β) (r r' : Registers) (alike : r.blur = r'.blur)
    (steps : Nat)
    (unpushed : ∀ turn ∈ Cpu.trace steps { registers := r, policy := .accurate } bus,
      turn.opcode ≠ .pushAF) :
    List.Forall₂ Turn.Agree
      (Cpu.trace steps { registers := r, policy := .accurate } bus)
      (Cpu.trace steps { registers := r', policy := .legacy } bus) ∧
    ∀ {σ : Type} [FrameSink σ] (m m' : Machine σ NoDebugger), m.blur = m'.blur → ∀ rounds,
      (∀ call ∈ (m.trace rounds).calls,
        Opcode.fetch call.memory.read call.cpu.registers.pc ≠ .pushAF) →
      (m.trace rounds).seen Machine.blur Fault.blur =
        (m'.trace rounds).seen Machine.blur Fault.blur ∧
      (m.run rounds).map (fun (result, last) =>
          (result.mapError Fault.blur, last.sink, last.frames, last.steps)) =
        (m'.run rounds).map fun (result, last) =>
          (result.mapError Fault.blur, last.sink, last.frames, last.steps) := by
  refine ⟨Cpu.trace_agree (congrArg (Cpu.mk · .legacy) alike) bus steps unpushed, ?_⟩
  intro σ _ m m' alike rounds unpushed
  have traces := Machine.lockstep_blur.seen_trace alike rounds unpushed
  have runs := Machine.lockstep_blur.seen_run alike rounds unpushed
  refine ⟨traces, ?_⟩
  have shown := congrArg (Option.map fun (ending : Except Fault Exit × Machine σ NoDebugger) =>
    (ending.1, ending.2.sink, ending.2.frames, ending.2.steps)) runs
  rw [Option.map_map, Option.map_map] at shown
  exact shown

/-- An addition that sets the half carry under one policy only, then AND, which sets it under both;
the half carry is not the same to begin with either. -/
theorem policies_agree_until_and :
    let bus := (((Ram.blank.write 0 0xC6).write 1 0x0F).write 2 0xE6).write 3 0xFF
    let registers (halfCarry : Bool) : Registers := { a := 1, f := { halfCarry } }
    let turns (policy : FlagPolicy) (halfCarry : Bool) :=
      Cpu.trace 2 { registers := registers halfCarry, policy } bus
    let machine (policy : FlagPolicy) := Machine.start { policy } ([] : List Frame) .noDebugger
    (∀ policy halfCarry, (turns policy halfCarry).map (fun turn =>
        (turn.opcode, turn.cpu.registers.f.halfCarry)) =
      [(.primary 0xC6, policy.halfCarry true halfCarry), (.primary 0xE6, true)]) ∧
    List.Forall₂ Turn.Agree (turns .accurate true) (turns .legacy false) ∧
    ((machine .accurate).trace 1).seen Machine.blur Fault.blur =
      ((machine .legacy).trace 1).seen Machine.blur Fault.blur := by
  intro bus registers turns machine
  have cells : Bus.read bus 0 = 0xC6 ∧ Bus.read bus 1 = 0x0F ∧ Bus.read bus 2 = 0xE6 ∧
      Bus.read bus 3 = 0xFF := by
    simp [bus, Bus.read, Ram.read_write]
  obtain ⟨opcodeAdd, operandAdd, opcodeAnd, operandAnd⟩ := cells
  have fetchAdd : Opcode.fetch (Bus.read bus) 0 = .primary 0xC6 := by
    rw [Opcode.fetch, opcodeAdd]
    rfl
  have fetchAnd : Opcode.fetch (Bus.read bus) 2 = .primary 0xE6 := by
    rw [Opcode.fetch, opcodeAnd]
    rfl
  have add : ∀ policy halfCarry, Cpu.turn { registers := registers halfCarry, policy } bus =
      { address := 0, opcode := .primary 0xC6, writes := [], outcome := .ok ()
        cpu :=
          ⟨{ a := 0x10, f := { halfCarry := policy.halfCarry true halfCarry }, pc := 2 }, policy⟩
        bus } := by
    intro policy halfCarry
    have found : (Opcode.fetch (Bus.read bus) 0).instruction? =
        some (.arithmeticImmediate .add) := by
      rw [fetchAdd]
      rfl
    rw [Cpu.turn_of_found found]
    simp only [registers, fetchAdd, Instruction.effect, Opcode.size, Registers.skip]
    rw [show (0 + 1 : UInt16) = 1 from rfl, operandAdd]
    rfl
  have and : ∀ policy halfCarry, Cpu.turn
      ⟨{ a := 0x10, f := { halfCarry }, pc := 2 }, policy⟩ bus =
      { address := 2, opcode := .primary 0xE6, writes := [], outcome := .ok ()
        cpu := ⟨{ a := 0x10, f := { halfCarry := true }, pc := 4 }, policy⟩
        bus } := by
    intro policy halfCarry
    have found : (Opcode.fetch (Bus.read bus) 2).instruction? =
        some (.arithmeticImmediate .and) := by
      rw [fetchAnd]
      rfl
    rw [Cpu.turn_of_found found]
    simp only [fetchAnd, Instruction.effect, Opcode.size, Registers.skip]
    rw [show (2 + 1 : UInt16) = 3 from rfl, operandAnd]
    rfl
  have shown : ∀ policy halfCarry, (turns policy halfCarry).map (fun turn =>
      (turn.opcode, turn.cpu.registers.f.halfCarry)) =
        [(.primary 0xC6, policy.halfCarry true halfCarry), (.primary 0xE6, true)] := by
    intro policy halfCarry
    simp only [turns, Cpu.trace, add, and, List.map_cons, List.map_nil]
  have unpushed : ∀ turn ∈ turns .accurate true, turn.opcode ≠ .pushAF := by
    intro turn member
    simp only [turns, Cpu.trace, add, and, List.mem_cons, List.not_mem_nil, or_false] at member
    obtain rfl | rfl := member <;> decide
  obtain ⟨agree, machines⟩ := policies_agree bus (registers true) (registers false) rfl 2 unpushed
  refine ⟨shown, agree, (machines (machine .accurate) (machine .legacy) rfl 1 ?_).1⟩
  intro call member
  obtain ⟨k, before, rfl⟩ := Machine.exists_after_of_mem_calls member
  obtain rfl : k = 0 := by omega
  have nop : Opcode.fetch Memory.blank.read 0 = .primary 0 := by
    simp [Opcode.fetch, Memory.lineRegister, Opcode.extension]
  exact nop.trans_ne (by decide)

end DotMatrix
