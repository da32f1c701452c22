import DotMatrix.Machine.Basic
import DotMatrix.Proofs.Cpu.Step

/-!
# What one step of the machine does

A step ends in one of five ways. Two of them leave everything but the debugger as it was; the other
three execute an instruction, and differ in what becomes of the frame that may then be due.
-/
namespace DotMatrix

namespace Machine

variable {σ δ : Type} [FrameSink σ] [Debugger δ]

/-- The ways in which a step can end, each with the state it leaves. -/
inductive Ends (m : Machine σ δ) : Except Fault Action × Machine σ δ → Prop where
  | stopped {debugger : δ}
      (asked : Debugger.beforeStep m.cpu m.memory m.debugger = (.stop, debugger)) :
      Ends m (.ok .stop, { m with debugger })
  | undecoded {debugger : δ}
      (asked : Debugger.beforeStep m.cpu m.memory m.debugger = (.proceed, debugger))
      (missing : (Opcode.fetch m.memory.read m.cpu.registers.pc).isSupported = false) :
      Ends m (.error (.decode (m.cpu.fault m.memory.read)), { m with debugger })
  | undrawn {debugger : δ} {cpu : Cpu} {memory : Memory}
      (asked : Debugger.beforeStep m.cpu m.memory m.debugger = (.proceed, debugger))
      (executed : m.cpu.step m.memory = (.ok (), cpu, memory))
      (same : m.scheduler.drawn = some memory.scrollY) :
      Ends m (.ok .proceed, { m with cpu, memory, debugger, steps := m.steps + 1 })
  | drawn {debugger : δ} {cpu : Cpu} {memory : Memory} {sink : σ}
      (asked : Debugger.beforeStep m.cpu m.memory m.debugger = (.proceed, debugger))
      (executed : m.cpu.step m.memory = (.ok (), cpu, memory))
      (due : m.scheduler.drawn ≠ some memory.scrollY)
      (accepted : FrameSink.present (Frame.render memory) m.sink = (.ok (), sink)) :
      Ends m (.ok .proceed, { m with
        cpu, memory, debugger, sink
        scheduler := { drawn := some memory.scrollY, frames := m.scheduler.frames + 1 }
        steps := m.steps + 1 })
  | refused {debugger : δ} {cpu : Cpu} {memory : Memory} {reason : String} {sink : σ}
      (asked : Debugger.beforeStep m.cpu m.memory m.debugger = (.proceed, debugger))
      (executed : m.cpu.step m.memory = (.ok (), cpu, memory))
      (due : m.scheduler.drawn ≠ some memory.scrollY)
      (rejected : FrameSink.present (Frame.render memory) m.sink = (.error reason, sink)) :
      Ends m (.error (.sink reason), { m with cpu, memory, debugger, sink, steps := m.steps + 1 })

theorem step_ends (m : Machine σ δ) : m.Ends m.step := by
  obtain ⟨config, cpu, memory, scheduler, sink, debugger, steps⟩ := m
  simp only [step]
  split
  next asked => exact .stopped asked
  next asked =>
    split
    next failed =>
      obtain ⟨missing, rfl, rfl, rfl⟩ := Cpu.step_eq_error_iff.1 failed
      exact .undecoded asked missing
    next memory executed =>
      unfold Scheduler.tick
      by_cases same : scheduler.drawn = some memory.scrollY
      · rw [if_pos same]
        exact .undrawn asked executed same
      · rw [if_neg same]
        rcases presented : FrameSink.present (Frame.render memory) sink with ⟨outcome, after⟩
        cases outcome with
        | ok => exact .drawn asked executed same presented
        | error reason => exact .refused asked executed same presented

/-- A step ends in no more than one way. -/
theorem Ends.step_eq {m : Machine σ δ} {result : Except Fault Action × Machine σ δ}
    (ends : m.Ends result) : m.step = result := by
  cases ends with
  | stopped asked => simp only [step, asked]
  | undecoded asked missing =>
    have failing : m.cpu.step m.memory = (.error (m.cpu.fault m.memory.read), m.cpu, m.memory) :=
      Cpu.step_eq_error_iff.2 ⟨missing, rfl, rfl, rfl⟩
    simp only [step, asked, failing]
  | undrawn asked executed same => simp only [step, asked, executed, Scheduler.tick, if_pos same]
  | drawn asked executed due accepted =>
    simp only [step, asked, executed, Scheduler.tick, if_neg due, accepted]
  | refused asked executed due rejected =>
    simp only [step, asked, executed, Scheduler.tick, if_neg due, rejected]

/-- Where no instruction belongs to the opcode, only the debugger can have changed, and the fault is
reported unless the debugger stops the machine first. -/
theorem step_of_unsupported (m : Machine σ δ)
    (missing : (Opcode.fetch m.memory.read m.cpu.registers.pc).isSupported = false) :
    m.step =
      (match (Debugger.beforeStep m.cpu m.memory m.debugger).1 with
        | .stop => .ok .stop
        | .proceed => .error (.decode (m.cpu.fault m.memory.read)),
        { m with debugger := (Debugger.beforeStep m.cpu m.memory m.debugger).2 }) := by
  rcases asked : Debugger.beforeStep m.cpu m.memory m.debugger with ⟨_ | _, debugger⟩
  · exact (Ends.undecoded asked missing).step_eq
  · exact (Ends.stopped asked).step_eq

end Machine

namespace Cpu

/-- A step fails where its opcode is not supported, and only there. The fault tells all about it, the
processor and the bus stay as they were, and so the next step fails in the same way. A machine at
such an opcode changes nothing but its debugger. -/
theorem step_fails_iff_unsupported {β : Type} [Bus β] (cpu : Cpu) (bus : β) :
    let opcodeAt (read : Reader) (pc : UInt16) : Opcode :=
      if read pc = 0xCB then .extended (read (pc + 1)) else .primary (read pc)
    let opcode := opcodeAt (Bus.read bus) cpu.registers.pc
    ((∃ fault cpu' bus', cpu.step bus = (.error fault, cpu', bus')) ↔ opcode.isSupported = false) ∧
    (∀ fault cpu' bus', cpu.step bus = (.error fault, cpu', bus') →
      cpu' = cpu ∧ bus' = bus ∧ fault.Reports opcode cpu.registers (Bus.read bus) ∧
        cpu'.step bus' = (.error fault, cpu', bus')) ∧
    ∀ {σ δ : Type} [FrameSink σ] [Debugger δ] (m : Machine σ δ),
      let opcode := opcodeAt m.memory.read m.cpu.registers.pc
      opcode.isSupported = false →
        ∃ fault, fault.Reports opcode m.cpu.registers m.memory.read ∧
          m.step =
            (match (Debugger.beforeStep m.cpu m.memory m.debugger).1 with
              | .stop => .ok .stop
              | .proceed => .error (.decode fault),
              { m with debugger := (Debugger.beforeStep m.cpu m.memory m.debugger).2 }) := by
  intro opcodeAt opcode
  refine ⟨?_, ?_, ?_⟩
  · constructor
    · rintro ⟨fault, cpu', bus', failed⟩
      exact (step_eq_error_iff.1 failed).1
    · intro missing
      exact ⟨_, _, _, step_eq_error_iff.2 ⟨missing, rfl, rfl, rfl⟩⟩
  · intro fault cpu' bus' failed
    obtain ⟨-, rfl, rfl, rfl⟩ := step_eq_error_iff.1 failed
    exact ⟨rfl, rfl, fault_reports cpu' (Bus.read bus'), failed⟩
  · intro σ δ _ _ m opcode missing
    exact ⟨_, fault_reports m.cpu m.memory.read, m.step_of_unsupported missing⟩

/-- An opcode with a byte at each end of the address space: the window of the fault shows the cells
below it, and none beyond the end. -/
theorem step_fails_at_end :
    let cpu : Cpu := { registers := { a := 0x11, pc := 0xFFFF } }
    let bus := (Ram.blank.write 0xFFFF 0xCB).write 0x0000 0x37
    let m : Machine (List Frame) NoDebugger :=
      { Machine.start {} [] .noDebugger with cpu, memory := ⟨bus⟩ }
    (Opcode.extended (Bus.read bus (0xFFFF + 1))).isSupported = false ∧
    (∃ fault, cpu.step bus = (.error fault, cpu, bus) ∧
      fault.opcode = .extended 0x37 ∧ fault.address = 0xFFFF ∧ fault.registers = cpu.registers ∧
      fault.window.get? 0xFFFF = some 0xCB ∧ fault.window.get? 0xFFEF = some 0 ∧
      fault.window.get? 0xFFEE = none ∧ fault.window.get? 0x0000 = none) ∧
    ∃ fault, m.step = (.error (.decode fault), m) := by
  intro cpu bus m
  have first : Bus.read bus 0xFFFF = 0xCB := by simp [bus, Bus.read, Ram.read_write]
  have second : Bus.read bus (0xFFFF + 1) = 0x37 := by simp [bus, Bus.read, Ram.read_write]
  have below : Bus.read bus 0xFFEF = 0 := by simp [bus, Bus.read, Ram.read_write]
  have opcodeEq : ∀ read : Reader, read 0xFFFF = 0xCB → read (0xFFFF + 1) = 0x37 →
      (if read 0xFFFF = 0xCB then Opcode.extended (read (0xFFFF + 1)) else .primary (read 0xFFFF)) =
        .extended 0x37 := by
    intro read first second
    rw [if_pos first, second]
  have missing : (Opcode.extended 0x37).isSupported = false := by decide
  have sameFirst : m.memory.read 0xFFFF = 0xCB := by
    rw [Memory.read_of_ne (by decide)]
    exact first
  have sameSecond : m.memory.read (0xFFFF + 1) = 0x37 := by
    rw [Memory.read_of_ne (by decide)]
    exact second
  obtain ⟨fails, reports, machine⟩ := step_fails_iff_unsupported cpu bus
  obtain ⟨fault, cpu', bus', failed⟩ :=
    fails.2 ((congrArg Opcode.isSupported (opcodeEq _ first second)).trans missing)
  obtain ⟨rfl, rfl, ⟨opcode_eq, address_eq, registers_eq, get?_window⟩, -⟩ := reports _ _ _ failed
  obtain ⟨machineFault, -, stepped⟩ :=
    machine m ((congrArg Opcode.isSupported (opcodeEq _ sameFirst sameSecond)).trans missing)
  refine ⟨by rw [second, missing], ⟨fault, failed, opcode_eq.trans (opcodeEq _ first second),
    address_eq, registers_eq, ?_, ?_, ?_, ?_⟩, machineFault, stepped⟩
  · rw [get?_window, first]
    decide
  · rw [get?_window, below]
    decide
  · rw [get?_window]
    exact if_neg (by decide)
  · rw [get?_window]
    exact if_neg (by decide)

end Cpu

end DotMatrix
