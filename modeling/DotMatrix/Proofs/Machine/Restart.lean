import Mathlib.Data.List.Forall2
import DotMatrix.Proofs.Machine.LineRegister

/-!
# Starting over

A reset takes a machine back to where it was switched on, but for its memory and its debugger. Of
what came before only the frames are left: those that have been collected, and their number. Neither
has any part in what the machine does next, so from there on it goes through the same as a fresh
machine with that memory and that debugger, and adds the same frames to those it has.

The one thing that a reset takes over from the processor is its flag policy. A machine gets it with
its configuration, and no operation changes it. But the processor is open to everyone, and a machine
that is handed one with another policy keeps that policy through a reset, where a fresh machine would
have the one configured. So the machine that is reset is assumed to have the policy configured.
-/
namespace DotMatrix

namespace Machine

section

variable {σ δ : Type}

/-- The flag policy in use is the one configured. -/
def Configured (m : Machine σ δ) : Prop := m.cpu.policy = m.config.policy

variable [FrameSink σ] [Debugger δ] {m : Machine σ δ}

theorem Configured.step (configured : m.Configured) : m.step.2.Configured := by
  have ends := m.step_ends
  generalize m.step = result at ends ⊢
  cases ends with
  | stopped _ | undecoded _ _ => exact configured
  | undrawn _ executed _ | drawn _ executed _ _ | refused _ executed _ _ =>
    have kept := m.cpu.policy_step m.memory
    rw [executed] at kept
    exact kept.trans configured

theorem Configured.trace (configured : m.Configured) (rounds : Nat) :
    (m.trace rounds).last.Configured := by
  induction rounds generalizing m with
  | zero => exact configured
  | succ rounds ih =>
    obtain ⟨final, ending, ends⟩ | ⟨next, proceeds⟩ := m.ending_or_proceeds
    · rw [ends.trace_succ]
      obtain ⟨-, last⟩ | ⟨-, -, last⟩ := ends.final_cases
      · rw [last]
        exact configured
      · rw [last]
        exact configured.step
    · have kept := configured.step
      rw [proceeds.stepped] at kept
      rw [proceeds.trace_succ]
      exact ih kept

theorem Configured.perform (configured : m.Configured) (operation : Operation δ) :
    (m.perform operation).last.Configured := by
  cases operation with
  | loadBoot image =>
    simp only [Machine.perform, loadBoot]
    cases m.memory.loadBoot image with
    | ok memory => exact configured
    | error fault => exact configured
  | loadCartridge image | write address value | setRegisters registers | setDebugger debugger
  | reset => exact configured
  | step =>
    simp only [Machine.perform, last_stepCourse]
    exact configured.step
  | run rounds =>
    simp only [Machine.perform, last_runCourse_eq_trace]
    exact configured.trace rounds

/-- What each of these operations gives back, and the machine after it. -/
def journal : Machine σ δ → List (Operation δ) → List (Answer × Machine σ δ)
  | _, [] => []
  | m, operation :: rest =>
    (m.answer operation, (m.perform operation).last) :: journal (m.perform operation).last rest

theorem Configured.journal (configured : m.Configured) (operations : List (Operation δ)) :
    ∀ entry ∈ m.journal operations, entry.2.Configured := by
  induction operations generalizing m with
  | nil =>
    rw [Machine.journal]
    exact List.forall_mem_nil _
  | cons operation rest ih =>
    have kept := configured.perform operation
    rw [Machine.journal]
    exact List.forall_mem_cons.2 ⟨kept, ih kept⟩

end

/-- Machines that collect their frames, at any time of their lives. The processor and the memory are
open to everyone. -/
inductive Reached : {δ : Type} → [Debugger δ] → Machine (List Frame) δ → Prop
  | start {δ : Type} [Debugger δ] (config : Config) (sink : List Frame) (debugger : δ) :
      Reached (start config sink debugger)
  | perform {δ : Type} [Debugger δ] {m : Machine (List Frame) δ} (reached : Reached m)
      (operation : Operation δ) : Reached (m.perform operation).last
  | withDebugger {δ δ' : Type} [Debugger δ] [Debugger δ'] {m : Machine (List Frame) δ}
      (reached : Reached m) (debugger : δ') : Reached (m.withDebugger debugger)
  | handled {δ : Type} [Debugger δ] {m : Machine (List Frame) δ} (reached : Reached m) (cpu : Cpu)
      (memory : Memory) : Reached { m with cpu, memory }

variable {δ : Type} (m : Machine (List Frame) δ)

/-- A fresh machine that takes over the memory and the debugger. -/
def renewed : Machine (List Frame) δ :=
  { start m.config [] m.debugger with memory := m.memory }

/-- With frames from an earlier life in front of its own. -/
def continuing (frames : List Frame) (count : Nat) : Machine (List Frame) δ :=
  { m with
    sink := frames ++ m.sink
    scheduler := { m.scheduler with frames := count + m.scheduler.frames } }

theorem reset_eq (configured : m.Configured) : m.reset = m.renewed.continuing m.sink m.frames := by
  obtain ⟨config, ⟨registers, policy⟩, memory, scheduler, sink, debugger, steps⟩ := m
  obtain rfl : policy = config.policy := configured
  simp only [reset, renewed, continuing, start, List.append_nil]
  rfl

variable [Debugger δ] (frames : List Frame) (count : Nat)

theorem step_continuing :
    (m.continuing frames count).step = (m.step.1, m.step.2.continuing frames count) := by
  have ends := m.step_ends
  generalize m.step = result at ends ⊢
  cases ends with
  | stopped asked => exact (Ends.stopped (m := m.continuing frames count) asked).step_eq
  | undecoded asked missing =>
    exact (Ends.undecoded (m := m.continuing frames count) asked missing).step_eq
  | undrawn asked executed same =>
    exact (Ends.undrawn (m := m.continuing frames count) asked executed same).step_eq
  | @drawn _ _ memory _ asked executed due accepted =>
    cases accepted
    -- The earlier frames stay in front of the new one.
    have added : FrameSink.present (Frame.render memory) (m.continuing frames count).sink =
        (.ok (), frames ++ (m.sink ++ [Frame.render memory])) := by
      rw [← List.append_assoc]
      rfl
    exact (Ends.drawn (m := m.continuing frames count) asked executed due added).step_eq
  | refused _ _ _ rejected => cases rejected

theorem trace_continuing (rounds : Nat) :
    (m.continuing frames count).trace rounds =
      (m.trace rounds).seen (continuing · frames count) id :=
  trace_through (continuing · frames count) (fun _ => rfl)
    (fun m => m.step_continuing frames count) m rounds

/-- Earlier frames have no part in an operation. -/
theorem perform_continuing (operation : Operation δ) :
    (m.continuing frames count).answer operation = m.answer operation ∧
      ((m.continuing frames count).perform operation).last =
        (m.perform operation).last.continuing frames count := by
  cases operation with
  | loadBoot image =>
    simp only [answer, perform, loadBoot, continuing]
    cases m.memory.loadBoot image with
    | ok memory => exact ⟨rfl, rfl⟩
    | error fault => exact ⟨rfl, rfl⟩
  | loadCartridge image | write address value | setRegisters registers | setDebugger debugger
  | reset => exact ⟨rfl, rfl⟩
  | step => simp only [answer, perform, last_stepCourse, step_continuing, and_self]
  | run rounds =>
    simp only [answer, perform, last_runCourse_eq_trace, map_fst_run, trace_continuing,
      Trace.seen_id, and_self]

theorem journal_continuing (operations : List (Operation δ)) :
    (m.continuing frames count).journal operations =
      (m.journal operations).map fun (answer, after) =>
        (answer, after.continuing frames count) := by
  induction operations generalizing m with
  | nil => rfl
  | cons operation rest ih =>
    obtain ⟨answered, after⟩ := m.perform_continuing frames count operation
    rw [journal, journal, answered, after, ih, List.map_cons]

/-- What is done to the machine after a reset turns out as with a fresh one that has its
configuration, its debugger and the content of its memory: each operation gives the same back and
leaves the same registers, memory, step counter and debugger. The frames collected and counted until
the reset are followed by those of the fresh machine. -/
def Restarts (operations : List (Operation δ)) : Prop :=
  List.Forall₂ (fun (answer, old) (answer', new) =>
      answer = answer' ∧ old.cpu.registers = new.cpu.registers ∧ old.memory = new.memory ∧
        old.steps = new.steps ∧ old.debugger = new.debugger ∧ old.sink = m.sink ++ new.sink ∧
        old.frames = m.frames + new.frames)
    (m.reset.journal operations) (m.renewed.journal operations)

/-- A reset restarts every machine whose processor has the flag policy of the configuration, whatever
is then done to it, and the processor keeps that policy all along. -/
theorem reset_restarts {m : Machine (List Frame) δ} (configured : m.Configured)
    (operations : List (Operation δ)) :
    m.Restarts operations ∧ ∀ entry ∈ m.reset.journal operations, entry.2.Configured := by
  have kept : m.reset.Configured := configured
  refine ⟨?_, kept.journal operations⟩
  rw [Restarts, m.reset_eq configured, journal_continuing, List.forall₂_map_left_iff,
    List.forall₂_same]
  intro entry _
  exact ⟨rfl, rfl, rfl, rfl, rfl, rfl, rfl⟩

/-- A machine that has drawn a frame and used up its steps. Once it is reset it runs again, and draws
its second frame. -/
theorem reset_restarts_at_limit :
    let first := start { maxSteps := some 1 } ([] : List Frame) NoDebugger.noDebugger
    let m := (first.perform .step).last
    m.Configured ∧ m.limit? = some .stepLimit ∧ m.sink = [Frame.render Memory.blank] ∧
    ∃ old, m.reset.journal [.run 2] = [(.ran (some (.ok .stepLimit)), old)] ∧ old.steps = 1 ∧
      old.sink = [Frame.render Memory.blank, Frame.render Memory.blank] ∧ old.frames = 2 := by
  intro first m
  let drawn : Machine (List Frame) NoDebugger :=
    { first with
      cpu := { registers := { pc := 1 } }
      sink := [Frame.render Memory.blank]
      scheduler := { drawn := some Memory.blank.scrollY, frames := 1 }
      steps := 1 }
  have executed : first.cpu.step first.memory =
      (.ok (), { registers := { pc := 1 } }, Memory.blank) :=
    Cpu.step_nop (show Memory.blank.read 0 = 0 by simp [Memory.lineRegister])
  have stepped : first.step = (.ok .proceed, drawn) := (Ends.drawn rfl executed nofun rfl).step_eq
  have ran : first.run 2 = some (.ok .stepLimit, drawn) := by
    rw [run, show first.limit? = none from rfl, stepped]
    rfl
  have mEq : m = drawn := first.last_stepCourse.trans (congrArg Prod.snd stepped)
  have configured : m.Configured := by
    rw [mEq]
    rfl
  have once : m.renewed.journal [.run 2] = [(.ran (some (.ok .stepLimit)), drawn)] := by
    rw [mEq, show drawn.renewed = first from rfl, journal, journal, answer, ran, perform,
      last_runCourse ran]
    rfl
  obtain ⟨restarts, -⟩ := reset_restarts configured [.run 2]
  rw [Restarts, once, journal, journal, List.forall₂_cons] at restarts
  obtain ⟨⟨answered, -, -, steps, -, sink, frames⟩, -⟩ := restarts
  rw [mEq] at sink frames
  exact ⟨configured, by rw [mEq]; rfl, by rw [mEq], _, by rw [journal, journal, answered], steps, sink,
    frames⟩

/-- A reset does not restart a machine that was handed a processor with another policy: its half carry
stays clear where that of a fresh machine is set. -/
theorem reset_keeps_other_policy :
    let first := start {} ([] : List Frame) NoDebugger.noDebugger
    let m := { first.write 0 0x3D with cpu := { policy := .legacy } }
    Reached m ∧ ¬m.Restarts [.step] := by
  intro first m
  let memory := Memory.blank.write 0 0x3D
  let decremented (policy : FlagPolicy) : Registers :=
    { a := 0xFF, f := { subtract := true, halfCarry := policy.halfCarry true false }, pc := 1 }
  have cell : memory.read 0 = 0x3D := by simp [memory, Memory.read_write, Memory.lineRegister]
  have executes : ∀ cpu : Cpu, cpu.registers = {} →
      cpu.step memory = (.ok (), { cpu with registers := decremented cpu.policy }, memory) := by
    intro cpu fresh
    have here : Bus.read memory cpu.registers.pc = 0x3D := by
      rw [fresh]
      exact cell
    have fetched : Opcode.fetch (Bus.read memory) cpu.registers.pc = .primary 0x3D := by
      rw [Opcode.fetch, here, if_neg (by decide)]
    have found : (Opcode.fetch (Bus.read memory) cpu.registers.pc).instruction? =
        some (.decrement .a) := by
      rw [fetched]
      rfl
    have result : Alu.decrement cpu.policy {} 0 =
        { value := 0xFF, flags := (decremented cpu.policy).f } := rfl
    have effect : Instruction.effect cpu.policy (Bus.read memory)
        (cpu.registers.skip (Opcode.primary 0x3D).size) (.decrement .a) =
          { registers := decremented cpu.policy } := by
      rw [fresh]
      exact congrArg (Operand.setResult { pc := 1 } · .a) result
    rw [Cpu.step_of_found found, fetched, effect]
    rfl
  have old := (stepCourse_of_executed (m := m.reset) rfl (executes _ rfl)).2.1
  have new := (stepCourse_of_executed (m := m.renewed) rfl (executes _ rfl)).2.1
  have written : Reached (first.write 0 0x3D) := (Reached.start _ _ _).perform (.write 0 0x3D)
  refine ⟨written.handled { policy := .legacy } memory, fun restarts => ?_⟩
  simp only [Restarts, journal, List.forall₂_cons, perform, old, new] at restarts
  obtain ⟨⟨-, same, -⟩, -⟩ := restarts
  exact absurd same (by decide)

end Machine

end DotMatrix
