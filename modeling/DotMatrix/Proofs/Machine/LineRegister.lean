import DotMatrix.Stepper
import DotMatrix.Proofs.Memory.Reading
import DotMatrix.Proofs.Machine.Course
import DotMatrix.Proofs.Machine.Lockstep

/-!
# What is stored in the line register

The line register always reads as the same line. What is stored there is never seen again: not by a
program that runs over the register, takes it as an operand or pops it, not in the window of a fault,
not on the screen and not from outside.

Machines are compared through their sight, in which the cells of the memory are replaced by what
they read as.
-/
namespace DotMatrix

/-- A debugger that looks at the memory it is shown by reading it. The cells themselves are out of
its reach. -/
class LawfulDebugger (δ : Type) [Debugger δ] : Prop where
  beforeStep_congr : ∀ {memory memory' : Memory}, memory.read = memory'.read →
    ∀ (cpu : Cpu) (debugger : δ),
      Debugger.beforeStep cpu memory debugger = Debugger.beforeStep cpu memory' debugger

instance : LawfulDebugger NoDebugger := ⟨fun _ _ _ => rfl⟩

instance : LawfulDebugger Stepper where
  beforeStep_congr alike cpu stepper := by simp only [Debugger.beforeStep, alike]

/-- What can be seen of a machine. -/
structure Sight (σ δ : Type) where
  config : Config
  cpu : Cpu
  /-- What each address reads as. -/
  read : Reader
  scheduler : Scheduler
  sink : σ
  debugger : δ
  steps : Nat

/-- What an operation gives back. -/
inductive Answer where
  | done
  | loaded (outcome : Except Fault Unit)
  /-- So many bytes have been mapped. -/
  | mapped (count : Nat)
  | executed (outcome : Except DecodeFault Unit)
  | stepped (outcome : Except Fault Action)
  /-- How the run has ended, if it has. -/
  | ran (result? : Option (Except Fault Exit))

namespace Machine

variable {σ δ : Type}

def sight (m : Machine σ δ) : Sight σ δ where
  config := m.config
  cpu := m.cpu
  read := m.memory.read
  scheduler := m.scheduler
  sink := m.sink
  debugger := m.debugger
  steps := m.steps

theorem read_sight (m : Machine σ δ) : m.sight.read = m.memory.read := rfl

theorem sight_eq_iff {m m' : Machine σ δ} :
    m.sight = m'.sight ↔
      ∃ memory, m.memory.read = memory.read ∧ m' = { m with memory } := by
  constructor
  · intro alike
    obtain ⟨config, cpu, memory, scheduler, sink, debugger, steps⟩ := m
    obtain ⟨config', cpu', memory', scheduler', sink', debugger', steps'⟩ := m'
    injection alike with configs cpus reads schedulers sinks debuggers counts
    subst configs cpus schedulers sinks debuggers counts
    exact ⟨memory', reads, rfl⟩
  · rintro ⟨memory, reads, rfl⟩
    simp only [sight, reads]

variable [FrameSink σ] [Debugger δ]

theorem sight_step [LawfulDebugger δ] {m m' : Machine σ δ} (alike : m.sight = m'.sight) :
    seen sight id m.step = seen sight id m'.step := by
  obtain ⟨memory', reads, rfl⟩ := sight_eq_iff.1 alike
  obtain ⟨config, cpu, memory, scheduler, sink, debugger, steps⟩ := m
  simp only [step]
  rw [LawfulDebugger.beforeStep_congr reads cpu debugger]
  rcases Debugger.beforeStep cpu memory' debugger with ⟨_ | _, debugger⟩
  · obtain ⟨outcomes, cpus, memories⟩ := Cpu.step_congr reads cpu
    dsimp only
    generalize cpu.step memory = stepped at outcomes cpus memories ⊢
    generalize cpu.step memory' = stepped' at outcomes cpus memories ⊢
    obtain ⟨outcome, cpu, memory⟩ := stepped
    obtain ⟨outcome', cpu', memory'⟩ := stepped'
    dsimp only at outcomes cpus memories
    subst outcomes cpus
    cases outcome with
    | error fault => simp only [seen, sight, memories]
    | ok =>
      dsimp only
      rw [Scheduler.tick_congr memories]
      rcases scheduler.tick memory' sink with ⟨fault | drawn, scheduler, sink⟩ <;>
        simp only [seen, sight, memories]
  · simp only [seen, sight, reads]

theorem lockstep_sight [LawfulDebugger δ] :
    Lockstep (@sight σ δ) sight id id fun _ => True where
  limits m m' alike := by
    obtain ⟨memory, -, rfl⟩ := sight_eq_iff.1 alike
    rfl
  steps _ _ alike _ := sight_step alike

theorem last_runCourse_eq_trace (m : Machine σ δ) (rounds : Nat) :
    (m.runCourse rounds).last = (m.trace rounds).last := by
  induction rounds generalizing m with
  | zero => rfl
  | succ rounds ih =>
    have stepLast := m.last_stepCourse
    unfold runCourse trace
    cases m.limit? with
    | some exit => rfl
    | none =>
      dsimp only
      rcases stepped : m.step with ⟨fault | _ | _, next⟩
      · exact stepLast.trans (congrArg Prod.snd stepped)
      · dsimp only
        rw [Course.andThen, stepLast, stepped]
        exact ih next
      · exact stepLast.trans (congrArg Prod.snd stepped)

/-- What an operation on a machine gives back; what becomes of the machine is in its course. -/
def answer (m : Machine σ δ) : Operation δ → Answer
  | .loadBoot image => .loaded ((m.loadBoot image).map fun _ => ())
  | .loadCartridge image => .mapped (m.loadCartridge image).1
  | .write _ _ | .setRegisters _ | .setDebugger _ | .reset => .done
  | .step => .stepped m.step.1
  | .run rounds => .ran ((m.run rounds).map Prod.fst)

/-- One operation gives the same back on machines that look alike, and they look alike after it. -/
theorem perform_congr [LawfulDebugger δ] {m m' : Machine σ δ} (alike : m.sight = m'.sight)
    (operation : Operation δ) :
    m.answer operation = m'.answer operation ∧
      (m.perform operation).last.sight = (m'.perform operation).last.sight := by
  obtain ⟨memory, reads, same⟩ := sight_eq_iff.1 alike
  cases operation with
  | loadBoot image =>
    subst same
    simp only [answer, perform, loadBoot]
    obtain ⟨fault, failed, failed'⟩ | ⟨after, after', loaded, loaded', reads'⟩ :=
      Memory.loadBoot_cases reads image
    · rw [failed, failed']
      exact ⟨rfl, sight_eq_iff.2 ⟨_, reads, rfl⟩⟩
    · rw [loaded, loaded']
      exact ⟨rfl, sight_eq_iff.2 ⟨_, reads', rfl⟩⟩
  | loadCartridge image =>
    subst same
    exact ⟨rfl, sight_eq_iff.2 ⟨_, Memory.read_loadCartridge_congr reads image, rfl⟩⟩
  | write address value =>
    subst same
    exact ⟨rfl, sight_eq_iff.2 ⟨_, Memory.read_write_congr reads address value, rfl⟩⟩
  | setRegisters registers | setDebugger debugger | reset =>
    subst same
    exact ⟨rfl, sight_eq_iff.2 ⟨_, reads, rfl⟩⟩
  | step =>
    have steps := sight_step alike
    rw [seen_id, seen_id] at steps
    obtain ⟨outcomes, states⟩ := Prod.mk.inj steps
    simp only [answer, perform, last_stepCourse, outcomes, states, and_self]
  | run rounds =>
    have traces := lockstep_sight.seen_trace alike rounds fun _ _ => trivial
    rw [Trace.seen_id, Trace.seen_id] at traces
    obtain ⟨-, states, results⟩ := Trace.mk.inj traces
    simp only [answer, perform, last_runCourse_eq_trace, map_fst_run, states, results, and_self]

end Machine

/-- What is done to a machine, one thing after another. A new debugger may be of another type. -/
inductive Script : (δ : Type) → Type 1 where
  | done {δ : Type} : Script δ
  | perform {δ : Type} (operation : Operation δ) (rest : Script δ) : Script δ
  | withDebugger {δ δ' : Type} [Debugger δ'] [LawfulDebugger δ'] (debugger : δ')
      (rest : Script δ') : Script δ

/-- What is seen after an operation. -/
structure Observation (σ : Type) : Type 1 where
  answer : Answer
  δ : Type
  sight : Sight σ δ

namespace Script

variable {σ : Type} [FrameSink σ]

/-- What is seen of a machine as it goes through a script. -/
def observe : {δ : Type} → [Debugger δ] → Script δ → Machine σ δ → List (Observation σ)
  | _, _, done, _ => []
  | _, _, perform operation rest, m =>
    ⟨m.answer operation, _, (m.perform operation).last.sight⟩ ::
      rest.observe (m.perform operation).last
  | _, _, withDebugger debugger rest, m =>
    ⟨.done, _, (m.withDebugger debugger).sight⟩ :: rest.observe (m.withDebugger debugger)

theorem observe_congr : ∀ {δ : Type} [Debugger δ] [LawfulDebugger δ] (script : Script δ)
    {m m' : Machine σ δ}, m.sight = m'.sight → script.observe m = script.observe m'
  | _, _, _, done, _, _, _ => rfl
  | _, _, _, perform operation rest, _, _, alike => by
    obtain ⟨answers, sights⟩ := Machine.perform_congr alike operation
    simp only [observe, answers, sights, observe_congr rest sights]
  | _, _, _, withDebugger debugger rest, m, m', alike => by
    have sights : (m.withDebugger debugger).sight = (m'.withDebugger debugger).sight := by
      obtain ⟨memory, reads, rfl⟩ := Machine.sight_eq_iff.1 alike
      exact Machine.sight_eq_iff.2 ⟨memory, reads, rfl⟩
    simp only [observe, sights, observe_congr rest sights]

theorem read_lineRegister_observe : ∀ {δ : Type} [Debugger δ] (script : Script δ)
    (m : Machine σ δ), ∀ observation ∈ script.observe m,
      observation.sight.read Memory.lineRegister = Memory.frameComplete
  | _, _, done, _ => by
    rw [observe]
    exact List.forall_mem_nil _
  | _, _, perform operation rest, m => by
    rw [observe, List.forall_mem_cons]
    refine ⟨?_, read_lineRegister_observe rest _⟩
    rw [Machine.read_sight, Memory.read_lineRegister]
  | _, _, withDebugger debugger rest, m => by
    rw [observe, List.forall_mem_cons]
    refine ⟨?_, read_lineRegister_observe rest _⟩
    rw [Machine.read_sight, Memory.read_lineRegister]

end Script

/-- What can be done to a processor and a memory that are not built into a machine. -/
inductive Deed where
  | loadBoot (image : List UInt8)
  | loadCartridge (image : List UInt8)
  | write (address : UInt16) (value : UInt8)
  | setRegisters (registers : Registers)
  | reset
  | step

namespace Deed

def perform (cpu : Cpu) (memory : Memory) : Deed → Answer × Cpu × Memory
  | loadBoot image =>
    match memory.loadBoot image with
    | .ok memory => (.loaded (.ok ()), cpu, memory)
    | .error fault => (.loaded (.error fault), cpu, memory)
  | loadCartridge image =>
    (.mapped (memory.loadCartridge image).1, cpu, (memory.loadCartridge image).2)
  | write address value => (.done, cpu, memory.write address value)
  | setRegisters registers => (.done, { cpu with registers }, memory)
  | reset => (.done, cpu.reset, memory)
  | step => (.executed (cpu.step memory).1, (cpu.step memory).2)

/-- What is seen of the processor and the memory as they go through these deeds. -/
def observe : List Deed → Cpu → Memory → List (Answer × Cpu × Reader)
  | [], _, _ => []
  | deed :: rest, cpu, memory =>
    let after := deed.perform cpu memory
    (after.1, after.2.1, after.2.2.read) :: observe rest after.2.1 after.2.2

variable {memory memory' : Memory}

theorem perform_congr (alike : memory.read = memory'.read) (cpu : Cpu) (deed : Deed) :
    (deed.perform cpu memory).1 = (deed.perform cpu memory').1 ∧
      (deed.perform cpu memory).2.1 = (deed.perform cpu memory').2.1 ∧
      (deed.perform cpu memory).2.2.read = (deed.perform cpu memory').2.2.read := by
  cases deed with
  | loadBoot image =>
    simp only [perform]
    obtain ⟨fault, failed, failed'⟩ | ⟨after, after', loaded, loaded', reads⟩ :=
      Memory.loadBoot_cases alike image
    · rw [failed, failed']
      exact ⟨rfl, rfl, alike⟩
    · rw [loaded, loaded']
      exact ⟨rfl, rfl, reads⟩
  | loadCartridge image => exact ⟨rfl, rfl, Memory.read_loadCartridge_congr alike image⟩
  | write address value => exact ⟨rfl, rfl, Memory.read_write_congr alike address value⟩
  | setRegisters registers | reset => exact ⟨rfl, rfl, alike⟩
  | step =>
    obtain ⟨outcomes, cpus, reads⟩ := Cpu.step_congr alike cpu
    exact ⟨congrArg Answer.executed outcomes, cpus, reads⟩

theorem observe_congr (alike : memory.read = memory'.read) (cpu : Cpu) (deeds : List Deed) :
    observe deeds cpu memory = observe deeds cpu memory' := by
  induction deeds generalizing cpu memory memory' with
  | nil => rfl
  | cons deed rest ih =>
    obtain ⟨answers, cpus, reads⟩ := perform_congr alike cpu deed
    simp only [observe, answers, cpus, reads, ih reads]

theorem read_lineRegister_observe (cpu : Cpu) (memory : Memory) (deeds : List Deed) :
    ∀ observation ∈ observe deeds cpu memory,
      observation.2.2 Memory.lineRegister = Memory.frameComplete := by
  induction deeds generalizing cpu memory with
  | nil =>
    rw [observe]
    exact List.forall_mem_nil _
  | cons deed rest ih =>
    rw [observe, List.forall_mem_cons]
    exact ⟨(deed.perform cpu memory).2.2.read_lineRegister, ih _ _⟩

end Deed

/-- No difference can be made out between memories that differ in what the line register stores:
not from what a machine gives back in a course of operations nor from what is seen of it after each
of them, whatever its debuggers, and whatever its sink makes of the frames that it is shown, and
neither where the processor and the memory are used without a machine. The line register reads as
the same line all along. -/
theorem lineRegister_unobservable {memory memory' : Memory}
    (alike : ∀ address, address ≠ Memory.lineRegister →
      memory.ram.read address = memory'.ram.read address) :
    memory.read = memory'.read ∧
    (∀ {σ δ : Type} [FrameSink σ] [Debugger δ] [LawfulDebugger δ] (m : Machine σ δ)
        (script : Script δ),
      script.observe { m with memory } = script.observe { m with memory := memory' } ∧
      ∀ observation ∈ script.observe { m with memory },
        observation.sight.read Memory.lineRegister = Memory.frameComplete) ∧
    ∀ (cpu : Cpu) (deeds : List Deed),
      Deed.observe deeds cpu memory = Deed.observe deeds cpu memory' ∧
      ∀ observation ∈ Deed.observe deeds cpu memory,
        observation.2.2 Memory.lineRegister = Memory.frameComplete := by
  have reads : memory.read = memory'.read := Memory.read_eq_read_iff.2 alike
  refine ⟨reads, fun m script => ⟨?_, script.read_lineRegister_observe _⟩, fun cpu deeds =>
    ⟨Deed.observe_congr reads cpu deeds, Deed.read_lineRegister_observe cpu memory deeds⟩⟩
  exact script.observe_congr (Machine.sight_eq_iff.2 ⟨memory', reads, rfl⟩)

/-- The line register is run over as code, and the instruction found there is the same whatever is
stored. -/
theorem lineRegister_unobservable_as_code :
    let memory := Memory.blank
    let memory' := Memory.blank.write Memory.lineRegister 0x55
    let script : Script NoDebugger :=
      .perform (.setRegisters { pc := Memory.lineRegister }) <|
        .perform .step <| .withDebugger (Stepper.ofInput [] .working) <| .perform (.run 2) .done
    let machine (memory : Memory) : Machine (List Frame) NoDebugger :=
      { Machine.start {} [] .noDebugger with memory }
    memory.ram.read Memory.lineRegister ≠ memory'.ram.read Memory.lineRegister ∧
    Opcode.fetch memory.read Memory.lineRegister = .primary 0x90 ∧
    script.observe (machine memory) = script.observe (machine memory') ∧
    Deed.observe [.step, .step] {} memory = Deed.observe [.step, .step] {} memory' := by
  intro memory memory' script machine
  have alike : ∀ address, address ≠ Memory.lineRegister →
      memory.ram.read address = memory'.ram.read address := by
    intro address elsewhere
    exact ((Ram.read_write _ _ _ _).trans (if_neg elsewhere.symm)).symm
  obtain ⟨-, machines, pairs⟩ := lineRegister_unobservable alike
  refine ⟨?_, ?_, (machines (machine memory) script).1, (pairs {} _).1⟩
  · simp [memory, memory', Memory.blank, Memory.write, Ram.read_write]
  · rw [Opcode.fetch, Memory.read_lineRegister]
    rfl

end DotMatrix
