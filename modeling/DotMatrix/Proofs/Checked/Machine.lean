import DotMatrix.Proofs.Checked.Cpu
import DotMatrix.Proofs.Checked.Video
import DotMatrix.Proofs.Machine.Step

/-!
# A machine that never stops itself

With every check turned on, a step of the machine comes out as it does without any, whatever the
registers and the memory hold, as long as the two counters can count on.
-/
namespace DotMatrix

namespace Machine

variable {σ δ : Type} [FrameSink σ] [Debugger δ]

/-- One step with its checks turned on. -/
def checkedStep (m : Machine σ δ) : Checked (Except Fault Action × Machine σ δ) :=
  match Debugger.beforeStep m.cpu m.memory m.debugger with
  | (.stop, debugger) => return (.ok .stop, { m with debugger })
  | (.proceed, debugger) => do
    match ← m.cpu.checkedStep m.memory with
    | (.error fault, cpu, memory) =>
      return (.error (.decode fault), { m with cpu, memory, debugger })
    | (.ok (), cpu, memory) =>
      let steps ← Checked.unsigned 64 (m.steps + 1)
      match ← m.scheduler.checkedTick memory m.sink with
      | (.error fault, scheduler, sink) =>
        return (.error fault, { m with cpu, memory, scheduler, sink, debugger, steps })
      | (.ok _, scheduler, sink) =>
        return (.ok .proceed, { m with cpu, memory, scheduler, sink, debugger, steps })

theorem checkedStep_eq {m : Machine σ δ} (steps : m.steps < 2 ^ 64 - 1)
    (frames : m.frames < 2 ^ 64 - 1) : m.checkedStep = pure m.step := by
  obtain ⟨config, cpu, memory, scheduler, sink, debugger, count⟩ := m
  have counted : Checked.unsigned 64 (count + 1) = pure (count + 1) :=
    Checked.unsigned_eq (by dsimp only at steps; omega)
  simp only [checkedStep, step, Cpu.checkedStep_eq, pure_bind, counted]
  rcases Debugger.beforeStep cpu memory debugger with ⟨_ | _, debugger⟩
  · rcases cpu.step memory with ⟨fault | _, cpu, memory⟩
    · rfl
    · dsimp only
      rw [scheduler.checkedTick_eq frames, pure_bind]
      rcases scheduler.tick memory sink with ⟨fault | drawn, scheduler, sink⟩ <;> rfl
  · rfl

/-- A step counter that is full does not take another instruction. -/
theorem checkedStep_of_full {m : Machine σ δ} (full : m.steps = 2 ^ 64 - 1) {debugger : δ}
    {cpu : Cpu} {memory : Memory}
    (asked : Debugger.beforeStep m.cpu m.memory m.debugger = (.proceed, debugger))
    (executed : m.cpu.step m.memory = (.ok (), cpu, memory)) :
    m.checkedStep = .error .overflow := by
  have exceeded : Checked.unsigned 64 (m.steps + 1) = throw .overflow := if_neg (by omega)
  simp only [checkedStep, asked, Cpu.checkedStep_eq, executed, pure_bind, exceeded]
  rfl

end Machine

/-- No check fails in an emulation. Opcodes are handed to handlers that accept them. Arithmetic and
steps of the processor come out as without checks, whatever its registers hold and on any bus, and
so do reading and writing the memory, composing the plane, cutting out the screen and, where another
frame can be counted, a tick. A step of a machine whose counters are not full comes out as without
checks, and ends well, or with a fault of the opcode or of the sink. -/
theorem emulation_passes_checks :
    (∀ (byte : UInt8) (handler : Handler),
      entryFor primaryEntries byte.toNat = some (.direct handler) ∨
        entryFor extendedEntries byte.toNat = some handler →
      handler.accepts byte) ∧
    (∀ (policy : FlagPolicy) (flags : Flags) (a operand : UInt8) (op : AluOp),
      op.checkedApply policy flags a operand = .ok (op.apply policy flags a operand)) ∧
    (∀ {β : Type} [Bus β] (cpu : Cpu) (bus : β), cpu.checkedStep bus = .ok (cpu.step bus)) ∧
    (∀ (memory : Memory) (address : UInt16) (value : UInt8),
      memory.checkedRead address = .ok (memory.read address) ∧
        memory.checkedWrite address value = .ok (memory.write address value)) ∧
    (∀ (memory : Memory) (background : Background) (scrollX scrollY : UInt8),
      Background.checkedCompose memory = .ok (Background.compose memory) ∧
        Frame.checkedExtract background scrollX scrollY =
          .ok (Frame.extract background scrollX scrollY)) ∧
    (∀ {σ : Type} [FrameSink σ] (scheduler : Scheduler) (memory : Memory) (sink : σ),
      scheduler.frames < 2 ^ 64 - 1 →
        scheduler.checkedTick memory sink = .ok (scheduler.tick memory sink)) ∧
    ∀ {σ δ : Type} [FrameSink σ] [Debugger δ] (m : Machine σ δ),
      m.steps < 2 ^ 64 - 1 → m.frames < 2 ^ 64 - 1 →
        m.checkedStep = .ok m.step ∧
        ((∃ action, m.step.1 = .ok action) ∨ (∃ fault, m.step.1 = .error (.decode fault)) ∨
          ∃ reason, m.step.1 = .error (.sink reason)) := by
  refine ⟨?_, fun policy flags a operand op => op.checkedApply_eq policy flags a operand,
    fun cpu bus => cpu.checkedStep_eq bus, fun memory address value =>
      ⟨memory.checkedRead_eq address, memory.checkedWrite_eq address value⟩,
    fun memory background scrollX scrollY => ⟨Background.checkedCompose_eq memory,
      Frame.checkedExtract_eq background scrollX scrollY⟩,
    fun scheduler memory sink frames => Scheduler.checkedTick_eq frames memory sink, ?_⟩
  · rintro byte handler (found | found)
    · have fits := primaryEntries_fit byte
      rw [found, Route.fits, Bool.and_eq_true] at fits
      exact (Handler.fits_some fits.2).1
    · have fits := extendedEntries_fit byte
      rw [found] at fits
      exact (Handler.fits_some fits).1
  · intro σ δ _ _ m steps frames
    refine ⟨Machine.checkedStep_eq steps frames, ?_⟩
    have ends := m.step_ends
    generalize m.step = result at ends ⊢
    cases ends with
    | stopped _ | undrawn _ _ _ | drawn _ _ _ _ => exact .inl ⟨_, rfl⟩
    | undecoded _ _ => exact .inr (.inl ⟨_, rfl⟩)
    | refused _ _ _ _ => exact .inr (.inr ⟨_, rfl⟩)

/-- Both counters are one short of their limits, and A is doubled with a carry at the end of the
address space. -/
theorem emulation_passes_checks_near_limits :
    let m : Machine (List Frame) NoDebugger :=
      { Machine.start {} [] .noDebugger with
        cpu := { registers := { a := 0xFF, f := { carry := true }, pc := 0xFFFF } }
        memory := Memory.blank.write 0xFFFF 0x8F
        scheduler := { frames := 2 ^ 64 - 2 }
        steps := 2 ^ 64 - 2 }
    m.checkedStep = .ok m.step ∧ m.step.1 = .ok .proceed ∧ m.step.2.steps = 2 ^ 64 - 1 ∧
      m.step.2.frames = 2 ^ 64 - 1 ∧ m.step.2.cpu.registers.a = 0xFF := by
  intro m
  obtain ⟨-, -, -, -, -, -, passes⟩ := emulation_passes_checks
  obtain ⟨same, -⟩ := passes m (by decide) (by decide)
  have byte : m.memory.read 0xFFFF = 0x8F := by simp [m, Memory.read_write, Memory.lineRegister]
  have fetched : Opcode.fetch m.memory.read m.cpu.registers.pc = .primary 0x8F := by
    rw [Opcode.fetch, byte, if_neg (by decide)]
  have found : (Opcode.fetch m.memory.read m.cpu.registers.pc).instruction? =
      some (.arithmetic .adc .a) := by
    rw [fetched]
    rfl
  have undrawn : none ≠ some m.memory.scrollY := (Option.some_ne_none _).symm
  have stepped := (Machine.Ends.drawn (m := m) rfl (Cpu.step_of_found found) undrawn rfl).step_eq
  have doubled : (AluOp.adc.apply .accurate { carry := true } 0xFF 0xFF).value = 0xFF := by decide
  rw [stepped] at same ⊢
  exact ⟨same, rfl, rfl, rfl, doubled⟩

end DotMatrix
