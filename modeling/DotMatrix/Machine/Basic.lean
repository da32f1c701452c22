import DotMatrix.Memory.Load
import DotMatrix.Machine.Debugger
import DotMatrix.Video.Scheduler

/-! The machine: processor, memory, frame scheduler, frame sink and debugger. After every instruction
the scheduler looks whether a frame is due. -/
namespace DotMatrix

structure Config where
  policy : FlagPolicy := .accurate
  /-- A run stops once so many instructions have been executed. -/
  maxSteps : Option Nat := none
  /-- A run stops when PC has this value, before the instruction there. -/
  stopAt : Option UInt16 := none
deriving DecidableEq, Repr, Inhabited

/-- Why a run ended without a fault. -/
inductive Exit where
  | debugger
  | stepLimit
  | reached (address : UInt16)
deriving DecidableEq, Repr

structure Machine (σ δ : Type) where
  config : Config
  cpu : Cpu
  memory : Memory
  scheduler : Scheduler
  sink : σ
  debugger : δ
  /-- Instructions executed since the start or the last reset. -/
  steps : Nat

namespace Machine

variable {σ δ : Type}

def start (config : Config) (sink : σ) (debugger : δ) : Machine σ δ where
  config
  cpu := { policy := config.policy }
  memory := Memory.blank
  scheduler := {}
  sink
  debugger
  steps := 0

/-- Frames accepted by the sink in the whole life of the machine. -/
def frames (m : Machine σ δ) : Nat := m.scheduler.frames

def withDebugger {δ' : Type} (m : Machine σ δ) (debugger : δ') : Machine σ δ' :=
  { m with debugger }

def write (m : Machine σ δ) (address : UInt16) (value : UInt8) : Machine σ δ :=
  { m with memory := m.memory.write address value }

def setRegisters (m : Machine σ δ) (registers : Registers) : Machine σ δ :=
  { m with cpu := { m.cpu with registers } }

def loadBoot (m : Machine σ δ) (image : List UInt8) : Except Fault (Machine σ δ) :=
  (m.memory.loadBoot image).map fun memory => { m with memory }

/-- The number of bytes mapped, and the machine with them. -/
def loadCartridge (m : Machine σ δ) (image : List UInt8) : Nat × Machine σ δ :=
  let (count, memory) := m.memory.loadCartridge image
  (count, { m with memory })

/-- Restarts the processor and makes the next step draw; the memory stays. -/
def reset (m : Machine σ δ) : Machine σ δ :=
  { m with cpu := m.cpu.reset, scheduler := m.scheduler.invalidate, steps := 0 }

variable [FrameSink σ] [Debugger δ]

/-- Asks the debugger, executes one instruction and draws if a frame is due. An instruction whose
frame is refused counts as executed. -/
@[inline] def step : Machine σ δ → Except Fault Action × Machine σ δ
  | { config, cpu, memory, scheduler, sink, debugger, steps } =>
    match Debugger.beforeStep cpu memory debugger with
    | (.stop, debugger) =>
      (.ok .stop, { config, cpu, memory, scheduler, sink, debugger, steps })
    | (.proceed, debugger) =>
      match cpu.step memory with
      | (.error fault, cpu, memory) =>
        (.error (.decode fault), { config, cpu, memory, scheduler, sink, debugger, steps })
      | (.ok (), cpu, memory) =>
        match scheduler.tick memory sink with
        | (.error fault, scheduler, sink) =>
          (.error fault, { config, cpu, memory, scheduler, sink, debugger, steps := steps + 1 })
        | (.ok _, scheduler, sink) =>
          (.ok .proceed, { config, cpu, memory, scheduler, sink, debugger, steps := steps + 1 })

/-- The limit that the machine has come to, if any; the number of steps is looked at first. -/
@[inline] def limit? (m : Machine σ δ) : Option Exit :=
  if m.config.maxSteps.any (· ≤ m.steps) then some .stepLimit
  else if m.config.stopAt = some m.cpu.registers.pc then some (.reached m.cpu.registers.pc)
  else none

/-- Steps until a limit, the debugger or a fault ends the run; `none` if `fuel` steps do not get
there. -/
@[specialize] def run : (fuel : Nat) → Machine σ δ → Option (Except Fault Exit × Machine σ δ)
  | 0, _ => none
  | fuel + 1, m =>
    match m.limit? with
    | some exit => some (.ok exit, m)
    | none =>
      match m.step with
      | (.ok .proceed, m) => run fuel m
      | (.ok .stop, m) => some (.ok .debugger, m)
      | (.error fault, m) => some (.error fault, m)

/-- More fuel does not change how a run ends. -/
theorem run_add {fuel : Nat} {m : Machine σ δ} {ending : Except Fault Exit × Machine σ δ}
    (h : run fuel m = some ending) (extra : Nat) : run (fuel + extra) m = some ending := by
  induction fuel generalizing m with
  | zero => simp [run] at h
  | succ fuel ih =>
    rw [Nat.succ_add]
    unfold run at h ⊢
    cases limit : m.limit? with
    | some exit =>
      rw [limit] at h
      exact h
    | none =>
      rw [limit] at h
      dsimp only at h ⊢
      split at h
      · exact ih h
      · exact h
      · exact h

end Machine

end DotMatrix
