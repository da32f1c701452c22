import DotMatrix.Proofs.Machine.Step

/-!
# The course of a machine's life

What can be done to a machine from outside, and what it has then gone through: the memory right
after each instruction that was executed, in order.

Stepping and running are the only operations that execute instructions. A run that comes to no end
is seen through its rounds, as many of them as one likes to look at.
-/
namespace DotMatrix

/-- What happens to a machine over some time. -/
structure Course (σ δ : Type) where
  /-- The memory right after each executed instruction. -/
  history : List Memory
  last : Machine σ δ

namespace Course

variable {σ δ : Type}

/-- Nothing is executed. -/
def idle (last : Machine σ δ) : Course σ δ := { history := [], last }

def andThen (course : Course σ δ) (next : Machine σ δ → Course σ δ) : Course σ δ :=
  { history := course.history ++ (next course.last).history
    last := (next course.last).last }

end Course

/-- What can be done to a machine between two looks at it. -/
inductive Operation (δ : Type) where
  | loadBoot (image : List UInt8)
  | loadCartridge (image : List UInt8)
  | write (address : UInt16) (value : UInt8)
  | setRegisters (registers : Registers)
  | setDebugger (debugger : δ)
  | reset
  | step
  /-- At most so many rounds of a run. -/
  | run (rounds : Nat)

namespace Machine

variable {σ δ : Type} [FrameSink σ] [Debugger δ]

/-- An instruction whose frame is refused has been executed all the same. -/
def stepCourse (m : Machine σ δ) : Course σ δ :=
  match m.step with
  | (.ok .proceed, last) | (.error (.sink _), last) => { history := [last.memory], last }
  | (_, last) => .idle last

/-- So many rounds of a run, or fewer if it ends before. -/
def runCourse : (rounds : Nat) → Machine σ δ → Course σ δ
  | 0, m => .idle m
  | rounds + 1, m =>
    match m.limit? with
    | some _ => .idle m
    | none =>
      match m.step with
      | (.ok .proceed, _) => m.stepCourse.andThen (runCourse rounds)
      | _ => m.stepCourse

/-- A boot image that does not fit leaves the machine as it was. -/
def perform (m : Machine σ δ) : Operation δ → Course σ δ
  | .loadBoot image =>
    match m.loadBoot image with
    | .ok last => .idle last
    | .error _ => .idle m
  | .loadCartridge image => .idle (m.loadCartridge image).2
  | .write address value => .idle (m.write address value)
  | .setRegisters registers => .idle (m.setRegisters registers)
  | .setDebugger debugger => .idle (m.withDebugger debugger)
  | .reset => .idle m.reset
  | .step => m.stepCourse
  | .run rounds => m.runCourse rounds

def performAll : Machine σ δ → List (Operation δ) → Course σ δ
  | m, [] => .idle m
  | m, operation :: rest => (m.perform operation).andThen (performAll · rest)

theorem last_stepCourse (m : Machine σ δ) : m.stepCourse.last = m.step.2 := by
  unfold stepCourse
  split
  next stepped => rw [stepped]
  next stepped => rw [stepped]
  next stepped => rw [stepped, Course.idle]

/-- An instruction that is executed is in the history, whatever becomes of its frame. -/
theorem stepCourse_of_executed {m : Machine σ δ} {debugger : δ} {cpu : Cpu} {memory : Memory}
    (proceeds : Debugger.beforeStep m.cpu m.memory m.debugger = (.proceed, debugger))
    (executes : m.cpu.step m.memory = (.ok (), cpu, memory)) :
    m.stepCourse.history = [memory] ∧ m.stepCourse.last.cpu = cpu ∧
      m.stepCourse.last.memory = memory := by
  have ends := m.step_ends
  unfold stepCourse
  generalize m.step = result at ends ⊢
  cases ends with
  | stopped asked =>
    rw [proceeds] at asked
    cases asked
  | undecoded _ missing =>
    rw [Cpu.step_eq_error_iff.2 ⟨missing, rfl, rfl, rfl⟩] at executes
    cases executes
  | undrawn _ executed _ | drawn _ executed _ _ | refused _ executed _ _ =>
    rw [executes] at executed
    cases executed
    exact ⟨rfl, rfl, rfl⟩

/-- A run that ends has gone through its rounds. -/
theorem last_runCourse {rounds : Nat} {m : Machine σ δ} {ending : Except Fault Exit × Machine σ δ}
    (ended : m.run rounds = some ending) : (m.runCourse rounds).last = ending.2 := by
  induction rounds generalizing m with
  | zero => simp [run] at ended
  | succ rounds ih =>
    have stepLast := m.last_stepCourse
    unfold run at ended
    unfold runCourse
    cases limit : m.limit? with
    | some exit =>
      rw [limit] at ended
      cases ended
      rfl
    | none =>
      rw [limit] at ended
      dsimp only at ended ⊢
      split at ended
      next next stepped =>
        simp only [stepped] at stepLast ⊢
        rw [Course.andThen, stepLast]
        exact ih ended
      next stepped =>
        simp only [stepped] at stepLast ⊢
        cases ended
        exact stepLast
      next stepped =>
        simp only [stepped] at stepLast ⊢
        cases ended
        exact stepLast

end Machine

end DotMatrix
