import Mathlib.Algebra.Order.Ring.Nat
import DotMatrix.Proofs.Machine.Course

/-!
# The stream of frames

A machine that keeps its frames draws one after its first instruction, and from then on one after
each instruction that leaves the vertical scroll position different from what it was after the
instruction before. What is changed from outside matters only as far as it is still there after an
instruction.

The scheduler has no other knowledge than the position last drawn. A frame is drawn whenever it
changes, so it is always the position after the last instruction.
-/
namespace DotMatrix

/-- The vertical scroll position after the last of these instructions, and the one from before where
none was executed. -/
def scrollAfter : Option UInt8 → List Memory → Option UInt8
  | before, [] => before
  | _, memory :: rest => scrollAfter (some memory.scrollY) rest

/-- The frames due after these instructions, given the vertical scroll position before them. -/
def framesAfter : Option UInt8 → List Memory → List Frame
  | _, [] => []
  | before, memory :: rest =>
    (if before = some memory.scrollY then [] else [Frame.render memory]) ++
      framesAfter (some memory.scrollY) rest

theorem scrollAfter_append (before : Option UInt8) (first second : List Memory) :
    scrollAfter before (first ++ second) = scrollAfter (scrollAfter before first) second := by
  induction first generalizing before with
  | nil => rfl
  | cons memory rest ih => exact ih _

theorem framesAfter_append (before : Option UInt8) (first second : List Memory) :
    framesAfter before (first ++ second) =
      framesAfter before first ++ framesAfter (scrollAfter before first) second := by
  induction first generalizing before with
  | nil => rfl
  | cons memory rest ih =>
    simp only [List.cons_append, framesAfter, scrollAfter, ih, List.append_assoc]

theorem framesAfter_eq_nil {position : UInt8} {history : List Memory}
    (same : ∀ memory ∈ history, memory.scrollY = position) :
    framesAfter (some position) history = [] := by
  induction history with
  | nil => rfl
  | cons memory rest ih =>
    obtain ⟨here, later⟩ := List.forall_mem_cons.1 same
    rw [framesAfter, here, if_pos rfl, ih later, List.append_nil]

theorem scrollAfter_of_getLast? {before : Option UInt8} {history : List Memory} {memory : Memory}
    (last : history.getLast? = some memory) : scrollAfter before history = some memory.scrollY := by
  obtain ⟨earlier, rfl⟩ := List.getLast?_eq_some_iff.1 last
  rw [scrollAfter_append]
  rfl

/-- After the first instruction a frame is due wherever two neighbours differ. -/
theorem framesAfter_cons (before : Option UInt8) (memory : Memory) (rest : List Memory) :
    framesAfter before (memory :: rest) =
      (if before = some memory.scrollY then [] else [Frame.render memory]) ++
        ((List.finRange rest.length).filter fun i =>
          rest[i].scrollY ≠ (memory :: rest)[i.val].scrollY).map fun i => Frame.render rest[i] := by
  induction rest generalizing before memory with
  | nil => rfl
  | cons next rest ih =>
    have indices : List.finRange (next :: rest).length =
        0 :: (List.finRange rest.length).map Fin.succ := List.finRange_succ
    rw [framesAfter, ih, indices]
    by_cases same : next.scrollY = memory.scrollY
    · simp [same, List.filter_map, Function.comp_def]
    · simp [same, Ne.symm same, List.filter_map, Function.comp_def]

/-- Of a machine that has drawn nothing yet, each frame is that of an instruction: of the first one,
and of each that moves the vertical scroll position. -/
theorem framesAfter_none (history : List Memory) :
    framesAfter none history =
      ((List.finRange history.length).filter fun i =>
        i.val = 0 ∨ history[i].scrollY ≠ history[i.val - 1].scrollY).map fun i =>
          Frame.render history[i] := by
  cases history with
  | nil => rfl
  | cons memory rest =>
    have indices : List.finRange (memory :: rest).length =
        0 :: (List.finRange rest.length).map Fin.succ := List.finRange_succ
    rw [framesAfter_cons, indices]
    have notFirst : ∀ i : Fin rest.length, (i.succ : Fin (memory :: rest).length) ≠ 0 :=
      Fin.succ_ne_zero
    simp [List.filter_map, Function.comp_def, notFirst]

/-- The frames kept, the position last drawn and the step counter at the end of a course agree with
its history. -/
structure Course.Recorded {δ : Type} (m : Machine (List Frame) δ) (course : Course (List Frame) δ) :
    Prop where
  sink_eq : course.last.sink = m.sink ++ framesAfter m.scheduler.drawn course.history
  drawn_eq : course.last.scheduler.drawn = scrollAfter m.scheduler.drawn course.history
  steps_eq : course.last.steps = m.steps + course.history.length

namespace Course.Recorded

variable {δ : Type} {m : Machine (List Frame) δ}

theorem idle {last : Machine (List Frame) δ} (sink : last.sink = m.sink)
    (scheduler : last.scheduler = m.scheduler) (steps : last.steps = m.steps) :
    Recorded m (.idle last) where
  sink_eq := by rw [Course.idle, framesAfter, List.append_nil, sink]
  drawn_eq := by rw [Course.idle, scrollAfter, scheduler]
  steps_eq := by rw [Course.idle, List.length_nil, Nat.add_zero, steps]

theorem andThen {course : Course (List Frame) δ}
    {next : Machine (List Frame) δ → Course (List Frame) δ} (first : Recorded m course)
    (second : Recorded course.last (next course.last)) : Recorded m (course.andThen next) where
  sink_eq := by
    rw [Course.andThen, second.sink_eq, first.sink_eq, first.drawn_eq, framesAfter_append,
      List.append_assoc]
  drawn_eq := by rw [Course.andThen, second.drawn_eq, first.drawn_eq, scrollAfter_append]
  steps_eq := by
    rw [Course.andThen, second.steps_eq, first.steps_eq, List.length_append, Nat.add_assoc]

end Course.Recorded

namespace Machine

variable {δ : Type} [Debugger δ]

open Course (Recorded)

theorem recorded_stepCourse (m : Machine (List Frame) δ) : Recorded m m.stepCourse := by
  have ends := m.step_ends
  unfold stepCourse
  generalize m.step = result at ends ⊢
  cases ends with
  | stopped _ | undecoded _ _ => exact .idle rfl rfl rfl
  | undrawn _ _ same =>
    refine ⟨?_, same, rfl⟩
    simp only [framesAfter, if_pos same, List.append_nil]
  | drawn _ _ due accepted =>
    cases accepted
    refine ⟨?_, rfl, rfl⟩
    simp only [framesAfter, if_neg due, List.append_nil]
  | refused _ _ _ rejected => cases rejected

theorem recorded_runCourse (m : Machine (List Frame) δ) (rounds : Nat) :
    Recorded m (m.runCourse rounds) := by
  induction rounds generalizing m with
  | zero => exact .idle rfl rfl rfl
  | succ rounds ih =>
    unfold runCourse
    split
    next => exact .idle rfl rfl rfl
    next =>
      split
      next => exact m.recorded_stepCourse.andThen (ih _)
      next => exact m.recorded_stepCourse

theorem recorded_perform (m : Machine (List Frame) δ) {operation : Operation δ}
    (kept : operation ≠ .reset) : Recorded m (m.perform operation) := by
  cases operation with
  | loadBoot image =>
    simp only [perform, loadBoot]
    cases m.memory.loadBoot image with
    | ok memory => exact .idle rfl rfl rfl
    | error fault => exact .idle rfl rfl rfl
  | loadCartridge image => exact .idle rfl rfl rfl
  | write address value => exact .idle rfl rfl rfl
  | setRegisters registers => exact .idle rfl rfl rfl
  | setDebugger debugger => exact .idle rfl rfl rfl
  | reset => exact absurd rfl kept
  | step => exact m.recorded_stepCourse
  | run rounds => exact m.recorded_runCourse rounds

theorem recorded_performAll (m : Machine (List Frame) δ) {operations : List (Operation δ)}
    (kept : Operation.reset ∉ operations) : Recorded m (m.performAll operations) := by
  induction operations generalizing m with
  | nil => exact .idle rfl rfl rfl
  | cons operation rest ih =>
    rw [List.mem_cons, not_or] at kept
    obtain ⟨here, later⟩ := kept
    exact (m.recorded_perform (Ne.symm here)).andThen (ih _ later)

/-- The frames that a fresh machine has kept are, in order, those of the first instruction executed
and of each one that moved the vertical scroll position, each as memory was right after it. As long
as instructions leave that position where it is, no frame is added, whatever else they change. All
this is about the runs that `Machine.run` makes. -/
theorem sink_performAll_start (config : Config) (debugger : δ) (operations : List (Operation δ))
    (kept : Operation.reset ∉ operations) :
    let course := (start config ([] : List Frame) debugger).performAll operations
    let history := course.history
    course.last.sink =
      ((List.finRange history.length).filter fun i =>
        i.val = 0 ∨ history[i].scrollY ≠ history[i.val - 1].scrollY).map (fun i =>
          Frame.extract (Background.compose history[i]) history[i].scrollX history[i].scrollY) ∧
    course.last.steps = history.length ∧
    (∀ more : List (Operation δ), Operation.reset ∉ more →
      ∀ memory, history.getLast? = some memory →
        (∀ later ∈ (course.last.performAll more).history, later.scrollY = memory.scrollY) →
          (course.last.performAll more).last.sink = course.last.sink) ∧
    ∀ rounds ending, course.last.run rounds = some ending →
      (course.last.perform (.run rounds)).last = ending.2 := by
  intro course history
  have recorded : Recorded (start config [] debugger) course := recorded_performAll _ kept
  refine ⟨?_, ?_, fun more kept memory last same => ?_, fun _ _ ended => last_runCourse ended⟩
  · rw [recorded.sink_eq]
    exact framesAfter_none history
  · rw [recorded.steps_eq]
    exact Nat.zero_add _
  · rw [(course.last.recorded_performAll kept).sink_eq, recorded.drawn_eq,
      scrollAfter_of_getLast? last, framesAfter_eq_nil same, List.append_nil]

theorem stepCourse_nop (m : Machine (List Frame) NoDebugger) {memory : Memory} {pc : UInt16}
    (memoryEq : m.memory = memory) (pcEq : m.cpu.registers.pc = pc) (zero : memory.read pc = 0) :
    m.stepCourse.history = [memory] ∧ m.stepCourse.last.memory = memory ∧
      m.stepCourse.last.cpu.registers.pc = pc + 1 := by
  subst memoryEq pcEq
  obtain ⟨history, cpu, memory⟩ := stepCourse_of_executed rfl (Cpu.step_nop zero)
  exact ⟨history, memory, by rw [cpu]; rfl⟩

theorem stepCourse_write_nop {m : Machine (List Frame) NoDebugger} {memory : Memory} {pc : UInt16}
    (address : UInt16) (value : UInt8) (memoryEq : m.memory = memory)
    (pcEq : m.cpu.registers.pc = pc) (zero : (memory.write address value).read pc = 0) :
    (m.write address value).stepCourse.history = [memory.write address value] ∧
      (m.write address value).stepCourse.last.memory = memory.write address value ∧
      (m.write address value).stepCourse.last.cpu.registers.pc = pc + 1 :=
  (m.write address value).stepCourse_nop (congrArg (Memory.write · address value) memoryEq) pcEq
    zero

/-- Instructions that do nothing, with the scroll position moved from outside: vertically after the
first, horizontally after the second. The third draws nothing. -/
theorem sink_performAll_start_idle :
    let operations : List (Operation NoDebugger) :=
      [.step, .write Memory.scrollYRegister 5, .step]
    let more : List (Operation NoDebugger) := [.write Memory.scrollXRegister 7, .step]
    let course := (start {} ([] : List Frame) .noDebugger).performAll operations
    (Operation.reset ∉ operations ∧ Operation.reset ∉ more) ∧
    course.last.sink =
      [Frame.render Memory.blank, Frame.render (Memory.blank.write Memory.scrollYRegister 5)] ∧
    (course.last.performAll more).last.sink = course.last.sink := by
  intro operations more
  dsimp only
  have kept : Operation.reset ∉ operations := by simp [operations]
  have keptMore : Operation.reset ∉ more := by simp [more]
  have bothDrawn : ∀ a b : Memory, b.scrollY ≠ a.scrollY → ∀ history, history = [a, b] →
      ((List.finRange history.length).filter fun i =>
        i.val = 0 ∨ history[i].scrollY ≠ history[i.val - 1].scrollY).map (fun i =>
          Frame.extract (Background.compose history[i]) history[i].scrollX history[i].scrollY) =
        [Frame.render a, Frame.render b] := by
    rintro a b moved _ rfl
    simp [List.finRange_succ, moved, Frame.render]
  have operationsEq : ∀ m : Machine (List Frame) NoDebugger,
      (m.performAll operations).history =
        m.stepCourse.history ++
          (m.stepCourse.last.write Memory.scrollYRegister 5).stepCourse.history ∧
      (m.performAll operations).last =
        (m.stepCourse.last.write Memory.scrollYRegister 5).stepCourse.last := by
    intro m
    simp only [operations, performAll, perform, Course.andThen, Course.idle, List.append_nil,
      List.nil_append, and_self]
  have moreEq : ∀ m : Machine (List Frame) NoDebugger,
      (m.performAll more).history = (m.write Memory.scrollXRegister 7).stepCourse.history := by
    intro m
    simp only [more, performAll, perform, Course.andThen, Course.idle, List.append_nil,
      List.nil_append]
  obtain ⟨first, memory₁, pc₁⟩ := (start {} ([] : List Frame) .noDebugger).stepCourse_nop
    (show _ = Memory.blank from rfl) (show _ = 0 from rfl) (by simp [Memory.lineRegister])
  obtain ⟨second, memory₂, pc₂⟩ := stepCourse_write_nop Memory.scrollYRegister 5 memory₁ pc₁
    (by simp [Memory.read_write, Memory.lineRegister, Memory.scrollYRegister])
  obtain ⟨third, -, -⟩ := stepCourse_write_nop Memory.scrollXRegister 7 memory₂ pc₂
    (by simp [Memory.read_write, Memory.lineRegister, Memory.scrollYRegister,
      Memory.scrollXRegister])
  have historyEq : ((start {} ([] : List Frame) .noDebugger).performAll operations).history =
      [Memory.blank, Memory.blank.write Memory.scrollYRegister 5] := by
    rw [(operationsEq _).1, first, second, List.singleton_append]
  obtain ⟨frames, -, unchanged, -⟩ := sink_performAll_start {} .noDebugger operations kept
  refine ⟨⟨kept, keptMore⟩, frames.trans (bothDrawn _ _ ?_ _ historyEq),
    unchanged more keptMore (Memory.blank.write Memory.scrollYRegister 5) ?_ ?_⟩
  · simp [Memory.scrollY, Memory.read_write, Memory.lineRegister, Memory.scrollYRegister]
  · rw [historyEq, List.getLast?_cons_cons, List.getLast?_singleton]
  · rw [(operationsEq _).2, moreEq, third]
    simp [Memory.scrollY, Memory.read_write, Memory.lineRegister, Memory.scrollYRegister,
      Memory.scrollXRegister]

end Machine

end DotMatrix
