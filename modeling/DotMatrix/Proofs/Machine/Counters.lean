import DotMatrix.Proofs.Files.FrameFiles
import DotMatrix.Proofs.Machine.LineRegister

/-!
# What the counters tell of a life

Three counters are advanced in different places: the machine counts an instruction as soon as it is
executed, the scheduler a frame once the sink has accepted it, and a frame directory a file once it
is written. They are held against a history that has none of them: what the debugger, the processor
and the sink have answered, in the order in which they were asked.
-/
namespace DotMatrix

/-- What a machine goes through, as far as it is counted. -/
inductive Incident where
  | restarted
  /-- The debugger did not let a step go on. -/
  | stopped
  /-- A step found no instruction. -/
  | undecoded
  /-- An instruction was executed, and the sink shown these frames after it. -/
  | completed (presented : List Presented)

namespace Incident

def isRestarted : Incident → Bool
  | restarted => true
  | _ => false

def isCompleted : Incident → Bool
  | completed _ => true
  | _ => false

def presented : Incident → List Presented
  | completed presented => presented
  | _ => []

/-- The number of instructions executed since the last restart. -/
def executed (history : List Incident) : Nat :=
  (history.reverse.takeWhile fun incident => !incident.isRestarted).countP isCompleted

/-- The number of frames that the sink has accepted, restarts or not. -/
def accepted (history : List Incident) : Nat :=
  (history.flatMap presented).countP fun presented => presented.answer.isOk

theorem executed_restarted (history : List Incident) : executed (history ++ [restarted]) = 0 := by
  simp [executed, isRestarted]

theorem executed_concat {incident : Incident} (going : incident.isRestarted = false)
    (history : List Incident) :
    executed (history ++ [incident]) = executed history + executed [incident] := by
  simp [executed, going, List.countP_cons]

theorem accepted_append (history later : List Incident) :
    accepted (history ++ later) = accepted history + accepted later := by
  rw [accepted, List.flatMap_append, List.countP_append]
  rfl

end Incident

namespace Machine

open Incident (accepted executed)

section

variable {σ δ : Type} [FrameSink σ] [Debugger δ]

/-- With a sink that keeps what it is shown from here on. -/
def recording (m : Machine σ δ) : Machine (Recorder σ) δ := m.withSink { sink := m.sink }

/-- What the next step is, by what each part that is asked in it has to answer. -/
def incident (m : Machine σ δ) : Incident :=
  match Debugger.beforeStep m.cpu m.memory m.debugger with
  | (.stop, _) => .stopped
  | (.proceed, _) =>
    match m.cpu.step m.memory with
    | (.error _, _, _) => .undecoded
    | (.ok (), _, memory) =>
      .completed (m.scheduler.tick memory m.recording.sink).2.2.presented

def incidents (m : Machine σ δ) : Operation δ → List Incident
  | .reset => [.restarted]
  | .step => [m.incident]
  | .run rounds => (m.trace rounds).calls.map incident
  | .loadBoot _ | .loadCartridge _ | .write _ _ | .setRegisters _ | .setDebugger _ => []

/-- The counters, and the sink that may have one of its own. -/
structure Tally (σ : Type) where
  frames : Nat
  steps : Nat
  sink : σ

def tally (m : Machine σ δ) : Tally σ := { frames := m.frames, steps := m.steps, sink := m.sink }

/-! ## One step -/

/-- The frames of an incident are those that the sink is shown in the step. -/
theorem step_recording (m : Machine σ δ) :
    m.recording.step =
      (m.step.1,
        m.step.2.withSink { sink := m.step.2.sink, presented := m.incident.presented }) := by
  obtain ⟨config, cpu, memory, scheduler, sink, debugger, steps⟩ := m
  simp only [step, recording, withSink, incident]
  rcases Debugger.beforeStep cpu memory debugger with ⟨_ | _, debugger⟩
  · rcases cpu.step memory with ⟨fault | _, cpu, memory⟩
    · rfl
    · have through := Scheduler.tick_through (fun recorder : Recorder σ => recorder.sink)
        (fun _ _ => rfl) scheduler memory { sink }
      dsimp only at through ⊢
      rw [through]
      rcases scheduler.tick memory ({ sink } : Recorder σ) with ⟨_ | _, scheduler, recorder⟩ <;> rfl
  · rfl

/-- What the counters and the sink become in a step, by the way it ends. -/
inductive Tallied (m : Machine σ δ) : Except Fault Action → Incident → Tally σ → Prop
  | stopped : Tallied m (.ok .stop) .stopped m.tally
  | undecoded (fault : DecodeFault) : Tallied m (.error (.decode fault)) .undecoded m.tally
  | undrawn : Tallied m (.ok .proceed) (.completed []) { m.tally with steps := m.steps + 1 }
  | drawn {frame : Frame} {sink : σ} (accepted : FrameSink.present frame m.sink = (.ok (), sink)) :
      Tallied m (.ok .proceed) (.completed [{ frame, answer := .ok () }])
        { frames := m.frames + 1, steps := m.steps + 1, sink }
  | refused {frame : Frame} {reason : String} {sink : σ}
      (rejected : FrameSink.present frame m.sink = (.error reason, sink)) :
      Tallied m (.error (.sink reason)) (.completed [{ frame, answer := .error reason }])
        { frames := m.frames, steps := m.steps + 1, sink }

omit [Debugger δ] in
theorem Tallied.counted {m : Machine σ δ} {result : Except Fault Action} {incident : Incident}
    {after : Tally σ} (tallied : m.Tallied result incident after) :
    incident.isRestarted = false ∧ after.frames = m.frames + accepted [incident] ∧
      after.steps = m.steps + executed [incident] := by
  cases tallied <;> exact ⟨rfl, rfl, rfl⟩

theorem step_tallied (m : Machine σ δ) : m.Tallied m.step.1 m.incident m.step.2.tally := by
  have ends := m.step_ends
  generalize m.step = result at ends ⊢
  cases ends with
  | stopped asked =>
    simp only [incident, asked]
    exact .stopped
  | undecoded asked missing =>
    have failed : m.cpu.step m.memory = (.error (m.cpu.fault m.memory.read), m.cpu, m.memory) :=
      Cpu.step_eq_error_iff.2 ⟨missing, rfl, rfl, rfl⟩
    simp only [incident, asked, failed]
    exact .undecoded _
  | undrawn asked executed same =>
    simp only [incident, asked, executed, Scheduler.tick, if_pos same]
    exact .undrawn
  | drawn asked executed due accepted =>
    simp only [incident, asked, executed, Scheduler.tick, if_neg due, recording, withSink,
      FrameSink.present, accepted]
    exact .drawn accepted
  | refused asked executed due rejected =>
    simp only [incident, asked, executed, Scheduler.tick, if_neg due, recording, withSink,
      FrameSink.present, rejected]
    exact .refused rejected

/-! ## Whole lives -/

/-- What every step keeps is kept by the rounds of a run. -/
theorem trace_induction {P : Machine σ δ → List Incident → Prop}
    (step : ∀ m history, P m history → P m.step.2 (history ++ [m.incident]))
    {m : Machine σ δ} {history : List Incident} (now : P m history) (rounds : Nat) :
    P (m.trace rounds).last (history ++ (m.trace rounds).calls.map incident) := by
  induction rounds generalizing m history with
  | zero =>
    rw [trace, List.map_nil, List.append_nil]
    exact now
  | succ rounds ih =>
    obtain ⟨final, ending, ends⟩ | ⟨next, proceeds⟩ := m.ending_or_proceeds
    · rw [ends.trace_succ]
      obtain ⟨rfl, last⟩ | ⟨rfl, -, last⟩ := ends.final_cases
      · rw [last, List.map_nil, List.append_nil]
        exact now
      · rw [last]
        exact step m history now
    · have later := step m history now
      rw [proceeds.stepped] at later
      rw [proceeds.trace_succ, Trace.behind, List.map_append, ← List.append_assoc]
      exact ih later

end

/-- Machines at any time of their lives, each with all that it has gone through. The processor and
the memory are open to everyone, and a sink may change between two operations. -/
inductive Life {σ : Type} [FrameSink σ] (initial : σ) (mayBecome : σ → σ → Prop) :
    {δ : Type} → [Debugger δ] → Machine σ δ → List Incident → Prop
  | start {δ : Type} [Debugger δ] (config : Config) (debugger : δ) :
      Life initial mayBecome (start config initial debugger) []
  | perform {δ : Type} [Debugger δ] {m : Machine σ δ} {history : List Incident}
      (life : Life initial mayBecome m history) (operation : Operation δ) :
      Life initial mayBecome (m.perform operation).last (history ++ m.incidents operation)
  | withDebugger {δ δ' : Type} [Debugger δ] [Debugger δ'] {m : Machine σ δ}
      {history : List Incident} (life : Life initial mayBecome m history) (debugger : δ') :
      Life initial mayBecome (m.withDebugger debugger) history
  | handled {δ : Type} [Debugger δ] {m : Machine σ δ} {history : List Incident}
      (life : Life initial mayBecome m history) (cpu : Cpu) (memory : Memory) :
      Life initial mayBecome { m with cpu, memory } history
  | disturbed {δ : Type} [Debugger δ] {m : Machine σ δ} {history : List Incident} {sink : σ}
      (life : Life initial mayBecome m history) (may : mayBecome m.sink sink) :
      Life initial mayBecome (m.withSink sink) history

/-- A life goes on through any operations. -/
theorem Life.performAll {σ δ : Type} [FrameSink σ] [Debugger δ] {initial : σ}
    {mayBecome : σ → σ → Prop} {m : Machine σ δ} {history : List Incident}
    (life : Life initial mayBecome m history) (operations : List (Operation δ)) :
    ∃ later, Life initial mayBecome (m.performAll operations).last (history ++ later) := by
  induction operations generalizing m history with
  | nil =>
    refine ⟨[], ?_⟩
    rw [List.append_nil]
    exact life
  | cons operation rest ih =>
    obtain ⟨later, longer⟩ := ih (life.perform operation)
    rw [List.append_assoc] at longer
    exact ⟨_, longer⟩

/-- What is true of a fresh machine's counters, and is kept by steps, resets and changes of the
sink, is true at any time. -/
theorem Life.tally_induction {σ δ : Type} [FrameSink σ] [Debugger δ] {initial : σ}
    {mayBecome : σ → σ → Prop} {P : Tally σ → List Incident → Prop}
    (start : P { frames := 0, steps := 0, sink := initial } [])
    (step : ∀ {δ : Type} [Debugger δ] (m : Machine σ δ) history,
      P m.tally history → P m.step.2.tally (history ++ [m.incident]))
    (reset : ∀ tally history, P tally history →
      P { tally with steps := 0 } (history ++ [.restarted]))
    (disturbed : ∀ tally history sink, mayBecome tally.sink sink → P tally history →
      P { tally with sink } history)
    {m : Machine σ δ} {history : List Incident} (life : Life initial mayBecome m history) :
    P m.tally history := by
  induction life with
  | start config debugger => exact start
  | withDebugger _ debugger ih => exact ih
  | handled _ cpu memory ih => exact ih
  | disturbed _ may ih => exact disturbed _ _ _ may ih
  | @perform _ _ m history _ operation ih =>
    cases operation with
    | loadBoot image =>
      rw [Machine.perform, incidents, List.append_nil, loadBoot]
      cases m.memory.loadBoot image with
      | ok memory => exact ih
      | error fault => exact ih
    | loadCartridge image | write address value | setRegisters registers | setDebugger debugger =>
      rw [incidents, List.append_nil]
      exact ih
    | reset => exact reset _ _ ih
    | step =>
      rw [Machine.perform, last_stepCourse]
      exact step m history ih
    | run rounds =>
      rw [Machine.perform, last_runCourse_eq_trace]
      exact trace_induction (P := fun m => P m.tally) (fun m history => step m history) ih rounds

/-- The counters are what the history says. -/
structure Tally.Tells {σ : Type} (tally : Tally σ) (history : List Incident) : Prop where
  frames_eq : tally.frames = accepted history
  steps_eq : tally.steps = executed history

theorem Life.tells {σ δ : Type} [FrameSink σ] [Debugger δ] {initial : σ}
    {mayBecome : σ → σ → Prop} {m : Machine σ δ} {history : List Incident}
    (life : Life initial mayBecome m history) : m.tally.Tells history := by
  refine life.tally_induction ⟨rfl, rfl⟩ ?_ ?_ ?_
  · rintro δ _ m history ⟨frames, steps⟩
    obtain ⟨going, drawn, done⟩ := m.step_tallied.counted
    constructor
    · rw [drawn, Incident.accepted_append, ← frames]
      rfl
    · rw [done, Incident.executed_concat going, ← steps]
      rfl
  · rintro tally history ⟨frames, -⟩
    refine ⟨?_, (Incident.executed_restarted history).symm⟩
    rw [Incident.accepted_append, ← frames]
    rfl
  · rintro tally history sink - ⟨frames, steps⟩
    exact ⟨frames, steps⟩

/-- Others may change the files of a frame directory, but not what it knows of itself. -/
def FilesOnly (before after : FrameDirectory) : Prop := after = { before with files := after.files }

theorem present_cases (frame : Frame) (sink : FrameDirectory) :
    (∃ files, FrameSink.present frame sink =
      (.ok (), { sink with files, written := sink.written + 1 })) ∨
    ∃ reason, FrameSink.present frame sink = (.error reason, sink) := by
  simp only [FrameSink.present]
  cases sink.files.write (sink.pathOf sink.written) (frame.encode sink.format).toUTF8 with
  | ok files => exact .inl ⟨files, rfl⟩
  | error fault => exact .inr ⟨_, rfl⟩

/-- A file is written for each frame that is counted. -/
theorem Tallied.written_eq {δ : Type} {m : Machine FrameDirectory δ}
    {result : Except Fault Action} {incident : Incident} {after : Tally FrameDirectory}
    (tallied : m.Tallied result incident after) :
    after.sink.written + m.frames = m.sink.written + after.frames := by
  cases tallied with
  | stopped | undecoded _ | undrawn => rfl
  | @drawn frame sink accepted =>
    obtain ⟨files, same⟩ | ⟨_, same⟩ := present_cases frame m.sink <;> rw [same] at accepted
    · cases accepted
      dsimp only
      omega
    · cases accepted
  | @refused frame reason sink rejected =>
    obtain ⟨files, same⟩ | ⟨_, same⟩ := present_cases frame m.sink <;> rw [same] at rejected
    · cases rejected
    · cases rejected
      rfl

theorem Life.written_eq {δ : Type} [Debugger δ] {initial : FrameDirectory}
    {m : Machine FrameDirectory δ} {history : List Incident}
    (life : Life initial FilesOnly m history) : m.sink.written = initial.written + m.frames := by
  refine life.tally_induction
    (P := fun tally _ => tally.sink.written = initial.written + tally.frames) rfl ?_ ?_ ?_
  · intro δ _ m history now
    have same := m.step_tallied.written_eq
    have now : m.sink.written = initial.written + m.frames := now
    omega
  · exact fun _ _ now => now
  · intro tally history sink may now
    rw [may]
    exact now

/-- At any time of its life a machine has counted the frames that its sink has accepted in all of
it, and the instructions executed since it was last restarted, whatever became of their frames.
Steps that were stopped or found no instruction are not among them. A frame directory has written a
file for each frame counted. -/
theorem counters_tell_life :
    (∀ {σ δ : Type} [FrameSink σ] [Debugger δ] {initial : σ} {mayBecome : σ → σ → Prop}
      {m : Machine σ δ} {history : List Incident}, Life initial mayBecome m history →
        m.frames =
          (history.flatMap Incident.presented).countP (fun presented => presented.answer.isOk) ∧
        m.steps = (history.reverse.takeWhile fun incident => !incident.isRestarted).countP
          Incident.isCompleted) ∧
    (∀ {σ δ : Type} [FrameSink σ] [Debugger δ] (m : Machine σ δ),
      m.recording.step =
        (m.step.1,
          m.step.2.withSink { sink := m.step.2.sink, presented := m.incident.presented }) ∧
      (m.incident = .stopped ↔ m.step.1 = .ok .stop) ∧
      (m.incident = .undecoded ↔ ∃ fault, m.step.1 = .error (.decode fault)) ∧
      (m.incident.isCompleted ↔
        m.step.1 = .ok .proceed ∨ ∃ reason, m.step.1 = .error (.sink reason)) ∧
      ∀ rounds ending, m.run rounds = some ending →
        (m.perform (.run rounds)).last = ending.2) ∧
    ∀ {δ : Type} [Debugger δ] {initial : FrameDirectory} {m : Machine FrameDirectory δ}
      {history : List Incident}, Life initial FilesOnly m history →
        m.sink.written = initial.written + m.frames ∧
        ∀ files directory format, FrameDirectory.create files directory format = .ok initial →
          m.sink.written = m.frames := by
  refine ⟨?_, ?_, ?_⟩
  · intro σ δ _ _ initial mayBecome m history life
    exact ⟨life.tells.frames_eq, life.tells.steps_eq⟩
  · intro σ δ _ _ m
    have tallied := m.step_tallied
    refine ⟨m.step_recording, ?_, ?_, ?_, fun rounds ending => last_runCourse⟩
    all_goals
      generalize m.step.1 = result, m.incident = incident, m.step.2.tally = after at tallied ⊢
      cases tallied <;> simp [Incident.isCompleted]
  · intro δ _ initial m history life
    refine ⟨life.written_eq, fun files directory format created => ?_⟩
    rw [life.written_eq, (FrameDirectory.of_create created).2.2, Nat.zero_add]

/-- A sink that refuses the first frame and takes the others, and a reset between two of them: two
frames are counted, and one instruction. A first frame is written to an empty directory. -/
theorem counters_tell_life_around_reset :
    let sink : Reluctant := { refusals := 1 }
    let m := ((start {} sink NoDebugger.noDebugger).performAll [.step, .step, .reset, .step]).last
    let directory : FrameDirectory := { files := {}, directory := .ofText "", format := .pbm }
    let written := ((start {} directory NoDebugger.noDebugger).perform .step).last
    (m.frames = 2 ∧ m.steps = 1 ∧
      ∃ history, Life sink (· = ·) m history ∧ accepted history = 2 ∧ executed history = 1) ∧
    written.frames = 1 ∧ written.sink.written = 1 := by
  intro sink m directory written
  have executes : ∀ pc ∈ [0, 1], ({ registers := { pc } } : Cpu).step Memory.blank =
      (.ok (), { registers := ({ pc } : Registers).skip 1 }, Memory.blank) := by
    intro pc member
    refine Cpu.step_nop (show Memory.blank.read pc = 0 from ?_)
    simp only [List.mem_cons, List.not_mem_nil, or_false] at member
    obtain rfl | rfl := member <;> simp [Memory.lineRegister]
  have undrawn {memory : Memory} : none ≠ some memory.scrollY := (Option.some_ne_none _).symm
  obtain ⟨counts, -, writes⟩ := counters_tell_life
  constructor
  · let first : Machine Reluctant NoDebugger :=
      { start {} ({ refusals := 0 } : Reluctant) .noDebugger with
        cpu := { registers := { pc := 1 } }
        steps := 1 }
    let second : Machine Reluctant NoDebugger :=
      { first with
        cpu := { registers := { pc := 2 } }
        scheduler := { drawn := some Memory.blank.scrollY, frames := 1 }
        steps := 2 }
    let third : Machine Reluctant NoDebugger :=
      { first with scheduler := { drawn := some Memory.blank.scrollY, frames := 2 } }
    have refused : (start {} sink NoDebugger.noDebugger).step = (.error (.sink "not now"), first) :=
      (Ends.refused rfl (executes 0 (by simp)) undrawn rfl).step_eq
    have drawn : first.step = (.ok .proceed, second) :=
      (Ends.drawn rfl (executes 1 (by simp)) undrawn rfl).step_eq
    have redrawn : second.reset.step = (.ok .proceed, third) :=
      (Ends.drawn rfl (executes 0 (by simp)) undrawn rfl).step_eq
    have reached : m = third := by
      simp only [m, performAll, Course.andThen, Course.idle, perform, last_stepCourse, refused,
        drawn, redrawn]
    have begun : Life sink (· = ·) (start {} sink NoDebugger.noDebugger) [] :=
      .start {} NoDebugger.noDebugger
    obtain ⟨history, life⟩ := begun.performAll [.step, .step, .reset, .step]
    change Life sink (· = ·) m history at life
    obtain ⟨frames, steps⟩ := counts life
    rw [reached] at frames steps life ⊢
    exact ⟨rfl, rfl, history, life, frames.symm, steps.symm⟩
  · have opens : directory.files.OpensInto directory.directory [] := ⟨rfl, .here [], rfl⟩
    obtain ⟨files, presented, -⟩ := directory.present_of_free opens ⟨by decide, by decide⟩
      (Frame.render Memory.blank) (Option.some_ne_none _).symm
    have stepped := (Ends.drawn (m := start {} directory NoDebugger.noDebugger) rfl
      (executes 0 (by simp)) undrawn presented).step_eq
    have created : FrameDirectory.create {} directory.directory .pbm = .ok directory := by
      rw [FrameDirectory.create, FileSystem.makeDirectories, dif_pos (by decide)]
    have frames : written.frames = 1 := by
      simp only [written, perform, last_stepCourse, stepped]
      rfl
    obtain ⟨-, same⟩ := writes (.perform (.start {} NoDebugger.noDebugger) .step)
    exact ⟨frames, (same _ _ _ created).trans frames⟩

end Machine

end DotMatrix
