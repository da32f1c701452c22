import DotMatrix.Proofs.Machine.Lockstep
import DotMatrix.Proofs.Video.Presentation

/-!
# Running on after refused frames

A sink may refuse a frame. The run then ends with a fault, but the instruction has been executed and
counted, and the scheduler still has the frame down as due. So one can just run again; the machine
does what it would have done with a sink that takes every frame, only that frames may be missing.

What a machine does apart from drawing is seen through `undrawn`. To state which frames a sink has
accepted it is given a ledger.
-/
namespace DotMatrix

/-- Whether a sink never refuses a frame. -/
def FrameSink.Reliable (τ : Type) [FrameSink τ] : Prop :=
  ∀ frame (sink : τ), (present frame sink).1 = .ok ()

theorem Scheduler.tick_eq_error {σ : Type} [FrameSink σ] {scheduler after : Scheduler}
    {memory : Memory} {sink sink' : σ} {fault : Fault}
    (refused : scheduler.tick memory sink = (.error fault, after, sink')) :
    ∃ reason, fault = .sink reason := by
  unfold tick at refused
  split at refused
  · cases refused
  · split at refused
    · cases refused
    · cases refused
      exact ⟨_, rfl⟩

theorem Scheduler.tick_eq_ok {τ : Type} [FrameSink τ] (reliable : FrameSink.Reliable τ)
    (scheduler : Scheduler) (memory : Memory) (sink : τ) :
    ∃ drawn after sink', scheduler.tick memory sink = (.ok drawn, after, sink') := by
  have accepted := reliable (Frame.render memory) sink
  unfold tick
  split
  · exact ⟨_, _, _, rfl⟩
  · split
    · exact ⟨_, _, _, rfl⟩
    · next presented =>
      rw [presented] at accepted
      cases accepted

/-- A sink together with the frames it has accepted. -/
structure Ledger (σ : Type) where
  sink : σ
  accepted : List Frame := []

instance {σ : Type} [FrameSink σ] : FrameSink (Ledger σ) where
  present frame ledger :=
    match FrameSink.present frame ledger.sink with
    | (.ok (), sink) => (.ok (), { sink, accepted := ledger.accepted ++ [frame] })
    | (.error reason, sink) => (.error reason, { ledger with sink })

namespace Ledger

variable {σ : Type} [FrameSink σ] (frame : Frame) (ledger : Ledger σ)

/-- A ledger does not change what the sink does. -/
theorem present_sink :
    FrameSink.present frame ledger.sink =
      ((FrameSink.present frame ledger).1, (FrameSink.present frame ledger).2.sink) := by
  rcases presented : FrameSink.present frame ledger.sink with ⟨reason | _, sink⟩ <;>
    simp only [FrameSink.present, presented]

theorem accepted_present :
    (FrameSink.present frame ledger).2.accepted =
      ledger.accepted ++ match (FrameSink.present frame ledger).1 with
        | .ok () => [frame]
        | .error _ => [] := by
  rcases presented : FrameSink.present frame ledger.sink with ⟨reason | _, sink⟩ <;>
    simp only [FrameSink.present, presented, List.append_nil]

theorem tick_sink (scheduler : Scheduler) (memory : Memory) :
    scheduler.tick memory ledger.sink =
      ((scheduler.tick memory ledger).1, (scheduler.tick memory ledger).2.1,
        (scheduler.tick memory ledger).2.2.sink) :=
  Scheduler.tick_through Ledger.sink present_sink scheduler memory ledger

end Ledger

/-- A sink that refuses so many frames before it takes any. -/
structure Reluctant where
  refusals : Nat

instance : FrameSink Reluctant where
  present _ sink :=
    match sink.refusals with
    | 0 => (.ok (), sink)
    | refusals + 1 => (.error "not now", { refusals })

namespace Machine

variable {σ τ δ : Type}

/-- What a machine is apart from what it has drawn and has yet to draw. -/
def undrawn (m : Machine σ δ) : Machine Unit δ := { m with scheduler := {}, sink := () }

def withSink (m : Machine σ δ) (sink : τ) : Machine τ δ := { m with sink }

variable [FrameSink σ] [FrameSink τ] [Debugger δ]

/-- Runs, and runs again after each frame that was refused, with so many rounds for each of these
runs. -/
def persist : (budgets : List Nat) → Machine σ δ → Trace (Machine σ δ) Fault
  | [], m => { calls := [], last := m, result? := none }
  | rounds :: budgets, m =>
    match m.run rounds with
    | some (.error (.sink _), last) => (persist budgets last).behind (m.trace rounds).calls
    | _ => m.trace rounds

/-- The frames accepted in the steps called for in these states, each drawn from the memory right
after the instruction. -/
def acceptedIn (calls : List (Machine σ δ)) : List Frame :=
  (calls.filter fun call => call.frames < call.step.2.frames).map fun call =>
    Frame.render call.step.2.memory

/-- The first round of it all. -/
theorem persist_cons (m : Machine σ δ) (rounds : Nat) (budgets : List Nat) :
    m.persist ((rounds + 1) :: budgets) =
      match m.limit? with
      | some exit => { calls := [], last := m, result? := some (.ok exit) }
      | none =>
        match m.step with
        | (.ok .proceed, next) => (next.persist (rounds :: budgets)).behind [m]
        | (.ok .stop, last) => { calls := [m], last, result? := some (.ok .debugger) }
        | (.error (.sink _), last) => (last.persist budgets).behind [m]
        | (.error fault, last) => { calls := [m], last, result? := some (.error fault) } := by
  simp only [persist, run, trace]
  cases m.limit? with
  | some exit => rfl
  | none =>
    rcases m.step with ⟨(_ | _ | _) | _ | _, next⟩
    · rfl
    · rfl
    · rfl
    · dsimp only
      split <;> rfl
    · rfl

theorem step_ne_refused (reliable : FrameSink.Reliable τ) (m : Machine τ δ) (reason : String) :
    m.step.1 ≠ .error (.sink reason) := by
  have ends := m.step_ends
  generalize m.step = result at ends ⊢
  cases ends with
  | stopped _ | undecoded _ _ | undrawn _ _ _ | drawn _ _ _ _ => nofun
  | @refused _ _ memory _ _ _ _ _ rejected =>
    have accepted := reliable (Frame.render memory) m.sink
    rw [rejected] at accepted
    cases accepted

/-- Whatever becomes of its frame, the instruction is the same. -/
theorem step_eq_or_refused (reliable : FrameSink.Reliable τ) {m : Machine σ δ}
    {m' : Machine τ δ} (alike : m.undrawn = m'.undrawn) :
    (m.step.1 = m'.step.1 ∨
      (∃ reason, m.step.1 = .error (.sink reason)) ∧ m'.step.1 = .ok .proceed) ∧
    m.step.2.undrawn = m'.step.2.undrawn := by
  obtain ⟨config, cpu, memory, scheduler, sink, debugger, steps⟩ := m
  obtain ⟨config', cpu', memory', scheduler', sink', debugger', steps'⟩ := m'
  injection alike with configs cpus memories _ _ debuggers counts
  subst configs cpus memories debuggers counts
  simp only [step]
  rcases Debugger.beforeStep cpu memory debugger with ⟨_ | _, debugger⟩
  · rcases cpu.step memory with ⟨fault | _, cpu, memory⟩
    · exact ⟨.inl rfl, rfl⟩
    · obtain ⟨drawn, after, sink', ticked'⟩ := scheduler'.tick_eq_ok reliable memory sink'
      dsimp only
      rw [ticked']
      rcases ticked : scheduler.tick memory sink with ⟨fault | drawn', scheduler, sink⟩
      · obtain ⟨reason, rfl⟩ := Scheduler.tick_eq_error ticked
        exact ⟨.inr ⟨⟨reason, rfl⟩, rfl⟩, rfl⟩
      · exact ⟨.inl rfl, rfl⟩
  · exact ⟨.inl rfl, rfl⟩

/-- With as many runs as there may be rounds, and as many rounds for each, one goes through the same
steps as a run whose sink refuses nothing. -/
theorem undrawn_persist (reliable : FrameSink.Reliable τ) {m : Machine σ δ} {m' : Machine τ δ}
    (alike : m.undrawn = m'.undrawn) {rounds : Nat}
    (ended : (m'.trace rounds).result? ≠ none) {budgets : List Nat}
    (long : ∀ budget ∈ budgets, rounds ≤ budget) (many : rounds ≤ budgets.length) :
    (m.persist budgets).seen undrawn id = (m'.trace rounds).seen undrawn id := by
  -- On the rounds of the undisturbed run: a step that goes on takes a round from the run at hand, a
  -- refusal takes a whole run from those that are left.
  induction rounds generalizing m m' budgets with
  | zero => exact absurd rfl ended
  | succ rounds ih =>
    obtain _ | ⟨budget, budgets⟩ := budgets
    · exact absurd many (Nat.not_succ_le_zero rounds)
    obtain ⟨first, others⟩ := List.forall_mem_cons.1 long
    obtain ⟨budget, rfl⟩ := Nat.exists_eq_add_of_le' (Nat.le_trans (Nat.succ_pos rounds) first)
    have limits : m.limit? = m'.limit? := (congrArg limit? alike :)
    have refused := m'.step_ne_refused reliable
    obtain ⟨outcomes, states⟩ := step_eq_or_refused reliable alike
    rw [persist_cons, limits]
    unfold trace at ended ⊢
    cases limit : m'.limit? with
    | some exit => simp only [Trace.seen, alike, List.map_nil]
    | none =>
      rw [limit] at ended
      dsimp only at ended ⊢
      generalize m.step = stepped at outcomes states ⊢
      generalize m'.step = stepped' at ended refused outcomes states ⊢
      obtain ⟨outcome, next⟩ := stepped
      obtain ⟨outcome', next'⟩ := stepped'
      dsimp only at ended refused outcomes states ⊢
      have shorter : ∀ budget ∈ budgets, rounds ≤ budget := fun budget member =>
        Nat.le_of_succ_le (others budget member)
      obtain rfl | ⟨⟨reason, rfl⟩, rfl⟩ := outcomes
      · rcases outcome with (fault | ⟨image, fault⟩ | reason) | _ | _
        · simp only [Trace.seen, List.map_cons, List.map_nil, alike, states]
        · simp only [Trace.seen, List.map_cons, List.map_nil, alike, states]
        · exact absurd rfl (refused reason)
        · rw [Trace.seen_behind, Trace.seen_behind, List.map_singleton, List.map_singleton, alike,
            ih states ended (List.forall_mem_cons.2 ⟨Nat.le_of_succ_le_succ first, shorter⟩)
              (Nat.le_of_succ_le many)]
        · simp only [Trace.seen, List.map_cons, List.map_nil, alike, states]
      · rw [Trace.seen_behind, Trace.seen_behind, List.map_singleton, List.map_singleton, alike,
          ih states ended shorter (Nat.le_of_succ_le_succ many)]

theorem acceptedIn_singleton (m : Machine σ δ) :
    acceptedIn [m] =
      if m.frames < m.step.2.frames then [Frame.render m.step.2.memory] else [] := by
  simp only [acceptedIn, List.filter_cons, List.filter_nil, decide_eq_true_eq]
  split <;> rfl

theorem acceptedIn_append (first second : List (Machine σ δ)) :
    acceptedIn (first ++ second) = acceptedIn first ++ acceptedIn second := by
  simp only [acceptedIn, List.filter_append, List.map_append]

section Ledger

variable (m : Machine (Ledger σ) δ)

/-- A step adds to the ledger the frame that it has drawn, if it has drawn one. -/
theorem accepted_step : m.step.2.sink.accepted = m.sink.accepted ++ acceptedIn [m] := by
  have ends := m.step_ends
  rw [acceptedIn_singleton]
  generalize m.step = result at ends ⊢
  cases ends with
  | stopped _ | undecoded _ _ | undrawn _ _ _ =>
    simp only [frames, Nat.lt_irrefl, if_false, List.append_nil]
  | @drawn _ _ memory _ _ _ _ accepted =>
    have added := m.sink.accepted_present (Frame.render memory)
    rw [accepted] at added
    simp only [frames, Nat.lt_add_one, if_true]
    exact added
  | @refused _ _ memory _ _ _ _ _ rejected =>
    have added := m.sink.accepted_present (Frame.render memory)
    rw [rejected] at added
    simp only [frames, Nat.lt_irrefl, if_false]
    exact added

theorem accepted_trace (rounds : Nat) :
    (m.trace rounds).last.sink.accepted =
      m.sink.accepted ++ acceptedIn (m.trace rounds).calls := by
  induction rounds generalizing m with
  | zero => exact (List.append_nil _).symm
  | succ rounds ih =>
    obtain ⟨final, ending, ends⟩ | ⟨next, proceeds⟩ := m.ending_or_proceeds
    · rw [ends.trace_succ]
      obtain ⟨rfl, last⟩ | ⟨rfl, -, last⟩ := ends.final_cases
      · rw [last]
        exact (List.append_nil _).symm
      · rw [last]
        exact m.accepted_step
    · have added := m.accepted_step
      rw [proceeds.stepped] at added
      rw [proceeds.trace_succ, Trace.behind, acceptedIn_append, ← List.append_assoc, ← added]
      exact ih next

theorem accepted_persist (budgets : List Nat) :
    (m.persist budgets).last.sink.accepted =
      m.sink.accepted ++ acceptedIn (m.persist budgets).calls := by
  induction budgets generalizing m with
  | nil => exact (List.append_nil _).symm
  | cons rounds budgets ih =>
    unfold persist
    split
    next last ended =>
      have added := m.accepted_trace rounds
      rw [(trace_of_run_eq_some ended).2] at added
      rw [Trace.behind, acceptedIn_append, ← List.append_assoc, ← added]
      exact ih last
    next => exact m.accepted_trace rounds

/-- The machine without the ledger. -/
def plain (m : Machine (Ledger σ) δ) : Machine σ δ := m.withSink m.sink.sink

theorem plain_step : m.plain.step = (m.step.1, m.step.2.plain) := by
  obtain ⟨config, cpu, memory, scheduler, ledger, debugger, steps⟩ := m
  simp only [step, plain, withSink]
  rcases Debugger.beforeStep cpu memory debugger with ⟨_ | _, debugger⟩
  · rcases cpu.step memory with ⟨fault | _, cpu, memory⟩
    · rfl
    · dsimp only
      rw [ledger.tick_sink]
      rcases scheduler.tick memory ledger with ⟨fault | drawn, scheduler, ledger⟩ <;> rfl
  · rfl

/-- The machine does not see the ledger. -/
theorem plain_trace (rounds : Nat) : m.plain.trace rounds = (m.trace rounds).seen plain id :=
  trace_through plain (fun _ => rfl) plain_step m rounds

theorem plain_persist (budgets : List Nat) :
    m.plain.persist budgets = (m.persist budgets).seen plain id := by
  induction budgets generalizing m with
  | nil => rfl
  | cons rounds budgets ih =>
    have runs : m.plain.run rounds = (m.run rounds).map fun (result, last) => (result, last.plain) := by
      rw [run_eq_trace, run_eq_trace, plain_trace, Trace.seen_id, Option.map_map]
      rfl
    rw [persist, persist, runs, plain_trace]
    rcases m.run rounds with _ | ⟨(_ | _ | reason) | exit, last⟩
    · rfl
    · rfl
    · rfl
    · dsimp only [Option.map_some]
      rw [Trace.seen_behind, ih, Trace.seen_id]
    · rfl

end Ledger

theorem result_ne_refused (reliable : FrameSink.Reliable τ)
    {m last : Machine τ δ} {rounds : Nat} {result : Except Fault Exit}
    (ended : m.run rounds = some (result, last)) (reason : String) :
    result ≠ .error (.sink reason) := by
  obtain ⟨k, -, -, final, ends⟩ := (m.run_eq_some_iff rounds (result, last)).1 ended
  rintro rfl
  cases ends with
  | fault _ _ _ failed =>
    exact step_ne_refused reliable (m.after k) reason (congrArg Prod.fst failed)

/-- Refusing frames does not disturb what a machine does otherwise. Where a run with a sink that
refuses nothing ends, running again after each refusal ends as well, with any other sink and as soon
as there may be so many runs of so many rounds: with the same result, and with everything the same
that is not about drawing. The very same steps have been called for one after another, so that no
instruction is executed twice or left out. What the sink has accepted is the picture of the memory
right after the instruction, for each of the steps that got a frame drawn. -/
theorem persist_matches_run (reliable : FrameSink.Reliable τ) (m : Machine σ δ) (sink : τ)
    {rounds : Nat} {result : Except Fault Exit} {last : Machine τ δ}
    (ended : (m.withSink sink).run rounds = some (result, last)) (budgets : List Nat)
    (long : ∀ budget ∈ budgets, rounds ≤ budget) (many : rounds ≤ budgets.length) :
    let persisted := m.persist budgets
    let kept := (m.withSink ({ sink := m.sink } : Ledger σ)).persist budgets
    persisted.result? = some result ∧ (∀ reason, result ≠ .error (.sink reason)) ∧
    persisted.last.cpu = last.cpu ∧ persisted.last.memory = last.memory ∧
    persisted.last.steps = last.steps ∧ persisted.last.debugger = last.debugger ∧
    persisted.calls.map undrawn = ((m.withSink sink).trace rounds).calls.map undrawn ∧
    kept.seen plain id = persisted ∧
    kept.last.sink.accepted =
      (kept.calls.filter fun call => call.frames < call.step.2.frames).map fun call =>
        Frame.render call.step.2.memory := by
  intro persisted kept
  obtain ⟨found, same⟩ := trace_of_run_eq_some ended
  have alike : m.undrawn = (m.withSink sink).undrawn := rfl
  have seen := undrawn_persist reliable alike (by rw [found]; nofun) long many
  rw [Trace.seen_id, Trace.seen_id] at seen
  obtain ⟨calls, lasts, results⟩ := Trace.mk.inj seen
  rw [same] at lasts
  refine ⟨results.trans found, result_ne_refused reliable ended, ?_, ?_, ?_, ?_, calls, ?_, ?_⟩
  · exact (congrArg cpu lasts :)
  · exact (congrArg memory lasts :)
  · exact (congrArg steps lasts :)
  · exact (congrArg debugger lasts :)
  · exact ((m.withSink _).plain_persist budgets).symm
  · exact (m.withSink _).accepted_persist budgets

/-- Nothing is loaded, and memory is full of instructions that do nothing. -/
theorem run_start_once :
    ∃ last, (start { maxSteps := some 1 } ([] : List Frame) NoDebugger.noDebugger).run 2 =
      some (.ok .stepLimit, last) ∧ last.steps = 1 ∧ last.sink = [Frame.render Memory.blank] := by
  have executed : Cpu.step {} Memory.blank = (.ok (), { registers := { pc := 1 } }, Memory.blank) :=
    Cpu.step_nop (show Memory.blank.read 0 = 0 by simp [Memory.lineRegister])
  simp only [run, limit?, step, start, Debugger.beforeStep, executed, Scheduler.tick,
    FrameSink.present]
  exact ⟨_, rfl, rfl, rfl⟩

/-- A step that is the last one allowed and has its frame refused: the run ends with the fault, and
running again only finds that the limit has been reached. -/
theorem persist_matches_run_at_limit :
    let m := start { maxSteps := some 1 } ({ refusals := 1 } : Reluctant) NoDebugger.noDebugger
    let reliable := m.withSink ([] : List Frame)
    let persisted := m.persist [2, 2]
    (m.run 2).map (fun (result, last) => (result, last.steps)) =
      some (.error (.sink "not now"), 1) ∧
    ∃ last, reliable.run 2 = some (.ok .stepLimit, last) ∧ last.steps = 1 ∧
      persisted.result? = some (.ok .stepLimit) ∧ persisted.last.cpu = last.cpu ∧
      persisted.calls.map undrawn = (reliable.trace 2).calls.map undrawn := by
  intro m reliable persisted
  have executed : m.cpu.step m.memory = (.ok (), { registers := { pc := 1 } }, Memory.blank) :=
    Cpu.step_nop (show Memory.blank.read 0 = 0 by simp [Memory.lineRegister])
  have refused : (m.run 2).map (fun (result, last) => (result, last.steps)) =
      some (.error (.sink "not now"), 1) := by
    simp only [run, limit?, step, Debugger.beforeStep, executed, Scheduler.tick, FrameSink.present]
    rfl
  obtain ⟨last, ended, counted, -⟩ := run_start_once
  obtain ⟨result, -, cpu, -, -, -, calls, -⟩ := persist_matches_run (fun _ _ => rfl) m
    ([] : List Frame) ended [2, 2] (by simp) (by decide)
  exact ⟨refused, last, ended, counted, result, cpu, calls⟩

end Machine

end DotMatrix
