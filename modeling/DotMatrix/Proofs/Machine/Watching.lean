import DotMatrix.Stepper
import DotMatrix.Proofs.Machine.Lockstep

/-!
# What a debugger can do to a machine

A debugger may stop a machine, and nothing else. The steps that it does not stop are those of the
machine without a debugger, one after another; a step that it stops leaves the machine as it was. It
is asked once for each step that is called for, with the state in which the step finds the machine.

Debuggers may be exchanged between steps, also for such of another kind, without any difference.
-/
namespace DotMatrix

/-- A step that was called for, as it is seen without the debugger. -/
structure Attempt (σ : Type) where
  before : Machine σ NoDebugger
  outcome : Except Fault Action
  after : Machine σ NoDebugger

namespace Attempt

variable {σ : Type}

/-- The debugger did not stop the step. The instruction may have failed, or its frame. -/
def undertaken (attempt : Attempt σ) : Bool :=
  match attempt.outcome with
  | .ok .stop => false
  | _ => true

/-- A step that a debugger stops. -/
def stopped (m : Machine σ NoDebugger) : Attempt σ := { before := m, outcome := .ok .stop, after := m }

end Attempt

namespace Machine

variable {σ δ : Type}

/-- The machine with its debugger taken away. -/
def bare (m : Machine σ δ) : Machine σ NoDebugger := m.withDebugger .noDebugger

variable [FrameSink σ] [Debugger δ]

/-- The step that the machine is about to make. -/
def attempt (m : Machine σ δ) : Attempt σ where
  before := m.bare
  outcome := m.step.1
  after := m.step.2.bare

theorem step_ne_stop (m : Machine σ NoDebugger) : m.step.1 ≠ .ok .stop := by
  have ends := m.step_ends
  generalize m.step = result at ends ⊢
  cases ends with
  | stopped asked => cases asked
  | undecoded _ _ | undrawn _ _ _ | drawn _ _ _ _ | refused _ _ _ _ => nofun

/-- A debugger that does not stop a step has no part in it. -/
theorem step_of_proceed {m : Machine σ δ} {debugger : δ}
    (asked : Debugger.beforeStep m.cpu m.memory m.debugger = (.proceed, debugger)) :
    m.step = (m.bare.step.1, m.bare.step.2.withDebugger debugger) := by
  obtain ⟨config, cpu, memory, scheduler, sink, old, steps⟩ := m
  simp only [step, bare, withDebugger, asked]
  simp only [Debugger.beforeStep]
  rcases cpu.step memory with ⟨fault | _, cpu, memory⟩
  · rfl
  · dsimp only
    rcases scheduler.tick memory sink with ⟨fault | drawn, scheduler, sink⟩ <;> rfl

/-- A debugger either stops a step or has no part in it. -/
theorem bare_step (m : Machine σ δ) :
    m.step.1 = .ok .stop ∧ m.step.2.bare = m.bare ∨
      m.step.1 = m.bare.step.1 ∧ m.step.2.bare = m.bare.step.2 := by
  rcases asked : Debugger.beforeStep m.cpu m.memory m.debugger with ⟨_ | _, debugger⟩
  · rw [step_of_proceed asked]
    exact .inr ⟨rfl, rfl⟩
  · rw [(Ends.stopped asked).step_eq]
    exact .inl ⟨rfl, rfl⟩

/-- A run under a debugger is the run without it, but for a debugger that stops it on the way. -/
theorem bare_trace (m : Machine σ δ) (rounds : Nat) :
    (m.trace rounds).seen bare id = m.bare.trace rounds ∨
      ∃ k < rounds, m.bare.OngoingFor k ∧ (m.trace rounds).seen bare id =
        { calls := (List.range (k + 1)).map m.bare.after
          last := m.bare.after k
          result? := some (.ok .debugger) } := by
  induction rounds generalizing m with
  | zero => exact .inl rfl
  | succ rounds ih =>
    have limits : m.bare.limit? = m.limit? := rfl
    have unstopped := m.bare.step_ne_stop
    have steps := m.bare_step
    cases limit : m.limit? with
    | some exit =>
      refine .inl ?_
      rw [trace, trace, limits, limit]
      rfl
    | none =>
      rcases stepped : m.step with ⟨outcome, next⟩
      rcases stepped' : m.bare.step with ⟨outcome', next'⟩
      rw [stepped, stepped'] at steps
      rw [stepped'] at unstopped
      obtain ⟨rfl, states⟩ | ⟨rfl, states⟩ := steps
      · refine .inr ⟨0, Nat.succ_pos rounds, fun _ before => absurd before (Nat.not_lt_zero _), ?_⟩
        rw [trace, limit, stepped, Trace.seen_id]
        simp only [states]
        rfl
      · dsimp only at states
        subst states
        rcases outcome with fault | _ | _
        · refine .inl ?_
          rw [trace, trace, limits, limit, stepped, stepped', Trace.seen_id]
          rfl
        · have proceeds : m.Proceeds next := ⟨limit, stepped⟩
          have proceeds' : m.bare.Proceeds next.bare := ⟨limit, stepped'⟩
          rw [proceeds.trace_succ, proceeds'.trace_succ, Trace.seen_behind, List.map_singleton]
          obtain same | ⟨k, before, ongoing, stopped⟩ := ih next
          · rw [same]
            exact .inl rfl
          · refine .inr ⟨k + 1, Nat.succ_lt_succ before, proceeds'.ongoingFor_succ ongoing, ?_⟩
            rw [stopped, proceeds'.map_after_range, proceeds'.after_succ]
            rfl
        · exact absurd rfl unstopped

/-- A debugger may be replaced by one that it can be seen as, if that always answers the same. -/
theorem step_through_debugger {δ' : Type} [Debugger δ'] (view : δ → δ')
    (answers : ∀ cpu memory debugger, Debugger.beforeStep cpu memory (view debugger) =
      ((Debugger.beforeStep cpu memory debugger).1,
        view (Debugger.beforeStep cpu memory debugger).2)) (m : Machine σ δ) :
    (m.withDebugger (view m.debugger)).step =
      (m.step.1, m.step.2.withDebugger (view m.step.2.debugger)) := by
  have asks {action : Action} {debugger : δ}
      (asked : Debugger.beforeStep m.cpu m.memory m.debugger = (action, debugger)) :
      Debugger.beforeStep m.cpu m.memory (view m.debugger) = (action, view debugger) := by
    rw [answers, asked]
  have ends := m.step_ends
  generalize m.step = result at ends ⊢
  let seen : Machine σ δ' := m.withDebugger (view m.debugger)
  cases ends with
  | stopped asked => exact (Ends.stopped (m := seen) (asks asked)).step_eq
  | undecoded asked missing => exact (Ends.undecoded (m := seen) (asks asked) missing).step_eq
  | undrawn asked executed same =>
    exact (Ends.undrawn (m := seen) (asks asked) executed same).step_eq
  | drawn asked executed due accepted =>
    exact (Ends.drawn (m := seen) (asks asked) executed due accepted).step_eq
  | refused asked executed due rejected =>
    exact (Ends.refused (m := seen) (asks asked) executed due rejected).step_eq

end Machine

/-- Attempts of which those not stopped are the steps of a machine, one after another, and the others
leave it where it is. -/
inductive Follows {σ : Type} [FrameSink σ] :
    Machine σ NoDebugger → List (Attempt σ) → Machine σ NoDebugger → Prop
  | nil (m : Machine σ NoDebugger) : Follows m [] m
  | stopped {m last : Machine σ NoDebugger} {attempts : List (Attempt σ)}
      (rest : Follows m attempts last) : Follows m (.stopped m :: attempts) last
  | taken {m last : Machine σ NoDebugger} {attempts : List (Attempt σ)}
      (rest : Follows m.step.2 attempts last) : Follows m (m.attempt :: attempts) last

namespace Follows

variable {σ : Type} [FrameSink σ] {m middle last : Machine σ NoDebugger}
  {attempts earlier later : List (Attempt σ)}

theorem append (first : Follows m earlier middle) (second : Follows middle later last) :
    Follows m (earlier ++ later) last := by
  induction first with
  | nil m => exact second
  | stopped _ ih => exact .stopped (ih second)
  | taken _ ih => exact .taken (ih second)

theorem split (follows : Follows m (earlier ++ later) last) :
    ∃ middle, Follows m earlier middle ∧ Follows middle later last := by
  induction earlier generalizing m with
  | nil => exact ⟨m, .nil m, follows⟩
  | cons first rest ih =>
    cases follows with
    | stopped follows =>
      obtain ⟨middle, first, second⟩ := ih follows
      exact ⟨middle, .stopped first, second⟩
    | taken follows =>
      obtain ⟨middle, first, second⟩ := ih follows
      exact ⟨middle, .taken first, second⟩

theorem undertaken_attempt (m : Machine σ NoDebugger) : m.attempt.undertaken = true := by
  have proceeds := m.step_ne_stop
  unfold Attempt.undertaken Machine.attempt
  split
  next stopped => exact absurd stopped proceeds
  next => rfl

/-- The attempts that were not stopped, and where they lead to. -/
theorem filter_undertaken (follows : Follows m attempts last) :
    attempts.filter Attempt.undertaken =
      (List.range (attempts.filter Attempt.undertaken).length).map (fun k => (m.after k).attempt) ∧
    last = m.after (attempts.filter Attempt.undertaken).length := by
  induction follows with
  | nil m => exact ⟨rfl, rfl⟩
  | stopped _ ih => exact ih
  | @taken m last attempts _ ih =>
    obtain ⟨others, last_eq⟩ := ih
    rw [List.filter_cons_of_pos (undertaken_attempt m), List.length_cons, List.range_succ_eq_map,
      List.map_cons, List.map_map]
    exact ⟨congrArg _ others, last_eq⟩

/-- Where an attempt stands among them tells the state that it was made in. -/
theorem attempt_at {attempt : Attempt σ} (follows : Follows m (earlier ++ attempt :: later) last) :
    attempt = .stopped (m.after (earlier.filter Attempt.undertaken).length) ∨
      attempt = (m.after (earlier.filter Attempt.undertaken).length).attempt := by
  obtain ⟨middle, first, second⟩ := follows.split
  rw [← first.filter_undertaken.2]
  cases second with
  | stopped _ => exact .inl rfl
  | taken _ => exact .inr rfl

variable {δ : Type} [Debugger δ]

theorem of_step (m : Machine σ δ) : Follows m.bare [m.attempt] m.step.2.bare := by
  unfold Machine.attempt
  obtain ⟨outcome, after⟩ | ⟨outcome, after⟩ := m.bare_step
  · rw [outcome, after]
    exact .stopped (.nil _)
  · rw [outcome, after]
    exact .taken (.nil _)

theorem of_trace (m : Machine σ δ) (rounds : Nat) :
    Follows m.bare ((m.trace rounds).calls.map Machine.attempt) (m.trace rounds).last.bare := by
  induction rounds generalizing m with
  | zero => exact .nil _
  | succ rounds ih =>
    obtain ⟨final, ending, ends⟩ | ⟨next, proceeds⟩ := m.ending_or_proceeds
    · rw [ends.trace_succ]
      obtain ⟨rfl, same⟩ | ⟨rfl, -, next⟩ := ends.final_cases
      · rw [same]
        exact .nil _
      · rw [next]
        exact of_step m
    · have first := of_step m
      rw [proceeds.stepped] at first
      rw [proceeds.trace_succ]
      exact first.append (ih next)

end Follows

/-- Steps and runs under one debugger after another, which may be of another type. A run may be left
after so many rounds, before it has ended. -/
inductive Plan : (δ : Type) → Type 1 where
  | done {δ : Type} : Plan δ
  | step {δ : Type} (rest : Plan δ) : Plan δ
  | run {δ : Type} (rounds : Nat) (rest : Plan δ) : Plan δ
  | withDebugger {δ δ' : Type} [Debugger δ'] (debugger : δ') (rest : Plan δ') : Plan δ

/-- A debugger together with all that it has been shown. -/
structure Watched (δ : Type) where
  debugger : δ
  consulted : List (Cpu × Memory) := []

instance {δ : Type} [Debugger δ] : Debugger (Watched δ) where
  beforeStep cpu memory watched :=
    let (action, debugger) := Debugger.beforeStep cpu memory watched.debugger
    (action, { debugger, consulted := watched.consulted ++ [(cpu, memory)] })

namespace Machine

variable {σ δ : Type}

/-- The machine whose debugger nobody watches. -/
def unwatched (m : Machine σ (Watched δ)) : Machine σ δ := m.withDebugger m.debugger.debugger

/-- The machine whose debugger is watched from now on. -/
def watched (m : Machine σ δ) : Machine σ (Watched δ) := m.withDebugger { debugger := m.debugger }

variable [FrameSink σ] [Debugger δ] (m : Machine σ (Watched δ))

theorem unwatched_step : m.unwatched.step = (m.step.1, m.step.2.unwatched) :=
  step_through_debugger Watched.debugger (fun _ _ _ => rfl) m

/-- A step asks the debugger once, and shows it the state before. -/
theorem consulted_step :
    m.step.2.debugger.consulted = m.debugger.consulted ++ [(m.cpu, m.memory)] := by
  have ends := m.step_ends
  generalize m.step = result at ends ⊢
  cases ends with
  | stopped asked | undecoded asked _ | undrawn asked _ _ | drawn asked _ _ _
  | refused asked _ _ _ =>
    exact (congrArg (fun answer => answer.2.consulted) asked).symm

theorem unwatched_trace (rounds : Nat) :
    m.unwatched.trace rounds = (m.trace rounds).seen unwatched id :=
  trace_through unwatched (fun _ => rfl) unwatched_step m rounds

theorem consulted_trace (rounds : Nat) :
    (m.trace rounds).last.debugger.consulted =
      m.debugger.consulted ++ (m.trace rounds).calls.map fun call => (call.cpu, call.memory) := by
  induction rounds generalizing m with
  | zero => exact (List.append_nil _).symm
  | succ rounds ih =>
    obtain ⟨final, ending, ends⟩ | ⟨next, proceeds⟩ := m.ending_or_proceeds
    · rw [ends.trace_succ]
      obtain ⟨rfl, same⟩ | ⟨rfl, -, next⟩ := ends.final_cases
      · rw [same]
        exact (List.append_nil _).symm
      · rw [next]
        exact m.consulted_step
    · have first := m.consulted_step
      rw [proceeds.stepped] at first
      rw [proceeds.trace_succ, Trace.behind, List.map_append, ← List.append_assoc]
      exact (ih next).trans (congrArg (· ++ _) first)

end Machine

namespace Plan

variable {σ : Type} [FrameSink σ]

/-- The steps that are called for, one after another. -/
def attempts : {δ : Type} → [Debugger δ] → Plan δ → Machine σ δ → List (Attempt σ)
  | _, _, done, _ => []
  | _, _, step rest, m => m.attempt :: rest.attempts m.step.2
  | _, _, run rounds rest, m =>
    (m.trace rounds).calls.map Machine.attempt ++ rest.attempts (m.trace rounds).last
  | _, _, withDebugger debugger rest, m => rest.attempts (m.withDebugger debugger)

/-- What the debuggers are shown, one after another. -/
def consultations : {δ : Type} → [Debugger δ] → Plan δ → Machine σ (Watched δ) →
    List (Cpu × Memory)
  | _, _, done, m => m.debugger.consulted
  | _, _, step rest, m => rest.consultations m.step.2
  | _, _, run rounds rest, m => rest.consultations (m.trace rounds).last
  | _, _, withDebugger debugger rest, m =>
    m.debugger.consulted ++ rest.consultations (m.withDebugger { debugger })

theorem follows_attempts : ∀ {δ : Type} [Debugger δ] (plan : Plan δ) (m : Machine σ δ),
    ∃ last, Follows m.bare (plan.attempts m) last
  | _, _, done, m => ⟨m.bare, .nil _⟩
  | _, _, step rest, m =>
    let ⟨last, follows⟩ := follows_attempts rest m.step.2
    ⟨last, (Follows.of_step m).append follows⟩
  | _, _, run rounds rest, m =>
    let ⟨last, follows⟩ := follows_attempts rest (m.trace rounds).last
    ⟨last, (Follows.of_trace m rounds).append follows⟩
  | _, _, withDebugger debugger rest, m => follows_attempts rest (m.withDebugger debugger)

theorem consultations_eq : ∀ {δ : Type} [Debugger δ] (plan : Plan δ) (m : Machine σ (Watched δ)),
    plan.consultations m = m.debugger.consulted ++
      (plan.attempts m.unwatched).map fun attempt => (attempt.before.cpu, attempt.before.memory)
  | _, _, done, m => (List.append_nil _).symm
  | _, _, step rest, m => by
    rw [consultations, consultations_eq rest, m.consulted_step, attempts, m.unwatched_step,
      List.append_assoc]
    rfl
  | _, _, run rounds rest, m => by
    rw [consultations, consultations_eq rest, m.consulted_trace, attempts, m.unwatched_trace,
      Trace.seen_id, List.append_assoc, List.map_append, List.map_map, List.map_map]
    rfl
  | _, _, withDebugger debugger rest, m => by
    rw [consultations, consultations_eq rest]
    rfl

end Plan

namespace Machine

variable {σ δ : Type} [FrameSink σ] [Debugger δ]

/-- A debugger only watches. Under any plan of steps and runs, and whatever debuggers take turns in
it, the steps that are not stopped are the first steps of the machine without a debugger, with the
same states and the same outcomes; a stopped one finds the machine in the state that these have led
to and leaves it there. For each step that is called for a debugger is asked once, with the state
before it. A run that ends does so as without a debugger, with the same steps, unless the debugger
stops it in a state that the machine without a debugger goes through, too. -/
theorem debugger_only_watches (m : Machine σ δ) :
    (∀ plan : Plan δ,
      let attempts := plan.attempts m
      let undertaken := attempts.filter Attempt.undertaken
      undertaken = (List.range undertaken.length).map (fun k => (m.bare.after k).attempt) ∧
      (∀ earlier attempt later, attempts = earlier ++ attempt :: later →
        let state := m.bare.after (earlier.filter Attempt.undertaken).length
        attempt = .stopped state ∨ attempt = state.attempt) ∧
      plan.consultations m.watched =
        attempts.map fun attempt => (attempt.before.cpu, attempt.before.memory)) ∧
    ∀ rounds result last, m.run rounds = some (result, last) →
      (m.bare.run rounds = some (result, last.bare) ∧
        (m.trace rounds).calls.map bare = (m.bare.trace rounds).calls) ∨
      (result = .ok .debugger ∧ ∃ k < rounds, m.bare.OngoingFor k ∧ last.bare = m.bare.after k ∧
        (m.trace rounds).calls.map bare = (List.range (k + 1)).map m.bare.after) := by
  refine ⟨fun plan => ?_, fun rounds result last ended => ?_⟩
  · intro attempts undertaken
    obtain ⟨last, follows⟩ := plan.follows_attempts m
    refine ⟨follows.filter_undertaken.1, ?_, plan.consultations_eq m.watched⟩
    intro earlier attempt later split state
    rw [show plan.attempts m = _ from split] at follows
    exact follows.attempt_at
  · obtain ⟨found, rfl⟩ := trace_of_run_eq_some ended
    obtain same | ⟨k, before, ongoing, stopped⟩ := m.bare_trace rounds
    · rw [Trace.seen_id, found] at same
      rw [run_eq_trace, ← same]
      exact .inl ⟨rfl, rfl⟩
    · rw [Trace.seen_id, found] at stopped
      obtain ⟨calls, last, result⟩ := Trace.mk.inj stopped
      exact .inr ⟨Option.some_inj.1 result, k, before, ongoing, last, calls⟩

/-- A stepper that stops the machine, as there is no input, and is then taken away: the next step is
the first one of the machine without it. -/
theorem debugger_only_watches_stepper :
    let m := start {} ([] : List Frame) (Stepper.ofInput [] .working)
    let plan : Plan Stepper := .step (.withDebugger NoDebugger.noDebugger (.step .done))
    (plan.attempts m).map Attempt.undertaken = [false, true] ∧
    (plan.attempts m).filter Attempt.undertaken = [m.bare.attempt] ∧
    plan.consultations m.watched = [(m.cpu, m.memory), (m.cpu, m.memory)] ∧
    ∃ last, m.run 1 = some (.ok .debugger, last) ∧ last.bare = m.bare := by
  intro m plan
  have stopped : m.step.1 = .ok .stop ∧ m.step.2.bare = m.bare := ⟨rfl, rfl⟩
  have attempts : plan.attempts m = [.stopped m.bare, m.bare.attempt] := by
    change [m.attempt, m.step.2.bare.attempt] = _
    unfold attempt
    rw [stopped.1, stopped.2]
    rfl
  have flags : (plan.attempts m).map Attempt.undertaken = [false, true] := by
    rw [attempts, List.map_cons, List.map_singleton, Follows.undertaken_attempt]
    rfl
  obtain ⟨plans, runs⟩ := debugger_only_watches m
  obtain ⟨undertaken, -, consulted⟩ := plans plan
  refine ⟨flags, ?_, ?_, ?_⟩
  · have one : ((plan.attempts m).filter Attempt.undertaken).length = 1 := by
      have skipped : ¬ (Attempt.stopped m.bare).undertaken = true := Bool.false_ne_true
      rw [attempts, List.filter_cons_of_neg skipped,
        List.filter_cons_of_pos (Follows.undertaken_attempt _)]
      rfl
    rw [undertaken, one]
    rfl
  · rw [consulted, attempts]
    rfl
  · have ended : m.run 1 = some (.ok .debugger, m.step.2) := rfl
    refine ⟨_, ended, ?_⟩
    obtain ⟨unstopped, -⟩ | ⟨-, k, before, -, same, -⟩ := runs 1 _ _ ended
    · exact stopped.2
    · obtain rfl : k = 0 := by omega
      exact same

end Machine

end DotMatrix
