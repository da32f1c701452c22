import DotMatrix.Proofs.Machine.Trace

/-!
# Two runs side by side

Two machines may be told apart less and less well: through a view of their states, and through what
is told of a fault. Where machines that look alike come to the same limits, and take steps that look
alike, whole runs of them look alike. The machines may have sinks and debuggers of different types.
-/
namespace DotMatrix

theorem mapError_error {φ ψ α : Type} (tell : φ → ψ) (fault : φ) :
    (Except.error fault : Except φ α).mapError tell = .error (tell fault) := rfl

theorem mapError_ok {φ ψ α : Type} (tell : φ → ψ) (value : α) :
    (Except.ok value : Except φ α).mapError tell = .ok value := rfl

/-- What is seen of an outcome and the state that goes with it. -/
def seen {μ φ ω ψ α : Type} (view : μ → ω) (tell : φ → ψ) (outcome : Except φ α × μ) :
    Except ψ α × ω :=
  (outcome.1.mapError tell, view outcome.2)

theorem seen_id {μ φ ω α : Type} (view : μ → ω) (outcome : Except φ α × μ) :
    seen view id outcome = (outcome.1, view outcome.2) := by
  rcases outcome with ⟨fault | value, state⟩ <;> rfl

/-- What is seen of a trace. -/
def Trace.seen {μ φ ω ψ : Type} (view : μ → ω) (tell : φ → ψ) (trace : Trace μ φ) : Trace ω ψ where
  calls := trace.calls.map view
  last := view trace.last
  result? := trace.result?.map (·.mapError tell)

theorem Trace.seen_behind {μ φ ω ψ : Type} (view : μ → ω) (tell : φ → ψ) (earlier : List μ)
    (trace : Trace μ φ) :
    (trace.behind earlier).seen view tell = (trace.seen view tell).behind (earlier.map view) := by
  simp only [seen, behind, List.map_append]

theorem Trace.seen_id {μ φ ω : Type} (view : μ → ω) (trace : Trace μ φ) :
    trace.seen view id =
      { calls := trace.calls.map view, last := view trace.last, result? := trace.result? } := by
  obtain ⟨calls, last, result?⟩ := trace
  rcases result? with _ | ⟨fault | exit⟩ <;> rfl

namespace Machine

variable {σ δ σ' δ' ω ψ : Type} [FrameSink σ] [Debugger δ] [FrameSink σ'] [Debugger δ']

theorem seen_run_eq_trace (view : Machine σ δ → ω) (tell : Fault → ψ) (m : Machine σ δ)
    (rounds : Nat) :
    (m.run rounds).map (seen view tell) = ((m.trace rounds).seen view tell).result?.map fun result =>
      (result, ((m.trace rounds).seen view tell).last) := by
  rw [run_eq_trace]
  cases h : (m.trace rounds).result? <;> simp only [Trace.seen, h] <;> rfl

/-- Views of two kinds of machine through which their runs cannot be told apart, as long as the
first of them calls for no step in a state that is ruled out. -/
structure Lockstep (view : Machine σ δ → ω) (view' : Machine σ' δ' → ω) (tell tell' : Fault → ψ)
    (allowed : Machine σ δ → Prop) : Prop where
  limits : ∀ m m', view m = view' m' → m.limit? = m'.limit?
  steps : ∀ m m', view m = view' m' → allowed m →
    seen view tell m.step = seen view' tell' m'.step

namespace Lockstep

variable {view : Machine σ δ → ω} {view' : Machine σ' δ' → ω} {tell tell' : Fault → ψ}
  {allowed : Machine σ δ → Prop}

theorem seen_trace (lockstep : Lockstep view view' tell tell' allowed) {m : Machine σ δ}
    {m' : Machine σ' δ'} (alike : view m = view' m') (rounds : Nat)
    (all : ∀ call ∈ (m.trace rounds).calls, allowed call) :
    (m.trace rounds).seen view tell = (m'.trace rounds).seen view' tell' := by
  induction rounds generalizing m m' with
  | zero => simp only [trace, Trace.seen, alike, List.map_nil, Option.map_none]
  | succ rounds ih =>
    have limits := lockstep.limits m m' alike
    have steps := lockstep.steps m m' alike
    unfold trace at all ⊢
    rw [← limits]
    cases limit : m.limit? with
    | some exit => simp only [Trace.seen, alike, List.map_nil, Option.map_some, mapError_ok]
    | none =>
      rw [limit] at all
      dsimp only at all ⊢
      have here : allowed m := by
        refine all m ?_
        rcases m.step with ⟨fault | _ | _, next⟩ <;> exact List.mem_cons_self
      obtain ⟨outcomes, states⟩ := Prod.mk.inj (steps here)
      generalize m.step = step at all outcomes states ⊢
      generalize m'.step = step' at outcomes states ⊢
      -- Outcomes of different kinds do not look alike.
      rcases step with ⟨fault | _ | _, next⟩ <;> rcases step' with ⟨fault' | _ | _, next'⟩ <;>
        first | (cases outcomes; done) | skip
      · have told : tell fault = tell' fault' := Except.error.inj outcomes
        dsimp only at states
        simp only [Trace.seen, List.map_cons, List.map_nil, Option.map_some, mapError_error, alike,
          told, states]
      · rw [Trace.seen_behind, Trace.seen_behind, ih states fun call member =>
          all call (List.mem_cons_of_mem _ member), List.map_cons, List.map_cons, alike]
        rfl
      · dsimp only at states
        simp only [Trace.seen, List.map_cons, List.map_nil, Option.map_some, mapError_ok, alike,
          states]

theorem seen_run (lockstep : Lockstep view view' tell tell' allowed) {m : Machine σ δ}
    {m' : Machine σ' δ'} (alike : view m = view' m') (rounds : Nat)
    (all : ∀ call ∈ (m.trace rounds).calls, allowed call) :
    (m.run rounds).map (seen view tell) = (m'.run rounds).map (seen view' tell') := by
  have traces := lockstep.seen_trace alike rounds all
  rw [seen_run_eq_trace, seen_run_eq_trace, traces]

end Lockstep

/-- A machine that is seen as another one, step by step, is seen as it through a whole trace. -/
theorem trace_through (view : Machine σ δ → Machine σ' δ')
    (limits : ∀ m, (view m).limit? = m.limit?)
    (steps : ∀ m, (view m).step = (m.step.1, view m.step.2)) (m : Machine σ δ) (rounds : Nat) :
    (view m).trace rounds = (m.trace rounds).seen view id := by
  have lockstep : Lockstep view id id id fun _ => True :=
    { limits := fun m _ alike => (limits m).symm.trans (congrArg limit? alike)
      steps := fun m m' alike _ => by
        obtain rfl : view m = m' := alike
        rw [seen_id, seen_id, steps]
        rfl }
  have same := lockstep.seen_trace (show view m = id (view m) from rfl) rounds fun _ _ => trivial
  rw [same, Trace.seen_id, List.map_id]
  rfl

end Machine

end DotMatrix
