import DotMatrix.Proofs.Machine.Persistence

/-!
# What a collecting sink tells of any other

A list of frames takes every frame it is shown. What a machine does with such a sink tells what it
does with any sink: that one is shown the frames collected, one after another. As long as it takes
them the machine does the same; the first one that it refuses ends the run.
-/
namespace DotMatrix

/-- Shows frames to a sink, one after another, until it refuses one. -/
def FrameSink.offer {τ : Type} [FrameSink τ] (sink : τ) : List Frame → Except String Unit × τ
  | [] => (.ok (), sink)
  | frame :: rest =>
    match present frame sink with
    | (.ok (), sink) => offer sink rest
    | (.error reason, sink) => (.error reason, sink)

theorem FrameSink.offer_append {τ : Type} [FrameSink τ] (sink : τ) (first second : List Frame) :
    offer sink (first ++ second) =
      match offer sink first with
      | (.ok (), sink) => offer sink second
      | (.error reason, sink) => (.error reason, sink) := by
  induction first generalizing sink with
  | nil => rfl
  | cons frame rest ih =>
    rw [List.cons_append, offer, offer]
    rcases present frame sink with ⟨reason | _, sink⟩
    · rfl
    · exact ih sink

namespace Machine

open FrameSink (offer)

variable {τ δ ρ : Type}

/-- What becomes of a result and a state when the frames collected are offered to another sink
instead. -/
inductive PassedOn (refusal : String → ρ) (outcome : ρ × Machine (List Frame) δ) :
    Except String Unit × τ → ρ × Machine τ δ → Prop
  | taken (sink : τ) : PassedOn refusal outcome (.ok (), sink) (outcome.1, outcome.2.withSink sink)
  | refused (reason : String) {sink : τ} {last : Machine τ δ} (left : last.sink = sink) :
      PassedOn refusal outcome (.error reason, sink) (refusal reason, last)

variable [FrameSink τ] [Debugger δ]

theorem step_passedOn (m : Machine (List Frame) δ) (sink : τ) :
    ∃ drawn, m.step.2.sink = m.sink ++ drawn ∧
      PassedOn (fun reason => .error (.sink reason)) m.step (offer sink drawn)
        (m.withSink sink).step := by
  have ends := m.step_ends
  generalize m.step = result at ends ⊢
  cases ends with
  | stopped asked =>
    rw [(Ends.stopped (m := m.withSink sink) asked).step_eq]
    exact ⟨[], (List.append_nil _).symm, .taken sink⟩
  | undecoded asked missing =>
    rw [(Ends.undecoded (m := m.withSink sink) asked missing).step_eq]
    exact ⟨[], (List.append_nil _).symm, .taken sink⟩
  | undrawn asked executed same =>
    rw [(Ends.undrawn (m := m.withSink sink) asked executed same).step_eq]
    exact ⟨[], (List.append_nil _).symm, .taken sink⟩
  | @drawn _ _ memory _ asked executed due accepted =>
    cases accepted
    refine ⟨[Frame.render memory], rfl, ?_⟩
    rw [offer]
    rcases answered : FrameSink.present (Frame.render memory) sink with ⟨reason | _, after⟩
    · rw [(Ends.refused (m := m.withSink sink) asked executed due answered).step_eq]
      exact .refused reason rfl
    · rw [(Ends.drawn (m := m.withSink sink) asked executed due answered).step_eq]
      exact .taken after
  | refused _ _ _ rejected => cases rejected

/-- How a run has ended after so many rounds, if it has, and its state. -/
def standing (m : Machine τ δ) (rounds : Nat) : Option (Except Fault Exit) × Machine τ δ :=
  ((m.trace rounds).result?, (m.trace rounds).last)

theorem standing_succ (m : Machine τ δ) (rounds : Nat) :
    m.standing (rounds + 1) =
      match m.limit? with
      | some exit => (some (.ok exit), m)
      | none =>
        match m.step with
        | (.ok .proceed, next) => next.standing rounds
        | (.ok .stop, last) => (some (.ok .debugger), last)
        | (.error fault, last) => (some (.error fault), last) := by
  simp only [standing, trace]
  cases m.limit? with
  | some exit => rfl
  | none => rcases m.step with ⟨fault | _ | _, next⟩ <;> rfl

/-- After any number of rounds, too, the other sink has been offered the frames collected. -/
theorem standing_passedOn (m : Machine (List Frame) δ) (sink : τ) (rounds : Nat) :
    ∃ drawn, (m.standing rounds).2.sink = m.sink ++ drawn ∧
      PassedOn (fun reason => some (.error (.sink reason))) (m.standing rounds) (offer sink drawn)
        ((m.withSink sink).standing rounds) := by
  induction rounds generalizing m sink with
  | zero => exact ⟨[], (List.append_nil _).symm, .taken sink⟩
  | succ rounds ih =>
    have limits : (m.withSink sink).limit? = m.limit? := rfl
    rw [standing_succ, standing_succ, limits]
    cases m.limit? with
    | some exit => exact ⟨[], (List.append_nil _).symm, .taken sink⟩
    | none =>
      obtain ⟨drawn, grown, passed⟩ := m.step_passedOn sink
      dsimp only
      generalize m.step = stepped at grown passed ⊢
      generalize (m.withSink sink).step = stepped' at passed ⊢
      rcases offered : offer sink drawn with ⟨reason | _, after⟩ <;> rw [offered] at passed
      · cases passed with
        | refused _ left =>
          rcases stepped with ⟨fault | _ | _, next⟩
          · exact ⟨drawn, grown, offered ▸ .refused reason left⟩
          · -- Frames that are collected from here on are not offered to the sink any more.
            obtain ⟨more, collected, -⟩ := ih next sink
            refine ⟨drawn ++ more, ?_, ?_⟩
            · rw [collected, grown, List.append_assoc]
            · rw [FrameSink.offer_append, offered]
              exact .refused reason left
          · exact ⟨drawn, grown, offered ▸ .refused reason left⟩
      · cases passed with
        | taken _ =>
          rcases stepped with ⟨fault | _ | _, next⟩
          · exact ⟨drawn, grown, offered ▸ .taken after⟩
          · obtain ⟨more, collected, passed⟩ := ih next after
            refine ⟨drawn ++ more, ?_, ?_⟩
            · rw [collected, grown, List.append_assoc]
            · rw [FrameSink.offer_append, offered]
              exact passed
          · exact ⟨drawn, grown, offered ▸ .taken after⟩

theorem run_eq_standing (m : Machine τ δ) (rounds : Nat) :
    m.run rounds = (m.standing rounds).1.map fun result => (result, (m.standing rounds).2) :=
  run_eq_trace m rounds

/-- A run that ends with a collecting sink ends with any other one, as it was offered the frames. -/
theorem run_passedOn {m last : Machine (List Frame) δ} {rounds : Nat} {result : Except Fault Exit}
    (ended : m.run rounds = some (result, last)) (sink : τ) :
    ∃ drawn ending, last.sink = m.sink ++ drawn ∧ (m.withSink sink).run rounds = some ending ∧
      PassedOn (fun reason => .error (.sink reason)) (result, last) (offer sink drawn) ending := by
  obtain ⟨found, same⟩ := trace_of_run_eq_some ended
  have stands : m.standing rounds = (some result, last) := Prod.ext found same
  obtain ⟨drawn, collected, passed⟩ := m.standing_passedOn sink rounds
  rw [stands] at collected passed
  rw [run_eq_standing]
  refine ⟨drawn, ?_⟩
  generalize (m.withSink sink).standing rounds = standing at passed ⊢
  generalize offer sink drawn = offered at passed ⊢
  cases passed with
  | taken after => exact ⟨_, collected, rfl, .taken after⟩
  | refused reason left => exact ⟨_, collected, rfl, .refused reason left⟩

/-- Where it does not end, the run with the other sink ends at most as that refuses a frame. -/
theorem run_of_unended {m : Machine (List Frame) δ} {rounds : Nat} (unended : m.run rounds = none)
    (sink : τ) :
    (m.withSink sink).run rounds = none ∨
      ∃ reason last, (m.withSink sink).run rounds = some (.error (.sink reason), last) := by
  rw [run_eq_standing, Option.map_eq_none_iff] at unended
  obtain ⟨drawn, -, passed⟩ := m.standing_passedOn sink rounds
  rw [run_eq_standing]
  generalize (m.withSink sink).standing rounds = standing at passed ⊢
  generalize offer sink drawn = offered at passed
  cases passed with
  | taken after =>
    rw [unended]
    exact .inl rfl
  | refused reason _ => exact .inr ⟨reason, _, rfl⟩

end Machine

end DotMatrix
