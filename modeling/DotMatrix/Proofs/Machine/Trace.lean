import DotMatrix.Proofs.Machine.Step

/-!
# The rounds of a run

A run goes round by round. In each it looks at its limits, and calls for a step unless one of them
has been reached. A trace keeps what so many rounds come to, whether or not the run has ended by
then.

There are four ways for a run to end, and of those that apply in a round the first counts. Only the
last two of them call for a step in that round.
-/
namespace DotMatrix

/-- What so many rounds of a run come to, on states of type `μ` and with faults of type `φ`. -/
structure Trace (μ φ : Type) where
  /-- The states in which a step was called for, in order. -/
  calls : List μ
  last : μ
  /-- How the run has ended, if it has. -/
  result? : Option (Except φ Exit)

namespace Trace

variable {μ φ : Type}

/-- Some steps were called for before all this. -/
def behind (earlier : List μ) (trace : Trace μ φ) : Trace μ φ :=
  { trace with calls := earlier ++ trace.calls }

end Trace

namespace Machine

variable {σ δ : Type}

theorem any_maxSteps_eq_false_iff {m : Machine σ δ} :
    m.config.maxSteps.any (· ≤ m.steps) = false ↔
      ∀ limit, m.config.maxSteps = some limit → m.steps < limit := by
  cases m.config.maxSteps <;> simp

theorem limit?_eq_none_iff {m : Machine σ δ} :
    m.limit? = none ↔ (∀ limit, m.config.maxSteps = some limit → m.steps < limit) ∧
      m.config.stopAt ≠ some m.cpu.registers.pc := by
  rw [← any_maxSteps_eq_false_iff, limit?]
  cases m.config.maxSteps.any (· ≤ m.steps) <;> simp

variable [FrameSink σ] [Debugger δ]

def trace : (rounds : Nat) → Machine σ δ → Trace (Machine σ δ) Fault
  | 0, m => { calls := [], last := m, result? := none }
  | rounds + 1, m =>
    match m.limit? with
    | some exit => { calls := [], last := m, result? := some (.ok exit) }
    | none =>
      match m.step with
      | (.ok .proceed, next) => (trace rounds next).behind [m]
      | (.ok .stop, last) => { calls := [m], last, result? := some (.ok .debugger) }
      | (.error fault, last) => { calls := [m], last, result? := some (.error fault) }

/-- A run is its trace, once it has ended. -/
theorem run_eq_trace (m : Machine σ δ) (rounds : Nat) :
    m.run rounds = (m.trace rounds).result?.map fun result => (result, (m.trace rounds).last) := by
  induction rounds generalizing m with
  | zero => rfl
  | succ rounds ih =>
    unfold run trace
    cases m.limit? with
    | some exit => rfl
    | none =>
      rcases m.step with ⟨fault | _ | _, next⟩
      · rfl
      · exact ih next
      · rfl

theorem map_fst_run (m : Machine σ δ) (rounds : Nat) :
    (m.run rounds).map Prod.fst = (m.trace rounds).result? := by
  rw [run_eq_trace]
  cases (m.trace rounds).result? <;> rfl

theorem trace_of_run_eq_some {m last : Machine σ δ} {rounds : Nat} {result : Except Fault Exit}
    (ended : m.run rounds = some (result, last)) :
    (m.trace rounds).result? = some result ∧ (m.trace rounds).last = last := by
  rw [run_eq_trace] at ended
  obtain ⟨_, found, same⟩ := Option.map_eq_some_iff.1 ended
  cases same
  exact ⟨found, rfl⟩

/-- The state after so many steps. -/
def after : Machine σ δ → (steps : Nat) → Machine σ δ
  | m, 0 => m
  | m, steps + 1 => m.step.2.after steps

/-- How a run ends in a state, by the first of the four that applies; before it, the steps that are
called for in this last round. -/
inductive Ending (m : Machine σ δ) : List (Machine σ δ) → Except Fault Exit × Machine σ δ → Prop
  | stepLimit {limit : Nat} (bounded : m.config.maxSteps = some limit) (used : limit ≤ m.steps) :
      Ending m [] (.ok .stepLimit, m)
  | reached (left : ∀ limit, m.config.maxSteps = some limit → m.steps < limit)
      (here : m.config.stopAt = some m.cpu.registers.pc) :
      Ending m [] (.ok (.reached m.cpu.registers.pc), m)
  | debugger {debugger : δ} (left : ∀ limit, m.config.maxSteps = some limit → m.steps < limit)
      (elsewhere : m.config.stopAt ≠ some m.cpu.registers.pc)
      (asked : Debugger.beforeStep m.cpu m.memory m.debugger = (.stop, debugger)) :
      Ending m [m] (.ok .debugger, { m with debugger })
  | fault {debugger : δ} {fault : Fault} {last : Machine σ δ}
      (left : ∀ limit, m.config.maxSteps = some limit → m.steps < limit)
      (elsewhere : m.config.stopAt ≠ some m.cpu.registers.pc)
      (asked : Debugger.beforeStep m.cpu m.memory m.debugger = (.proceed, debugger))
      (failed : m.step = (.error fault, last)) :
      Ending m [m] (.error fault, last)

/-- A round that does not end the run. -/
structure Proceeds (m next : Machine σ δ) : Prop where
  unlimited : m.limit? = none
  stepped : m.step = (.ok .proceed, next)

theorem Ending.trace_succ {m : Machine σ δ} {final : List (Machine σ δ)}
    {ending : Except Fault Exit × Machine σ δ} (ends : m.Ending final ending) (rounds : Nat) :
    m.trace (rounds + 1) = { calls := final, last := ending.2, result? := some ending.1 } := by
  unfold trace
  cases ends with
  | stepLimit bounded used =>
    have limit : m.limit? = some .stepLimit := by simp [limit?, bounded, used]
    rw [limit]
  | reached left here =>
    have limit : m.limit? = some (.reached m.cpu.registers.pc) := by
      unfold limit?
      rw [any_maxSteps_eq_false_iff.2 left, if_neg Bool.false_ne_true, if_pos here]
    rw [limit]
  | @debugger debugger left elsewhere asked =>
    have stepped : m.step = (.ok .stop, { m with debugger }) := by simp only [step, asked]
    rw [limit?_eq_none_iff.2 ⟨left, elsewhere⟩, stepped]
  | fault left elsewhere asked failed =>
    rw [limit?_eq_none_iff.2 ⟨left, elsewhere⟩, failed]

theorem Proceeds.trace_succ {m next : Machine σ δ} (proceeds : m.Proceeds next) (rounds : Nat) :
    m.trace (rounds + 1) = (next.trace rounds).behind [m] := by
  rw [trace, proceeds.unlimited, proceeds.stepped]

theorem Ending.run_succ {m : Machine σ δ} {final : List (Machine σ δ)}
    {ending : Except Fault Exit × Machine σ δ} (ends : m.Ending final ending) (rounds : Nat) :
    m.run (rounds + 1) = some ending := by
  rw [run_eq_trace, ends.trace_succ]
  rfl

theorem Proceeds.run_succ {m next : Machine σ δ} (proceeds : m.Proceeds next) (rounds : Nat) :
    m.run (rounds + 1) = next.run rounds := by
  rw [run, proceeds.unlimited, proceeds.stepped]

/-- Every round either ends the run or goes on. -/
theorem ending_or_proceeds (m : Machine σ δ) :
    (∃ final ending, m.Ending final ending) ∨ ∃ next, m.Proceeds next := by
  by_cases used : ∃ limit, m.config.maxSteps = some limit ∧ limit ≤ m.steps
  · obtain ⟨limit, bounded, used⟩ := used
    exact .inl ⟨_, _, .stepLimit bounded used⟩
  have left : ∀ limit, m.config.maxSteps = some limit → m.steps < limit := fun limit bounded =>
    Nat.lt_of_not_le fun more => used ⟨limit, bounded, more⟩
  by_cases here : m.config.stopAt = some m.cpu.registers.pc
  · exact .inl ⟨_, _, .reached left here⟩
  have ends := m.step_ends
  rcases stepped : m.step with ⟨outcome, next⟩
  rw [stepped] at ends
  cases ends with
  | stopped asked => exact .inl ⟨_, _, .debugger left here asked⟩
  | undecoded asked _ | refused asked _ _ _ => exact .inl ⟨_, _, .fault left here asked stepped⟩
  | undrawn _ _ _ | drawn _ _ _ _ =>
    exact .inr ⟨_, limit?_eq_none_iff.2 ⟨left, here⟩, stepped⟩

theorem Proceeds.not_ending {m next : Machine σ δ} (proceeds : m.Proceeds next)
    (final : List (Machine σ δ)) (ending : Except Fault Exit × Machine σ δ) :
    ¬ m.Ending final ending := by
  intro ends
  have ended := ends.trace_succ 0
  rw [proceeds.trace_succ 0] at ended
  cases congrArg Trace.result? ended

theorem Ending.unique {m : Machine σ δ} {final final' : List (Machine σ δ)}
    {ending ending' : Except Fault Exit × Machine σ δ} (ends : m.Ending final ending)
    (ends' : m.Ending final' ending') : final = final' ∧ ending = ending' := by
  have same := (ends.trace_succ 0).symm.trans (ends'.trace_succ 0)
  injection same with calls last result
  injection result with result
  exact ⟨calls, Prod.ext result last⟩

/-- A step that goes on has counted one instruction. -/
theorem Proceeds.counted {m next : Machine σ δ} (proceeds : m.Proceeds next) :
    next.steps = m.steps + 1 ∧ next.config = m.config := by
  have ends := m.step_ends
  rw [proceeds.stepped] at ends
  cases ends <;> exact ⟨rfl, rfl⟩

/-- No round before this one ends the run. -/
def OngoingFor (m : Machine σ δ) (rounds : Nat) : Prop :=
  ∀ k < rounds, ∀ final ending, ¬ (m.after k).Ending final ending

theorem Proceeds.after_succ {m next : Machine σ δ} (proceeds : m.Proceeds next) (steps : Nat) :
    m.after (steps + 1) = next.after steps := by
  rw [after, proceeds.stepped]

/-- The states that a machine goes through begin with its own. -/
theorem Proceeds.map_after_range {m next : Machine σ δ} (proceeds : m.Proceeds next) (k : Nat) :
    (List.range (k + 1)).map m.after = m :: (List.range k).map next.after := by
  simp only [List.range_succ_eq_map, List.map_cons, List.map_map, Function.comp_def, after,
    proceeds.stepped]

theorem Proceeds.ongoingFor_succ {m next : Machine σ δ} (proceeds : m.Proceeds next)
    {rounds : Nat} (ongoing : next.OngoingFor rounds) : m.OngoingFor (rounds + 1) := by
  intro k before
  cases k with
  | zero => exact proceeds.not_ending
  | succ k =>
    rw [proceeds.after_succ]
    exact ongoing k (Nat.lt_of_succ_lt_succ before)

/-- All that a trace can be: the states one step apart, up to the first round that ends the run. -/
theorem trace_cases (m : Machine σ δ) (rounds : Nat) :
    (m.OngoingFor rounds ∧ m.trace rounds =
      { calls := (List.range rounds).map m.after, last := m.after rounds, result? := none }) ∨
    ∃ k < rounds, ∃ final ending, m.OngoingFor k ∧ (m.after k).Ending final ending ∧
      m.trace rounds =
        { calls := (List.range k).map m.after ++ final
          last := ending.2
          result? := some ending.1 } := by
  induction rounds generalizing m with
  | zero => exact .inl ⟨fun _ before => absurd before (Nat.not_lt_zero _), rfl⟩
  | succ rounds ih =>
    obtain ⟨final, ending, ends⟩ | ⟨next, proceeds⟩ := m.ending_or_proceeds
    · refine .inr ⟨0, Nat.succ_pos _, final, ending, ?_, ends, ends.trace_succ rounds⟩
      exact fun _ before => absurd before (Nat.not_lt_zero _)
    rw [proceeds.trace_succ]
    obtain ⟨ongoing, traced⟩ | ⟨k, before, final, ending, ongoing, ends, traced⟩ := ih next
    · refine .inl ⟨proceeds.ongoingFor_succ ongoing, ?_⟩
      rw [traced, proceeds.map_after_range, proceeds.after_succ]
      rfl
    · refine .inr ⟨k + 1, Nat.succ_lt_succ before, final, ending,
        proceeds.ongoingFor_succ ongoing, ?_, ?_⟩
      · rw [proceeds.after_succ]
        exact ends
      · rw [traced, proceeds.map_after_range]
        rfl

/-- Of two rounds that end the run after none before them did, neither comes first. -/
theorem OngoingFor.le_of_ending {m : Machine σ δ} {rounds k : Nat} {final : List (Machine σ δ)}
    {ending : Except Fault Exit × Machine σ δ} (ongoing : m.OngoingFor rounds)
    (ends : (m.after k).Ending final ending) : rounds ≤ k :=
  Nat.le_of_not_lt fun before => ongoing k before final ending ends

theorem OngoingFor.proceeds {m : Machine σ δ} {rounds : Nat}
    (ongoing : m.OngoingFor (rounds + 1)) : ∃ next, m.Proceeds next ∧ next.OngoingFor rounds := by
  obtain ⟨final, ending, ends⟩ | ⟨next, proceeds⟩ := m.ending_or_proceeds
  · exact absurd ends (ongoing 0 (Nat.succ_pos _) final ending)
  · refine ⟨next, proceeds, fun k before => ?_⟩
    rw [← proceeds.after_succ]
    exact ongoing (k + 1) (Nat.succ_lt_succ before)

/-- Every step that does not end a run counts one instruction. -/
theorem OngoingFor.steps_after {m : Machine σ δ} {rounds : Nat} (ongoing : m.OngoingFor rounds) :
    (m.after rounds).steps = m.steps + rounds := by
  induction rounds generalizing m with
  | zero => rfl
  | succ rounds ih =>
    obtain ⟨next, proceeds, rest⟩ := ongoing.proceeds
    rw [proceeds.after_succ, ih rest, proceeds.counted.1]
    omega

/-- A run goes no further than the first round that ends it. -/
theorem OngoingFor.trace_eq {m : Machine σ δ} {k rounds : Nat} {final : List (Machine σ δ)}
    {ending : Except Fault Exit × Machine σ δ} (ongoing : m.OngoingFor k)
    (ends : (m.after k).Ending final ending) (before : k < rounds) :
    m.trace rounds =
      { calls := (List.range k).map m.after ++ final
        last := ending.2
        result? := some ending.1 } := by
  obtain ⟨others, -⟩ | ⟨k', -, final', ending', ongoing', ends', traced⟩ := m.trace_cases rounds
  · exact absurd ends (others k before final ending)
  · obtain rfl : k = k' := Nat.le_antisymm (ongoing.le_of_ending ends') (ongoing'.le_of_ending ends)
    obtain ⟨rfl, rfl⟩ := ends.unique ends'
    exact traced

/-- A run ends exactly in the first round that ends it. -/
theorem run_eq_some_iff (m : Machine σ δ) (rounds : Nat)
    (ending : Except Fault Exit × Machine σ δ) :
    m.run rounds = some ending ↔
      ∃ k < rounds, m.OngoingFor k ∧ ∃ final, (m.after k).Ending final ending := by
  rw [run_eq_trace]
  constructor
  · intro ended
    obtain ⟨-, traced⟩ | ⟨k, before, final, found, ongoing, ends, traced⟩ := m.trace_cases rounds
    · rw [traced] at ended
      cases ended
    · rw [traced] at ended
      cases ended
      exact ⟨k, before, ongoing, final, ends⟩
  · rintro ⟨k, before, ongoing, final, ends⟩
    rw [ongoing.trace_eq ends before]
    rfl

/-- The round that ends a run calls for no step and changes nothing, or else does what one step
does. -/
theorem Ending.final_cases {m : Machine σ δ} {final : List (Machine σ δ)}
    {ending : Except Fault Exit × Machine σ δ} (ends : m.Ending final ending) :
    final = [] ∧ ending.2 = m ∨ final = [m] ∧ m.limit? = none ∧ ending.2 = m.step.2 := by
  cases ends with
  | stepLimit _ _ | reached _ _ => exact .inl ⟨rfl, rfl⟩
  | debugger left elsewhere asked =>
    refine .inr ⟨rfl, limit?_eq_none_iff.2 ⟨left, elsewhere⟩, ?_⟩
    simp only [step, asked]
  | fault left elsewhere _ failed =>
    exact .inr ⟨rfl, limit?_eq_none_iff.2 ⟨left, elsewhere⟩, by rw [failed]⟩

/-- A step is called for in states only that come one after another. -/
theorem exists_after_of_mem_calls {m call : Machine σ δ} {rounds : Nat}
    (member : call ∈ (m.trace rounds).calls) : ∃ k < rounds, call = m.after k := by
  obtain ⟨-, traced⟩ | ⟨k, before, final, ending, -, ends, traced⟩ := m.trace_cases rounds
  · rw [traced] at member
    obtain ⟨k, within, rfl⟩ := List.mem_map.1 member
    exact ⟨k, List.mem_range.1 within, rfl⟩
  · rw [traced] at member
    obtain earlier | last := List.mem_append.1 member
    · obtain ⟨j, within, rfl⟩ := List.mem_map.1 earlier
      exact ⟨j, Nat.lt_trans (List.mem_range.1 within) before, rfl⟩
    · obtain ⟨rfl, -⟩ | ⟨rfl, -⟩ := ends.final_cases
      · cases last
      · exact ⟨k, before, List.mem_singleton.1 last⟩

end Machine

end DotMatrix
