import DotMatrix.Proofs.Machine.Trace

/-!
# The limits of a run

A run ends in the first round in which it has used up its steps, or stands at the address to stop
at, or is stopped by the debugger, or fails to make a step; where several of these apply at once the
first counts. So no instruction at the address to stop at is executed, no more steps are made than
were left, and with a limit on them every run comes to an end, whatever the program does.
-/
namespace DotMatrix

namespace Machine

variable {σ δ : Type} [FrameSink σ] [Debugger δ]

/-- A step is called for in states only that no limit stops. -/
theorem limit?_of_mem_calls {m call : Machine σ δ} {rounds : Nat}
    (member : call ∈ (m.trace rounds).calls) : call.limit? = none ∧ call.config = m.config := by
  induction rounds generalizing m with
  | zero => cases member
  | succ rounds ih =>
    obtain ⟨final, ending, ends⟩ | ⟨next, proceeds⟩ := m.ending_or_proceeds
    · rw [ends.trace_succ] at member
      obtain ⟨rfl, -⟩ | ⟨rfl, unlimited, -⟩ := ends.final_cases
      · cases member
      · obtain rfl := List.mem_singleton.1 member
        exact ⟨unlimited, rfl⟩
    · rw [proceeds.trace_succ] at member
      obtain rfl | later := List.mem_cons.1 member
      · exact ⟨proceeds.unlimited, rfl⟩
      · rw [← proceeds.counted.2]
        exact ih later

/-- A run that may still make so many steps makes no more of them, and counts no further. -/
theorem trace_within {m : Machine σ δ} {limit : Nat} (bounded : m.config.maxSteps = some limit)
    (rounds : Nat) :
    (m.trace rounds).calls.length ≤ limit - m.steps ∧
      (m.steps ≤ limit → (m.trace rounds).last.steps ≤ limit) := by
  induction rounds generalizing m with
  | zero => exact ⟨Nat.zero_le _, id⟩
  | succ rounds ih =>
    obtain ⟨final, ending, ends⟩ | ⟨next, proceeds⟩ := m.ending_or_proceeds
    · rw [ends.trace_succ]
      cases ends with
      | stepLimit _ _ | reached _ _ => exact ⟨Nat.zero_le _, id⟩
      | debugger left _ _ => exact ⟨Nat.sub_pos_of_lt (left limit bounded), id⟩
      | fault left _ _ failed =>
        have room := left limit bounded
        refine ⟨Nat.sub_pos_of_lt room, fun _ => ?_⟩
        have ends := m.step_ends
        rw [failed] at ends
        cases ends with
        | undecoded _ _ => exact Nat.le_of_lt room
        | refused _ _ _ _ => exact room
    · obtain ⟨steps, config⟩ := proceeds.counted
      have room := (limit?_eq_none_iff.1 proceeds.unlimited).1 limit bounded
      obtain ⟨few, within⟩ := ih (config ▸ bounded)
      rw [proceeds.trace_succ]
      refine ⟨?_, fun _ => within (by omega)⟩
      change (next.trace rounds).calls.length + 1 ≤ _
      omega

/-- With a limit on its steps every run ends. -/
theorem exists_run_eq_some {m : Machine σ δ} {limit : Nat}
    (bounded : m.config.maxSteps = some limit) :
    ∃ ending, m.run (limit - m.steps + 1) = some ending := by
  obtain ⟨few, -⟩ := trace_within bounded (limit - m.steps + 1)
  rw [run_eq_trace]
  obtain ⟨-, traced⟩ | ⟨k, -, final, ending, -, -, traced⟩ := m.trace_cases (limit - m.steps + 1)
  · rw [traced, List.length_map, List.length_range] at few
    omega
  · rw [traced]
    exact ⟨ending, rfl⟩

/-- Where a limit ends a run the last round changes nothing, and calls for no step. -/
theorem Ending.of_limit {m : Machine σ δ} {final : List (Machine σ δ)}
    {ending : Except Fault Exit × Machine σ δ} (ends : m.Ending final ending)
    (limit : ending.1 = .ok .stepLimit ∨ ∃ address, ending.1 = .ok (.reached address)) :
    final = [] ∧ ending.2 = m := by
  cases ends with
  | stepLimit _ _ | reached _ _ => exact ⟨rfl, rfl⟩
  | debugger _ _ _ | fault _ _ _ _ =>
    obtain other | ⟨address, other⟩ := limit <;> cases other

/-- How any run ends, in whatever state it is begun: after the first `k` steps for which one of the
four reasons applies. The steps it has called for are those `k`, each counted, and one more if the
debugger or a fault ended it; after one of its limits neither the debugger nor the processor had any
part in the last round. No step is ever called for at the address to stop at, and where the number
of steps is limited so are the steps called for, the count of them and the rounds to the end. -/
theorem run_ends_first (m : Machine σ δ) :
    (∀ rounds, m.run rounds =
      (m.trace rounds).result?.map fun result => (result, (m.trace rounds).last)) ∧
    (∀ rounds ending, m.run rounds = some ending ↔
      ∃ k < rounds, m.OngoingFor k ∧ ∃ final, (m.after k).Ending final ending) ∧
    (∀ k rounds final ending, m.OngoingFor k → (m.after k).Ending final ending → k < rounds →
      (m.trace rounds).calls = (List.range k).map m.after ++ final ∧
      (m.after k).steps = m.steps + k ∧
      ((ending.1 = .ok .stepLimit ∨ ∃ address, ending.1 = .ok (.reached address)) →
        final = [] ∧ ending.2 = m.after k)) ∧
    (∀ rounds, ∀ call ∈ (m.trace rounds).calls,
      m.config.stopAt ≠ some call.cpu.registers.pc) ∧
    ∀ limit, m.config.maxSteps = some limit →
      (∀ rounds, (m.trace rounds).calls.length ≤ limit - m.steps ∧
        (m.steps ≤ limit → (m.trace rounds).last.steps ≤ limit)) ∧
      ∃ ending, m.run (limit - m.steps + 1) = some ending := by
  refine ⟨m.run_eq_trace, m.run_eq_some_iff, ?_, ?_, ?_⟩
  · intro k rounds final ending ongoing ends before
    rw [ongoing.trace_eq ends before]
    exact ⟨rfl, ongoing.steps_after, ends.of_limit⟩
  · intro rounds call member
    obtain ⟨unlimited, config⟩ := limit?_of_mem_calls member
    rw [← config]
    exact (limit?_eq_none_iff.1 unlimited).2
  · intro limit bounded
    exact ⟨trace_within bounded, exists_run_eq_some bounded⟩

/-- Two limits that one instruction leads to at once: the number of steps comes first. -/
theorem run_ends_first_at_both_limits :
    let m := start { maxSteps := some 1, stopAt := some 1 } ([] : List Frame) NoDebugger.noDebugger
    (m.after 1).config.stopAt = some (m.after 1).cpu.registers.pc ∧
    m.OngoingFor 1 ∧ (m.after 1).Ending [] (.ok .stepLimit, m.after 1) ∧
    m.run 2 = some (.ok .stepLimit, m.after 1) ∧ (m.trace 2).calls = [m] ∧
    ∃ ending, m.run (1 - 0 + 1) = some ending := by
  intro m
  have executed : m.cpu.step m.memory = (.ok (), { registers := { pc := 1 } }, Memory.blank) :=
    Cpu.step_nop (show Memory.blank.read 0 = 0 by simp [Memory.lineRegister])
  have stepped : m.step.1 = .ok .proceed ∧ m.step.2.cpu = { registers := { pc := 1 } } := by
    simp only [step, Debugger.beforeStep, executed, Scheduler.tick]
    exact ⟨rfl, rfl⟩
  have proceeds : m.Proceeds (m.after 1) := ⟨rfl, Prod.ext stepped.1 rfl⟩
  have ongoing : m.OngoingFor 1 :=
    proceeds.ongoingFor_succ fun k before => absurd before (Nat.not_lt_zero k)
  have used : 1 ≤ (m.after 1).steps := by
    rw [ongoing.steps_after]
    exact Nat.le_add_left 1 _
  have bounded : (m.after 1).config.maxSteps = some 1 := by
    rw [proceeds.counted.2]
    rfl
  have ends : (m.after 1).Ending [] (.ok .stepLimit, m.after 1) := .stepLimit bounded used
  obtain ⟨-, ended, called, -, limited⟩ := run_ends_first m
  refine ⟨?_, ongoing, ends, (ended 2 _).2 ⟨1, by decide, ongoing, _, ends⟩, ?_, (limited 1 rfl).2⟩
  · rw [proceeds.counted.2, after, after, stepped.2]
    rfl
  · exact (called 1 2 [] _ ongoing ends (by decide)).1

end Machine

end DotMatrix
