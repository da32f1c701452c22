import DotMatrix.Proofs.Machine.Limits

/-!
# Running in instalments

Where a run has ended one can raise the limit on its steps and run again. With a sink that takes
every frame and no debugger, whatever has ended a run is still there when the next one begins: an
address to stop at, an opcode without an instruction, a limit that has not been raised. So the runs
together do what a single one does under the last of their limits, and a run that is simply repeated
does nothing.
-/
namespace DotMatrix

/-- Under the first limit a run may make no more steps than under the second. -/
def NoLooser (first second : Option Nat) : Prop :=
  ∀ limit, second = some limit → ∃ tighter ≤ limit, first = some tighter

namespace Machine

/-- With another limit on its steps. -/
def limited {σ δ : Type} (m : Machine σ δ) (maxSteps : Option Nat) : Machine σ δ :=
  { m with config := { m.config with maxSteps } }

section

variable {σ δ : Type} [FrameSink σ] [Debugger δ] {m next : Machine σ δ} {first second : Option Nat}

/-- Limits have no part in a step. -/
theorem step_limited (m : Machine σ δ) (maxSteps : Option Nat) :
    (m.limited maxSteps).step = (m.step.1, m.step.2.limited maxSteps) := by
  have ends := m.step_ends
  generalize m.step = result at ends ⊢
  cases ends with
  | stopped asked => exact (Ends.stopped (m := m.limited maxSteps) asked).step_eq
  | undecoded asked missing =>
    exact (Ends.undecoded (m := m.limited maxSteps) asked missing).step_eq
  | undrawn asked executed same =>
    exact (Ends.undrawn (m := m.limited maxSteps) asked executed same).step_eq
  | drawn asked executed due accepted =>
    exact (Ends.drawn (m := m.limited maxSteps) asked executed due accepted).step_eq
  | refused asked executed due rejected =>
    exact (Ends.refused (m := m.limited maxSteps) asked executed due rejected).step_eq

/-- A round that goes on under one limit also goes on under a looser one. -/
theorem Proceeds.loosened (noLooser : NoLooser first second)
    (proceeds : (m.limited first).Proceeds next) :
    (m.limited second).Proceeds (next.limited second) ∧ next.limited first = next := by
  obtain ⟨left, elsewhere⟩ := limit?_eq_none_iff.1 proceeds.unlimited
  have kept : next.config = (m.limited first).config := proceeds.counted.2
  have stepped : (m.limited second).step = (.ok .proceed, next.limited second) := by
    have steps := step_limited (m.limited first) second
    rw [proceeds.stepped] at steps
    exact steps
  refine ⟨⟨limit?_eq_none_iff.2 ⟨fun limit bounded => ?_, elsewhere⟩, stepped⟩, ?_⟩
  · obtain ⟨tighter, within, bounded⟩ := noLooser limit bounded
    exact Nat.lt_of_lt_of_le (left tighter bounded) within
  · obtain ⟨config, cpu, memory, scheduler, sink, debugger, steps⟩ := next
    obtain rfl : config = (m.limited first).config := kept
    rfl

/-- Where a run ends under one limit it also ends, perhaps earlier, under a tighter one. -/
theorem exists_run_limited (noLooser : NoLooser first second) {rounds : Nat}
    {ending : Except Fault Exit × Machine σ δ}
    (ended : (m.limited second).run rounds = some ending) :
    ∃ earlier, (m.limited first).run rounds = some earlier := by
  induction rounds generalizing m with
  | zero => cases ended
  | succ rounds ih =>
    obtain ⟨final, earlier, ends⟩ | ⟨next, proceeds⟩ := (m.limited first).ending_or_proceeds
    · exact ⟨earlier, ends.run_succ rounds⟩
    · obtain ⟨proceeds', same⟩ := proceeds.loosened noLooser
      rw [proceeds'.run_succ] at ended
      rw [proceeds.run_succ, ← same]
      exact ih ended

end

variable {m : Machine (List Frame) NoDebugger}

/-- Nobody stops a step here and no frame is refused, so what ends a run leaves the machine as it
was. -/
theorem Ending.last_eq {final : List (Machine (List Frame) NoDebugger)}
    {ending : Except Fault Exit × Machine (List Frame) NoDebugger}
    (ends : m.Ending final ending) : ending.2 = m := by
  cases ends with
  | stepLimit _ _ | reached _ _ => rfl
  | debugger _ _ asked => cases asked
  | fault _ _ _ failed =>
    have ends := m.step_ends
    rw [failed] at ends
    cases ends with
    | undecoded _ _ => rfl
    | refused _ _ _ rejected => cases rejected

/-- What is left of the longer run is done by the run that follows the shorter one. -/
theorem run_limited_add {first second : Option Nat} (noLooser : NoLooser first second)
    {rounds : Nat} {result : Except Fault Exit} {middle : Machine (List Frame) NoDebugger}
    (ended : (m.limited first).run rounds = some (result, middle)) :
    ∃ k, ∀ more, (m.limited second).run (k + more) = (middle.limited second).run more := by
  induction rounds generalizing m with
  | zero => cases ended
  | succ rounds ih =>
    obtain ⟨final, ending, ends⟩ | ⟨next, proceeds⟩ := (m.limited first).ending_or_proceeds
    · cases (ends.run_succ rounds).symm.trans ended
      obtain rfl : middle = m.limited first := ends.last_eq
      refine ⟨0, fun more => ?_⟩
      rw [Nat.zero_add]
      rfl
    · obtain ⟨proceeds', same⟩ := proceeds.loosened noLooser
      rw [proceeds.run_succ, ← same] at ended
      obtain ⟨k, rest⟩ := ih ended
      refine ⟨k + 1, fun more => ?_⟩
      rw [Nat.succ_add, proceeds'.run_succ]
      exact rest more

/-- A run that has ended ends at once when it is repeated. -/
theorem run_again {rounds : Nat} {result : Except Fault Exit}
    {last : Machine (List Frame) NoDebugger} (ended : m.run rounds = some (result, last)) :
    last.run rounds = some (result, last) := by
  obtain ⟨k, before, -, final, ends⟩ := (run_eq_some_iff m rounds _).1 ended
  obtain rfl : last = m.after k := ends.last_eq
  refine (run_eq_some_iff _ rounds _).2 ⟨0, Nat.zero_lt_of_lt before, ?_, final, ends⟩
  exact fun _ none => absurd none (Nat.not_lt_zero _)

/-- A run under one limit and, from where it ends, a run under another that is no tighter, or under
none: together they end like a single run under the second limit, with the same result and in the
same state. If that limit is a number there is such an end; in any case the second of the two runs
is the rest of the single one, also if it goes on for ever. A run that is repeated under the same
limit changes nothing and gives the same result. -/
theorem run_in_instalments (m : Machine (List Frame) NoDebugger) {first second : Option Nat}
    (noLooser : NoLooser first second) :
    (∀ limit, second = some limit →
      ∃ rounds ending, (m.limited second).run rounds = some ending) ∧
    (∀ rounds result last, (m.limited second).run rounds = some (result, last) →
      ∃ result' middle, (m.limited first).run rounds = some (result', middle) ∧
        (middle.limited second).run rounds = some (result, last)) ∧
    (∀ rounds result' middle, (m.limited first).run rounds = some (result', middle) →
      ∃ k, ∀ more, (m.limited second).run (k + more) = (middle.limited second).run more) ∧
    ∀ rounds result last, m.run rounds = some (result, last) →
      last.run rounds = some (result, last) := by
  refine ⟨?_, ?_, fun _ _ _ => run_limited_add noLooser, fun _ _ _ => run_again⟩
  · rintro limit rfl
    exact ⟨_, exists_run_eq_some rfl⟩
  · intro rounds result last ended
    obtain ⟨⟨result', middle⟩, earlier⟩ := exists_run_limited noLooser ended
    obtain ⟨k, rest⟩ := run_limited_add noLooser earlier
    refine ⟨result', middle, earlier, ?_⟩
    rw [← rest, Nat.add_comm]
    exact run_add ended k

/-- One step under a limit, and then as many as it takes to come to an address, where one stays. -/
theorem run_in_instalments_to_address :
    let m := start { stopAt := some 2 } ([] : List Frame) NoDebugger.noDebugger
    NoLooser (some 1) none ∧ ∃ middle last,
      (m.limited none).run 3 = some (.ok (.reached 2), last) ∧
      (m.limited (some 1)).run 3 = some (.ok .stepLimit, middle) ∧ middle.steps = 1 ∧
      (middle.limited none).run 3 = some (.ok (.reached 2), last) ∧ last.steps = 2 ∧
      last.run 3 = some (.ok (.reached 2), last) := by
  intro m
  have noLooser : NoLooser (some 1) none := fun limit unlimited =>
    absurd unlimited (Option.some_ne_none limit).symm
  have zero : ∀ address : UInt16, address ≠ Memory.lineRegister →
      Bus.read Memory.blank address = 0 := fun address elsewhere => by
    simp [Bus.read, elsewhere]
  -- Two instructions that do nothing; the first of them makes a frame due.
  let once (maxSteps : Option Nat) : Machine (List Frame) NoDebugger :=
    { m.limited maxSteps with
      cpu := { registers := { pc := 1 } }
      sink := [Frame.render Memory.blank]
      scheduler := { drawn := some Memory.blank.scrollY, frames := 1 }
      steps := 1 }
  let twice : Machine (List Frame) NoDebugger :=
    { once none with cpu := { registers := { pc := 2 } }, steps := 2 }
  have undrawn : none ≠ some Memory.blank.scrollY := (Option.some_ne_none _).symm
  have begun : ∀ maxSteps, (m.limited maxSteps).step = (.ok .proceed, once maxSteps) :=
    fun maxSteps => (Ends.drawn (m := m.limited maxSteps) rfl (Cpu.step_nop (zero 0 (by decide)))
      undrawn rfl).step_eq
  have gone : (once none).step = (.ok .proceed, twice) :=
    (Ends.undrawn (m := once none) rfl (Cpu.step_nop (zero 1 (by decide))) rfl).step_eq
  have single : (m.limited none).run 3 = some (.ok (.reached 2), twice) := by
    have second : (once none).Proceeds twice := ⟨rfl, gone⟩
    rw [Proceeds.run_succ ⟨rfl, begun none⟩, second.run_succ]
    rfl
  have limited : (m.limited (some 1)).run 3 = some (.ok .stepLimit, once (some 1)) := by
    rw [Proceeds.run_succ ⟨rfl, begun (some 1)⟩]
    rfl
  obtain ⟨-, both, -, -⟩ := run_in_instalments m noLooser
  obtain ⟨result', middle, first, rest⟩ := both 3 _ _ single
  cases limited.symm.trans first
  obtain ⟨-, -, -, again⟩ := run_in_instalments (m.limited none) noLooser
  exact ⟨noLooser, _, _, single, limited, rfl, rest, rfl, again 3 _ _ single⟩

end Machine

end DotMatrix
