import DotMatrix.Proofs.Machine.Limits
import DotMatrix.Proofs.Machine.Watching

/-!
# What the input of a stepper makes a machine do

The input of a stepper is cut into lines, and each line asks for something or is noise. The machine
executes one instruction for each line that asks for a step. A line that says to go on lets it run
by itself from then on; a line that says to quit, one that is no text and the end of the input stop
it. Noise is only complained about, and might as well not be there.

Limits, the address to stop at and faults end a run under a stepper as they end any other.
-/
namespace DotMatrix

/-! ## Lines -/

/-- What bytes are cut into: a newline ends each line but perhaps the last, and stands nowhere else.
No line is empty. -/
inductive Lines : List (List UInt8) → Prop
  | nil : Lines []
  | last {line : List UInt8} (nonempty : line ≠ []) (absent : 0x0A ∉ line) : Lines [line]
  | cons {line : List UInt8} {lines : List (List UInt8)} (absent : 0x0A ∉ line)
      (rest : Lines lines) : Lines ((line ++ [0x0A]) :: lines)

theorem lines_splitLines (bytes : List UInt8) : Lines (splitLines bytes) := by
  induction bytes with
  | nil => exact .nil
  | cons byte rest ih =>
    rw [splitLines]
    split
    next ends =>
      subst ends
      exact .cons (List.not_mem_nil (a := 0x0A)) ih
    next inside =>
      have inside : 0x0A ≠ byte := fun same => inside same.symm
      split
      next _ =>
        refine .last (List.cons_ne_nil _ _) ?_
        rwa [List.mem_singleton]
      next line lines split =>
        rw [split] at ih
        cases ih with
        | last _ absent =>
          exact .last (List.cons_ne_nil _ _) (List.not_mem_cons_of_ne_of_not_mem inside absent)
        | @cons line _ absent rest =>
          have absent : 0x0A ∉ byte :: line := List.not_mem_cons_of_ne_of_not_mem inside absent
          exact .cons absent rest

theorem splitLines_of_notMem {line : List UInt8} (nonempty : line ≠ []) (absent : 0x0A ∉ line) :
    splitLines line = [line] := by
  induction line with
  | nil => exact absurd rfl nonempty
  | cons byte rest ih =>
    rw [List.mem_cons, not_or] at absent
    obtain ⟨inside, absent⟩ := absent
    rw [splitLines, if_neg (Ne.symm inside)]
    cases rest with
    | nil => rfl
    | cons next rest => rw [ih (List.cons_ne_nil _ _) absent]

theorem splitLines_append {line : List UInt8} (absent : 0x0A ∉ line) (rest : List UInt8) :
    splitLines (line ++ [0x0A] ++ rest) = (line ++ [0x0A]) :: splitLines rest := by
  induction line with
  | nil => rfl
  | cons byte line ih =>
    rw [List.mem_cons, not_or] at absent
    obtain ⟨inside, absent⟩ := absent
    rw [List.cons_append, List.cons_append, splitLines, if_neg (Ne.symm inside), ih absent]

namespace Lines

variable {lines : List (List UInt8)}

/-- Lines are cut where they have been put together. -/
theorem splitLines_flatten (wellCut : Lines lines) : splitLines lines.flatten = lines := by
  induction wellCut with
  | nil => rfl
  | last nonempty absent => rw [List.flatten_singleton, splitLines_of_notMem nonempty absent]
  | cons absent _ ih => rw [List.flatten_cons, splitLines_append absent, ih]

theorem filter (wellCut : Lines lines) (keep : List UInt8 → Bool) : Lines (lines.filter keep) := by
  induction wellCut with
  | nil => exact .nil
  | @last line nonempty absent =>
    rw [List.filter_cons]
    split
    · exact .last nonempty absent
    · exact .nil
  | cons absent _ ih =>
    rw [List.filter_cons]
    split
    · exact .cons absent ih
    · exact ih

end Lines

/-! ## What is asked for -/

namespace Stepper

/-- A line that is only complained about. -/
def isNoise (line : List UInt8) : Bool :=
  match Command.ofLine line with
  | .unknown _ => true
  | _ => false

/-- The input without its noise. -/
def withoutNoise (input : List UInt8) : List UInt8 :=
  ((splitLines input).filter (!isNoise ·)).flatten

/-- Lines that ask for steps, with noise among them. -/
def AskForSteps (lines : List (List UInt8)) : Prop :=
  ∀ line ∈ lines, Command.ofLine line = .step ∨ isNoise line

/-- How many steps lines ask for. -/
def countSteps (lines : List (List UInt8)) : Nat := lines.countP (Command.ofLine · = .step)

/-- A line that says to quit, or is no text. -/
def isQuit (line : List UInt8) : Bool :=
  Command.ofLine line = .quit ∨ Command.ofLine line = .unreadable

/-- Lines at which the machine is stopped at once; that there are none is one way. -/
def Quits (lines : List (List UInt8)) : Prop := ∀ line ∈ lines.head?, isQuit line

instance (lines : List (List UInt8)) : Decidable (AskForSteps lines) :=
  inferInstanceAs (Decidable (∀ line ∈ lines, _))

instance (lines : List (List UInt8)) : Decidable (Quits lines) :=
  inferInstanceAs (Decidable (∀ line ∈ lines.head?, _))

/-- How asking can end. -/
inductive Asked : List (List UInt8) → Action × Stepper → Prop
  | ended {written : String} : Asked [] (.stop, { lines := [], written })
  | stepped {line : List UInt8} {lines : List (List UInt8)} {written : String}
      (command : Command.ofLine line = .step) : Asked (line :: lines) (.proceed, { lines, written })
  | resumed {line : List UInt8} {lines : List (List UInt8)} {written : String}
      (command : Command.ofLine line = .resume) :
      Asked (line :: lines) (.proceed, { paused := false, lines, written })
  | stopped {line : List UInt8} {lines : List (List UInt8)} {written : String}
      (command : Command.ofLine line = .quit ∨ Command.ofLine line = .unreadable) :
      Asked (line :: lines) (.stop, { lines, written })
  | skipped {line : List UInt8} {lines : List (List UInt8)} {answer : Action × Stepper}
      (noise : isNoise line) (rest : Asked lines answer) : Asked (line :: lines) answer

theorem ask_asked (lines : List (List UInt8)) (written : String) :
    Asked lines (ask lines written) := by
  induction lines generalizing written with
  | nil => exact .ended
  | cons line rest ih =>
    rw [ask]
    split
    next command => exact .stepped command
    next command => exact .resumed command
    next command => exact .stopped (.inl command)
    next command => exact .stopped (.inr command)
    next word command =>
      have noise : isNoise line := by rw [isNoise, command]
      exact .skipped noise (ih _)

/-- A stepper that will ask before the next instruction, and has these lines to read. -/
def Waits (stepper : Stepper) (lines : List (List UInt8)) : Prop :=
  ∃ written, stepper = { lines, written }

theorem Waits.asked {stepper : Stepper} {lines : List (List UInt8)} (waits : stepper.Waits lines)
    (cpu : Cpu) (memory : Memory) : Asked lines (Debugger.beforeStep cpu memory stepper) := by
  obtain ⟨written, rfl⟩ := waits
  exact ask_asked lines _

/-- Once told to go on a stepper is out of the way. -/
theorem beforeStep_of_resumed {stepper : Stepper} (resumed : stepper.paused = false) (cpu : Cpu)
    (memory : Memory) : Debugger.beforeStep cpu memory stepper = (.proceed, stepper) := by
  simp only [Debugger.beforeStep, resumed]
  rfl

namespace Asked

variable {before rest : List (List UInt8)} {answer : Action × Stepper}

/-- Noise is passed over, and one more line is read at most. -/
theorem consumed {lines : List (List UInt8)} (asked : Asked lines answer) :
    ∃ skipped used, lines = skipped ++ used ++ answer.2.lines ∧ (∀ line ∈ skipped, isNoise line) ∧
      used.length ≤ 1 ∧ answer.2.display = .working := by
  induction asked with
  | ended => exact ⟨[], [], rfl, by simp, Nat.zero_le 1, rfl⟩
  | stepped _ | resumed _ | stopped _ => exact ⟨[], [_], rfl, by simp, Nat.le_refl 1, rfl⟩
  | skipped noise _ ih =>
    obtain ⟨skipped, used, rfl, noises, few, working⟩ := ih
    exact ⟨_ :: skipped, used, rfl, List.forall_mem_cons.2 ⟨noise, noises⟩, few, working⟩

/-- Of a line that is noise only the rest matters. -/
theorem of_noise {line : List UInt8} (asked : Asked (line :: rest) answer) (noise : isNoise line) :
    Asked rest answer := by
  cases asked with
  | skipped _ asked => exact asked
  | stepped command | resumed command => simp [isNoise, command] at noise
  | stopped command => obtain command | command := command <;> simp [isNoise, command] at noise

/-- Where no step is asked for it is the line behind that replies. -/
theorem behind (asked : Asked (before ++ rest) answer) (steps : AskForSteps before)
    (none : countSteps before = 0) : Asked rest answer := by
  induction before with
  | nil => exact asked
  | cons line before ih =>
    obtain ⟨step | noise, steps⟩ := List.forall_mem_cons.1 steps
    · simp [countSteps, step] at none
    · refine ih (asked.of_noise noise) steps ?_
      exact List.countP_eq_zero.2 fun other member =>
        List.countP_eq_zero.1 none other (List.mem_cons_of_mem line member)

/-- The first line that asks for a step is read, and those before it. -/
theorem first (asked : Asked (before ++ rest) answer) (steps : AskForSteps before)
    (any : countSteps before ≠ 0) :
    ∃ read left written, before = read ++ left ∧ countSteps read = 1 ∧
      answer = (.proceed, { lines := left ++ rest, written }) := by
  induction before with
  | nil => exact absurd rfl any
  | cons line before ih =>
    obtain ⟨here, steps⟩ := List.forall_mem_cons.1 steps
    cases asked with
    | stepped command =>
      exact ⟨[line], before, _, rfl, by simp [countSteps, command], rfl⟩
    | resumed command => simp [isNoise, command] at here
    | stopped command => obtain command | command := command <;> simp [isNoise, command] at here
    | skipped noise asked =>
      have unasked : Command.ofLine line ≠ .step := by
        intro command
        simp [isNoise, command] at noise
      have same : ∀ lines, countSteps (line :: lines) = countSteps lines := fun lines =>
        List.countP_cons_of_neg (by simpa using unasked)
      rw [same] at any
      obtain ⟨read, left, written, rfl, one, answered⟩ := ih asked steps any
      exact ⟨line :: read, left, written, rfl, (same read).trans one, answered⟩

theorem stop_of_quits (asked : Asked rest answer) (quits : Quits rest) : answer.1 = .stop := by
  cases asked with
  | ended | stopped _ => rfl
  | stepped command | resumed command => simp [Quits, isQuit, command] at quits
  | @skipped line _ _ noise _ =>
    have command := quits line rfl
    rw [isQuit, decide_eq_true_eq] at command
    obtain command | command := command <;> simp [isNoise, command] at noise

theorem proceed_of_resume {line : List UInt8} {later : List (List UInt8)}
    (asked : Asked (line :: later) answer) (command : Command.ofLine line = .resume) :
    ∃ written, answer = (.proceed, { paused := false, lines := later, written }) := by
  cases asked with
  | resumed _ => exact ⟨_, rfl⟩
  | stepped other => cases command.symm.trans other
  | stopped other => obtain other | other := other <;> cases command.symm.trans other
  | skipped noise _ => simp [isNoise, command] at noise

end Asked

/-- Without a line that says to go on there are only steps and noise until the machine is stopped.
-/
theorem exists_quits {lines : List (List UInt8)}
    (still : ∀ line ∈ lines.takeWhile (!isQuit ·), Command.ofLine line ≠ .resume) :
    ∃ before rest, lines = before ++ rest ∧ AskForSteps before ∧ Quits rest := by
  refine ⟨lines.takeWhile (!isQuit ·), lines.dropWhile (!isQuit ·),
    List.takeWhile_append_dropWhile.symm, fun line member => ?_, fun line first => ?_⟩
  · have resumes := still line member
    have stays := List.all_eq_true.1 List.all_takeWhile line member
    unfold isQuit at stays
    unfold isNoise
    cases command : Command.ofLine line <;> simp_all
  · have stops := List.head?_dropWhile_not (!isQuit ·) lines
    rw [first] at stops
    simpa using stops

end Stepper

/-! ## A stepper without a terminal -/

/-- What a line that is not noise amounts to. -/
inductive Reply where
  | step | resume | stop

/-- A debugger that has its replies ready. It uses them up until one lets the machine run on, and
stops the machine when none are left. -/
structure Rehearsed where
  paused : Bool
  replies : List Reply

instance : Debugger Rehearsed where
  beforeStep _ _ rehearsed :=
    match rehearsed.paused, rehearsed.replies with
    | false, _ => (.proceed, rehearsed)
    | true, [] => (.stop, rehearsed)
    | true, .step :: replies => (.proceed, { rehearsed with replies })
    | true, .resume :: replies => (.proceed, { paused := false, replies })
    | true, .stop :: replies => (.stop, { rehearsed with replies })

def Command.reply? : Command → Option Reply
  | .step => some .step
  | .resume => some .resume
  | .quit | .unreadable => some .stop
  | .unknown _ => none

namespace Stepper

def replies (lines : List (List UInt8)) : List Reply :=
  lines.filterMap fun line => (Command.ofLine line).reply?

/-- The replies of a stepper. One whose display is broken is as if it had no input. -/
def rehearsed (stepper : Stepper) : Rehearsed where
  paused := stepper.paused
  replies := if stepper.display = .working then replies stepper.lines else []

theorem Asked.rehearsed {lines : List (List UInt8)} {answer : Action × Stepper}
    (asked : Asked lines answer) (cpu : Cpu) (memory : Memory) :
    Debugger.beforeStep cpu memory { paused := true, replies := replies lines : Rehearsed } =
      (answer.1, answer.2.rehearsed) := by
  induction asked with
  | ended => rfl
  | stepped command | resumed command =>
    rw [replies, List.filterMap_cons, command]
    rfl
  | stopped command =>
    obtain command | command := command <;>
    · rw [replies, List.filterMap_cons, command]
      rfl
  | @skipped line lines _ noise _ ih =>
    have ignored : (Command.ofLine line).reply? = none := by
      unfold isNoise at noise
      split at noise
      next command => rw [command]; rfl
      next => cases noise
    rw [replies, List.filterMap_cons, ignored]
    exact ih

theorem beforeStep_rehearsed (cpu : Cpu) (memory : Memory) (stepper : Stepper) :
    Debugger.beforeStep cpu memory stepper.rehearsed =
      ((Debugger.beforeStep cpu memory stepper).1,
        (Debugger.beforeStep cpu memory stepper).2.rehearsed) := by
  obtain ⟨display, paused, lines, written⟩ := stepper
  cases paused with
  | false => rfl
  | true =>
    cases display with
    | working =>
      have waits : Waits { lines, written } lines := ⟨written, rfl⟩
      exact (waits.asked cpu memory).rehearsed cpu memory
    | refusesText | refusesFlush => rfl

theorem replies_filter (lines : List (List UInt8)) :
    replies (lines.filter (!isNoise ·)) = replies lines := by
  rw [replies, List.filterMap_filter]
  refine congrArg (List.filterMap · lines) (funext fun line => ?_)
  unfold isNoise
  cases Command.ofLine line <;> rfl

/-- Noise has no part in what the replies are. -/
theorem rehearsed_withoutNoise (input : List UInt8) :
    (ofInput (withoutNoise input) .working).rehearsed = (ofInput input .working).rehearsed := by
  have cut := ((lines_splitLines input).filter (!isNoise ·)).splitLines_flatten
  simp only [rehearsed, ofInput, withoutNoise, cut, replies_filter]

end Stepper

/-! ## The machine -/

namespace Machine

section

variable {σ δ : Type} [FrameSink σ] [Debugger δ] {m next : Machine σ δ}

theorem Proceeds.asked (proceeds : m.Proceeds next) :
    Debugger.beforeStep m.cpu m.memory m.debugger = (.proceed, next.debugger) := by
  have ends := m.step_ends
  rw [proceeds.stepped] at ends
  cases ends with
  | undrawn asked _ _ | drawn asked _ _ _ => exact asked

/-- Where the machine goes on by itself it also does so under a debugger that lets it. -/
theorem Proceeds.of_bare {next : Machine σ NoDebugger} {debugger : δ}
    (proceeds : m.bare.Proceeds next)
    (asked : Debugger.beforeStep m.cpu m.memory m.debugger = (.proceed, debugger)) :
    m.Proceeds (next.withDebugger debugger) :=
  ⟨proceeds.unlimited, by rw [step_of_proceed asked, proceeds.stepped]⟩

/-- A debugger that never stops the machine leaves a run as it is. -/
theorem trace_of_willing {willing : δ → Prop}
    (proceeds : ∀ cpu memory debugger, willing debugger → ∃ after,
      Debugger.beforeStep cpu memory debugger = (.proceed, after) ∧ willing after)
    (here : willing m.debugger) (rounds : Nat) :
    (m.trace rounds).seen bare id = m.bare.trace rounds := by
  induction rounds generalizing m with
  | zero => rfl
  | succ rounds ih =>
    obtain ⟨debugger, asked, still⟩ := proceeds m.cpu m.memory m.debugger here
    have unstopped := m.bare.step_ne_stop
    have limits : m.bare.limit? = m.limit? := rfl
    rw [trace, trace, limits, step_of_proceed asked]
    cases m.limit? with
    | some exit => rfl
    | none =>
      generalize m.bare.step = stepped at unstopped ⊢
      rcases stepped with ⟨fault | _ | _, next⟩
      · rw [Trace.seen_id]
        rfl
      · have rest := ih (m := next.withDebugger debugger) still
        rw [Trace.seen_behind, rest]
        rfl
      · exact absurd rfl unstopped

/-- A trace goes on from where a shorter one has not ended. -/
theorem OngoingFor.last_trace_add {k : Nat} (ongoing : m.OngoingFor k) (rounds : Nat) :
    (m.trace (k + rounds)).last = ((m.after k).trace rounds).last := by
  induction k generalizing m with
  | zero => rw [Nat.zero_add, after]
  | succ k ih =>
    obtain ⟨next, proceeds, ongoing⟩ := ongoing.proceeds
    rw [Nat.succ_add, proceeds.trace_succ, proceeds.after_succ]
    exact ih ongoing

end

open Stepper

variable {σ δ : Type} [FrameSink σ] {m : Machine σ Stepper} {before rest : List (List UInt8)}

/-- The machine under the replies of its stepper. -/
def byReplies (m : Machine σ Stepper) : Machine σ Rehearsed :=
  m.withDebugger m.debugger.rehearsed

/-- A run under the stepper is one under its replies. -/
theorem run_byReplies (m : Machine σ Stepper) (rounds : Nat) :
    (m.run rounds).map (fun (result, last) => (result, last.bare)) =
      (m.byReplies.run rounds).map fun (result, last) => (result, last.bare) := by
  have steps (m : Machine σ Stepper) : m.byReplies.step = (m.step.1, m.step.2.byReplies) :=
    step_through_debugger Stepper.rehearsed beforeStep_rehearsed m
  rw [run_eq_trace, run_eq_trace, trace_through byReplies (fun _ => rfl) steps, Trace.seen_id,
    Option.map_map, Option.map_map]
  rfl

/-- The machine executes an instruction for each line that asks for a step. -/
theorem ongoing_of_bare (steps : AskForSteps before) (waits : m.debugger.Waits (before ++ rest))
    {k : Nat} (within : k ≤ countSteps before) (ongoing : m.bare.OngoingFor k) :
    m.OngoingFor k ∧ (m.after k).bare = m.bare.after k ∧
      ∃ read left, before = read ++ left ∧ countSteps read = k ∧
        (m.after k).debugger.Waits (left ++ rest) := by
  induction k generalizing m before with
  | zero =>
    have ongoing : m.OngoingFor 0 := fun _ before => absurd before (Nat.not_lt_zero _)
    exact ⟨ongoing, rfl, [], before, rfl, rfl, waits⟩
  | succ k ih =>
    obtain ⟨next, proceeds, ongoing⟩ := ongoing.proceeds
    obtain ⟨read, left, written, rfl, one, asked⟩ :=
      (waits.asked m.cpu m.memory).first steps (by omega)
    have goes := proceeds.of_bare asked
    have counted : countSteps (read ++ left) = countSteps read + countSteps left :=
      List.countP_append
    obtain ⟨ongoing, states, read', left', rfl, count, waits⟩ :=
      ih (m := next.withDebugger { lines := left ++ rest, written })
        (fun line member => steps line (List.mem_append_right read member)) ⟨written, rfl⟩
        (by omega) ongoing
    refine ⟨goes.ongoingFor_succ ongoing, ?_, read ++ read', left', ?_, ?_, ?_⟩
    · rw [goes.after_succ, proceeds.after_succ]
      exact states
    · rw [List.append_assoc]
    · have counted : countSteps (read ++ read') = countSteps read + countSteps read' :=
        List.countP_append
      omega
    · rw [goes.after_succ]
      exact waits

/-- With the steps made that were asked for, the lines behind answer. -/
theorem asked_after (steps : AskForSteps before) (waits : m.debugger.Waits (before ++ rest))
    (ongoing : m.bare.OngoingFor (countSteps before)) :
    m.OngoingFor (countSteps before) ∧
      (m.after (countSteps before)).bare = m.bare.after (countSteps before) ∧
      ∀ cpu memory, Asked rest
        (Debugger.beforeStep cpu memory (m.after (countSteps before)).debugger) := by
  obtain ⟨ongoing, states, read, left, rfl, count, waits⟩ :=
    ongoing_of_bare steps waits (Nat.le_refl _) ongoing
  refine ⟨ongoing, states, fun cpu memory => ?_⟩
  refine (waits.asked cpu memory).behind (fun line member => steps line ?_) ?_
  · exact List.mem_append_right read member
  · have counted : countSteps (read ++ left) = countSteps read + countSteps left :=
      List.countP_append
    omega

/-- Then the machine stops, and has done nothing more. -/
theorem run_of_quits (steps : AskForSteps before) (waits : m.debugger.Waits (before ++ rest))
    (quits : Quits rest) (ongoing : m.bare.OngoingFor (countSteps before))
    (unlimited : (m.bare.after (countSteps before)).limit? = none) :
    ∃ last, m.run (countSteps before + 1) = some (.ok .debugger, last) ∧
      last.bare = m.bare.after (countSteps before) := by
  obtain ⟨ongoing, states, asked⟩ := asked_after steps waits ongoing
  let there := m.after (countSteps before)
  have stop := (asked there.cpu there.memory).stop_of_quits quits
  rcases answered : Debugger.beforeStep there.cpu there.memory there.debugger with ⟨_ | _, stepper⟩
  · rw [answered] at stop
    cases stop
  · rw [← states] at unlimited
    obtain ⟨left, elsewhere⟩ := (limit?_eq_none_iff (m := there)).1 unlimited
    have ends := Ending.debugger left elsewhere answered
    exact ⟨_, (run_eq_some_iff m _ _).2 ⟨_, Nat.lt_succ_self _, ongoing, _, ends⟩, states⟩

theorem exists_run_of_quits (quits : Quits rest) {count : Nat} (steps : AskForSteps before)
    (counted : countSteps before = count) (waits : m.debugger.Waits (before ++ rest)) :
    ∃ ending, m.run (count + 1) = some ending := by
  induction count generalizing m before with
  | zero =>
    obtain ⟨final, ending, ends⟩ | ⟨next, proceeds⟩ := m.ending_or_proceeds
    · exact ⟨ending, ends.run_succ 0⟩
    · have asked := (waits.asked m.cpu m.memory).behind steps counted
      rw [proceeds.asked] at asked
      cases asked.stop_of_quits quits
  | succ count ih =>
    obtain ⟨final, ending, ends⟩ | ⟨next, proceeds⟩ := m.ending_or_proceeds
    · exact ⟨ending, ends.run_succ _⟩
    · obtain ⟨read, left, written, rfl, one, answered⟩ :=
        (waits.asked m.cpu m.memory).first steps (by omega)
      have split : countSteps (read ++ left) = countSteps read + countSteps left :=
        List.countP_append
      rw [proceeds.asked] at answered
      rw [proceeds.run_succ]
      exact ih (fun line member => steps line (List.mem_append_right read member)) (by omega)
        ⟨written, (Prod.mk.inj answered).2⟩

/-- A stepper that lets the machine run on, now or after some more steps. -/
def Willing (stepper : Stepper) : Prop :=
  stepper.paused = false ∨ ∃ before line later, AskForSteps before ∧
    Command.ofLine line = .resume ∧ stepper.Waits (before ++ line :: later)

theorem Willing.proceeds (cpu : Cpu) (memory : Memory) (stepper : Stepper)
    (willing : Willing stepper) :
    ∃ after, Debugger.beforeStep cpu memory stepper = (.proceed, after) ∧ Willing after := by
  obtain resumed | ⟨before, line, later, steps, command, waits⟩ := willing
  · exact ⟨stepper, beforeStep_of_resumed resumed cpu memory, .inl resumed⟩
  have asked := waits.asked cpu memory
  by_cases none : countSteps before = 0
  · obtain ⟨written, answered⟩ := (asked.behind steps none).proceed_of_resume command
    exact ⟨_, answered, .inl rfl⟩
  · obtain ⟨read, left, written, rfl, -, answered⟩ := asked.first steps none
    refine ⟨_, answered, .inr ⟨left, line, later, fun line member => ?_, command, written, rfl⟩⟩
    exact steps line (List.mem_append_right read member)

/-- From there on the stepper stays as it is. -/
theorem debugger_trace_of_resumed {stepper : Stepper} (resumed : stepper.paused = false)
    (unlimited : m.limit? = none)
    (asked : Debugger.beforeStep m.cpu m.memory m.debugger = (.proceed, stepper)) (rounds : Nat) :
    (m.trace (rounds + 1)).last.debugger = stepper := by
  induction rounds generalizing m with
  | zero =>
    rw [trace, unlimited, step_of_proceed asked]
    rcases m.bare.step with ⟨fault | _ | _, next⟩ <;> rfl
  | succ rounds ih =>
    rw [trace, unlimited, step_of_proceed asked]
    rcases m.bare.step with ⟨fault | _ | _, next⟩
    · rfl
    · let next : Machine σ Stepper := next.withDebugger stepper
      change (next.trace (rounds + 1)).last.debugger = stepper
      cases limit : next.limit? with
      | some exit =>
        rw [trace, limit]
        rfl
      | none => exact ih limit (beforeStep_of_resumed resumed _ _)
    · rfl

theorem run_of_resume {line : List UInt8} {later : List (List UInt8)} (steps : AskForSteps before)
    (command : Command.ofLine line = .resume)
    (waits : m.debugger.Waits (before ++ line :: later)) (rounds : Nat) :
    (m.run rounds).map (fun (result, last) => (result, last.bare)) = m.bare.run rounds := by
  have willing : Willing m.debugger := .inr ⟨before, line, later, steps, command, waits⟩
  rw [run_eq_trace, run_eq_trace, ← trace_of_willing Willing.proceeds willing rounds,
    Trace.seen_id, Option.map_map]
  rfl

theorem debugger_of_resume {line : List UInt8} {later : List (List UInt8)}
    (steps : AskForSteps before) (command : Command.ofLine line = .resume)
    (waits : m.debugger.Waits (before ++ line :: later))
    (ongoing : m.bare.OngoingFor (countSteps before))
    (unlimited : (m.bare.after (countSteps before)).limit? = none) :
    ∃ written, ∀ rounds > countSteps before, (m.trace rounds).last.debugger =
      { paused := false, lines := later, written } := by
  obtain ⟨ongoing, states, asked⟩ := asked_after steps waits ongoing
  let there := m.after (countSteps before)
  obtain ⟨written, answered⟩ := (asked there.cpu there.memory).proceed_of_resume command
  refine ⟨written, fun rounds more => ?_⟩
  obtain ⟨rounds, rfl⟩ := Nat.exists_eq_add_of_lt more
  have unlimited : there.limit? = none := by
    rw [← states] at unlimited
    exact unlimited
  rw [Nat.add_assoc, ongoing.last_trace_add]
  exact debugger_trace_of_resumed rfl unlimited answered rounds

/-- The machine with a stepper on this input, and a display that works. -/
def stepping {δ : Type} (m : Machine σ δ) (input : List UInt8) : Machine σ Stepper :=
  m.withDebugger (Stepper.ofInput input .working)

/-- What a stepper makes of its input. Each time it is asked it passes over noise, and reads one
more line at most. Without the noise the input has the same run as its result, and leaves the same
machine. As long as the machine would go on by itself it executes one instruction for each line that
asks for a step, and has read no other lines by then than these and noise. Where the lines then quit
or end the run ends by the debugger, with nothing more executed. Where a line says to go on the run
is the one without a debugger, and the stepper neither reads nor writes anything after that line. If
none does so before the first one that quits, every run comes to an end, whatever limits it has. -/
theorem stepper_obeys_lines {δ : Type} (m : Machine σ δ) (input : List UInt8) :
    (∀ (stepper : Stepper) (cpu : Cpu) (memory : Memory), stepper.display = .working →
      let after := (Debugger.beforeStep cpu memory stepper).2
      ∃ skipped used, stepper.lines = skipped ++ used ++ after.lines ∧
        (∀ line ∈ skipped, isNoise line) ∧ used.length ≤ 1 ∧ after.display = .working) ∧
    (∀ rounds,
      ((m.stepping (withoutNoise input)).run rounds).map
          (fun (result, last) => (result, last.bare)) =
        ((m.stepping input).run rounds).map fun (result, last) => (result, last.bare)) ∧
    (∀ before rest, splitLines input = before ++ rest → AskForSteps before →
      let count := countSteps before
      (∀ k ≤ count, m.bare.OngoingFor k →
        let there := (m.stepping input).after k
        (m.stepping input).OngoingFor k ∧ there.bare = m.bare.after k ∧ there.steps = m.steps + k ∧
        ∃ read, splitLines input = read ++ there.debugger.lines ∧ AskForSteps read ∧
          countSteps read = k) ∧
      (Quits rest → m.bare.OngoingFor count → (m.bare.after count).limit? = none →
        ∃ last, (m.stepping input).run (count + 1) = some (.ok .debugger, last) ∧
          last.bare = m.bare.after count) ∧
      ∀ line later, rest = line :: later → Command.ofLine line = .resume →
        (∀ rounds, ((m.stepping input).run rounds).map (fun (result, last) => (result, last.bare)) =
          m.bare.run rounds) ∧
        (m.bare.OngoingFor count → (m.bare.after count).limit? = none →
          ∃ written, ∀ rounds > count, ((m.stepping input).trace rounds).last.debugger =
            { paused := false, lines := later, written })) ∧
    ((∀ line ∈ (splitLines input).takeWhile (!isQuit ·), Command.ofLine line ≠ .resume) →
      ∃ rounds ending, (m.stepping input).run rounds = some ending) := by
  refine ⟨fun stepper cpu memory working => ?_, fun rounds => ?_, ?_, fun still => ?_⟩
  · obtain ⟨display, paused, lines, written⟩ := stepper
    obtain rfl : display = .working := working
    cases paused with
    | false => exact ⟨[], [], rfl, by simp, Nat.zero_le 1, rfl⟩
    | true =>
      have waits : Waits { lines, written } lines := ⟨written, rfl⟩
      exact (waits.asked cpu memory).consumed
  · have same : (m.stepping (withoutNoise input)).byReplies = (m.stepping input).byReplies :=
      congrArg m.withDebugger (rehearsed_withoutNoise input)
    rw [run_byReplies, run_byReplies, same]
  · intro before rest cut steps count
    have waits : (m.stepping input).debugger.Waits (before ++ rest) := ⟨"", cut ▸ rfl⟩
    refine ⟨?_, run_of_quits steps waits, ?_⟩
    · intro k within ongoing there
      obtain ⟨ongoing, states, read, left, rfl, counted, written, waits⟩ :=
        ongoing_of_bare (m := m.stepping input) steps waits within ongoing
      refine ⟨ongoing, states, ongoing.steps_after, read, ?_, fun line member => ?_, counted⟩
      · rw [waits, cut, List.append_assoc]
      · exact steps line (List.mem_append_left left member)
    · rintro line later rfl command
      exact ⟨run_of_resume steps command waits, debugger_of_resume steps command waits⟩
  · obtain ⟨before, rest, cut, steps, quits⟩ := exists_quits still
    have waits : (m.stepping input).debugger.Waits (before ++ rest) := ⟨"", cut ▸ rfl⟩
    exact ⟨_, exists_run_of_quits quits steps rfl waits⟩

/-- Two inputs that ask for a step between lines of noise: in one the machine is then told to go on,
the other ends in a byte that is no text. -/
theorem stepper_obeys_lines_with_noise :
    let m := start { maxSteps := some 3 } ([] : List Frame) NoDebugger.noDebugger
    let goingOn : List UInt8 := [0x78, 0x0A, 0x73, 0x0A, 0x63, 0x0A, 0x71]
    let unreadable : List UInt8 := [0x0D, 0x0A, 0x78, 0x79, 0x0A, 0xFF]
    m.bare.OngoingFor 1 ∧ (m.bare.after 1).limit? = none ∧
    (splitLines goingOn = [[0x78, 0x0A], [0x73, 0x0A], [0x63, 0x0A], [0x71]] ∧
      (m.stepping goingOn).OngoingFor 1 ∧ ((m.stepping goingOn).after 1).steps = 1 ∧
      ((m.stepping goingOn).run 4).map (fun (result, last) => (result, last.bare)) =
        m.bare.run 4 ∧
      ∃ written, ∀ rounds > 1, ((m.stepping goingOn).trace rounds).last.debugger =
        { paused := false, lines := [[0x71]], written }) ∧
    withoutNoise unreadable = [0x0D, 0x0A, 0xFF] ∧
    (∃ last, (m.stepping unreadable).run 2 = some (.ok .debugger, last) ∧
      last.bare = m.bare.after 1) ∧
    ∃ rounds ending, (m.stepping unreadable).run rounds = some ending := by
  intro m goingOn unreadable
  have executed : m.cpu.step m.memory = (.ok (), { registers := { pc := 1 } }, Memory.blank) :=
    Cpu.step_nop (show Memory.blank.read 0 = 0 by simp [Memory.lineRegister])
  have undrawn : none ≠ some Memory.blank.scrollY := (Option.some_ne_none _).symm
  have stepped := (Ends.drawn (m := m.bare) rfl executed undrawn rfl).step_eq
  have proceeds : m.bare.Proceeds (m.bare.after 1) := ⟨rfl, Prod.ext (by rw [stepped]) rfl⟩
  have ongoing : m.bare.OngoingFor 1 :=
    proceeds.ongoingFor_succ fun k before => absurd before (Nat.not_lt_zero k)
  have unlimited : (m.bare.after 1).limit? = none := by
    obtain ⟨counted, config⟩ := proceeds.counted
    rw [limit?, config, counted]
    rfl
  obtain ⟨-, -, resumes, -⟩ := stepper_obeys_lines m goingOn
  obtain ⟨-, -, quits, ends⟩ := stepper_obeys_lines m unreadable
  obtain ⟨steps, -, resumes⟩ := resumes [[0x78, 0x0A], [0x73, 0x0A]] [[0x63, 0x0A], [0x71]] rfl
    (by decide)
  obtain ⟨first, -, counted, -⟩ := steps 1 (by decide) ongoing
  obtain ⟨runs, stays⟩ := resumes _ _ rfl (by decide)
  obtain ⟨-, quits, -⟩ := quits [[0x0D, 0x0A], [0x78, 0x79, 0x0A]] [[0xFF]] rfl (by decide)
  exact ⟨ongoing, unlimited, ⟨rfl, first, counted, runs 4, stays ongoing unlimited⟩, by decide,
    quits (by decide) ongoing unlimited, ends (by decide)⟩

end Machine

end DotMatrix
