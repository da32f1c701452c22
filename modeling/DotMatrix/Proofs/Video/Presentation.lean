import Mathlib.Data.List.Induction
import DotMatrix.Video.Scheduler

/-!
# Which ticks present a frame

A scheduler lives through writes to the memory, invalidations and ticks, and its sink may take or
refuse any frame that it is shown. All that the scheduler remembers is one scroll position. It stands
for the whole history: it is the position of the last frame that was accepted since the scheduler was
last invalidated.
-/
namespace DotMatrix

/-- A frame that a sink was shown, and what it said to that. -/
structure Presented where
  frame : Frame
  answer : Except String Unit

/-- A sink together with the frames that it has been shown. -/
structure Recorder (σ : Type) where
  sink : σ
  presented : List Presented := []

instance {σ : Type} [FrameSink σ] : FrameSink (Recorder σ) where
  present frame recorder :=
    let (answer, sink) := FrameSink.present frame recorder.sink
    (answer, { sink, presented := recorder.presented ++ [{ frame, answer }] })

/-- What can happen to a scheduler and to the memory that it looks at. -/
inductive Event where
  | write (address : UInt16) (value : UInt8)
  | invalidate
  | tick

/-- What has happened to a scheduler, as far as frames are concerned. -/
inductive Moment where
  | invalidated
  /-- In a tick at this memory a frame was shown to the sink. -/
  | shown (memory : Memory) (presented : Presented)
  /-- A tick at this memory came to its end. -/
  | ticked (memory : Memory) (outcome : Except Fault Bool)

namespace Moment

/-- The vertical scroll position of a frame that was accepted. -/
def accepted? : Moment → Option UInt8
  | shown memory { answer := .ok (), .. } => some memory.scrollY
  | _ => none

def isInvalidated : Moment → Bool
  | invalidated => true
  | _ => false

/-- The vertical scroll position of the last frame that was accepted, unless there was an
invalidation after it. -/
def onScreen (history : List Moment) : Option UInt8 :=
  (history.reverse.takeWhile fun moment => !moment.isInvalidated).findSome? accepted?

theorem onScreen_invalidated (history : List Moment) : onScreen (history ++ [invalidated]) = none := by
  simp [onScreen, isInvalidated]

theorem onScreen_concat {moment : Moment} (valid : moment.isInvalidated = false)
    (history : List Moment) :
    onScreen (history ++ [moment]) = moment.accepted?.or (onScreen history) := by
  rw [onScreen, List.reverse_concat, List.takeWhile_cons, valid]
  cases h : moment.accepted? <;> simp [h, onScreen]

@[simp] theorem onScreen_ticked (history : List Moment) (memory : Memory)
    (outcome : Except Fault Bool) :
    onScreen (history ++ [ticked memory outcome]) = onScreen history := by
  rw [onScreen_concat rfl]
  rfl

@[simp] theorem onScreen_accepted (history : List Moment) (memory : Memory) (frame : Frame) :
    onScreen (history ++ [shown memory { frame, answer := .ok () }]) = some memory.scrollY := by
  rw [onScreen_concat rfl]
  rfl

@[simp] theorem onScreen_refused (history : List Moment) (memory : Memory) (frame : Frame)
    (reason : String) :
    onScreen (history ++ [shown memory { frame, answer := .error reason }]) = onScreen history := by
  rw [onScreen_concat rfl]
  rfl

/-- What was accepted stays on the screen until the next frame is accepted or the scheduler is
invalidated. -/
theorem onScreen_of_last {earlier later : List Moment} {moment : Moment} {position : UInt8}
    (accepted : moment.accepted? = some position)
    (quiet : ∀ other ∈ later, other.accepted? = none ∧ other.isInvalidated = false) :
    onScreen (earlier ++ moment :: later) = some position := by
  induction later using List.reverseRecOn with
  | nil =>
    have valid : moment.isInvalidated = false := by
      cases moment with
      | invalidated => cases accepted
      | shown _ _ | ticked _ _ => rfl
    rw [onScreen_concat valid, accepted]
    rfl
  | append_singleton later last ih =>
    obtain ⟨refused, valid⟩ := quiet last (by simp)
    rw [← List.cons_append, ← List.append_assoc, onScreen_concat valid, refused, Option.none_or]
    exact ih fun other member => quiet other (by simp [member])

/-- What is on the screen is the last frame of all that were accepted. -/
theorem getLast?_of_onScreen {history : List Moment} {position : UInt8}
    (here : onScreen history = some position) :
    (history.filterMap accepted?).getLast? = some position := by
  induction history using List.reverseRecOn with
  | nil => cases here
  | append_singleton earlier last ih =>
    cases last with
    | invalidated =>
      rw [onScreen_invalidated] at here
      cases here
    | ticked memory outcome =>
      rw [onScreen_ticked] at here
      simpa [accepted?] using ih here
    | shown memory presented =>
      obtain ⟨frame, _ | _⟩ := presented
      · rw [onScreen_refused] at here
        simpa [accepted?] using ih here
      · rw [onScreen_accepted] at here
        simpa [accepted?] using here

/-- How a moment depends on those before it. -/
def Follows (earlier : List Moment) : Moment → Prop
  | invalidated => True
  | shown memory presented =>
    onScreen earlier ≠ some memory.scrollY ∧ presented.frame = Frame.render memory
  | ticked memory (.ok _) => onScreen earlier = some memory.scrollY
  | ticked memory (.error fault) => ∃ reason, fault = .sink reason ∧
      earlier.getLast? = some (shown memory { frame := Frame.render memory, answer := .error reason })

/-- No frame is accepted at the position of the one that is on the screen. -/
theorem Follows.onScreen_ne {earlier : List Moment} {moment : Moment} {position : UInt8}
    (follows : moment.Follows earlier) (accepted : moment.accepted? = some position) :
    onScreen earlier ≠ some position := by
  cases moment with
  | invalidated | ticked _ _ => cases accepted
  | shown memory presented =>
    obtain ⟨frame, _ | _⟩ := presented
    · cases accepted
    · cases accepted
      exact follows.1

/-- Every moment of a history depends in this way on those before it. -/
inductive Orderly : List Moment → Prop
  | nil : Orderly []
  | concat {history : List Moment} {moment : Moment} (orderly : Orderly history)
      (follows : moment.Follows history) : Orderly (history ++ [moment])

theorem Orderly.follows {history : List Moment} (orderly : Orderly history)
    {earlier later : List Moment} {moment : Moment} (split : history = earlier ++ moment :: later) :
    moment.Follows earlier := by
  induction orderly generalizing later with
  | nil => simp at split
  | @concat history last _ follows ih =>
    induction later using List.reverseRecOn with
    | nil =>
      obtain ⟨rfl, same⟩ := List.append_inj' split rfl
      cases same
      exact follows
    | append_singleton later final _ =>
      rw [← List.cons_append, ← List.append_assoc] at split
      exact ih (List.append_inj' split rfl).1

end Moment

/-- A sink that is seen through another one is ticked like that one. -/
theorem Scheduler.tick_through {σ τ : Type} [FrameSink σ] [FrameSink τ] (view : τ → σ)
    (same : ∀ frame sink, FrameSink.present frame (view sink) =
      ((FrameSink.present frame sink).1, view (FrameSink.present frame sink).2))
    (scheduler : Scheduler) (memory : Memory) (sink : τ) :
    scheduler.tick memory (view sink) =
      ((scheduler.tick memory sink).1, (scheduler.tick memory sink).2.1,
        view (scheduler.tick memory sink).2.2) := by
  unfold tick
  split
  · rfl
  · rw [same]
    rcases FrameSink.present (Frame.render memory) sink with ⟨reason | _, after⟩ <;> rfl

/-- A scheduler with the memory that it looks at and the sink that it draws for. -/
structure Screen (σ : Type) where
  scheduler : Scheduler := {}
  memory : Memory
  sink : σ

namespace Screen

variable {σ : Type} [FrameSink σ]

def tick (screen : Screen σ) : Except Fault Bool × Scheduler × σ :=
  screen.scheduler.tick screen.memory screen.sink

/-- The frames that the sink is shown in the next tick. -/
def presented (screen : Screen σ) : List Presented :=
  (screen.scheduler.tick screen.memory ({ sink := screen.sink } : Recorder σ)).2.2.presented

def perform (screen : Screen σ) : Event → Screen σ
  | .write address value => { screen with memory := screen.memory.write address value }
  | .invalidate => { screen with scheduler := screen.scheduler.invalidate }
  | .tick => { screen with scheduler := screen.tick.2.1, sink := screen.tick.2.2 }

def performAll : Screen σ → List Event → Screen σ
  | screen, [] => screen
  | screen, event :: rest => (screen.perform event).performAll rest

/-- What an event adds to the history. -/
def moments (screen : Screen σ) : Event → List Moment
  | .write _ _ => []
  | .invalidate => [.invalidated]
  | .tick => screen.presented.map (.shown screen.memory) ++ [.ticked screen.memory screen.tick.1]

def history : Screen σ → List Event → List Moment
  | _, [] => []
  | screen, event :: rest => screen.moments event ++ (screen.perform event).history rest

/-- All that a tick can do. -/
inductive Ticks (screen : Screen σ) :
    List Presented → Except Fault Bool × Scheduler × σ → Prop
  | skipped (same : screen.scheduler.drawn = some screen.memory.scrollY) :
      Ticks screen [] (.ok false, screen.scheduler, screen.sink)
  | drawn {sink : σ} (due : screen.scheduler.drawn ≠ some screen.memory.scrollY) :
      Ticks screen [{ frame := Frame.render screen.memory, answer := .ok () }]
        (.ok true, { drawn := some screen.memory.scrollY, frames := screen.scheduler.frames + 1 }, sink)
  | refused {reason : String} {sink : σ}
      (due : screen.scheduler.drawn ≠ some screen.memory.scrollY) :
      Ticks screen [{ frame := Frame.render screen.memory, answer := .error reason }]
        (.error (.sink reason), screen.scheduler, sink)

theorem ticks (screen : Screen σ) : screen.Ticks screen.presented screen.tick := by
  unfold presented tick Scheduler.tick
  by_cases same : screen.scheduler.drawn = some screen.memory.scrollY
  · rw [if_pos same, if_pos same]
    exact .skipped same
  · rw [if_neg same, if_neg same]
    rcases answered : FrameSink.present (Frame.render screen.memory) screen.sink with
      ⟨reason | _, sink⟩
    · simp only [FrameSink.present, answered]
      exact .refused same
    · simp only [FrameSink.present, answered]
      exact .drawn same

theorem tick_of_same {screen : Screen σ}
    (same : screen.scheduler.drawn = some screen.memory.scrollY) :
    screen.presented = [] ∧ screen.tick = (.ok false, screen.scheduler, screen.sink) := by
  have ticks := screen.ticks
  generalize screen.presented = presented at ticks ⊢
  generalize screen.tick = ticked at ticks ⊢
  cases ticks with
  | skipped _ => exact ⟨rfl, rfl⟩
  | drawn due | refused due => exact absurd same due

theorem tick_of_due {screen : Screen σ}
    (due : screen.scheduler.drawn ≠ some screen.memory.scrollY) :
    (∃ sink, screen.presented = [{ frame := Frame.render screen.memory, answer := .ok () }] ∧
      screen.tick =
        (.ok true, { drawn := some screen.memory.scrollY, frames := screen.scheduler.frames + 1 },
          sink)) ∨
    ∃ reason sink,
      screen.presented = [{ frame := Frame.render screen.memory, answer := .error reason }] ∧
      screen.tick = (.error (.sink reason), screen.scheduler, sink) := by
  have ticks := screen.ticks
  generalize screen.presented = presented at ticks ⊢
  generalize screen.tick = ticked at ticks ⊢
  cases ticks with
  | skipped same => exact absurd same due
  | drawn _ => exact .inl ⟨_, rfl, rfl⟩
  | refused _ => exact .inr ⟨_, _, rfl, rfl⟩

/-- A refused frame is shown again. -/
theorem presented_of_refused {screen : Screen σ} {reason : String} {sink : σ}
    (due : screen.scheduler.drawn ≠ some screen.memory.scrollY)
    (refused : screen.tick = (.error (.sink reason), screen.scheduler, sink)) :
    ∃ answer, (screen.perform .tick).presented =
      [{ frame := Frame.render screen.memory, answer }] := by
  have still : (screen.perform .tick).scheduler.drawn ≠
      some (screen.perform .tick).memory.scrollY := by
    rw [perform, refused]
    exact due
  obtain ⟨_, shown, -⟩ | ⟨_, _, shown, -⟩ := tick_of_due still
  · exact ⟨_, shown⟩
  · exact ⟨_, shown⟩

/-- The scheduler knows of its history what is on the screen and how many frames were accepted. -/
structure Reflects (screen : Screen σ) (history : List Moment) : Prop where
  drawn_eq : screen.scheduler.drawn = Moment.onScreen history
  frames_eq : screen.scheduler.frames = (history.filterMap Moment.accepted?).length
  orderly : Moment.Orderly history

theorem Reflects.perform {screen : Screen σ} {history : List Moment}
    (reflects : screen.Reflects history) (event : Event) :
    (screen.perform event).Reflects (history ++ screen.moments event) := by
  cases event with
  | write address value =>
    rw [moments, List.append_nil]
    exact ⟨reflects.drawn_eq, reflects.frames_eq, reflects.orderly⟩
  | invalidate =>
    refine ⟨(Moment.onScreen_invalidated history).symm, ?_, .concat reflects.orderly trivial⟩
    rw [moments, List.filterMap_append, List.length_append, ← reflects.frames_eq]
    rfl
  | tick =>
    have ticks := screen.ticks
    rw [moments, Screen.perform]
    generalize screen.presented = presented at ticks ⊢
    generalize screen.tick = ticked at ticks ⊢
    cases ticks with
    | skipped same =>
      have here : Moment.onScreen history = some screen.memory.scrollY := by
        rw [← reflects.drawn_eq, same]
      rw [List.map_nil, List.nil_append]
      refine ⟨?_, ?_, .concat reflects.orderly here⟩
      · rw [Moment.onScreen_ticked, reflects.drawn_eq]
      · simp [Moment.accepted?, reflects.frames_eq]
    | drawn due =>
      rw [reflects.drawn_eq] at due
      rw [List.map_singleton, ← List.append_assoc]
      refine ⟨?_, ?_, .concat (.concat reflects.orderly ⟨due, rfl⟩) (by simp [Moment.Follows])⟩
      · rw [Moment.onScreen_ticked, Moment.onScreen_accepted]
      · simp [Moment.accepted?, reflects.frames_eq]
    | refused due =>
      rw [reflects.drawn_eq] at due
      rw [List.map_singleton, ← List.append_assoc]
      refine ⟨?_, ?_, .concat (.concat reflects.orderly ⟨due, rfl⟩) (by simp [Moment.Follows])⟩
      · rw [Moment.onScreen_ticked, Moment.onScreen_refused, reflects.drawn_eq]
      · simp [Moment.accepted?, reflects.frames_eq]

theorem Reflects.performAll {screen : Screen σ} {history : List Moment}
    (reflects : screen.Reflects history) (events : List Event) :
    (screen.performAll events).Reflects (history ++ screen.history events) := by
  induction events generalizing screen history with
  | nil =>
    rw [Screen.history, List.append_nil]
    exact reflects
  | cons event rest ih =>
    rw [Screen.history, ← List.append_assoc]
    exact ih (reflects.perform event)

/-- Recording what a sink is shown changes nothing about a tick. -/
theorem tick_recorded (screen : Screen σ) :
    screen.scheduler.tick screen.memory ({ sink := screen.sink } : Recorder σ) =
      (screen.tick.1, screen.tick.2.1, { sink := screen.tick.2.2, presented := screen.presented }) := by
  have through := Scheduler.tick_through (fun recorder : Recorder σ => recorder.sink)
    (fun _ _ => rfl) screen.scheduler screen.memory { sink := screen.sink }
  rw [tick, presented, through]

/-- After any events in the life of a fresh scheduler, the next tick shows the sink the frame of the
memory as it is, once, unless a frame with the same vertical scroll position was accepted and
neither another one accepted nor the scheduler invalidated since; then it shows none and changes
nothing. Where the sink refuses the frame, the tick returns its reason, and the scheduler stays as it
was, so that the next tick shows the same frame. The frames counted are those accepted. Two of them
that follow on each other have different scroll positions, if the scheduler was not invalidated
between them, and no tick succeeds but that the last one has the scroll position of the memory. -/
theorem tick_shows_what_is_due (memory : Memory) (sink : σ) (events : List Event) :
    let screen := ({ memory, sink } : Screen σ).performAll events
    let history := ({ memory, sink } : Screen σ).history events
    let frame := Frame.extract (Background.compose screen.memory) screen.memory.scrollX
      screen.memory.scrollY
    screen.scheduler.tick screen.memory ({ sink := screen.sink } : Recorder σ) =
      (screen.tick.1, screen.tick.2.1,
        { sink := screen.tick.2.2, presented := screen.presented }) ∧
    (Moment.onScreen history = some screen.memory.scrollY →
      screen.presented = [] ∧ screen.tick = (.ok false, screen.scheduler, screen.sink)) ∧
    (Moment.onScreen history ≠ some screen.memory.scrollY →
      (∃ sink, screen.presented = [{ frame, answer := .ok () }] ∧ screen.tick =
        (.ok true, { drawn := some screen.memory.scrollY, frames := screen.scheduler.frames + 1 },
          sink)) ∨
      ∃ reason sink, screen.presented = [{ frame, answer := .error reason }] ∧
        screen.tick = (.error (.sink reason), screen.scheduler, sink) ∧
        ∃ answer, (screen.perform .tick).presented = [{ frame, answer }]) ∧
    screen.scheduler.frames = (history.filterMap Moment.accepted?).length ∧
    (∀ earlier first between second later position position',
      history = earlier ++ first :: (between ++ second :: later) →
      first.accepted? = some position → second.accepted? = some position' →
      (∀ other ∈ between, other.accepted? = none ∧ other.isInvalidated = false) →
      position ≠ position') ∧
    (∀ earlier memory drawn later, history = earlier ++ .ticked memory (.ok drawn) :: later →
      (earlier.filterMap Moment.accepted?).getLast? = some memory.scrollY) ∧
    ∀ earlier first later, history = earlier ++ first :: later →
      first.accepted? = some screen.memory.scrollY →
      (∀ other ∈ later, other.accepted? = none ∧ other.isInvalidated = false) →
      screen.presented = [] := by
  intro screen history frame
  have fresh : Reflects ({ memory, sink } : Screen σ) [] := ⟨rfl, rfl, .nil⟩
  have reflects : screen.Reflects history := fresh.performAll events
  have skips : Moment.onScreen history = some screen.memory.scrollY →
      screen.presented = [] ∧ screen.tick = (.ok false, screen.scheduler, screen.sink) :=
    fun same => tick_of_same (reflects.drawn_eq.trans same)
  refine ⟨screen.tick_recorded, skips, ?_, reflects.frames_eq, ?_, ?_, ?_⟩
  · intro differs
    have due : screen.scheduler.drawn ≠ some screen.memory.scrollY :=
      reflects.drawn_eq.trans_ne differs
    obtain accepted | ⟨reason, sink, shown, refused⟩ := tick_of_due due
    · exact .inl accepted
    · exact .inr ⟨reason, sink, shown, refused, presented_of_refused due refused⟩
  · intro earlier first between second later position position' split accepted accepted' quiet
    have before : Moment.onScreen (earlier ++ first :: between) = some position :=
      Moment.onScreen_of_last accepted quiet
    have follows : second.Follows (earlier ++ first :: between) :=
      reflects.orderly.follows (by rw [split, List.append_assoc, List.cons_append])
    rintro rfl
    exact follows.onScreen_ne accepted' before
  · intro earlier memory drawn later split
    have here : Moment.onScreen earlier = some memory.scrollY := reflects.orderly.follows split
    exact Moment.getLast?_of_onScreen here
  · intro earlier first later split accepted quiet
    exact (skips (split ▸ Moment.onScreen_of_last accepted quiet)).1

/-- The vertical scroll position is moved after the first frame, so that another one is due; where it
is moved back before the next tick, that has nothing to show. -/
theorem tick_shows_what_is_due_on_return :
    let start : Screen (List Frame) := { memory := Memory.blank, sink := [] }
    let moved := Memory.blank.write Memory.scrollYRegister 5
    let away : List Event := [.tick, .write Memory.scrollYRegister 5]
    let back : List Event := away ++ [.write Memory.scrollYRegister 0]
    (∃ answer, (start.performAll away).presented = [{ frame := Frame.render moved, answer }]) ∧
    (start.performAll back).presented = [] := by
  intro start moved away back
  have onScreen : ∀ events ∈ [away, back], Moment.onScreen (start.history events) = some 0 := by
    intro events member
    have same : start.history events =
        [] ++ [.shown Memory.blank { frame := Frame.render Memory.blank, answer := .ok () }] ++
          [.ticked Memory.blank (.ok true)] := by
      simp only [List.mem_cons, List.not_mem_nil, or_false] at member
      obtain rfl | rfl := member <;>
        simp [start, away, back, history, moments, presented, tick, Scheduler.tick,
          FrameSink.present]
    rw [same, Moment.onScreen_ticked, Moment.onScreen_accepted]
    simp [Memory.scrollY, Memory.scrollYRegister, Memory.lineRegister]
  have scrolled : (start.performAll away).memory.scrollY = 5 ∧
      (start.performAll back).memory.scrollY = 0 := by
    simp [start, away, back, performAll, perform, Memory.scrollY, Memory.read_write,
      Memory.scrollYRegister, Memory.lineRegister]
  obtain ⟨-, -, due, -⟩ := tick_shows_what_is_due Memory.blank ([] : List Frame) away
  obtain ⟨-, skips, -⟩ := tick_shows_what_is_due Memory.blank ([] : List Frame) back
  have differs : Moment.onScreen (start.history away) ≠
      some (start.performAll away).memory.scrollY := by
    rw [onScreen away (by simp), scrolled.1]
    decide
  have same : Moment.onScreen (start.history back) =
      some (start.performAll back).memory.scrollY := by
    rw [onScreen back (by simp), scrolled.2]
  refine ⟨?_, (skips same).1⟩
  obtain ⟨_, shown, -⟩ | ⟨_, _, shown, -⟩ := due differs
  · exact ⟨_, shown⟩
  · exact ⟨_, shown⟩

end Screen

end DotMatrix
