import DotMatrix.Fault
import DotMatrix.Video.Frame

/-! When frames are drawn: whenever the vertical scroll position differs from the one last drawn, and
the first time in any case. A frame that its sink refuses counts as not drawn. -/
namespace DotMatrix

/-- A receiver of frames. It may refuse one and say why; it has a new state in either case. -/
class FrameSink (σ : Type) where
  present : Frame → σ → Except String Unit × σ

/-- Keeps all frames, the first one first. -/
instance : FrameSink (List Frame) where
  present frame frames := (.ok (), frames ++ [frame])

structure Scheduler where
  /-- The vertical scroll position of the last frame drawn. -/
  drawn : Option UInt8 := none
  frames : Nat := 0
deriving DecidableEq, Repr

namespace Scheduler

def invalidate (scheduler : Scheduler) : Scheduler := { scheduler with drawn := none }

/-- Draws if a frame is due, and tells whether it did. -/
@[inline] def tick {σ : Type} [FrameSink σ] (scheduler : Scheduler) (memory : Memory) (sink : σ) :
    Except Fault Bool × Scheduler × σ :=
  if scheduler.drawn = some memory.scrollY then (.ok false, scheduler, sink)
  else
    match FrameSink.present (Frame.render memory) sink with
    | (.ok (), sink) =>
      (.ok true, { drawn := some memory.scrollY, frames := scheduler.frames + 1 }, sink)
    | (.error reason, sink) => (.error (.sink reason), scheduler, sink)

end Scheduler

end DotMatrix
