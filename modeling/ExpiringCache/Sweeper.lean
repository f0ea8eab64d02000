import ExpiringCache.Time.Duration

/-!
# Sweepers

A sweeper sweeps a cache at fixed intervals until it is stopped, by a clock that only moves forward.
Its first tick is due an interval after its start. A tick that is dealt with in time is followed by
another an interval after it was due. After one that is late, the next is due an interval from the
sweep, and what was missed is not made up for.

Being stopped takes effect at once: no tick after it sweeps. The background task itself ends a
moment later.
-/

namespace ExpiringCache

/-- How far the life of a sweeper has come. -/
inductive SweeperPhase where
  /-- It sweeps at every tick. -/
  | running
  /-- It has been told to stop, and its task has not noticed. -/
  | stopping
  /-- Its task has ended. -/
  | finished
  deriving DecidableEq, Repr

/-- A sweeper. -/
structure Sweeper where
  /-- The time between two ticks. -/
  interval : Duration
  /-- It takes time from one tick to the next. -/
  interval_pos : 0 < interval.nanos
  /-- The reading of the clock from which on the next tick is due, in nanoseconds. -/
  next : Nat
  /-- How far its life has come. -/
  phase : SweeperPhase
  deriving DecidableEq, Repr

namespace Sweeper

/-- A sweeper that starts at a reading of the clock. -/
def spawn (interval : Duration) (interval_pos : 0 < interval.nanos) (reading : Nat) : Sweeper :=
  ⟨interval, interval_pos, reading + interval.nanos, .running⟩

/-- The sweeper sweeps at its ticks. -/
def isRunning (sweeper : Sweeper) : Bool := sweeper.phase == .running

/-- The task of the sweeper has ended. -/
def isFinished (sweeper : Sweeper) : Bool := sweeper.phase == .finished

/-- Tells the sweeper to stop. Telling it again changes nothing. -/
def stop (sweeper : Sweeper) : Sweeper :=
  match sweeper.phase with
  | .running => { sweeper with phase := .stopping }
  | _ => sweeper

/-- Lets the task of a stopped sweeper end; tells whether it ended just now. -/
def settle (sweeper : Sweeper) : Bool × Sweeper :=
  match sweeper.phase with
  | .stopping => (true, { sweeper with phase := .finished })
  | _ => (false, sweeper)

/-! ## Ticks -/

/-- The time after which a tick that is due counts as late, in nanoseconds. -/
def leeway : Nat := 5000000

/-- The next tick is late at a reading of the clock. -/
def isLate (sweeper : Sweeper) (reading : Nat) : Bool := sweeper.next + leeway < reading

/-- Lets the next tick be due an interval after a reading of the clock. -/
def restart (sweeper : Sweeper) (reading : Nat) : Sweeper :=
  { sweeper with next := reading + sweeper.interval.nanos }

/-- Deals with one tick at a reading of the clock. -/
def tick (sweeper : Sweeper) (reading : Nat) : Sweeper :=
  sweeper.restart (if sweeper.isLate reading then reading else sweeper.next)

/-- The number of ticks that a running sweeper deals with at a reading of the clock: those that are
due one after the other, or one that is late. -/
def due (sweeper : Sweeper) (reading : Nat) : Nat :=
  if !sweeper.isRunning || reading < sweeper.next then 0
  else if sweeper.isLate reading then 1
  else (reading - sweeper.next) / sweeper.interval.nanos + 1

end Sweeper

end ExpiringCache
