import ExpiringCache.Time.Instant

/-!
# Deadlines

A deadline is an instant, or a moment within a leap second at the end of a minute. An item is live
up to and including its deadline (`Deadline.passed`).
-/

namespace ExpiringCache

/-- The moment up to which something holds. -/
structure Deadline where
  /-- The whole seconds since 1970-01-01T00:00:00Z. -/
  second : Int
  /-- The nanoseconds into the second; from 10^9 on they run into a leap second after it. -/
  fraction : Nat
  /-- The fraction lies within the second and at most one leap second. -/
  fraction_lt : fraction < 2000000000
  /-- A leap second follows only the last second of a minute. -/
  leap_last : 1000000000 ≤ fraction → second % 60 = 59
  /-- The second is not before the first one of year -262143. -/
  first_le : -8334601228800 ≤ second
  /-- The second is not after the last one of year 262142. -/
  le_last : second ≤ 8210266876799
  deriving DecidableEq

namespace Deadline

/-- The deadline lies within a leap second. -/
def isLeap (d : Deadline) : Bool := 1000000000 ≤ d.fraction

/-- The deadline in nanoseconds since 1970-01-01T00:00:00Z. A leap second counts as the second
after it. -/
def nanos (d : Deadline) : Int := d.second * 1000000000 + d.fraction

/-- The nanoseconds of the last reading of the clock that the deadline admits. The clock has no
leap seconds, so those readings end with the second before one. -/
def lastNanos (d : Deadline) : Int :=
  d.second * 1000000000 + (min d.fraction 999999999 : Nat)

/-- The deadline at an instant. -/
def ofInstant (t : Instant) : Deadline where
  second := t.nanos / 1000000000
  fraction := (t.nanos % 1000000000).toNat
  fraction_lt := by omega
  leap_last := by omega
  first_le := by have := t.first_le; omega
  le_last := by have := t.le_last; omega

/-- The deadline lies strictly before `now`. -/
def passed (d : Deadline) (now : Instant) : Bool := d.lastNanos < now.nanos

/-- The time from `now` to the deadline, or zero after it. A leap second is left out where the
clock shows a later time of day than the deadline. -/
def remaining (d : Deadline) (now : Instant) : Duration :=
  let uncounted := if d.isLeap ∧ d.second % 86400 < now.second % 86400 then 1000000000 else 0
  ⟨(d.nanos - now.nanos - uncounted).toNat⟩

/-- The longest time to a deadline, in nanoseconds: as many milliseconds as 63 bits count. -/
def longest : Nat := 0x7FFFFFFFFFFFFFFF * 1000000

/-- The deadline a time after `now`, if the time is not too long and the instant exists. -/
def after? (now : Instant) (time : Duration) : Option Deadline :=
  if time.nanos ≤ longest then (now.later? time).map ofInstant else none

end Deadline

end ExpiringCache
