import ExpiringCache.Time.Duration

/-!
# Instants

Readings of the clock: nanoseconds since 1970-01-01T00:00:00Z, from the first instant of year
-262143 to the last of year 262142.
-/

namespace ExpiringCache

/-- A reading of the clock. -/
structure Instant where
  /-- The nanoseconds since 1970-01-01T00:00:00Z. -/
  nanos : Int
  /-- The instant is not before the first one of year -262143. -/
  first_le : -8334601228800000000000 ≤ nanos
  /-- The instant is not after the last one of year 262142. -/
  le_last : nanos ≤ 8210266876799999999999
  deriving DecidableEq

namespace Instant

/-- The first instant. -/
def first : Int := -8334601228800000000000

/-- The last instant. -/
def last : Int := 8210266876799999999999

instance : LE Instant := ⟨fun s t => s.nanos ≤ t.nanos⟩
instance : LT Instant := ⟨fun s t => s.nanos < t.nanos⟩
instance (s t : Instant) : Decidable (s ≤ t) := inferInstanceAs (Decidable (s.nanos ≤ t.nanos))
instance (s t : Instant) : Decidable (s < t) := inferInstanceAs (Decidable (s.nanos < t.nanos))

/-- The instant of a number of nanoseconds, if there is one. -/
def ofNanos? (nanos : Int) : Option Instant :=
  if h : first ≤ nanos ∧ nanos ≤ last then some ⟨nanos, h.1, h.2⟩ else none

/-- The instant nearest to a number of nanoseconds. -/
def nearest (nanos : Int) : Instant :=
  ⟨max first (min nanos last), by simp only [first, last]; omega, by
    simp only [first, last]; omega⟩

/-- The instant later by a duration, if there is one. -/
def later? (t : Instant) (d : Duration) : Option Instant := ofNanos? (t.nanos + d.nanos)

/-- The whole seconds since 1970-01-01T00:00:00Z. -/
def second (t : Instant) : Int := t.nanos / 1000000000

end Instant

end ExpiringCache
