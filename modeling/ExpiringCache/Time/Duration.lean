import ExpiringCache.Text.Decimal

/-!
# Durations

A length of time in whole nanoseconds, and its description in the largest fitting unit.
-/

namespace ExpiringCache

/-- A length of time. -/
structure Duration where
  /-- The number of nanoseconds. -/
  nanos : Nat
  deriving DecidableEq, Repr

namespace Duration

/-- No time. -/
def zero : Duration := ⟨0⟩

/-- The duration of a number of milliseconds. -/
def ofMillis (n : Nat) : Duration := ⟨n * 1000000⟩

/-- The duration of seconds and nanoseconds. -/
def ofSeconds (seconds nanos : Nat) : Duration := ⟨seconds * 1000000000 + nanos⟩

/-- The whole seconds. -/
def seconds (d : Duration) : Nat := d.nanos / 1000000000

/-- The nanoseconds beyond the whole seconds. -/
def subsecond (d : Duration) : Nat := d.nanos % 1000000000

/-- No duration stands for a duration of zero. -/
def nonzero? (d : Option Duration) : Option Duration := d.filter fun d => d.nanos != 0

theorem nanos_pos {d : Option Duration} {d' : Duration} (h : nonzero? d = some d') :
    0 < d'.nanos := by
  obtain ⟨-, positive⟩ := Option.filter_eq_some_iff.1 h
  exact Nat.pos_of_ne_zero (bne_iff_ne.1 positive)

/-- A number of nanoseconds in a unit of `10 ^ places` of them. -/
def inUnit (places nanos : Nat) (unit : String) : String :=
  let digits := Decimal.trimZeros (Decimal.fixed places (nanos % Nat.pow 10 places))
  toString (nanos / Nat.pow 10 places) ++ String.ofList (if digits = [] then [] else '.' :: digits)
    ++ unit

/-- The duration in the largest unit of which it has at least one, exactly. -/
def describe (d : Duration) : String :=
  if 1000000000 ≤ d.nanos then inUnit 9 d.nanos "s"
  else if 1000000 ≤ d.nanos then inUnit 6 d.nanos "ms"
  else if 1000 ≤ d.nanos then inUnit 3 d.nanos "µs"
  else inUnit 0 d.nanos "ns"

end Duration

end ExpiringCache
