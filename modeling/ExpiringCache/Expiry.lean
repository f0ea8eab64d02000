import ExpiringCache.Time.Duration

/-!
# Expirations

The lifetime that a caller asks for when storing a value, and what it comes to under the default
lifetime of a cache (`Expiry.resolve`).
-/

namespace ExpiringCache

/-- The lifetime asked for when storing a value. -/
inductive Expiry where
  /-- The default lifetime of the cache. -/
  | default
  /-- Until the value is removed. -/
  | never
  /-- The given time; zero stands for the default lifetime. -/
  | after (time : Duration)
  deriving DecidableEq, Repr

namespace Expiry

/-- Milliseconds as an expiration: 0 is the default and a negative number is never. -/
def ofMillis (n : Int) : Expiry :=
  if n = 0 then .default else if n < 0 then .never else .after (.ofMillis n.toNat)

/-- A time as an expiration: zero is the default. -/
def ofDuration (time : Duration) : Expiry :=
  if time.nanos = 0 then .default else .after time

/-- The lifetime under a default lifetime; `none` is without end. -/
def resolve (expiry : Expiry) (fallback : Option Duration) : Option Duration :=
  match expiry with
  | .default => fallback
  | .never => none
  | .after time => if time.nanos = 0 then fallback else some time

end Expiry

end ExpiringCache
