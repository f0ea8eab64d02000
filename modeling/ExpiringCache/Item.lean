import ExpiringCache.Value.Basic
import ExpiringCache.Time.Deadline

/-!
# Items

A value and the deadline up to which it is live.
-/

namespace ExpiringCache

/-- A stored value. -/
structure Item where
  /-- The value. -/
  value : Value
  /-- The deadline; without one the item does not expire. -/
  deadline : Option Deadline

namespace Item

/-- An item that lives for `lifetime` from `now`. Without a lifetime, or with one that is too long
to have a deadline, it does not expire. -/
def create (value : Value) (lifetime : Option Duration) (now : Instant) : Item :=
  ⟨value, lifetime.bind (Deadline.after? now)⟩

/-- The item's deadline lies strictly before `now`. -/
def expired (item : Item) (now : Instant) : Bool :=
  item.deadline.any fun deadline => deadline.passed now

/-- The time that is left at `now`, zero after the deadline; `none` is without end. -/
def remaining (item : Item) (now : Instant) : Option Duration :=
  item.deadline.map fun deadline => deadline.remaining now

/-- The items have equal values and the same deadline. -/
def equals (a b : Item) : Bool := a.value.equals b.value && a.deadline == b.deadline

end Item

end ExpiringCache
