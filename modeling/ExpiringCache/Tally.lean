import ExpiringCache.Number.Binary

/-!
# Statistics

Counts of what happened to a cache.
-/

namespace ExpiringCache

/-- Counts of lookups, expirations and entries. -/
structure Tally where
  /-- Lookups that found a live item. -/
  hits : Nat
  /-- Lookups that found none. -/
  misses : Nat
  /-- Items removed because their deadline had passed. -/
  expired : Nat
  /-- Items present, expired ones included. -/
  entries : Nat
  deriving DecidableEq, Repr

namespace Tally

/-- All counts are zero. -/
def zero : Tally := ⟨0, 0, 0, 0⟩

/-- Counts a lookup that found a live item. -/
def hit (tally : Tally) : Tally := { tally with hits := tally.hits + 1 }

/-- Counts a lookup that found none. -/
def miss (tally : Tally) : Tally := { tally with misses := tally.misses + 1 }

/-- Counts removed items. -/
def expire (tally : Tally) (n : Nat) : Tally := { tally with expired := tally.expired + n }

/-- Sets the number of items present. -/
def withEntries (tally : Tally) (n : Nat) : Tally := { tally with entries := n }

/-- Adds two statistics count by count. -/
def add (a b : Tally) : Tally :=
  ⟨a.hits + b.hits, a.misses + b.misses, a.expired + b.expired, a.entries + b.entries⟩

/-- The share of hits among the lookups, zero before the first. -/
def hitRate (tally : Tally) : Binary64 :=
  if tally.hits + tally.misses = 0 then .zero
  else .ratio tally.hits (tally.hits + tally.misses)

end Tally

end ExpiringCache
