import ExpiringCache.Operation

/-!
# Key spaces

The items of a cache and their counts: in a single store, or in one that is divided into shards.
Both carry out the same operations.
-/

namespace ExpiringCache

/-- The key space of a cache. -/
inductive KeySpace where
  | single (store : Store)
  | sharded (shards : ShardedStore)

namespace KeySpace

/-- Carries out an operation. -/
def perform (space : KeySpace) (now : Instant) (operation : Operation) : Outcome × KeySpace :=
  match space with
  | .single store =>
    let (outcome, store) := store.perform now operation
    (outcome, .single store)
  | .sharded shards =>
    let (outcome, shards) := shards.perform now operation
    (outcome, .sharded shards)

/-- Removes and counts all expired items; gives their number. -/
def sweep (space : KeySpace) (now : Instant) : Nat × KeySpace :=
  match space with
  | .single store =>
    let (count, store) := store.deleteExpired now
    (count, .single store)
  | .sharded shards =>
    let (count, shards) := shards.deleteExpired now
    (count, .sharded shards)

/-- The default lifetime. -/
def lifetime : KeySpace → Option Duration
  | .single store => store.lifetime
  | .sharded shards => shards.lifetime

/-- The statistics. -/
def tally : KeySpace → Tally
  | .single store => store.tally
  | .sharded shards => shards.tally

/-- The number of items, expired ones included. -/
def size : KeySpace → Nat
  | .single store => store.size
  | .sharded shards => shards.size

/-- There are no items. -/
def isEmpty : KeySpace → Bool
  | .single store => store.size == 0
  | .sharded shards => shards.isEmpty

/-- The items, expired ones included. -/
def items : KeySpace → Table Item
  | .single store => store.items
  | .sharded shards => shards.collect

end KeySpace

end ExpiringCache
