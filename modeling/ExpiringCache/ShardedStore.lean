import ExpiringCache.Routing
import ExpiringCache.Store

/-!
# Sharded stores

A key space divided among a fixed number of stores, at least one. A key is always looked up in the
store that it is routed to; operations on the whole key space visit the stores in order.
-/

namespace ExpiringCache

/-- Stores that share a key space. -/
structure ShardedStore where
  /-- The number of stores. -/
  count : Nat
  /-- There is a store. -/
  count_pos : 0 < count
  /-- The stores. -/
  stores : Vector Store count

namespace ShardedStore

/-- Stores without items. -/
def create (count : Nat) (count_pos : 0 < count) (lifetime : Option Duration) : ShardedStore :=
  ⟨count, count_pos, Vector.replicate count (.create lifetime)⟩

/-- The index of the store that a key is routed to. -/
def bucket (shards : ShardedStore) (key : String) : Fin shards.count :=
  ⟨Routing.bucket key shards.count, Routing.bucket_lt key shards.count_pos⟩

/-- The store that a key is routed to. -/
def shard (shards : ShardedStore) (key : String) : Store := shards.stores[shards.bucket key]

/-- Replaces the store that a key is routed to. -/
def setShard (shards : ShardedStore) (key : String) (store : Store) : ShardedStore :=
  { shards with stores := shards.stores.set (shards.bucket key) store }

/-- Runs an operation on the store that a key is routed to. -/
def route {α : Type} (shards : ShardedStore) (key : String) (operation : Store → α × Store) :
    α × ShardedStore :=
  let (answer, store) := operation (shards.shard key)
  (answer, shards.setShard key store)

/-- The default lifetime, which all stores share. -/
def lifetime (shards : ShardedStore) : Option Duration :=
  (shards.stores.get ⟨0, shards.count_pos⟩).lifetime

/-- The statistics of each store, in order. -/
def shardTallies (shards : ShardedStore) : List Tally := shards.stores.toList.map Store.tally

/-- The statistics of all stores together. -/
def tally (shards : ShardedStore) : Tally := shards.shardTallies.foldl Tally.add .zero

/-- The number of items in all stores together. -/
def size (shards : ShardedStore) : Nat :=
  shards.stores.toList.foldl (fun total store => total + store.size) 0

/-- No store has an item. -/
def isEmpty (shards : ShardedStore) : Bool := shards.stores.toList.all fun store => store.size == 0

/-- The items of all stores together. -/
def collect (shards : ShardedStore) : Table Item :=
  shards.stores.toList.foldl (fun items store => items.extend store.items) .empty

/-- Removes and counts all expired items in every store; gives their number. -/
def deleteExpired (shards : ShardedStore) (now : Instant) : Nat × ShardedStore :=
  let swept := shards.stores.map fun store => store.deleteExpired now
  (swept.toList.foldl (fun total p => total + p.1) 0,
    { shards with stores := swept.map Prod.snd })

/-- Removes all items from every store. -/
def flush (shards : ShardedStore) : ShardedStore :=
  { shards with stores := shards.stores.map Store.flush }

/-- The items of a table that are routed to a store. -/
def routed (shards : ShardedStore) (incoming : Table Item) (index : Nat) : Table Item :=
  incoming.filter fun key _ => (shards.bucket key).val == index

/-- Merges each item of a table into the store that its key is routed to; gives the number of
items taken in. -/
def merge (shards : ShardedStore) (now : Instant) (incoming : Table Item) : Nat × ShardedStore :=
  let merged := shards.stores.mapIdx fun index store =>
    store.merge now (shards.routed incoming index)
  (merged.toList.foldl (fun total p => total + p.1) 0,
    { shards with stores := merged.map Prod.snd })

/-- Writes a snapshot of the items of all stores to a sink. -/
def save (shards : ShardedStore) (sink : Sink) : Except Failure Unit × Sink :=
  Snapshot.save shards.collect sink

/-- Merges the snapshot that a source gives; gives the number of items taken in. -/
def load (shards : ShardedStore) (now : Instant) (source : Source) :
    Except Failure Nat × ShardedStore :=
  match Snapshot.load source with
  | .ok incoming =>
    let (count, shards) := shards.merge now incoming
    (.ok count, shards)
  | .error fault => (.error fault, shards)

end ShardedStore

end ExpiringCache
