import ExpiringCache.ShardedStore

/-!
# Operations

The operations that every cache has, as data, with their answers. A store (`Store.perform`) and a
sharded store (`ShardedStore.perform`) each carry out all of them.
-/

namespace ExpiringCache

/-- An operation on a cache. -/
inductive Operation where
  | get (key : String)
  | getText (key : String)
  | set (key : String) (value : Value) (expiry : Expiry)
  | contains (key : String)
  | delete (key : String)
  | increment (key : String) (delta : Int64)
  | incrementFloat (key : String) (delta : Binary64)
  | decrement (key : String) (delta : Int64)
  | deleteExpired
  | flush
  | save (sink : Sink)
  | load (source : Source)

/-- The name under which an operation is traced. -/
def Operation.name : Operation → String
  | .get _ => "get"
  | .getText _ => "get_string"
  | .set _ _ _ => "set"
  | .contains _ => "exists"
  | .delete _ => "delete"
  | .increment _ _ => "increment"
  | .incrementFloat _ _ => "increment_float"
  | .decrement _ _ => "decrement"
  | .deleteExpired => "delete_expired"
  | .flush => "flush"
  | .save _ => "save"
  | .load _ => "load"

/-- What an operation that succeeds answers. -/
inductive Reply where
  | done
  | value (value : Option Value)
  | text (text : Option String)
  | flag (b : Bool)
  | count (n : Nat)
  | integer (n : Int64)
  | float (x : Binary64)

/-- What comes of an operation. -/
structure Outcome where
  /-- The answer or the error. -/
  result : Except Failure Reply
  /-- The bytes handed to the sink of a `save`. -/
  written : List UInt8

/-- The outcome of an operation that writes nothing. -/
def Outcome.of {α : Type} (reply : α → Reply) (result : Except Failure α) : Outcome :=
  ⟨result.map reply, []⟩

/-- The outcome of a save. -/
def Outcome.ofSave (saved : Except Failure Unit × Sink) : Outcome :=
  ⟨saved.1.map fun _ => .done, saved.2.taken⟩

/-- Carries out an operation on a store. -/
def Store.perform (store : Store) (now : Instant) : Operation → Outcome × Store
  | .get key =>
    let (value, store) := store.get now key
    (.of .value (.ok value), store)
  | .getText key =>
    let (result, store) := store.getText now key
    (.of .text result, store)
  | .set key value expiry => (⟨.ok .done, []⟩, store.set now key value expiry)
  | .contains key =>
    let (found, store) := store.contains now key
    (.of .flag (.ok found), store)
  | .delete key =>
    let (result, store) := store.delete now key
    (.of .count result, store)
  | .increment key delta =>
    let (result, store) := store.increment now key delta
    (.of .integer result, store)
  | .incrementFloat key delta =>
    let (result, store) := store.incrementFloat now key delta
    (.of .float result, store)
  | .decrement key delta =>
    let (result, store) := store.decrement now key delta
    (.of .integer result, store)
  | .deleteExpired =>
    let (count, store) := store.deleteExpired now
    (.of .count (.ok count), store)
  | .flush => (⟨.ok .done, []⟩, store.flush)
  | .save sink => (.ofSave (store.save sink), store)
  | .load source =>
    let (result, store) := store.load now source
    (.of .count result, store)

/-- Carries out an operation on a sharded store: on one key in the store that the key is routed
to, on the whole key space in every store. -/
def ShardedStore.perform (shards : ShardedStore) (now : Instant) :
    Operation → Outcome × ShardedStore
  | .get key => shards.route key fun store => store.perform now (.get key)
  | .getText key => shards.route key fun store => store.perform now (.getText key)
  | .set key value expiry =>
    shards.route key fun store => store.perform now (.set key value expiry)
  | .contains key => shards.route key fun store => store.perform now (.contains key)
  | .delete key => shards.route key fun store => store.perform now (.delete key)
  | .increment key delta => shards.route key fun store => store.perform now (.increment key delta)
  | .incrementFloat key delta =>
    shards.route key fun store => store.perform now (.incrementFloat key delta)
  | .decrement key delta => shards.route key fun store => store.perform now (.decrement key delta)
  | .deleteExpired =>
    let (count, shards) := shards.deleteExpired now
    (.of .count (.ok count), shards)
  | .flush => (⟨.ok .done, []⟩, shards.flush)
  | .save sink => (.ofSave (shards.save sink), shards)
  | .load source =>
    let (result, shards) := shards.load now source
    (.of .count result, shards)

end ExpiringCache
