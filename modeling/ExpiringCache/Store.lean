import ExpiringCache.Expiry
import ExpiringCache.Snapshot.Format
import ExpiringCache.Tally

/-!
# Stores

A single key space: a table of items, the default lifetime, and counts of lookups. Expired items
go when an operation meets them under its key (`Store.purge`) or in a sweep
(`Store.deleteExpired`). Every operation is given the reading of the clock at which it runs.

* `get?_set`, `get?_deleteExpired`: what is under each key afterwards.
-/

namespace ExpiringCache

/-- A key space whose items expire. -/
structure Store where
  /-- The items, expired ones included until they are met or swept. -/
  items : Table Item
  /-- The lifetime of values that are stored without one of their own. -/
  lifetime : Option Duration
  /-- The counts of lookups and expirations. -/
  counts : Tally

namespace Store

/-- A store without items. A default lifetime of zero is none. -/
def create (lifetime : Option Duration) : Store := ⟨.empty, Duration.nonzero? lifetime, .zero⟩

/-- The number of items, expired ones included. -/
def size (store : Store) : Nat := store.items.size

/-- The statistics. -/
def tally (store : Store) : Tally := store.counts.withEntries store.size

/-! ## Operations on one key -/

/-- Stores a value in place of the item that its key may have had. -/
def set (store : Store) (now : Instant) (key : String) (value : Value)
    (expiry : Expiry) : Store :=
  { store with
    items := store.items.insert key (.create value (expiry.resolve store.lifetime) now) }

/-- Removes and counts the item under a key if it has expired. Any item that is then found under
the key is live. -/
def purge (store : Store) (now : Instant) (key : String) : Store :=
  match store.items.get? key with
  | some item =>
    if item.expired now then
      { store with items := store.items.erase key, counts := store.counts.expire 1 }
    else store
  | none => store

theorem get?_set (store : Store) (now : Instant) (key key' : String) (value : Value)
    (expiry : Expiry) :
    (store.set now key value expiry).items.get? key' =
      if key = key' then some (.create value (expiry.resolve store.lifetime) now)
      else store.items.get? key' :=
  Table.get?_insert _ _ _ _

/-- Looks up the value under a key and counts the lookup. -/
def get (store : Store) (now : Instant) (key : String) : Option Value × Store :=
  let store := store.purge now key
  match store.items.get? key with
  | some item => (some item.value, { store with counts := store.counts.hit })
  | none => (none, { store with counts := store.counts.miss })

/-- Looks up a text under a key; a value of another kind is an error, though the lookup counts. -/
def getText (store : Store) (now : Instant) (key : String) :
    Except Failure (Option String) × Store :=
  match store.get now key with
  | (none, store) => (.ok none, store)
  | (some value, store) =>
    match value.text? with
    | some text => (.ok (some text), store)
    | none => (.error (.wrongType key .text), store)

/-- A live item is stored under the key. -/
def contains (store : Store) (now : Instant) (key : String) : Bool × Store :=
  let store := store.purge now key
  ((store.items.get? key).isSome, store)

/-- Removes the live item under a key; gives the number of items removed. -/
def delete (store : Store) (now : Instant) (key : String) : Except Failure Nat × Store :=
  let store := store.purge now key
  match store.items.get? key with
  | some _ => (.ok 1, { store with items := store.items.erase key })
  | none => (.error (.notFound key), store)

/-- Changes the value of the live item under a key by a partial function, which also gives the
answer, and keeps the deadline. -/
def modify {α : Type} (store : Store) (now : Instant) (key : String) (expected : Expected)
    (change : Value → Option (Value × α)) : Except Failure α × Store :=
  let store := store.purge now key
  match store.items.get? key with
  | none => (.error (.notFound key), store)
  | some item =>
    match change item.value with
    | none => (.error (.wrongType key expected), store)
    | some (value, answer) =>
      (.ok answer, { store with items := store.items.insert key { item with value := value } })

/-- Adds to the integer under a key, wrapping at its width. -/
def increment (store : Store) (now : Instant) (key : String) (delta : Int64) :
    Except Failure Int64 × Store :=
  store.modify now key .integer fun value => value.increment? delta

/-- Subtracts from the integer under a key, stopping at zero. -/
def decrement (store : Store) (now : Instant) (key : String) (delta : Int64) :
    Except Failure Int64 × Store :=
  store.modify now key .integer fun value => value.decrement? delta

/-- Adds to the float under a key. -/
def incrementFloat (store : Store) (now : Instant) (key : String) (delta : Binary64) :
    Except Failure Binary64 × Store :=
  store.modify now key .float fun value => value.incrementFloat? delta

/-! ## Operations on the whole store -/

/-- Removes and counts all expired items; gives their number. -/
def deleteExpired (store : Store) (now : Instant) : Nat × Store :=
  let live := store.items.filter fun _ item => !item.expired now
  let removed := store.items.size - live.size
  (removed, { store with items := live, counts := store.counts.expire removed })

theorem get?_deleteExpired (store : Store) (now : Instant) (key : String) :
    (store.deleteExpired now).2.items.get? key =
      (store.items.get? key).filter fun item => !item.expired now :=
  Table.get?_filter _ _ _

/-- Removes all items. -/
def flush (store : Store) : Store := { store with items := .empty }

/-- Takes in one item, unless it has expired or a live item has its key; tells whether it did. -/
def accept (store : Store) (now : Instant) (key : String) (item : Item) : Bool × Store :=
  if item.expired now ∨ (store.items.get? key).any (fun resident => !resident.expired now) then
    (false, store)
  else (true, { store with items := store.items.insert key item })

/-- Takes in items one after the other; gives the number taken. -/
def acceptMany (store : Store) (now : Instant) : List (String × Item) → Nat × Store
  | [] => (0, store)
  | (key, item) :: rest =>
    let (taken, store) := store.accept now key item
    let (count, store) := store.acceptMany now rest
    (count + taken.toNat, store)

/-- Takes in the items of a table that have not expired and whose keys hold no live item; gives
their number. -/
def merge (store : Store) (now : Instant) (incoming : Table Item) : Nat × Store :=
  store.acceptMany now incoming.entries

/-- Writes a snapshot to a sink. -/
def save (store : Store) (sink : Sink) : Except Failure Unit × Sink :=
  Snapshot.save store.items sink

/-- Merges the snapshot that a source gives; gives the number of items taken in. -/
def load (store : Store) (now : Instant) (source : Source) : Except Failure Nat × Store :=
  match Snapshot.load source with
  | .ok incoming =>
    let (count, store) := store.merge now incoming
    (.ok count, store)
  | .error fault => (.error fault, store)

end Store

end ExpiringCache
