import ExpiringCache.Proofs.Except
import ExpiringCache.Proofs.Sharding
import ExpiringCache.Proofs.TimedMap

/-!
# Key spaces as stores

A key space holds what a single store holds (`KeySpace.Holds`): it is that store, or its shards
divide it. Every step keeps this and has the outcome that it has on the store (`Holds.perform`,
`Holds.sweep`, `Holds.merge`), and sizes, statistics and items are those of the store. So what is
shown of a store can be said of every key space that comes about (`Reachable.holds`), whatever the
number of its shards.

What is visible in a key space is what a lookup finds there (`Holds.get_visible`).
-/

namespace ExpiringCache

/-- The operation may take away the item under a key, where it leaves `left`: it is on the key,
removes all expired items or all items, or it loads another item for the key. -/
inductive Operation.Displaces (key : String) (left : Option Item) : Operation → Prop where
  | on (operation : KeyOperation) : Displaces key left (operation.on key)
  | deleteExpired : Displaces key left .deleteExpired
  | flush : Displaces key left .flush
  | load {source : Source} {incoming : Table Item} {item : Item}
      (hl : Snapshot.load source = .ok incoming) (hi : incoming.get? key = some item)
      (hr : left = some item) : Displaces key left (.load source)

namespace KeySpace

variable {space : KeySpace} {store : Store}

/-- The key space has the items and counts of a store. -/
def Holds : KeySpace → Store → Prop
  | .single one, store => one = store
  | .sharded shards, store => shards.Divides store

/-- Takes in the items of a table; gives the number of items taken in. -/
def merge (space : KeySpace) (now : Instant) (incoming : Table Item) : Nat × KeySpace :=
  match space with
  | .single store =>
    let (count, store) := store.merge now incoming
    (count, .single store)
  | .sharded shards =>
    let (count, shards) := shards.merge now incoming
    (count, .sharded shards)

/-- The step of a run, with its answer or error. -/
def act (space : KeySpace) (now : Instant) : StoreAction → Except Failure Reply × KeySpace
  | .perform operation =>
    let (outcome, space) := space.perform now operation
    (outcome.result, space)
  | .merge incoming =>
    let (count, space) := space.merge now incoming
    (.ok (.count count), space)

/-- The item under a key, if it has no deadline or one that is not before `now`. -/
def visible (space : KeySpace) (now : Instant) (key : String) : Option Item :=
  (space.items.get? key).filter fun item => item.visibleAt now

/-- The stores, in order. -/
def stores : KeySpace → List Store
  | .single store => [store]
  | .sharded shards => shards.stores.toList

theorem stores_sweep (space : KeySpace) (now : Instant) :
    (space.sweep now).2.stores = space.stores.map fun store => (store.deleteExpired now).2 := by
  cases space with
  | single store => rfl
  | sharded shards =>
    simp only [sweep, stores, ShardedStore.deleteExpired]
    rw [Vector.toList_map, Vector.toList_map, List.map_map]
    rfl

/-- A save writes the table of all items and leaves everything as it is. -/
theorem perform_save (space : KeySpace) (now : Instant) (sink : Sink) :
    space.perform now (.save sink) = (.ofSave (Snapshot.save space.items sink), space) := by
  cases space <;> rfl

/-- A load merges the table that the source gives, or fails and leaves everything as it is. -/
theorem perform_load (space : KeySpace) (now : Instant) (source : Source) :
    space.perform now (.load source) =
      match Snapshot.load source with
      | .ok incoming =>
        (⟨.ok (.count (space.merge now incoming).1), []⟩, (space.merge now incoming).2)
      | .error failure => (⟨.error failure, []⟩, space) := by
  cases space with
  | single store =>
    simp only [KeySpace.perform, Store.perform, Store.load]
    cases Snapshot.load source <;> rfl
  | sharded shards =>
    simp only [KeySpace.perform, ShardedStore.perform, ShardedStore.load]
    cases Snapshot.load source <;> rfl

/-- A sweep leaves what the operation that removes expired items leaves. -/
theorem sweep_eq (space : KeySpace) (now : Instant) :
    (space.sweep now).2 = (space.perform now .deleteExpired).2 := by
  cases space <;> rfl

/-! ## Steps and observations -/

namespace Holds

theorem items_eq (h : space.Holds store) : space.items = store.items := by
  cases space with
  | single one => exact congrArg Store.items h
  | sharded shards => exact ShardedStore.Divides.collect_eq h

theorem size_eq (h : space.Holds store) : space.size = store.size := by
  cases space with
  | single one => exact congrArg Store.size h
  | sharded shards => exact ShardedStore.Divides.size_eq h

theorem tally_eq (h : space.Holds store) : space.tally = store.tally := by
  cases space with
  | single one => exact congrArg Store.tally h
  | sharded shards => exact ShardedStore.Divides.tally_eq h

theorem visible_eq (h : space.Holds store) (now : Instant) (key : String) :
    space.visible now key = Item.live? now (store.items.get? key) := by
  simp only [visible, h.items_eq, Item.live?, Item.visibleAt_eq]

theorem perform (h : space.Holds store) (now : Instant) (operation : Operation) :
    (space.perform now operation).1 = (store.perform now operation).1 ∧
      (space.perform now operation).2.Holds (store.perform now operation).2 := by
  cases space with
  | single one =>
    obtain rfl : one = store := h
    exact ⟨rfl, rfl⟩
  | sharded shards => exact ShardedStore.Divides.perform_divides h now operation

theorem sweep (h : space.Holds store) (now : Instant) :
    (space.sweep now).1 = (store.deleteExpired now).1 ∧
      (space.sweep now).2.Holds (store.deleteExpired now).2 := by
  cases space with
  | single one =>
    obtain rfl : one = store := h
    exact ⟨rfl, rfl⟩
  | sharded shards => exact ShardedStore.Divides.deleteExpired_divides h now

theorem merge (h : space.Holds store) (now : Instant) (incoming : Table Item) :
    (space.merge now incoming).1 = (store.merge now incoming).1 ∧
      (space.merge now incoming).2.Holds (store.merge now incoming).2 := by
  cases space with
  | single one =>
    obtain rfl : one = store := h
    exact ⟨rfl, rfl⟩
  | sharded shards => exact ShardedStore.Divides.merge_divides h now incoming

theorem act (h : space.Holds store) (now : Instant) (action : StoreAction) :
    (space.act now action).1 = (store.act now action).1 ∧
      (space.act now action).2.Holds (store.act now action).2 := by
  cases action with
  | perform operation =>
    obtain ⟨ho, hs⟩ := h.perform now operation
    exact ⟨congrArg Outcome.result ho, hs⟩
  | merge incoming =>
    obtain ⟨hc, hs⟩ := h.merge now incoming
    exact ⟨congrArg (fun count => Except.ok (Reply.count count)) hc, hs⟩

/-- A lookup finds the visible item. -/
theorem get_visible (h : space.Holds store) (now : Instant) (key : String) :
    (space.perform now (.get key)).1.result =
      .ok (.value ((space.visible now key).map Item.value)) := by
  rw [(h.perform now (.get key)).1, h.visible_eq]
  have he := store.perform_on now key .get
  rw [KeyOperation.on] at he
  rw [he]
  rfl

/-- An item goes only by an operation that displaces it. -/
theorem displaces (h : space.Holds store) (now : Instant)
    (operation : Operation) {key : String} {item : Item}
    (present : space.items.get? key = some item)
    (gone : (space.perform now operation).2.items.get? key ≠ some item) :
    operation.Displaces key ((space.perform now operation).2.items.get? key) := by
  have after := (h.perform now operation).2.items_eq
  rw [after] at gone ⊢
  rw [h.items_eq] at present
  cases operation using Operation.cases_on_key with
  | on operation key' =>
    by_cases same : key' = key
    · exact same ▸ .on operation
    · rw [Store.get?_perform_on, if_neg same] at gone
      exact absurd present gone
  | deleteExpired => exact .deleteExpired
  | flush => exact .flush
  | save sink => exact absurd present gone
  | load source =>
    simp only [Store.perform, Store.load] at gone ⊢
    cases hl : Snapshot.load source with
    | error failure =>
      rw [hl] at gone
      exact absurd present gone
    | ok incoming =>
      rw [hl] at gone
      simp only [Store.get?_merge] at gone ⊢
      rcases Item.merged_cases now (store.items.get? key) (incoming.get? key) with e | ⟨_, hi, e⟩
      · exact absurd (e.trans present) gone
      · exact .load hl hi e

end Holds

/-! ## What comes about -/

/-- A key space without items, as a cache begins with it. -/
inductive Fresh : KeySpace → Prop where
  | single (lifetime : Option Duration) : Fresh (.single (.create lifetime))
  | sharded {count : Nat} (count_pos : 0 < count) (lifetime : Option Duration) :
      Fresh (.sharded (.create count count_pos lifetime))

/-- A key space that comes about in a run, by any clock: operations are carried out on it, it is
swept in the background, and tables are merged into it. -/
inductive Reachable : KeySpace → Prop where
  | fresh {space : KeySpace} (h : Fresh space) : Reachable space
  | perform {space : KeySpace} (h : Reachable space) (now : Instant) (operation : Operation) :
      Reachable (space.perform now operation).2
  | sweep {space : KeySpace} (h : Reachable space) (now : Instant) : Reachable (space.sweep now).2
  | merge {space : KeySpace} (h : Reachable space) (now : Instant) (incoming : Table Item) :
      Reachable (space.merge now incoming).2

theorem Fresh.holds (h : Fresh space) :
    ∃ lifetime : Option Duration, space.Holds (.create lifetime) := by
  cases h with
  | single lifetime => exact ⟨lifetime, rfl⟩
  | sharded count_pos lifetime =>
    exact ⟨lifetime, ShardedStore.create_divides count_pos lifetime⟩

theorem Reachable.holds (h : Reachable space) : ∃ store : Store, space.Holds store := by
  induction h with
  | fresh h =>
    obtain ⟨lifetime, hs⟩ := h.holds
    exact ⟨_, hs⟩
  | perform _ now operation ih =>
    obtain ⟨store, hs⟩ := ih
    exact ⟨_, (hs.perform now operation).2⟩
  | sweep _ now ih =>
    obtain ⟨store, hs⟩ := ih
    exact ⟨_, (hs.sweep now).2⟩
  | merge _ now incoming ih =>
    obtain ⟨store, hs⟩ := ih
    exact ⟨_, (hs.merge now incoming).2⟩

end KeySpace

/-! ## Caches -/

namespace Cache

/-- A cache that comes about: it is created, operations are carried out on it, files are loaded
into it, and its sweeper sweeps, is stopped and ends. -/
inductive Reachable : Cache → Prop where
  | single {settings : Settings} {background : Bool} {reading : Nat} {cache : Cache}
      (h : createSingle settings background reading = .ok cache) : Reachable cache
  | sharded {settings : Settings} {background : Bool} {reading : Nat} {cache : Cache}
      (h : createSharded settings background reading = .ok cache) : Reachable cache
  | perform {cache : Cache} (h : Reachable cache) (now : Instant) (operation : Operation) :
      Reachable (cache.perform now operation).2.2
  | loadFile {cache : Cache} (h : Reachable cache) (now : Instant) (files : FileSystem)
      (path : String) : Reachable (cache.loadFile now files path).2.2
  | sweepDue {cache : Cache} (h : Reachable cache) (now : Instant) (reading : Nat) :
      Reachable (cache.sweepDue now reading).2
  | close {cache : Cache} (h : Reachable cache) : Reachable cache.close
  | settle {cache : Cache} (h : Reachable cache) : Reachable cache.settle.2

/-- What every sweep of the key space keeps is kept by a sweeper at its ticks. -/
theorem sweepTicks_keeps {P : KeySpace → Prop} {now : Instant}
    (sweep : ∀ space : KeySpace, P space → P (space.sweep now).2) (reading : Nat)
    (sweeper : Sweeper) (n : Nat) {cache : Cache} (h : P cache.space) :
    P (cache.sweepTicks now reading sweeper n).2.space := by
  induction n generalizing sweeper cache with
  | zero => exact h
  | succ n ih => exact ih (sweeper.tick reading) (sweep cache.space h)

theorem Reachable.space {cache : Cache} (h : cache.Reachable) : cache.space.Reachable := by
  induction h with
  | single h =>
    obtain ⟨sweeper, -, hc⟩ := bind_eq_ok_iff.1 h
    rw [← Except.ok.inj hc]
    exact .fresh (.single _)
  | @sharded settings _ _ _ h =>
    rw [createSharded] at h
    split at h
    · obtain ⟨sweeper, -, hc⟩ := bind_eq_ok_iff.1 h
      rw [← Except.ok.inj hc]
      exact .fresh (.sharded _ _)
    · cases h
  | perform _ now operation ih => exact ih.perform now operation
  | loadFile _ now files path ih =>
    rw [Cache.loadFile]
    split
    · exact ih
    · exact ih.perform now (.load _)
  | @sweepDue cache _ now reading ih =>
    rw [Cache.sweepDue]
    split
    · exact ih
    · exact sweepTicks_keeps (fun _ h => h.sweep now) _ _ _ ih
  | close _ ih => exact ih
  | @settle cache _ ih =>
    rw [Cache.settle]
    split <;> exact ih

end Cache

end ExpiringCache
