import ExpiringCache.Proofs.Steps

/-!
# Where keys live

Each visit to a store leaves in it only items whose keys are routed to it (`KeySpace.Placed.visit`),
so this holds after every run of every cache, whatever is loaded. The entries of all stores then have
different keys (`KeySpace.Placed.distinct`): put together in any order they are all in the table that
they make up. An item is found among the items of all stores just where it is found in the home of
its key (`KeySpace.Placed.get?_items`).

A load puts the items that it has read into one table for each store, by the index that their keys
are routed to (`ShardedStore.scatter?`), and merges each table into the store at its place
(`ShardedStore.mergeEach`). Where there is a store, there is no key and no index that is out of range
(`Cache.keys_stay_in_their_shards`).
-/

namespace ExpiringCache

/-! ## Putting tables together -/

/-- The items of stores, put into one table store by store. -/
def gather (stores : List Store) : Table Item :=
  stores.foldl (fun items store => items.extend store.items) .empty

/-- The entries of all stores. -/
def allEntries (stores : List Store) : List (String × Item) :=
  stores.flatMap fun store => store.items.entries

theorem gather_eq (stores : List Store) : gather stores = .ofList (allEntries stores) := by
  have from_here (items : Table Item) :
      stores.foldl (fun items store => items.extend store.items) items =
        items.insertMany (allEntries stores) := by
    induction stores generalizing items with
    | nil => rfl
    | cons store stores ih =>
      rw [List.foldl_cons, ih, allEntries, allEntries, List.flatMap_cons, Table.insertMany_append]
      rfl
  exact from_here .empty

theorem mem_allEntries {stores : List Store} {key : String} {item : Item} :
    (key, item) ∈ allEntries stores ↔ ∃ store ∈ stores, store.items.get? key = some item := by
  simp only [allEntries, List.mem_flatMap, Table.get?_eq_some_iff]

theorem ShardedStore.size_eq_length (shards : ShardedStore) :
    shards.size = (allEntries shards.stores.toList).length := by
  rw [size, ← List.foldl_map, ← List.sum_eq_foldl, allEntries, List.length_flatMap]
  rfl

/-! ## Keys in their stores -/

namespace KeySpace

variable {space : KeySpace}

/-- Every item, expired or not, is in the store that its key is routed to. -/
def Placed (space : KeySpace) : Prop :=
  space.Each fun i store => ∀ key item, store.items.get? key = some item → space.bucket key = i

theorem items_eq_gather (space : KeySpace) : space.items = gather space.stores := by
  cases space with
  | single store => exact (Table.ofList_eq_of_perm (List.Perm.refl _)).symm
  | sharded shards => rfl

theorem Fresh.placed (h : Fresh space) : space.Placed := by
  have empty : ∀ store ∈ space.stores, ∃ lifetime : Option Duration, store = .create lifetime := by
    cases h with
    | single lifetime => exact fun store hm => ⟨lifetime, List.mem_singleton.1 hm⟩
    | sharded count_pos lifetime =>
      intro store hm
      rw [stores, ShardedStore.create, Vector.mem_toList_iff] at hm
      exact ⟨lifetime, (Vector.mem_replicate.1 hm).2⟩
  intro i store hs key item hr
  obtain ⟨lifetime, rfl⟩ := empty store (List.mem_of_getElem? hs)
  cases hr

/-- What an action leaves in a store that it visits was there or is routed there. -/
theorem routed_part {count index : Nat} {store : Store} {now : Instant}
    {action part : StoreAction} (hp : action.part? count index = some part)
    (before : ∀ key item, store.items.get? key = some item → Routing.bucket key count = index)
    (key : String) (item : Item) (hr : (store.act now part).2.items.get? key = some item) :
    Routing.bucket key count = index := by
  have merged {incoming : Table Item}
      (hr : (store.act now (.merge (incoming.routed count index))).2.items.get? key = some item) :
      Routing.bucket key count = index := by
    rw [Store.get?_act_merge] at hr
    rcases Item.merged_cases now (store.items.get? key)
      ((incoming.routed count index).get? key) with e | ⟨_, hi, -⟩
    · exact before key item (e.symm.trans hr)
    · rw [Table.get?_routed] at hi
      by_contra elsewhere
      rw [if_neg elsewhere] at hi
      cases hi
  refine StoreAction.part?_cases (motive := fun _ part =>
    (store.act now part).2.items.get? key = some item → Routing.bucket key count = index)
    ?on ?deleteExpired ?flush ?load ?merge hp hr
  case on =>
    intro operation key' routed hr
    rw [Store.get?_act_on] at hr
    split at hr
    · rename_i same
      exact same ▸ routed
    · exact before key item hr
  case deleteExpired =>
    intro hr
    rw [Store.get?_act_deleteExpired] at hr
    exact before key item (Option.filter_eq_some_iff.1 hr).1
  case flush =>
    intro hr
    cases hr
  case load => exact fun source incoming hl hr => merged hr
  case merge => exact fun incoming hr => merged hr

theorem Placed.visit (h : space.Placed) (now : Instant) (action : StoreAction) (index : Nat) :
    (space.visit now action index).Placed := by
  intro i store hs key item hr
  rw [bucket, length_stores_visit]
  exact Each.visit h (fun i store part hp before => routed_part hp before) index i store hs key item
    hr

/-- No key is in two stores. -/
theorem Placed.distinct (h : space.Placed) : Table.Distinct (allEntries space.stores) := by
  refine List.pairwise_flatMap.2 ⟨fun store _ => Table.Ascending.distinct store.items.ascending, ?_⟩
  rw [List.pairwise_iff_getElem]
  intro i j hi hj lt p hp q hq same
  have pi := h i _ (List.getElem?_eq_getElem hi) p.1 p.2 (Table.get?_eq_some_iff.2 hp)
  have qj := h j _ (List.getElem?_eq_getElem hj) q.1 q.2 (Table.get?_eq_some_iff.2 hq)
  rw [same, qj] at pi
  exact Nat.ne_of_gt lt pi

/-- In whatever order stores are put together, nothing is lost or overwritten. -/
theorem Placed.perm_gather (h : space.Placed) {order : List Store}
    (p : order.Perm space.stores) : (gather order).entries.Perm (allEntries order) := by
  rw [gather_eq]
  exact Table.perm_ofList (h.distinct.perm (p.flatMap_right _).symm)

theorem Placed.gather_eq_items (h : space.Placed) {order : List Store}
    (p : order.Perm space.stores) : gather order = space.items := by
  rw [gather_eq]
  refine Table.ofList_eq_of_perm ((p.flatMap_right _).trans ?_)
  rw [items_eq_gather]
  exact (h.perm_gather (List.Perm.refl _)).symm

/-- What is found under a key among all items is what is found in the home of the key. -/
theorem Placed.get?_items (h : space.Placed) (key : String) :
    space.items.get? key = (space.home key).items.get? key := by
  refine Option.ext fun item => ?_
  rw [items_eq_gather, Table.get?_eq_some_iff, (h.perm_gather (List.Perm.refl _)).mem_iff,
    mem_allEntries]
  constructor
  · rintro ⟨store, hm, hr⟩
    obtain ⟨i, hs⟩ := List.mem_iff_getElem?.1 hm
    obtain rfl := h i store hs key item hr
    obtain rfl := Option.some.inj (hs.symm.trans (space.getElem?_bucket key))
    exact hr
  · exact fun hr => ⟨_, List.mem_of_getElem? (space.getElem?_bucket key), hr⟩

end KeySpace

theorem Cache.placed_through {cache : Cache} (h : cache.space.Placed)
    (steps : List (Instant × CacheStep)) : (cache.through steps).space.Placed :=
  through_keeps_all (fun _ now action index h => h.visit now action index) steps h

/-! ## Routing what is loaded -/

namespace ShardedStore

/-- Puts each entry into the table at the index that its key is routed to. There is no result if
an entry has no such index. -/
def scatter? (count : Nat) :
    List (String × Item) → List (Table Item) → Option (List (Table Item))
  | [], tables => some tables
  | (key, item) :: rest, tables =>
    (Routing.bucket? key count).bind fun bucket =>
      tables[bucket]?.bind fun table =>
        scatter? count rest (tables.set bucket (table.insert key item))

/-- Merges each table into the store at its place; gives the numbers of items taken in. -/
def mergeEach (now : Instant) (tables : List (Table Item)) (stores : List Store) :
    List (Nat × Store) :=
  (tables.zip stores).map fun p => p.2.merge now p.1

theorem bucket?_eq {count : Nat} (count_pos : 0 < count) (key : String) :
    Routing.bucket? key count = some (Routing.bucket key count) :=
  if_neg (Nat.ne_of_gt count_pos)

/-- Each table takes the entries that are routed to its index, in their order. -/
theorem scatter?_eq {count : Nat} (count_pos : 0 < count) (entries : List (String × Item))
    {tables : List (Table Item)} (len : tables.length = count) :
    scatter? count entries tables = some (tables.mapIdx fun i table =>
      table.insertMany (entries.filter fun p => Routing.bucket p.1 count == i)) := by
  induction entries generalizing tables with
  | nil =>
    have same : (tables.mapIdx fun i table => table.insertMany []) = tables :=
      List.ext_getElem (List.length_mapIdx) fun i hi hi' => List.getElem_mapIdx
    exact congrArg some same.symm
  | cons p entries ih =>
    have inside : Routing.bucket p.1 count < tables.length :=
      (Routing.bucket_lt p.1 count_pos).trans_eq len.symm
    simp only [scatter?, bucket?_eq count_pos, Option.bind_some,
      List.getElem?_eq_getElem inside]
    rw [ih ((List.length_set).trans len)]
    refine congrArg some (List.ext_getElem (by simp only [List.length_mapIdx, List.length_set])
      fun i hi hi' => ?_)
    rw [List.getElem_mapIdx, List.getElem_mapIdx, List.getElem_set, List.filter_cons]
    by_cases here : Routing.bucket p.1 count = i
    · subst here
      rw [if_pos rfl, if_pos (beq_self_eq_true _)]
      rfl
    · rw [if_neg here, if_neg (by rwa [beq_iff_eq])]

/-- Entries are put into the tables of what is routed to each store, in whatever order they come. -/
theorem scatter?_perm {count : Nat} (count_pos : 0 < count) {incoming : Table Item}
    {entries : List (String × Item)} (p : entries.Perm incoming.entries) :
    scatter? count entries (List.replicate count .empty) =
      some ((List.range count).map (incoming.routed count)) := by
  rw [scatter?_eq count_pos entries List.length_replicate]
  refine congrArg some (List.ext_getElem ?_ fun i hi hi' => ?_)
  · rw [List.length_mapIdx, List.length_replicate, List.length_map, List.length_range]
  · rw [List.getElem_mapIdx, List.getElem_replicate, List.getElem_map, List.getElem_range]
    exact Table.ofList_eq_of_perm (p.filter _)

theorem mergeEach_routed (shards : ShardedStore) (now : Instant) (incoming : Table Item) :
    mergeEach now ((List.range shards.count).map (incoming.routed shards.count))
        shards.stores.toList =
      (shards.stores.mapIdx fun index store =>
        store.merge now (shards.routed incoming index)).toList := by
  rw [Vector.toList_mapIdx]
  refine List.ext_getElem ?_ fun i hi hi' => ?_
  · simp only [mergeEach, List.length_map, List.length_zip, List.length_range, List.length_mapIdx,
      Vector.length_toList, Nat.min_self]
  · simp only [mergeEach, List.getElem_map, List.getElem_zip, List.getElem_range,
      List.getElem_mapIdx]
    rfl

/-- A load of a table is a merge of what is put into the tables of the stores, none of which is
without its store, in whatever order the entries come. -/
theorem merge_scattered (shards : ShardedStore) (now : Instant) {incoming : Table Item}
    {entries : List (String × Item)} (p : entries.Perm incoming.entries) :
    ∃ tables : List (Table Item),
      scatter? shards.count entries (.replicate shards.count .empty) = some tables ∧
      tables.length = shards.stores.toList.length ∧
      (shards.merge now incoming).1 =
        (mergeEach now tables shards.stores.toList).foldl (fun total p => total + p.1) 0 ∧
      (shards.merge now incoming).2.stores.toList =
        (mergeEach now tables shards.stores.toList).map Prod.snd := by
  refine ⟨_, scatter?_perm shards.count_pos p, ?_, ?_, ?_⟩
  · rw [List.length_map, List.length_range, Vector.length_toList]
  · rw [mergeEach_routed]
    rfl
  · rw [mergeEach_routed, ← Vector.toList_map]
    rfl

theorem getElem?_shard (shards : ShardedStore) (key : String) :
    ∃ bucket, Routing.bucket? key shards.count = some bucket ∧
      shards.stores.toList[bucket]? = some (shards.shard key) := by
  refine ⟨_, bucket?_eq shards.count_pos key, ?_⟩
  have h := (KeySpace.sharded shards).getElem?_bucket key
  rwa [KeySpace.bucket, KeySpace.stores, Vector.length_toList] at h

theorem getElem?_zero (shards : ShardedStore) :
    shards.stores.toList[0]?.map Store.lifetime = some shards.lifetime := by
  rw [Vector.getElem?_toList, Vector.getElem?_eq_getElem shards.count_pos]
  rfl

end ShardedStore

/-! ## Runs -/

namespace Cache

open ShardedStore

theorem createSharded_space {settings : Settings} {background : Bool} {reading : Nat}
    {cache : Cache} (created : createSharded settings background reading = .ok cache) :
    ∃ positive : 0 < settings.shardCount,
      cache.space = .sharded (.create settings.shardCount positive settings.lifetime) := by
  rw [createSharded] at created
  split at created
  · rename_i positive
    obtain ⟨sweeper, -, hc⟩ := bind_eq_ok_iff.1 created
    rw [← Except.ok.inj hc]
    exact ⟨positive, rfl⟩
  · cases created

/-- Shards stay as many as there are. -/
theorem through_sharded {cache : Cache} {count : Nat}
    (h : ∃ shards : ShardedStore, cache.space = .sharded shards ∧ shards.count = count)
    (steps : List (Instant × CacheStep)) :
    ∃ shards : ShardedStore, (cache.through steps).space = .sharded shards ∧
      shards.count = count := by
  refine through_keeps_all (P := fun space => ∃ shards : ShardedStore, space = .sharded shards ∧
    shards.count = count) (fun space now action index h => ?_) steps h
  obtain ⟨shards, rfl, hc⟩ := h
  exact ⟨_, rfl, hc⟩

/-- A cache is only divided among one shard or more, and after every run an item, expired or not, is
in the shard that its key is routed to and in no other.

* In whatever order the shards are put into one table, it has all of their entries and no others, as
  many as there are items in the cache.
* Every key has a shard, and there is a first shard.
* In whatever order the items of a table that comes in are put into tables for the shards, there is
  an index for each, and the merge takes each table into the shard at its place. -/
theorem keys_stay_in_their_shards {settings : Settings} {background : Bool} {reading : Nat}
    {cache : Cache} (created : createSharded settings background reading = .ok cache)
    (steps : List (Instant × CacheStep)) :
    0 < settings.shardCount ∧ ∃ shards : ShardedStore,
      (cache.through steps).space = .sharded shards ∧ shards.count = settings.shardCount ∧
      (∀ (i : Fin shards.count) (key : String) (item : Item),
        (shards.stores.get i).items.get? key = some item →
          Routing.bucket key settings.shardCount = i) ∧
      (∀ order : List Store, order.Perm shards.stores.toList →
        (gather order).entries.Perm (allEntries shards.stores.toList) ∧
        gather order = shards.collect ∧ (gather order).size = shards.size) ∧
      (∀ key, ∃ bucket, Routing.bucket? key settings.shardCount = some bucket ∧
        shards.stores.toList[bucket]? = some (shards.shard key)) ∧
      (shards.stores.toList[0]?.map Store.lifetime = some shards.lifetime) ∧
      ∀ (now : Instant) (incoming : Table Item) (entries : List (String × Item)),
        entries.Perm incoming.entries → ∃ tables : List (Table Item),
          scatter? settings.shardCount entries (.replicate settings.shardCount .empty) =
            some tables ∧
          tables.length = shards.stores.toList.length ∧
          (shards.merge now incoming).1 =
            (mergeEach now tables shards.stores.toList).foldl (fun total p => total + p.1) 0 ∧
          (shards.merge now incoming).2.stores.toList =
            (mergeEach now tables shards.stores.toList).map Prod.snd := by
  obtain ⟨positive, fresh⟩ := createSharded_space created
  obtain ⟨shards, hs, hc⟩ := through_sharded ⟨_, fresh, rfl⟩ steps
  have placed : (cache.through steps).space.Placed :=
    placed_through (fresh ▸ KeySpace.Fresh.placed (.sharded positive settings.lifetime)) steps
  rw [hs] at placed
  rw [← show shards.count = settings.shardCount from hc]
  refine ⟨shards.count_pos, shards, hs, rfl, fun i key item hr => ?_, fun order p => ?_,
    shards.getElem?_shard, shards.getElem?_zero, fun now incoming entries p =>
      shards.merge_scattered now p⟩
  · have routed := placed i (shards.stores.get i)
      (by rw [KeySpace.stores, Vector.getElem?_toList, Vector.getElem?_eq_getElem i.isLt]; rfl)
      key item hr
    rwa [KeySpace.bucket, KeySpace.stores, Vector.length_toList] at routed
  · have entries := (placed.perm_gather p).trans (p.flatMap_right _)
    exact ⟨entries, placed.gather_eq_items p, entries.length_eq.trans shards.size_eq_length.symm⟩

/-- A cache with three shards. -/
def threeShards : Cache := ⟨.sharded (.create 3 (by decide) none), ⟨none, none, []⟩, none⟩

/-- A value has expired when items of two other shards are taken in. -/
def mergedOnce : List (Instant × CacheStep) :=
  [(.nearest 0, .perform (.set "b" (.leaf (.text "v")) (.after (.ofMillis 1)))),
    (.nearest 1000001, .merge (.ofList [("a", ⟨.leaf (.text "v"), none⟩),
      ("l", ⟨.leaf (.text "v"), none⟩)]))]

theorem keys_stay_in_their_shards_once :
    createSharded (Settings.default.withShardCount 3) false 0 = .ok threeShards ∧
      ∃ shards : ShardedStore, (threeShards.through mergedOnce).space = .sharded shards ∧
        shards.size = 3 ∧ (gather shards.stores.toList.reverse).size = 3 := by
  have created : createSharded (Settings.default.withShardCount 3) false 0 = .ok threeShards := rfl
  obtain ⟨-, shards, hs, -, -, gathered, -⟩ := keys_stay_in_their_shards created mergedOnce
  obtain ⟨-, -, size⟩ := gathered _ (List.reverse_perm _)
  have three : shards.size = 3 := by
    have whole : (threeShards.through mergedOnce).space.size = 3 := by decide +kernel
    rwa [hs] at whole
  exact ⟨created, shards, hs, three, size.trans three⟩

end Cache

end ExpiringCache
