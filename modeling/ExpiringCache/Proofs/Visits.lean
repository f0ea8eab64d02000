import ExpiringCache.Proofs.KeySpaces

/-!
# Store by store

An action on a whole key space is not done at one go. It visits the stores one at a time, and
others may be at work between two of its visits. What it does in a store is an action on that store
(`StoreAction.part?`): an operation on a key is carried out in the store that the key is routed to,
expired or all items are removed from every store, and a load merges into every store the items that
are routed there.

`KeySpace.visit` is one visit. The visits in turn make up the action (`KeySpace.act_eq_visits`), so
what every visit keeps is kept by whole actions, by sweeps in the background and by all else that
happens to a cache (`Cache.step_keeps`), with the visits of several actions in any order.

An operation on a key is carried out in the store that is the key's home
(`KeySpace.outcome_perform_on`, `KeySpace.home_perform_on`).
-/

namespace ExpiringCache

/-! ## Parts of an action -/

/-- The key that an operation is on. -/
def Operation.key? : Operation → Option String
  | .get key | .getText key | .set key _ _ | .contains key | .delete key | .increment key _
  | .incrementFloat key _ | .decrement key _ => some key
  | .deleteExpired | .flush | .save _ | .load _ => none

/-- What an action does in the store with an index, if there are `count` stores. A save only copies
what is there, and the source of a load is read before any store is visited. -/
def StoreAction.part? (count index : Nat) : StoreAction → Option StoreAction
  | .merge incoming => some (.merge (incoming.routed count index))
  | .perform (.load source) =>
    (Snapshot.load source).toOption.map fun incoming => .merge (incoming.routed count index)
  | .perform (.save _) => none
  | .perform operation =>
    if operation.key?.all fun key => Routing.bucket key count == index then
      some (.perform operation)
    else none

/-- The store after its part in an action. -/
def Store.undergo (store : Store) (now : Instant) : Option StoreAction → Store
  | none => store
  | some action => (store.act now action).2

namespace StoreAction

theorem part?_on (operation : KeyOperation) (key : String) (count index : Nat) :
    (perform (operation.on key)).part? count index =
      if Routing.bucket key count = index then some (.perform (operation.on key)) else none := by
  have h : (perform (operation.on key)).part? count index =
      if Routing.bucket key count == index then some (.perform (operation.on key)) else none := by
    cases operation <;> rfl
  rw [h]
  simp only [beq_iff_eq]

theorem part?_load (source : Source) (count index : Nat) :
    (perform (.load source)).part? count index =
      (Snapshot.load source).toOption.map fun incoming => .merge (incoming.routed count index) := rfl

/-- All that can be the part of an action in a store. -/
theorem part?_cases {count index : Nat} {motive : StoreAction → StoreAction → Prop}
    (on : ∀ (operation : KeyOperation) (key : String), Routing.bucket key count = index →
      motive (.perform (operation.on key)) (.perform (operation.on key)))
    (deleteExpired : motive (.perform .deleteExpired) (.perform .deleteExpired))
    (flush : motive (.perform .flush) (.perform .flush))
    (load : ∀ source incoming, Snapshot.load source = .ok incoming →
      motive (.perform (.load source)) (.merge (incoming.routed count index)))
    (merge : ∀ incoming, motive (.merge incoming) (.merge (incoming.routed count index)))
    {action part : StoreAction} (h : action.part? count index = some part) :
    motive action part := by
  cases action with
  | merge incoming =>
    obtain rfl := Option.some.inj h
    exact merge incoming
  | perform operation =>
    cases operation using Operation.cases_on_key with
    | on operation key =>
      rw [part?_on] at h
      split at h
      · rename_i routed
        obtain rfl := Option.some.inj h
        exact on operation key routed
      · cases h
    | deleteExpired =>
      obtain rfl := Option.some.inj h
      exact deleteExpired
    | flush =>
      obtain rfl := Option.some.inj h
      exact flush
    | save sink => cases h
    | load source =>
      rw [part?_load] at h
      cases hl : Snapshot.load source with
      | error failure =>
        rw [hl] at h
        cases h
      | ok incoming =>
        rw [hl] at h
        obtain rfl := Option.some.inj h
        exact load source incoming hl

end StoreAction

/-- All keys are routed to the only store. -/
theorem Table.routed_one (incoming : Table Item) : incoming.routed 1 0 = incoming :=
  Table.ext fun key => by
    rw [get?_routed, if_pos (show Routing.bucket key 1 = 0 from Nat.mod_one _)]

theorem ShardedStore.val_bucket (shards : ShardedStore) (key : String) :
    (shards.bucket key : Nat) = Routing.bucket key shards.count := rfl

/-! ## What is found after an action -/

namespace Store

variable (store : Store) (now : Instant)

theorem get?_act_on (operation : KeyOperation) (key key' : String) :
    (store.act now (.perform (operation.on key))).2.items.get? key' =
      if key = key' then (operation.effect now store.lifetime key (store.items.get? key)).left
      else store.items.get? key' :=
  store.get?_perform_on now key key' operation

theorem get?_act_deleteExpired (key : String) :
    (store.act now (.perform .deleteExpired)).2.items.get? key =
      Item.live? now (store.items.get? key) :=
  store.get?_deleteExpired now key

theorem get?_act_merge (incoming : Table Item) (key : String) :
    (store.act now (.merge incoming)).2.items.get? key =
      Item.merged now (store.items.get? key) (incoming.get? key) :=
  store.get?_merge now incoming key

end Store

/-! ## Visits -/

namespace KeySpace

/-- Changes every store. -/
def mapStores (space : KeySpace) (f : Nat → Store → Store) : KeySpace :=
  match space with
  | .single store => .single (f 0 store)
  | .sharded shards => .sharded { shards with stores := shards.stores.mapIdx f }

/-- What an action does in one store, with the other stores left alone. -/
def visit (space : KeySpace) (now : Instant) (action : StoreAction) (index : Nat) : KeySpace :=
  space.mapStores fun i store =>
    if i = index then store.undergo now (action.part? space.stores.length i) else store

theorem stores_mapStores (space : KeySpace) (f : Nat → Store → Store) :
    (space.mapStores f).stores = space.stores.mapIdx f := by
  cases space with
  | single store => rfl
  | sharded shards => exact Vector.toList_mapIdx

theorem mapStores_mapStores (space : KeySpace) (f g : Nat → Store → Store) :
    (space.mapStores f).mapStores g = space.mapStores fun i store => g i (f i store) := by
  cases space with
  | single store => rfl
  | sharded shards =>
    simp only [mapStores, Vector.mapIdx_mapIdx]
    rfl

theorem mapStores_congr {space : KeySpace} {f g : Nat → Store → Store}
    (h : ∀ i store, i < space.stores.length → f i store = g i store) :
    space.mapStores f = space.mapStores g := by
  cases space with
  | single store => exact congrArg single (h 0 store Nat.one_pos)
  | sharded shards =>
    have same : shards.stores.mapIdx f = shards.stores.mapIdx g :=
      Vector.mapIdx_eq_mapIdx_iff.2 fun i hi =>
        h i _ (by rw [stores, Vector.length_toList]; exact hi)
    simp only [mapStores, same]

theorem mapStores_id (space : KeySpace) : (space.mapStores fun _ store => store) = space := by
  cases space with
  | single store => rfl
  | sharded shards =>
    have same : (shards.stores.mapIdx fun _ store => store) = shards.stores := by
      refine Vector.ext fun i hi => ?_
      rw [Vector.getElem_mapIdx]
    simp only [mapStores, same]

theorem length_stores_visit (space : KeySpace) (now : Instant) (action : StoreAction)
    (index : Nat) : (space.visit now action index).stores.length = space.stores.length := by
  rw [visit, stores_mapStores, List.length_mapIdx]

theorem getElem?_visit (space : KeySpace) (now : Instant) (action : StoreAction) (index i : Nat) :
    (space.visit now action index).stores[i]? = space.stores[i]?.map fun store =>
      if i = index then store.undergo now (action.part? space.stores.length i) else store := by
  rw [visit, stores_mapStores, List.getElem?_mapIdx]

/-- The only store does all of an action. -/
theorem undergo_only (store : Store) (now : Instant) (action : StoreAction) :
    store.undergo now (action.part? 1 0) = (store.act now action).2 := by
  cases action with
  | merge incoming => simp only [StoreAction.part?, Table.routed_one, Store.undergo]
  | perform operation =>
    cases operation using Operation.cases_on_key with
    | on operation key =>
      rw [StoreAction.part?_on, if_pos (show Routing.bucket key 1 = 0 from Nat.mod_one _)]
      rfl
    | deleteExpired => rfl
    | flush => rfl
    | save sink => rfl
    | load source =>
      rw [StoreAction.part?_load, Store.act, Store.perform, Store.load]
      cases Snapshot.load source with
      | error failure => rfl
      | ok incoming => simp only [Except.toOption, Option.map_some, Table.routed_one]; rfl

/-- Stores in shards are changed as one by one. -/
theorem sharded_eq_mapStores {shards : ShardedStore} {stores : Vector Store shards.count}
    {f : Nat → Store → Store} (h : ∀ i (hi : i < shards.count), stores[i] = f i shards.stores[i]) :
    sharded { shards with stores := stores } = (sharded shards).mapStores f := by
  have same : stores = shards.stores.mapIdx f :=
    Vector.ext fun i hi => by rw [h i hi, Vector.getElem_mapIdx]
  rw [same, mapStores]

theorem perform_on_sharded (shards : ShardedStore) (now : Instant) (key : String)
    (operation : KeyOperation) :
    (sharded shards).perform now (operation.on key) =
      (((shards.shard key).perform now (operation.on key)).1,
        .sharded (shards.setShard key ((shards.shard key).perform now (operation.on key)).2)) := by
  cases operation <;> rfl

/-- Every shard does its part in an action. -/
theorem act_sharded (shards : ShardedStore) (now : Instant) (action : StoreAction) :
    ((sharded shards).act now action).2 =
      (sharded shards).mapStores fun i store =>
        store.undergo now (action.part? shards.count i) := by
  have merged (incoming : Table Item) : sharded (shards.merge now incoming).2 =
      (sharded shards).mapStores fun i store =>
        (store.merge now (incoming.routed shards.count i)).2 :=
    sharded_eq_mapStores fun i hi => by
      rw [Vector.getElem_map, Vector.getElem_mapIdx]
      rfl
  cases action with
  | merge incoming => exact merged incoming
  | perform operation =>
    cases operation using Operation.cases_on_key with
    | on operation key =>
      have routed : ((sharded shards).act now (.perform (operation.on key))).2 =
          .sharded (shards.setShard key ((shards.shard key).perform now (operation.on key)).2) :=
        congrArg Prod.snd (perform_on_sharded shards now key operation)
      refine routed.trans (sharded_eq_mapStores fun i hi => ?_)
      rw [Vector.getElem_set, StoreAction.part?_on, ShardedStore.val_bucket]
      by_cases here : Routing.bucket key shards.count = i
      · rw [if_pos here, if_pos here]
        subst here
        rfl
      · rw [if_neg here, if_neg here]
        rfl
    | deleteExpired =>
      refine sharded_eq_mapStores fun i hi => ?_
      rw [Vector.getElem_map, Vector.getElem_map]
      rfl
    | flush =>
      refine sharded_eq_mapStores fun i hi => ?_
      rw [Vector.getElem_map]
      rfl
    | save sink => exact sharded_eq_mapStores fun i hi => rfl
    | load source =>
      simp only [StoreAction.part?_load, act, perform, ShardedStore.perform, ShardedStore.load]
      cases Snapshot.load source with
      | error failure => exact sharded_eq_mapStores fun i hi => rfl
      | ok incoming => exact merged incoming

/-- Every store does its part in an action. -/
theorem act_eq_mapStores (space : KeySpace) (now : Instant) (action : StoreAction) :
    (space.act now action).2 =
      space.mapStores fun i store => store.undergo now (action.part? space.stores.length i) := by
  cases space with
  | single store =>
    refine Eq.trans ?_ (congrArg single (undergo_only store now action).symm)
    cases action <;> rfl
  | sharded shards => rw [act_sharded, stores, Vector.length_toList]

/-- Visits in turn, each to another store, are as one change of the stores that are visited. -/
theorem foldl_visit (space : KeySpace) (now : Instant) (action : StoreAction) {indices : List Nat}
    (distinct : indices.Nodup) :
    indices.foldl (fun space index => space.visit now action index) space =
      space.mapStores fun i store =>
        if i ∈ indices then store.undergo now (action.part? space.stores.length i) else store := by
  induction indices generalizing space with
  | nil =>
    simp only [List.foldl_nil, List.not_mem_nil, if_false]
    exact space.mapStores_id.symm
  | cons index indices ih =>
    obtain ⟨fresh, distinct⟩ := List.nodup_cons.1 distinct
    rw [List.foldl_cons, ih _ distinct, length_stores_visit, visit, mapStores_mapStores]
    refine mapStores_congr fun i store _ => ?_
    by_cases here : i = index
    · rw [if_neg (here ▸ fresh), if_pos here, if_pos (List.mem_cons.2 (.inl here))]
    · simp only [List.mem_cons, here, false_or, if_false]

/-- An action is its visits to the stores, one after the other. -/
theorem act_eq_visits (space : KeySpace) (now : Instant) (action : StoreAction) :
    (space.act now action).2 = (List.range space.stores.length).foldl
      (fun space index => space.visit now action index) space := by
  rw [foldl_visit space now action List.nodup_range, act_eq_mapStores]
  exact mapStores_congr fun i store hi => by rw [if_pos (List.mem_range.2 hi)]

/-- What visits keep is kept by the action. -/
theorem act_keeps {P : KeySpace → Prop} {now : Instant} {action : StoreAction}
    (visit : ∀ space index, P space → P (space.visit now action index)) {space : KeySpace}
    (h : P space) : P (space.act now action).2 := by
  rw [act_eq_visits]
  generalize List.range space.stores.length = indices
  induction indices generalizing space with
  | nil => exact h
  | cons index indices ih => exact ih (visit space index h)

/-- Every store has a property, which may depend on its index. -/
def Each (Q : Nat → Store → Prop) (space : KeySpace) : Prop :=
  ∀ i store, space.stores[i]? = some store → Q i store

theorem Each.visit {Q : Nat → Store → Prop} {space : KeySpace} {now : Instant}
    {action : StoreAction} (h : space.Each Q)
    (part : ∀ i store part, action.part? space.stores.length i = some part → Q i store →
      Q i (store.act now part).2) (index : Nat) : (space.visit now action index).Each Q := by
  intro i store' hs
  rw [getElem?_visit, Option.map_eq_some_iff] at hs
  obtain ⟨store, hs, rfl⟩ := hs
  have before := h i store hs
  split
  · cases hp : action.part? space.stores.length i with
    | none => exact before
    | some done => exact part i store done hp before
  · exact before

/-! ## The home of a key -/

/-- The index of the store that a key is routed to. -/
def bucket (space : KeySpace) (key : String) : Nat := Routing.bucket key space.stores.length

/-- The store that a key is routed to. -/
def home : KeySpace → String → Store
  | .single store, _ => store
  | .sharded shards, key => shards.shard key

theorem getElem?_bucket (space : KeySpace) (key : String) :
    space.stores[space.bucket key]? = some (space.home key) := by
  cases space with
  | single store =>
    have first : (single store).bucket key = 0 := Nat.mod_one _
    rw [first]
    rfl
  | sharded shards =>
    have index : (sharded shards).bucket key = shards.bucket key :=
      congrArg (Routing.bucket key) Vector.length_toList
    rw [index, stores, Vector.getElem?_toList, Vector.getElem?_eq_getElem (shards.bucket key).isLt]
    rfl

theorem home_mapStores (space : KeySpace) (f : Nat → Store → Store) (key : String) :
    (space.mapStores f).home key = f (space.bucket key) (space.home key) := by
  have h := (space.mapStores f).getElem?_bucket key
  rw [bucket, stores_mapStores, List.length_mapIdx, List.getElem?_mapIdx] at h
  change (space.stores[space.bucket key]?).map _ = _ at h
  rw [getElem?_bucket] at h
  exact (Option.some.inj h).symm

/-- An operation on a key has the outcome that it has in the home of the key. -/
theorem outcome_perform_on (space : KeySpace) (now : Instant) (key : String)
    (operation : KeyOperation) :
    (space.perform now (operation.on key)).1 =
      ((space.home key).perform now (operation.on key)).1 := by
  cases space with
  | single store => rfl
  | sharded shards => exact congrArg Prod.fst (perform_on_sharded shards now key operation)

/-- An operation on a key is carried out in the store that the key is routed to. -/
theorem perform_on_eq_mapStores (space : KeySpace) (now : Instant) (key : String)
    (operation : KeyOperation) :
    (space.perform now (operation.on key)).2 = space.mapStores fun i store =>
      if space.bucket key = i then (store.perform now (operation.on key)).2 else store := by
  refine (space.act_eq_mapStores now (.perform (operation.on key))).trans ?_
  refine mapStores_congr fun i store _ => ?_
  rw [StoreAction.part?_on, bucket]
  split <;> rfl

theorem home_perform_on (space : KeySpace) (now : Instant) (key key' : String)
    (operation : KeyOperation) :
    (space.perform now (operation.on key)).2.home key' =
      if space.bucket key = space.bucket key' then
        ((space.home key').perform now (operation.on key)).2
      else space.home key' := by
  rw [perform_on_eq_mapStores, home_mapStores]

end KeySpace

end ExpiringCache
