import ExpiringCache.Proofs.Placement

/-!
# Key spaces after any run as single stores

The stores of a key space begin with one default lifetime, and no action changes it
(`KeySpace.Lives.visit`). Where besides every item is in the store that its key is routed to, the
stores divide a single store between them: the one with all their items and all their counts
(`KeySpace.Placed.holds`). So after every run, of whole actions or of single visits in any order, a
key space holds what a single store holds (`Cache.holds_through`).
-/

namespace ExpiringCache

namespace Store

theorem lifetime_act (store : Store) (now : Instant) (action : StoreAction) :
    (store.act now action).2.lifetime = store.lifetime := by
  cases action with
  | perform operation => exact store.lifetime_perform now operation
  | merge incoming => exact (store.merge_frame now incoming).1

end Store

namespace KeySpace

variable {space : KeySpace} {lifetime : Option Duration}

/-- Every store has the default lifetime. -/
def Lives (lifetime : Option Duration) (space : KeySpace) : Prop :=
  space.Each fun _ store => store.lifetime = lifetime

theorem Lives.visit (h : space.Lives lifetime) (now : Instant) (action : StoreAction)
    (index : Nat) : (space.visit now action index).Lives lifetime :=
  Each.visit h (fun _ store part _ same => (store.lifetime_act now part).trans same) index

theorem Lives.home (h : space.Lives lifetime) (key : String) :
    (space.home key).lifetime = lifetime :=
  h (space.bucket key) _ (space.getElem?_bucket key)

theorem lives_create_single (lifetime : Option Duration) :
    (single (.create lifetime)).Lives (Duration.nonzero? lifetime) := by
  intro i store hs
  obtain rfl := List.mem_singleton.1 (List.mem_of_getElem? hs)
  rfl

theorem lives_create_sharded {count : Nat} (count_pos : 0 < count) (lifetime : Option Duration) :
    (sharded (.create count count_pos lifetime)).Lives (Duration.nonzero? lifetime) := by
  intro i store hs
  have member := Vector.mem_toList_iff.1 (List.mem_of_getElem? hs)
  obtain rfl := (Vector.mem_replicate.1 member).2
  rfl

theorem Fresh.lives (h : Fresh space) : ∃ lifetime : Option Duration, space.Lives lifetime := by
  cases h with
  | single lifetime => exact ⟨_, lives_create_single lifetime⟩
  | sharded count_pos lifetime => exact ⟨_, lives_create_sharded count_pos lifetime⟩

/-- Stores of one default lifetime, with every item in the store that its key is routed to, divide a
single store between them. -/
theorem Placed.holds (placed : space.Placed) (lives : space.Lives lifetime) :
    ∃ store : Store, space.Holds store := by
  cases space with
  | single store => exact ⟨store, rfl⟩
  | sharded shards =>
    have at_index (i : Fin shards.count) :
        (sharded shards).stores[i.val]? = some shards.stores[i] := by
      rw [stores, Vector.getElem?_toList, Vector.getElem?_eq_getElem i.isLt]
      rfl
    refine ⟨⟨shards.collect, lifetime, ∑ i : Fin shards.count, shards.stores[i].counts⟩,
      fun i key => ?_, fun i => lives i _ (at_index i), rfl⟩
    have whole : shards.collect.get? key = (shards.shard key).items.get? key :=
      placed.get?_items key
    rw [whole]
    by_cases here : shards.bucket key = i
    · subst here
      rw [if_pos rfl]
      rfl
    · rw [if_neg here, Option.eq_none_iff_forall_ne_some]
      intro item found
      have routed : (sharded shards).bucket key = i := placed i _ (at_index i) key item found
      rw [bucket, stores, Vector.length_toList, ← ShardedStore.val_bucket] at routed
      exact here (Fin.ext routed)

end KeySpace

namespace Cache

variable {cache : Cache}

theorem lives_through {lifetime : Option Duration} (h : cache.space.Lives lifetime)
    (steps : List (Instant × CacheStep)) : (cache.through steps).space.Lives lifetime :=
  through_keeps_all (fun _ now action index h => h.visit now action index) steps h

/-- After every run a cache holds what a single store holds. -/
theorem holds_through (fresh : cache.space.Fresh) (steps : List (Instant × CacheStep)) :
    ∃ store : Store, (cache.through steps).space.Holds store := by
  obtain ⟨lifetime, lives⟩ := fresh.lives
  exact (placed_through fresh.placed steps).holds (lives_through lives steps)

end Cache

end ExpiringCache
