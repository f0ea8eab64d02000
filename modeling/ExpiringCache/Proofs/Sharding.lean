import ExpiringCache.Cache
import ExpiringCache.Proofs.Merging
import Mathlib.Algebra.BigOperators.Fin

/-!
# Sharded stores as single stores

Shards divide a store (`ShardedStore.Divides`) if each has the items of the store that are routed
to it, all have its default lifetime, and their counts add up to its counts. Then sizes and
statistics add up too and the items of the shards together are those of the store (`size_eq`,
`tally_eq`, `collect_eq`).

An operation on one key has the same effect on the shard of the key as on the store
(`perform_on_divides`). An operation on the whole key space works shard by shard, and what it
counts adds up, since each key is routed to one shard (`sum_countP_routed`). So shards that divide
a store still divide it after every operation, with the same outcome (`perform_divides`), and what
can be seen of a sharded cache is what can be seen of a single one
(`Cache.sharded_observed_as_single`).
-/

namespace ExpiringCache

/-! ## Sums over shards -/

namespace Tally

instance : Zero Tally := ⟨zero⟩

instance : Add Tally := ⟨add⟩

instance : AddCommMonoid Tally where
  add_assoc := add_assoc
  zero_add a := by
    show add zero a = a
    simp only [add, zero, Nat.zero_add]
  add_zero := add_zero
  add_comm a b := by
    show add a b = add b a
    simp only [add, Nat.add_comm]
  nsmul := nsmulRec

theorem add_def (a b : Tally) : a + b = a.add b := rfl

theorem sum_withEntries {n : Nat} (counts : Fin n → Tally) (entries : Fin n → Nat) :
    ∑ i, (counts i).withEntries (entries i) = (∑ i, counts i).withEntries (∑ i, entries i) := by
  induction n with
  | zero => rfl
  | succ n ih =>
    rw [Fin.sum_univ_succ, Fin.sum_univ_succ, Fin.sum_univ_succ, ih]
    rfl

theorem sum_expire {n : Nat} (counts : Fin n → Tally) (removed : Fin n → Nat) :
    ∑ i, (counts i).expire (removed i) = (∑ i, counts i).expire (∑ i, removed i) := by
  induction n with
  | zero => rfl
  | succ n ih =>
    rw [Fin.sum_univ_succ, Fin.sum_univ_succ, Fin.sum_univ_succ, ih]
    simp only [add_def, expire, add, Nat.add_assoc, Nat.add_left_comm]

end Tally

theorem foldl_add_toList {α M : Type} [AddCommMonoid M] {n : Nat} (v : Vector α n)
    (f : α → M) : v.toList.foldl (fun total a => total + f a) 0 = ∑ i : Fin n, f v[i] := by
  rw [← List.foldl_map, ← List.sum_eq_foldl, ← List.sum_ofFn]
  congr 1
  refine List.ext_getElem (by simp) fun i h h' => ?_
  simp

/-- Each of the things counted is routed to one shard. -/
theorem sum_countP_routed {α : Type} {n : Nat} (l : List α) (f : α → Bool) (bucket : α → Fin n) :
    ∑ i, l.countP (fun x => f x && decide (bucket x = i)) = l.countP f := by
  induction l with
  | nil => simp
  | cons x l ih =>
    simp only [List.countP_cons, Finset.sum_add_distrib, ih, Bool.and_eq_true, decide_eq_true_eq]
    cases f x <;> simp

/-! ## Routed tables -/

/-- The items that are routed to the store with an index, if there are `count` stores. -/
def Table.routed (incoming : Table Item) (count index : Nat) : Table Item :=
  incoming.filter fun key _ => Routing.bucket key count == index

theorem Table.get?_routed (incoming : Table Item) (count index : Nat) (key : String) :
    (incoming.routed count index).get? key =
      if Routing.bucket key count = index then incoming.get? key else none := by
  rw [routed, get?_filter]
  cases incoming.get? key with
  | none => exact (ite_self _).symm
  | some item =>
    rw [Option.filter_some]
    simp only [beq_iff_eq]

/-- A merge takes in the items that are live and whose keys hold no live item in their shard. -/
theorem ShardedStore.merge_count (shards : ShardedStore) (now : Instant) (incoming : Table Item) :
    (shards.merge now incoming).1 = incoming.entries.countP fun p =>
      Item.admitted now ((shards.shard p.1).items.get? p.1) p.2 := by
  show (shards.stores.mapIdx fun index store =>
    store.merge now (shards.routed incoming index)).toList.foldl
      (fun total p => total + p.1) 0 = _
  rw [foldl_add_toList, ← sum_countP_routed incoming.entries
    (fun p => Item.admitted now ((shards.shard p.1).items.get? p.1) p.2)
    fun p => shards.bucket p.1]
  refine Finset.sum_congr rfl fun i _ => ?_
  rw [Fin.getElem_fin, Vector.getElem_mapIdx, Store.merge_count, routed, Table.filter,
    List.countP_filter]
  refine List.countP_congr fun p _ => ?_
  simp only [Bool.and_eq_true, beq_iff_eq, decide_eq_true_eq, Fin.ext_iff]
  refine and_congr_left fun here => ?_
  rw [shard, Fin.getElem_fin]
  simp only [here]

/-! ## Division -/

namespace ShardedStore

/-- The shards have the items of the store between them. -/
structure Divides (shards : ShardedStore) (store : Store) : Prop where
  /-- An item is in the shard that its key is routed to. -/
  get? : ∀ (i : Fin shards.count) (key : String),
    shards.stores[i].items.get? key =
      if shards.bucket key = i then store.items.get? key else none
  /-- The default lifetime is that of the store. -/
  lifetime : ∀ i : Fin shards.count, shards.stores[i].lifetime = store.lifetime
  /-- The counts add up. -/
  counts : ∑ i : Fin shards.count, shards.stores[i].counts = store.counts

variable {shards : ShardedStore} {store : Store}

theorem getElem_create {count : Nat} (count_pos : 0 < count) (lifetime : Option Duration)
    (i : Fin (create count count_pos lifetime).count) :
    (create count count_pos lifetime).stores[i] = .create lifetime :=
  Vector.getElem_replicate i.isLt

theorem create_divides {count : Nat} (count_pos : 0 < count) (lifetime : Option Duration) :
    (create count count_pos lifetime).Divides (.create lifetime) where
  get? i key := by
    rw [getElem_create]
    exact (ite_self _).symm
  lifetime i := by rw [getElem_create]
  counts := by
    simp only [getElem_create]
    exact Finset.sum_const_zero

namespace Divides

theorem items_eq (h : shards.Divides store) (i : Fin shards.count) :
    shards.stores[i].items = store.items.filter fun key _ => decide (shards.bucket key = i) := by
  refine Table.ext fun key => ?_
  rw [h.get?, Table.get?_filter]
  cases store.items.get? key with
  | none => exact ite_self _
  | some item =>
    rw [Option.filter_some]
    simp only [decide_eq_true_eq]

/-- What is counted in the shards adds up to what is counted in the store. -/
theorem sum_countP (h : shards.Divides store) (f : String × Item → Bool) :
    ∑ i : Fin shards.count, shards.stores[i].items.entries.countP f =
      store.items.entries.countP f := by
  rw [← sum_countP_routed store.items.entries f fun p => shards.bucket p.1]
  refine Finset.sum_congr rfl fun i _ => ?_
  rw [h.items_eq i, Table.filter, List.countP_filter]

theorem sum_size (h : shards.Divides store) :
    ∑ i : Fin shards.count, shards.stores[i].size = store.size := by
  have := h.sum_countP fun _ => true
  simp only [List.countP_true] at this
  exact this

theorem size_eq (h : shards.Divides store) : shards.size = store.size := by
  rw [ShardedStore.size, foldl_add_toList, h.sum_size]

theorem isEmpty_eq (h : shards.Divides store) : shards.isEmpty = (store.size == 0) := by
  have he : shards.isEmpty = true ↔ store.size = 0 := by
    rw [ShardedStore.isEmpty, ← h.sum_size, Finset.sum_eq_zero_iff, List.all_eq_true]
    simp only [Vector.mem_toList_iff, Vector.mem_iff_getElem, forall_exists_index,
      Finset.mem_univ, true_imp_iff, Fin.forall_iff, Fin.getElem_fin, beq_iff_eq]
    exact ⟨fun e i hi => e _ i hi rfl, fun e _ i hi hs => hs ▸ e i hi⟩
  rw [Bool.eq_iff_iff, he, beq_iff_eq]

theorem tally_eq (h : shards.Divides store) : shards.tally = store.tally := by
  have hs : shards.tally = ∑ i : Fin shards.count, shards.stores[i].tally := by
    rw [← foldl_add_toList, ← List.foldl_map]
    rfl
  rw [hs, Store.tally, ← h.counts, ← h.sum_size, ← Tally.sum_withEntries]
  rfl

/-- Of the tables put together, those that have something under a key have the same. -/
theorem get?_foldl_extend {key : String} {found : Option Item} (stores : List Store)
    (hs : ∀ s ∈ stores, s.items.get? key = none ∨ s.items.get? key = found) (items : Table Item) :
    (stores.foldl (fun items s => items.extend s.items) items).get? key = found ∨
      (∀ s ∈ stores, s.items.get? key = none) ∧
        (stores.foldl (fun items s => items.extend s.items) items).get? key = items.get? key := by
  induction stores generalizing items with
  | nil => exact .inr ⟨fun s hs => (nomatch hs), rfl⟩
  | cons s stores ih =>
    rw [List.foldl_cons]
    rcases ih (fun s' h' => hs s' (List.mem_cons_of_mem _ h')) (items.extend s.items) with
      hf | ⟨hn, hf⟩
    · exact .inl hf
    · rw [hf, Table.get?_extend]
      rcases hs s List.mem_cons_self with h0 | h1
      · rw [h0]
        exact .inr ⟨fun s' h' => (List.mem_cons.1 h').elim (fun e => e ▸ h0) (hn s'), rfl⟩
      · cases found with
        | none => exact .inr ⟨fun s' h' => (List.mem_cons.1 h').elim (fun e => e ▸ h1) (hn s'),
            by rw [h1]; rfl⟩
        | some item => exact .inl (by rw [h1]; rfl)

theorem collect_eq (h : shards.Divides store) : shards.collect = store.items := by
  refine Table.ext fun key => ?_
  have hs : ∀ s ∈ shards.stores.toList,
      s.items.get? key = none ∨ s.items.get? key = store.items.get? key := by
    intro s hm
    obtain ⟨i, hi, rfl⟩ := List.getElem_of_mem hm
    have hi' : i < shards.count := by simpa using hi
    rw [Vector.getElem_toList]
    have := h.get? ⟨i, hi'⟩ key
    rw [Fin.getElem_fin] at this
    rw [this]
    split
    · exact .inr rfl
    · exact .inl rfl
  rcases get?_foldl_extend _ hs .empty with hf | ⟨hn, hf⟩
  · exact hf
  · -- The shard of the key has nothing under it, so neither has the store.
    have hm : shards.stores[shards.bucket key] ∈ shards.stores.toList := by
      rw [Fin.getElem_fin, ← Vector.getElem_toList (by simp)]
      exact List.getElem_mem _
    have := h.get? (shards.bucket key) key
    rw [if_pos rfl, hn _ hm] at this
    rw [← this]
    exact hf

/-! ## One operation -/

theorem of_stores {stores : Vector Store shards.count}
    (hg : ∀ (i : Fin shards.count) (key : String), stores[i].items.get? key =
      if shards.bucket key = i then store.items.get? key else none)
    (hl : ∀ i : Fin shards.count, stores[i].lifetime = store.lifetime)
    (hc : ∑ i : Fin shards.count, stores[i].counts = store.counts) :
    Divides { shards with stores := stores } store := ⟨hg, hl, hc⟩

theorem getElem_set_bucket (shards : ShardedStore) (key : String) (one : Store)
    (i : Fin shards.count) :
    (shards.stores.set (shards.bucket key) one (shards.bucket key).isLt)[i] =
      if shards.bucket key = i then one else shards.stores[i] := by
  rw [Fin.getElem_fin, Vector.getElem_set]
  simp only [Fin.ext_iff, Fin.getElem_fin]

/-- An effect on the shard of a key is the effect on the store. -/
theorem setShard_apply (h : shards.Divides store) (key : String) (effect : Effect) :
    (shards.setShard key ((shards.shard key).apply key effect).2).Divides
      (store.apply key effect).2 := by
  refine of_stores (fun i key' => ?_) (fun i => ?_) ?_
  · simp only [getElem_set_bucket, Store.apply, Table.get?_put]
    by_cases e : shards.bucket key = i
    · rw [if_pos e]
      simp only [Table.get?_put, shard, h.get?, e]
      by_cases ek : key = key'
      · rw [if_pos ek, if_pos ek, ← ek, if_pos e]
      · rw [if_neg ek, if_neg ek]
    · rw [if_neg e, h.get?]
      by_cases ek : key = key'
      · rw [← ek, if_neg e, if_neg e]
      · rw [if_neg ek]
  · rw [getElem_set_bucket]
    split
    · exact h.lifetime (shards.bucket key)
    · exact h.lifetime i
  · -- Only the shard of the key counts anything.
    have hi : ∀ i : Fin shards.count,
        (shards.stores.set (shards.bucket key) ((shards.shard key).apply key effect).2)[i].counts =
          shards.stores[i].counts + if shards.bucket key = i then effect.counted else 0 := by
      intro i
      rw [getElem_set_bucket]
      split
      · rename_i e
        rw [← e]
        rfl
      · exact (add_zero _).symm
    simp only [hi, Finset.sum_add_distrib, Finset.sum_ite_eq, Finset.mem_univ, if_true, h.counts]
    rfl

theorem perform_on_divides (h : shards.Divides store) (now : Instant) (key : String)
    (operation : KeyOperation) :
    (shards.perform now (operation.on key)).1 = (store.perform now (operation.on key)).1 ∧
      (shards.perform now (operation.on key)).2.Divides
        (store.perform now (operation.on key)).2 := by
  have hr : shards.perform now (operation.on key) =
      shards.route key fun one => one.perform now (operation.on key) := by
    cases operation <;> rfl
  have hg : (shards.shard key).items.get? key = store.items.get? key := by
    rw [shard, h.get?, if_pos rfl]
  have hl : (shards.shard key).lifetime = store.lifetime := h.lifetime (shards.bucket key)
  simp only [hr, route, Store.perform_on, hg, hl]
  exact ⟨rfl, h.setShard_apply key _⟩

theorem deleteExpired_count (s : Store) (now : Instant) :
    (s.deleteExpired now).1 = s.items.entries.countP fun p => p.2.expired now := by
  have h := List.length_eq_countP_add_countP (fun p : String × Item => p.2.expired now)
    (l := s.items.entries)
  simp only [Bool.not_eq_true, Bool.decide_eq_false] at h
  simp only [Store.deleteExpired, Table.size, Table.filter, ← List.countP_eq_length_filter]
  omega

theorem deleteExpired_divides (h : shards.Divides store) (now : Instant) :
    (shards.deleteExpired now).1 = (store.deleteExpired now).1 ∧
      (shards.deleteExpired now).2.Divides (store.deleteExpired now).2 := by
  refine ⟨?_, of_stores (fun i key => ?_) (fun i => ?_) ?_⟩
  · rw [deleteExpired, foldl_add_toList, deleteExpired_count, ← h.sum_countP]
    simp only [Fin.getElem_fin, Vector.getElem_map, deleteExpired_count]
  · simp only [Fin.getElem_fin, Vector.getElem_map, Store.get?_deleteExpired]
    rw [← Fin.getElem_fin, h.get?]
    split <;> rfl
  · simp only [Fin.getElem_fin, Vector.getElem_map]
    exact h.lifetime i
  · simp only [Fin.getElem_fin, Vector.getElem_map]
    show ∑ i : Fin shards.count,
        shards.stores[i].counts.expire (shards.stores[i].deleteExpired now).1 =
      store.counts.expire (store.deleteExpired now).1
    rw [Tally.sum_expire, h.counts]
    simp only [deleteExpired_count, h.sum_countP]

theorem flush_divides (h : shards.Divides store) : shards.flush.Divides store.flush := by
  refine of_stores (fun i key => ?_) (fun i => ?_) ?_
  · simp only [Fin.getElem_fin, Vector.getElem_map]
    exact (ite_self _).symm
  · simp only [Fin.getElem_fin, Vector.getElem_map]
    exact h.lifetime i
  · simp only [Fin.getElem_fin, Vector.getElem_map]
    exact h.counts

theorem get?_routed (shards : ShardedStore) (incoming : Table Item) (i : Fin shards.count)
    (key : String) :
    (shards.routed incoming i).get? key =
      if shards.bucket key = i then incoming.get? key else none := by
  simp only [Fin.ext_iff]
  exact incoming.get?_routed shards.count i key

theorem merge_divides (h : shards.Divides store) (now : Instant) (incoming : Table Item) :
    (shards.merge now incoming).1 = (store.merge now incoming).1 ∧
      (shards.merge now incoming).2.Divides (store.merge now incoming).2 := by
  refine ⟨?_, of_stores (fun i key => ?_) (fun i => ?_) ?_⟩
  · rw [merge_count, Store.merge_count]
    refine List.countP_congr fun p _ => ?_
    rw [shard, h.get?, if_pos rfl]
  · simp only [Fin.getElem_fin, Vector.getElem_map, Vector.getElem_mapIdx, Store.get?_merge]
    rw [← Fin.getElem_fin, h.get?, get?_routed]
    split <;> rfl
  · simp only [Fin.getElem_fin, Vector.getElem_map, Vector.getElem_mapIdx, Store.merge_frame]
    exact h.lifetime i
  · simp only [Fin.getElem_fin, Vector.getElem_map, Vector.getElem_mapIdx, Store.merge_frame]
    exact h.counts

/-- Shards that divide a store divide it after every operation, with the same outcome. -/
theorem perform_divides (h : shards.Divides store) (now : Instant) (operation : Operation) :
    (shards.perform now operation).1 = (store.perform now operation).1 ∧
      (shards.perform now operation).2.Divides (store.perform now operation).2 := by
  cases operation using Operation.cases_on_key with
  | on operation key => exact h.perform_on_divides now key operation
  | deleteExpired =>
    obtain ⟨hc, hd⟩ := h.deleteExpired_divides now
    exact ⟨congrArg (fun count => Outcome.of .count (.ok count)) hc, hd⟩
  | flush => exact ⟨rfl, h.flush_divides⟩
  | save sink =>
    refine ⟨?_, h⟩
    simp only [ShardedStore.perform, Store.perform, ShardedStore.save, Store.save, h.collect_eq]
  | load source =>
    simp only [ShardedStore.perform, Store.perform, ShardedStore.load, Store.load]
    cases Snapshot.load source with
    | error failure => exact ⟨rfl, h⟩
    | ok incoming =>
      obtain ⟨hc, hd⟩ := h.merge_divides now incoming
      exact ⟨congrArg (fun count => Outcome.of .count (.ok count)) hc, hd⟩

end Divides

end ShardedStore

/-! ## Runs on caches -/

/-- What can be seen of a cache at a step of a run. -/
structure Observation where
  /-- The answer or the error, with the bytes that a save has written. -/
  outcome : Outcome
  /-- The reports on the step. -/
  events : List Event
  /-- The number of items after the step. -/
  size : Nat
  /-- There are no items after the step. -/
  isEmpty : Bool
  /-- The statistics after the step. -/
  tally : Tally
  /-- The items after the step, expired ones included. -/
  items : Table Item

namespace Cache

/-- What is seen of each step of a run. -/
def observations (cache : Cache) : List (Instant × Operation) → List Observation
  | [] => []
  | (now, operation) :: rest =>
    let (outcome, events, cache) := cache.perform now operation
    ⟨outcome, events, cache.space.size, cache.space.isEmpty, cache.space.tally, cache.space.items⟩
      :: cache.observations rest

theorem observations_of_divides {shards : ShardedStore} {store : Store} (h : shards.Divides store)
    (reporter : Reporter) (sweeper sweeper' : Option Sweeper)
    (steps : List (Instant × Operation)) :
    observations ⟨.sharded shards, reporter, sweeper⟩ steps =
      observations ⟨.single store, reporter, sweeper'⟩ steps := by
  induction steps generalizing shards store with
  | nil => rfl
  | cons step steps ih =>
    obtain ⟨ho, hd⟩ := h.perform_divides step.1 step.2
    simp only [observations, perform, KeySpace.perform, KeySpace.size, KeySpace.isEmpty,
      KeySpace.tally, KeySpace.items, ho, hd.size_eq, hd.isEmpty_eq, hd.tally_eq, hd.collect_eq,
      ih hd]

/-- Of a fresh cache with any number of shards and of a fresh one without, neither of them swept
in the background, the same is seen at every step of every run: outcomes and reports, and then
sizes, statistics and items. Both write entries in key order, so that the first key whose value
cannot be written is the same too. -/
theorem sharded_observed_as_single (settings : Settings) (background : Bool) (reading : Nat)
    (positive : 0 < settings.shardCount)
    (unswept : Duration.nonzero? settings.interval = none) :
    ∃ sharded single, createSharded settings background reading = .ok sharded ∧
      createSingle settings background reading = .ok single ∧
      ∀ steps, sharded.observations steps = single.observations steps := by
  have hh : hire settings background reading = .ok none := by
    rw [hire]
    split
    · rfl
    · rename_i asked
      rw [unswept] at asked
      cases asked
  refine ⟨_, _, ?_, ?_, fun steps => observations_of_divides
    (ShardedStore.create_divides positive settings.lifetime) settings.reporter none none steps⟩
  · rw [createSharded, dif_pos positive, hh]
    rfl
  · rw [createSingle, hh]
    rfl

theorem sharded_observed_as_single_default :
    (0 < Settings.default.shardCount ∧ Duration.nonzero? Settings.default.interval = none) ∧
      ∃ sharded single, createSharded .default false 0 = .ok sharded ∧
        createSingle .default false 0 = .ok single ∧
        ∀ steps, sharded.observations steps = single.observations steps :=
  ⟨⟨by decide, by decide⟩, sharded_observed_as_single .default false 0 (by decide) (by decide)⟩

end Cache

end ExpiringCache
