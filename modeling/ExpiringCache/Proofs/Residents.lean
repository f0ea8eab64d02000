import ExpiringCache.Proofs.Accounting
import ExpiringCache.Proofs.Steps
import ExpiringCache.Proofs.Time.Deadlines

/-!
# Nothing is stored dead

What an action leaves in a store was there before or has not expired at the reading of the clock at
which it runs (`Store.resident_act`): a value is stored with a deadline that is not before that
reading, whatever lifetime it is given and whatever the default lifetime is, an operation that finds
a live item leaves its deadline alone, and a merge takes in live items only.

So on a clock that does not go back an item that had expired before a sweep is not seen after it, in
any store, and whatever happened in between (`Cache.residents_outlast_sweep`).
-/

namespace ExpiringCache

/-! ## Items -/

namespace Item

theorem visibleAt_earlier {item : Item} {earlier now : Instant} (h : earlier ≤ now)
    (hv : item.visibleAt now = true) : item.visibleAt earlier = true := by
  rw [visibleAt_eq, Bool.not_eq_true'] at hv ⊢
  by_contra expired
  rw [Bool.not_eq_false] at expired
  rw [expired_later h expired] at hv
  cases hv

theorem visibleAt_of_live? {now : Instant} {found : Option Item} {item : Item}
    (h : live? now found = some item) : item.visibleAt now = true := by
  rw [visibleAt_eq]
  exact (Option.filter_eq_some_iff.1 h).2

theorem live?_of_visibleAt {now : Instant} {item : Item} (h : item.visibleAt now = true) :
    live? now (some item) = some item := by
  rw [visibleAt_eq] at h
  exact Option.filter_eq_some_iff.2 ⟨rfl, h⟩

end Item

/-- A deadline that is reckoned from `now` is not before `now`. -/
theorem Deadline.not_passed_of_after? {now : Instant} {time : Duration} {deadline : Deadline}
    (h : Deadline.after? now time = some deadline) : deadline.passed now = false := by
  obtain ⟨-, due, sum, rfl⟩ := after?_eq_some_iff.1 h
  rw [← Bool.not_eq_true, passed_iff (isLeap_ofInstant due), nanos_ofInstant]
  omega

theorem Item.visibleAt_create (value : Value) (lifetime : Option Duration) (now : Instant) :
    (create value lifetime now).visibleAt now = true := by
  rw [visibleAt_eq, expired, create, Bool.not_eq_true', Option.any_eq_false]
  intro deadline hd
  obtain ⟨time, -, hd⟩ := Option.bind_eq_some_iff.1 hd
  rw [Deadline.not_passed_of_after? hd]

/-! ## One action -/

/-- What an operation leaves under its key has not expired. -/
theorem KeyOperation.visibleAt_left (operation : KeyOperation) {now : Instant}
    {lifetime : Option Duration} {key : String} {found : Option Item} {item : Item}
    (h : (operation.effect now lifetime key found).left = some item) :
    item.visibleAt now = true := by
  have changed {α : Type} (reply : α → Reply) (expected : Expected)
      (change : Value → Option (Value × α)) (counted : Tally)
      (h : (Effect.modify reply key expected change counted (Item.live? now found)).left =
        some item) : item.visibleAt now = true := by
    cases hl : Item.live? now found with
    | none =>
      rw [hl] at h
      cases h
    | some live =>
      have hv := Item.visibleAt_of_live? hl
      rw [hl, Effect.modify] at h
      -- The deadline stays, and with it what is visible.
      split at h
      · exact Option.some.inj h ▸ hv
      · rw [← Option.some.inj h]
        exact hv
  cases operation with
  | get => exact Item.visibleAt_of_live? h
  | getText => exact Item.visibleAt_of_live? h
  | set value expiry =>
    rw [← Option.some.inj h]
    exact Item.visibleAt_create _ _ _
  | contains => exact Item.visibleAt_of_live? h
  | delete => cases h
  | increment delta => exact changed _ _ _ _ h
  | incrementFloat delta => exact changed _ _ _ _ h
  | decrement delta => exact changed _ _ _ _ h

namespace Store

theorem resident_merge {store : Store} {now : Instant} {incoming : Table Item} {key : String}
    {item : Item} (h : (store.act now (.merge incoming)).2.items.get? key = some item) :
    store.items.get? key = some item ∨ item.visibleAt now = true := by
  rw [get?_act_merge, Item.merged, Option.or_eq_some_iff] at h
  rcases h with live | ⟨-, h⟩
  · exact .inr (Item.visibleAt_of_live? live)
  · rcases Option.or_eq_some_iff.1 h with live | ⟨-, resident⟩
    · exact .inr (Item.visibleAt_of_live? live)
    · exact .inl resident

/-- An item in a store after an action was there before, or it has not expired. -/
theorem resident_act {store : Store} {now : Instant} (action : StoreAction) {key : String}
    {item : Item} (h : (store.act now action).2.items.get? key = some item) :
    store.items.get? key = some item ∨ item.visibleAt now = true := by
  cases action with
  | merge incoming => exact resident_merge h
  | perform operation =>
    cases operation using Operation.cases_on_key with
    | on operation key' =>
      rw [get?_act_on] at h
      split at h
      · exact .inr (operation.visibleAt_left h)
      · exact .inl h
    | deleteExpired =>
      rw [get?_act_deleteExpired] at h
      exact .inl (Option.filter_eq_some_iff.1 h).1
    | flush => cases h
    | save sink => exact .inl h
    | load source =>
      simp only [act, perform, load] at h
      cases hl : Snapshot.load source with
      | error failure =>
        rw [hl] at h
        exact .inl h
      | ok incoming =>
        rw [hl] at h
        exact resident_merge h

/-- Every item in the store has no deadline or one that is not before a reading of the clock. -/
def Reaches (store : Store) (time : Instant) : Prop :=
  ∀ key item, store.items.get? key = some item → item.visibleAt time = true

theorem Reaches.act {store : Store} {time now : Instant} (h : store.Reaches time)
    (hle : time ≤ now) (action : StoreAction) : (store.act now action).2.Reaches time := by
  intro key item hr
  rcases resident_act action hr with before | hv
  · exact h key item before
  · exact Item.visibleAt_earlier hle hv

theorem reaches_deleteExpired (store : Store) (now : Instant) :
    (store.deleteExpired now).2.Reaches now := by
  intro key item hr
  rw [get?_deleteExpired] at hr
  exact Item.visibleAt_of_live? hr

theorem Reaches.deleteExpired_count {store : Store} {now : Instant} (h : store.Reaches now) :
    (store.deleteExpired now).1 = 0 := by
  rw [ShardedStore.Divides.deleteExpired_count, List.countP_eq_zero]
  intro p hp
  have hv := h p.1 p.2 (Table.get?_eq_some_iff.2 hp)
  rw [Item.visibleAt_eq, Bool.not_eq_true'] at hv
  rw [hv]
  exact Bool.false_ne_true

end Store

/-! ## Key spaces -/

namespace KeySpace

variable {space : KeySpace} {now : Instant}

/-- Every item in every store has no deadline or one that is not before a reading of the clock. -/
def Reaches (space : KeySpace) (time : Instant) : Prop := ∀ store ∈ space.stores, store.Reaches time

theorem Reaches.visit {time : Instant} (h : space.Reaches time) (hle : time ≤ now)
    (action : StoreAction) (index : Nat) : (space.visit now action index).Reaches time := by
  have each : space.Each fun _ store => store.Reaches time := fun i store hs =>
    h store (List.mem_of_getElem? hs)
  intro store hm
  obtain ⟨i, hs⟩ := List.mem_iff_getElem?.1 hm
  exact each.visit (fun _ _ part _ hr => hr.act hle part) index i store hs

theorem reaches_sweep (space : KeySpace) (now : Instant) : (space.sweep now).2.Reaches now := by
  intro store hm
  rw [stores_sweep] at hm
  obtain ⟨before, -, rfl⟩ := List.mem_map.1 hm
  exact before.reaches_deleteExpired now

theorem Reaches.sweep_count (h : space.Reaches now) : (space.sweep now).1 = 0 := by
  cases space with
  | single store => exact (h store (List.mem_singleton.2 rfl)).deleteExpired_count
  | sharded shards =>
    show (shards.stores.map fun store => store.deleteExpired now).toList.foldl
      (fun total p => total + p.1) 0 = 0
    rw [foldl_add_toList]
    refine Finset.sum_eq_zero fun i _ => ?_
    rw [Fin.getElem_fin, Vector.getElem_map]
    exact (h _ (Vector.mem_toList_iff.2 (Vector.getElem_mem i.isLt))).deleteExpired_count

theorem perform_deleteExpired (space : KeySpace) (now : Instant) :
    (space.perform now .deleteExpired).1.result = .ok (.count (space.sweep now).1) := by
  cases space <;> rfl

theorem get?_home_set (space : KeySpace) (now : Instant) (key : String) (value : Value)
    (expiry : Expiry) :
    ((space.perform now (.set key value expiry)).2.home key).items.get? key =
      some (.create value (expiry.resolve (space.home key).lifetime) now) := by
  have stored := space.home_perform_on now key key (.set value expiry)
  rw [if_pos rfl, KeyOperation.on] at stored
  rw [stored]
  exact (Store.get?_set _ _ _ _ _ _).trans (if_pos rfl)

/-- A merge takes in the items that are live and whose keys hold no live item at home. -/
theorem merge_count (space : KeySpace) (now : Instant) (incoming : Table Item) :
    (space.merge now incoming).1 = incoming.entries.countP fun p =>
      Item.admitted now ((space.home p.1).items.get? p.1) p.2 := by
  cases space with
  | single store => exact store.merge_count now incoming
  | sharded shards => exact shards.merge_count now incoming

end KeySpace

theorem Item.admitted_eq (now : Instant) (resident : Option Item) (incoming : Item) :
    Item.admitted now resident incoming =
      (incoming.visibleAt now && !resident.any fun item => item.visibleAt now) := by
  rw [Item.admitted, Item.any_visibleAt, Item.visibleAt_eq, Option.not_isSome]

/-! ## Runs -/

namespace Cache

/-- The step is a sweep: a call that removes expired items, or a tick of the sweeper that is due. -/
def Sweeps (cache : Cache) : CacheStep → Prop
  | .perform .deleteExpired => True
  | .ticks reading => ∃ sweeper, cache.sweeper = some sweeper ∧ 0 < sweeper.due reading
  | _ => False

variable {cache : Cache}

theorem Sweeps.reaches {step : CacheStep} (h : cache.Sweeps step) (now : Instant) :
    (cache.step now step).space.Reaches now := by
  cases step with
  | perform operation =>
    cases operation with
    | deleteExpired =>
      show (cache.space.perform now .deleteExpired).2.Reaches now
      rw [← KeySpace.sweep_eq]
      exact cache.space.reaches_sweep now
    | _ => exact h.elim
  | ticks reading =>
    obtain ⟨sweeper, hs, due⟩ := h
    obtain ⟨n, hn⟩ := Nat.exists_eq_succ_of_ne_zero (Nat.ne_of_gt due)
    show (cache.sweepDue now reading).2.space.Reaches now
    simp only [sweepDue, hs, hn]
    exact @sweepTicks_keeps (fun space => space.Reaches now) now
      (fun space _ => space.reaches_sweep now) reading (sweeper.tick reading) n
      { cache with space := (cache.space.sweep now).2 } (cache.space.reaches_sweep now)
  | _ => exact h.elim

theorem reaches_through {time : Instant} {steps : List (Instant × CacheStep)}
    (later : ∀ p ∈ steps, time ≤ p.1) (h : cache.space.Reaches time) :
    (cache.through steps).space.Reaches time :=
  through_keeps (P := fun space => space.Reaches time) (fun now _ => time ≤ now)
    (fun _ _ _ action index hle h => h.visit hle action index)
    (fun p hp => CacheStep.within_of_forall (fun _ => later p hp) p.2) h

/-- An item that is in a store after a step was in that store before, or has not expired. -/
theorem resident_step (cache : Cache) (now : Instant) (step : CacheStep) {i : Nat} {store : Store}
    (hs : (cache.step now step).space.stores[i]? = some store) {key : String} {item : Item}
    (resident : store.items.get? key = some item) :
    (∃ before, cache.space.stores[i]? = some before ∧ before.items.get? key = some item) ∨
      item.visibleAt now = true := by
  have kept : (cache.step now step).space.Each fun i store =>
      ∀ key item, store.items.get? key = some item →
        (∃ before, cache.space.stores[i]? = some before ∧
          before.items.get? key = some item) ∨ item.visibleAt now = true := by
    refine step_keeps (fun space action index _ each => each.visit ?_ index)
      (CacheStep.within_of_forall (fun _ => trivial) step) fun i store hs key item hr =>
        .inl ⟨store, hs, hr⟩
    intro i store part _ before key item hr
    exact (Store.resident_act part hr).elim (before key item) .inr
  exact kept i store hs key item resident

/-- Nothing is stored that has expired.

* After a sweep, the last one as any before it, every item in every store has no deadline or one
  that is not before the reading of the sweep, and no second sweep at that reading removes anything.
* An item that is in a store after a step was there before, or has not expired.
* A value that is stored is under its key and has not expired, be its lifetime and the default
  lifetime what they are.
* A load takes in no item that has expired: it counts the items that have not and whose keys hold
  none that has not. -/
theorem residents_outlast_sweep (cache : Cache) {steps : List (Instant × CacheStep)}
    (ordered : (steps.map Prod.fst).Pairwise (· ≤ ·)) :
    let after := (cache.through steps).space
    (∀ before time sweep later, steps = before ++ (time, sweep) :: later →
      (cache.through before).Sweeps sweep →
      (∀ store ∈ after.stores, ∀ key item, store.items.get? key = some item →
        item.visibleAt time = true) ∧
      (after.sweep time).1 = 0 ∧
      (after.perform time .deleteExpired).1.result = .ok (.count 0)) ∧
    (∀ now step (i : Nat) (store : Store),
      ((cache.through steps).step now step).space.stores[i]? = some store →
      ∀ key item, store.items.get? key = some item →
        (∃ old : Store, after.stores[i]? = some old ∧ old.items.get? key = some item) ∨
          item.visibleAt now = true) ∧
    (∀ now key value expiry, ∃ item,
      ((after.perform now (.set key value expiry)).2.home key).items.get? key = some item ∧
        item.value = value ∧ item.visibleAt now = true) ∧
    ∀ now source incoming, Snapshot.load source = .ok incoming →
      (after.perform now (.load source)).1.result = .ok (.count (incoming.entries.countP fun p =>
        p.2.visibleAt now && !((after.home p.1).items.get? p.1).any fun item =>
          item.visibleAt now)) := by
  intro after
  refine ⟨fun before time sweep later hs sweeps => ?_, fun now step i store hs key item =>
    (cache.through steps).resident_step now step hs, fun now key value expiry => ?_,
    fun now source incoming hl => ?_⟩
  · have reaches : after.Reaches time := by
      rw [hs, List.map_append, List.map_cons, List.pairwise_append] at ordered
      have ahead := (List.pairwise_cons.1 ordered.2.1).1
      have whole : after = (((cache.through before).step time sweep).through later).space := by
        show (cache.through steps).space = _
        rw [hs, through_append]
        rfl
      rw [whole]
      exact reaches_through (fun p hp => ahead p.1 (List.mem_map_of_mem hp)) (sweeps.reaches time)
    refine ⟨reaches, reaches.sweep_count, ?_⟩
    rw [KeySpace.perform_deleteExpired, reaches.sweep_count]
  · exact ⟨_, after.get?_home_set now key value expiry, rfl, Item.visibleAt_create _ _ now⟩
  · rw [KeySpace.perform_load, hl]
    simp only [KeySpace.merge_count, Item.admitted_eq]

/-- Two shards, with a default lifetime of zero. -/
def zeroLifetime : Cache :=
  ⟨.sharded (.create 2 Nat.two_pos (some .zero)), ⟨none, none, []⟩, none⟩

/-- Of two values one has expired when a sweep comes; a third is stored after it. -/
def sweptOnce : List (Instant × CacheStep) :=
  [(.nearest 0, .perform (.set "k" (.leaf (.text "v")) (.after (.ofMillis 1)))),
    (.nearest 0, .perform (.set "l" (.leaf (.text "v")) (.after .zero))),
    (.nearest 1000001, .perform .deleteExpired),
    (.nearest 1000001, .perform (.set "m" (.leaf (.text "v")) (.after (.ofMillis 1))))]

theorem residents_outlast_sweep_once :
    let after := (zeroLifetime.through sweptOnce).space
    (sweptOnce.map Prod.fst).Pairwise (· ≤ ·) ∧ after.size = 2 ∧
      (∀ store ∈ after.stores, ∀ key item, store.items.get? key = some item →
        item.visibleAt (.nearest 1000001) = true) ∧
      (after.sweep (.nearest 1000001)).1 = 0 := by
  intro after
  have ordered : (sweptOnce.map Prod.fst).Pairwise (· ≤ ·) := by decide
  obtain ⟨swept, -⟩ := residents_outlast_sweep zeroLifetime ordered
  obtain ⟨reaches, none_left, -⟩ := swept (sweptOnce.take 2) _ _ (sweptOnce.drop 3) rfl trivial
  exact ⟨ordered, by decide +kernel, reaches, none_left⟩

end Cache

end ExpiringCache
