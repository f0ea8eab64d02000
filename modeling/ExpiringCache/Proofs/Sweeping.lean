import ExpiringCache.Proofs.Accounting
import Mathlib.Data.Bool.Basic

/-!
# Sweeping changes nothing

Two runs of the same operations are compared, one of them with further sweeps in between: by the
sweeper at its ticks, or by calls that remove expired items. In both the operations have the same
outcomes and the hits and misses are the same, and the items of the one are those of the other but
for some that have expired (`Cache.run_swept`).

So it is at each step (`Store.IsSwept.perform`), since an operation does with an expired item what
it does with none: what it answers and leaves depends on the live item (`KeyOperation.effect_live`,
`Item.IsSwept.merged`). The sizes and the counts of expired items follow from the balance of the
step: where an expired item would have been replaced, an item comes in anew once it has been swept,
so that no fewer items come in, and no more are flushed (`Store.IsSwept.entry_le`).
-/

namespace ExpiringCache

/-! ## Items -/

/-- What is under a key is the same, or there is nothing where without sweeps there is an expired
item. -/
def Item.IsSwept (now : Instant) (swept unswept : Option Item) : Prop :=
  swept = unswept ∨ swept = none ∧ live? now unswept = none

namespace Item

variable {now : Instant} {swept unswept : Option Item}

theorem IsSwept.refl (now : Instant) (found : Option Item) : IsSwept now found found := .inl rfl

theorem IsSwept.live_eq (h : IsSwept now swept unswept) :
    live? now swept = live? now unswept := by
  obtain rfl | ⟨rfl, hu⟩ := h
  · rfl
  · rw [hu]
    rfl

theorem IsSwept.later {later : Instant} (h : IsSwept now swept unswept) (hle : now ≤ later) :
    IsSwept later swept unswept := by
  refine h.imp id fun ⟨hs, hu⟩ => ⟨hs, ?_⟩
  rw [← live?_live? hle, hu]
  rfl

theorem IsSwept.isNone_of_isNone (h : IsSwept now swept unswept) (hu : unswept.isNone) :
    swept.isNone := by
  obtain rfl | ⟨rfl, -⟩ := h
  · exact hu
  · rfl

/-- A sweep takes away what has expired. -/
theorem IsSwept.live (h : IsSwept now swept unswept) : IsSwept now (live? now swept) unswept := by
  rw [h.live_eq]
  cases unswept with
  | none => exact .refl now none
  | some item =>
    rw [live?_some]
    split
    · rename_i he
      exact .inr ⟨rfl, by rw [live?_some, if_pos he]⟩
    · exact .refl now _

theorem IsSwept.merged (h : IsSwept now swept unswept) (incoming : Option Item) :
    IsSwept now (merged now swept incoming) (merged now unswept incoming) := by
  rw [Item.merged, Item.merged, h.live_eq]
  cases live? now unswept with
  | some item => exact .refl now _
  | none =>
    cases live? now incoming with
    | some item => exact .refl now _
    | none => exact h

end Item

/-- What an operation answers and leaves under its key depends on the live item there. -/
theorem KeyOperation.effect_live (operation : KeyOperation) {now : Instant}
    (lifetime : Option Duration) (key : String) {found found' : Option Item}
    (h : Item.live? now found = Item.live? now found') :
    (operation.effect now lifetime key found).outcome =
        (operation.effect now lifetime key found').outcome ∧
      (operation.effect now lifetime key found).left =
        (operation.effect now lifetime key found').left := by
  have modified {α : Type} (reply : α → Reply) (expected : Expected)
      (change : Value → Option (Value × α)) (live : Option Item) :
      let effect := Effect.modify reply key expected change (Item.expiry? now found) live
      let effect' := Effect.modify reply key expected change (Item.expiry? now found') live
      effect.outcome = effect'.outcome ∧ effect.left = effect'.left := by
    have hm (counted : Tally) := Effect.modify_counted reply key expected change counted live
    rw [hm (Item.expiry? now found), hm (Item.expiry? now found')]
    exact ⟨rfl, rfl⟩
  cases operation with
  | get => simp only [effect, h, and_self]
  | getText => simp only [effect, h, and_self]
  | set value expiry => simp only [effect, and_self]
  | contains => simp only [effect, h, and_self]
  | delete => simp only [effect, h, and_self]
  | increment delta =>
    simp only [effect, h]
    exact modified _ _ _ _
  | incrementFloat delta =>
    simp only [effect, h]
    exact modified _ _ _ _
  | decrement delta =>
    simp only [effect, h]
    exact modified _ _ _ _

/-! ## Stores -/

/-- The answer does not depend on expired items, as do the number of those that are removed and the
bytes of a snapshot. -/
def Operation.steady : Operation → Bool
  | .deleteExpired => false
  | .save _ => false
  | _ => true

namespace Store

/-- The store is what the other is after some sweeps more. -/
structure IsSwept (now : Instant) (swept unswept : Store) : Prop where
  lifetime : swept.lifetime = unswept.lifetime
  items : ∀ key, Item.IsSwept now (swept.items.get? key) (unswept.items.get? key)
  hits : swept.counts.hits = unswept.counts.hits
  misses : swept.counts.misses = unswept.counts.misses
  expired : unswept.size + unswept.counts.expired ≤ swept.size + swept.counts.expired

namespace IsSwept

variable {now : Instant} {swept unswept : Store}

theorem refl (now : Instant) (store : Store) : IsSwept now store store :=
  ⟨rfl, fun _ => .refl now _, rfl, rfl, Nat.le_refl _⟩

theorem later {later : Instant} (h : IsSwept now swept unswept) (hle : now ≤ later) :
    IsSwept later swept unswept :=
  ⟨h.lifetime, fun key => (h.items key).later hle, h.hits, h.misses, h.expired⟩

theorem size_le (h : IsSwept now swept unswept) : swept.size ≤ unswept.size := by
  refine Table.size_le_size fun key hs => ?_
  obtain e | ⟨e, -⟩ := h.items key
  · rwa [← e]
  · rw [e] at hs
    cases hs

/-- One sweep more. -/
theorem sweep (h : IsSwept now swept unswept) :
    IsSwept now (swept.deleteExpired now).2 unswept := by
  refine ⟨h.lifetime, fun key => ?_, h.hits, h.misses, ?_⟩
  · rw [get?_deleteExpired]
    exact (h.items key).live
  · obtain ⟨-, -, balance⟩ := deleteExpired_balanced swept now
    have := h.expired
    simp only [Ledger.zero] at balance
    omega

theorem outcome_perform (h : IsSwept now swept unswept) {operation : Operation}
    (steady : operation.steady) :
    (swept.perform now operation).1 = (unswept.perform now operation).1 := by
  cases operation using Operation.cases_on_key with
  | on operation key =>
    rw [perform_on, perform_on, h.lifetime]
    exact (operation.effect_live _ key (h.items key).live_eq).1
  | deleteExpired => cases steady
  | flush => rfl
  | save sink => cases steady
  | load source =>
    simp only [Store.perform, load]
    cases Snapshot.load source with
    | error failure => rfl
    | ok incoming =>
      have hc : (swept.merge now incoming).1 = (unswept.merge now incoming).1 := by
        rw [merge_count, merge_count]
        exact List.countP_congr fun p _ => by rw [Item.admitted, (h.items p.1).live_eq]; rfl
      exact congrArg (fun count => Outcome.of .count (.ok count)) hc

theorem items_perform (h : IsSwept now swept unswept) (operation : Operation) (key : String) :
    Item.IsSwept now ((swept.perform now operation).2.items.get? key)
      ((unswept.perform now operation).2.items.get? key) := by
  cases operation using Operation.cases_on_key with
  | on operation key' =>
    rw [get?_perform_on, get?_perform_on, h.lifetime]
    split
    · rw [(operation.effect_live _ key' (h.items key').live_eq).2]
      exact .refl now _
    · exact h.items key
  | deleteExpired =>
    simp only [Store.perform, get?_deleteExpired]
    exact .inl (h.items key).live_eq
  | flush => exact .refl now _
  | save sink => exact h.items key
  | load source =>
    simp only [Store.perform, load]
    cases Snapshot.load source with
    | error failure => exact h.items key
    | ok incoming =>
      simp only [get?_merge]
      exact (h.items key).merged _

/-- A merge into the swept store brings no fewer items under keys that had none. -/
theorem arrivals_le (h : IsSwept now swept unswept) (incoming : Table Item) :
    unswept.items.arrivals (unswept.merge now incoming).2.items incoming ≤
      swept.items.arrivals (swept.merge now incoming).2.items incoming := by
  rw [merge_arrivals, merge_arrivals]
  refine List.countP_mono_left fun p _ hp => ?_
  rw [Bool.and_eq_true, Item.admitted] at hp ⊢
  rw [(h.items p.1).live_eq]
  exact ⟨hp.1, (h.items p.1).isNone_of_isNone hp.2⟩

/-- From the swept store as many lookups find something; no fewer items come in under keys that had
none, and no more are deleted or flushed. -/
theorem entry_le (h : IsSwept now swept unswept) (operation : Operation) :
    let action := StoreAction.perform operation
    let entry := action.entry now swept.items (swept.act now action).1 (swept.act now action).2.items
    let entry' :=
      action.entry now unswept.items (unswept.act now action).1 (unswept.act now action).2.items
    entry.found = entry'.found ∧ entry.missed = entry'.missed ∧ entry'.stored ≤ entry.stored ∧
      entry'.merged ≤ entry.merged ∧ entry.deleted ≤ entry'.deleted ∧
      entry.flushed ≤ entry'.flushed := by
  have visible (key : String) : ((swept.items.get? key).any fun item => item.visibleAt now) =
      (unswept.items.get? key).any fun item => item.visibleAt now := by
    rw [Item.any_visibleAt, Item.any_visibleAt, (h.items key).live_eq]
  simp only [StoreAction.entry, visible, true_and]
  refine ⟨?_, ?_, ?_, ?_⟩
  · cases operation with
    | set key value expiry =>
      exact Bool.toNat_le_toNat (h.items key).isNone_of_isNone
    | _ => exact Nat.le_refl _
  · cases operation with
    | load source =>
      simp only [StoreAction.incoming?, act, Store.perform, load]
      cases Snapshot.load source with
      | error failure => exact Nat.le_refl _
      | ok incoming => exact h.arrivals_le incoming
    | _ => exact Nat.le_refl _
  · cases operation with
    | delete key =>
      have answered : (swept.perform now (.delete key)).1 = (unswept.perform now (.delete key)).1 :=
        h.outcome_perform rfl
      simp only [act, answered]
      exact Nat.le_refl _
    | _ => exact Nat.le_refl _
  · cases operation with
    | flush => exact h.size_le
    | _ => exact Nat.le_refl _

theorem perform (h : IsSwept now swept unswept) (operation : Operation) :
    IsSwept now (swept.perform now operation).2 (unswept.perform now operation).2 := by
  obtain ⟨found, missed, stored, merged, deleted, flushed⟩ := h.entry_le operation
  obtain ⟨hits, misses, balance⟩ := swept.act_balanced now (.perform operation)
  obtain ⟨hits', misses', balance'⟩ := unswept.act_balanced now (.perform operation)
  refine ⟨?_, h.items_perform operation, ?_, ?_, ?_⟩
  · rw [lifetime_perform, lifetime_perform, h.lifetime]
  · exact hits.trans (by rw [h.hits, found]; exact hits'.symm)
  · exact misses.trans (by rw [h.misses, missed]; exact misses'.symm)
  · have := h.expired
    simp only [act] at *
    omega

end IsSwept

end Store

/-! ## Key spaces -/

namespace KeySpace

/-- The key spaces hold stores of which the one is the other after some sweeps more. -/
def IsSwept (now : Instant) (swept unswept : KeySpace) : Prop :=
  ∃ store store' : Store, swept.Holds store ∧ unswept.Holds store' ∧ store.IsSwept now store'

namespace IsSwept

variable {now : Instant} {swept unswept : KeySpace}

theorem later {later : Instant} (h : IsSwept now swept unswept) (hle : now ≤ later) :
    IsSwept later swept unswept := by
  obtain ⟨store, store', hs, hu, h⟩ := h
  exact ⟨store, store', hs, hu, h.later hle⟩

theorem sweep (h : IsSwept now swept unswept) : IsSwept now (swept.sweep now).2 unswept := by
  obtain ⟨store, store', hs, hu, h⟩ := h
  exact ⟨_, store', (hs.sweep now).2, hu, h.sweep⟩

theorem perform (h : IsSwept now swept unswept) (operation : Operation) :
    (operation.steady →
        (swept.perform now operation).1 = (unswept.perform now operation).1) ∧
      IsSwept now (swept.perform now operation).2 (unswept.perform now operation).2 := by
  obtain ⟨store, store', hs, hu, h⟩ := h
  obtain ⟨ho, hs⟩ := hs.perform now operation
  obtain ⟨ho', hu⟩ := hu.perform now operation
  refine ⟨fun steady => ?_, _, _, hs, hu, h.perform operation⟩
  rw [ho, ho', h.outcome_perform steady]

/-- What can be seen of the two. -/
theorem observed (h : IsSwept now swept unswept) :
    swept.tally.hits = unswept.tally.hits ∧ swept.tally.misses = unswept.tally.misses ∧
      (∀ key, swept.items.get? key = unswept.items.get? key ∨
        swept.items.get? key = none ∧
          ∃ item, unswept.items.get? key = some item ∧ item.expired now) ∧
      (swept.tally.expired : Int) - unswept.tally.expired ≥ unswept.size - swept.size ∧
      (unswept.size : Int) - swept.size ≥ 0 := by
  obtain ⟨store, store', hs, hu, h⟩ := h
  rw [hs.tally_eq, hu.tally_eq, hs.items_eq, hu.items_eq, hs.size_eq, hu.size_eq]
  refine ⟨h.hits, h.misses, fun key => ?_, ?_, ?_⟩
  · obtain e | ⟨gone, hu⟩ := h.items key
    · exact .inl e
    · cases hf : store'.items.get? key with
      | none => exact .inl gone
      | some item =>
        refine .inr ⟨gone, item, rfl, ?_⟩
        rw [hf, Item.live?_some] at hu
        by_contra hn
        rw [if_neg hn] at hu
        cases hu
  · have := h.expired
    simp only [Store.tally, Tally.withEntries]
    omega
  · have := h.size_le
    omega

end IsSwept

end KeySpace

/-! ## Runs -/

/-- What happens to a cache in a run. -/
inductive Turn where
  /-- An operation of the run itself. -/
  | operation (operation : Operation)
  /-- A further call that removes expired items. -/
  | removal
  /-- The sweeper deals with the ticks that are due at a reading of its clock. -/
  | ticks (reading : Nat)

/-- The turn is an operation of the run itself, and not a further sweep. -/
def Turn.isOperation : Turn → Bool
  | .operation _ => true
  | _ => false

/-- There is a reading that comes before all of a run. -/
theorem Instant.exists_first {readings : List Instant} (ordered : readings.Pairwise (· ≤ ·)) :
    ∃ first, (first :: readings).Pairwise (· ≤ ·) := by
  cases readings with
  | nil => exact ⟨.nearest 0, List.pairwise_singleton _ _⟩
  | cons first readings =>
    refine ⟨first, List.pairwise_cons.2 ⟨List.forall_mem_cons.2 ⟨Int.le_refl _, ?_⟩, ordered⟩⟩
    exact (List.pairwise_cons.1 ordered).1

namespace Cache

/-- The operations of a run with their outcomes, and the cache at its end. -/
def run (cache : Cache) : List (Instant × Turn) → List (Operation × Outcome) × Cache
  | [] => ([], cache)
  | (now, .operation operation) :: rest =>
    let (outcome, _, cache) := cache.perform now operation
    let (outcomes, cache) := cache.run rest
    ((operation, outcome) :: outcomes, cache)
  | (now, .removal) :: rest => (cache.perform now .deleteExpired).2.2.run rest
  | (now, .ticks reading) :: rest => (cache.sweepDue now reading).2.run rest

/-- In both runs it is the same operation, with the same outcome if that is steady. -/
def Agrees (a b : Operation × Outcome) : Prop := a.1 = b.1 ∧ (a.1.steady → a.2 = b.2)

variable {cache cache' : Cache}

theorem sweepDue_isSwept {now : Instant} (h : cache.space.IsSwept now cache'.space)
    (reading : Nat) : (cache.sweepDue now reading).2.space.IsSwept now cache'.space := by
  rw [sweepDue]
  split
  · exact h
  · exact sweepTicks_keeps (P := fun space => space.IsSwept now cache'.space)
      (fun _ h => h.sweep) _ _ _ h

/-- The run with the sweeps keeps up with the run without them. -/
theorem run_isSwept {now : Instant} (h : cache.space.IsSwept now cache'.space)
    {turns : List (Instant × Turn)} (ordered : (now :: turns.map Prod.fst).Pairwise (· ≤ ·)) :
    let (outcomes, swept) := cache.run turns
    let (outcomes', unswept) := cache'.run (turns.filter fun turn => turn.2.isOperation)
    List.Forall₂ Agrees outcomes outcomes' ∧
      swept.space.IsSwept ((turns.map Prod.fst).getLastD now) unswept.space := by
  induction turns generalizing cache cache' now with
  | nil => exact ⟨.nil, h⟩
  | cons turn turns ih =>
    obtain ⟨later, turn⟩ := turn
    obtain ⟨hn, ordered⟩ := List.pairwise_cons.1 ordered
    have h := h.later (hn later List.mem_cons_self)
    rw [List.map_cons, List.getLastD_cons]
    cases turn with
    | operation operation =>
      obtain ⟨ho, hs⟩ := h.perform operation
      have hs : (cache.perform later operation).2.2.space.IsSwept later
          (cache'.perform later operation).2.2.space := hs
      obtain ⟨hr, he⟩ := ih hs ordered
      exact ⟨.cons ⟨rfl, ho⟩ hr, he⟩
    | removal =>
      have hs : (cache.perform later .deleteExpired).2.2.space.IsSwept later cache'.space := by
        show (cache.space.perform later .deleteExpired).2.IsSwept later cache'.space
        rw [← KeySpace.sweep_eq]
        exact h.sweep
      exact ih hs ordered
    | ticks reading => exact ih (sweepDue_isSwept h reading) ordered

/-- Sweeps cannot be told from the operations of a run on a clock that does not go back.

* All outcomes are those of the run without the further sweeps, except for the number of expired
  items removed and for what is saved.
* After each turn the hits and misses are the same.
* So is what is under each key, unless that has expired by then and is gone.
* No items are there in addition, and for as many as are gone at least as many more are counted as
  expired. -/
theorem run_swept (reachable : cache.Reachable) (same : cache'.space = cache.space)
    {turns : List (Instant × Turn)} (ordered : (turns.map Prod.fst).Pairwise (· ≤ ·)) :
    List.Forall₂ Agrees (cache.run turns).1
      (cache'.run (turns.filter fun turn => turn.2.isOperation)).1 ∧
    ∀ before now turn, before ++ [(now, turn)] <+: turns →
      let part := before ++ [(now, turn)]
      let swept := (cache.run part).2.space
      let unswept := (cache'.run (part.filter fun turn => turn.2.isOperation)).2.space
      swept.tally.hits = unswept.tally.hits ∧ swept.tally.misses = unswept.tally.misses ∧
      (∀ key, swept.items.get? key = unswept.items.get? key ∨
        swept.items.get? key = none ∧
          ∃ item, unswept.items.get? key = some item ∧ item.expired now) ∧
      (swept.tally.expired : Int) - unswept.tally.expired ≥ unswept.size - swept.size ∧
      (unswept.size : Int) - swept.size ≥ 0 := by
  obtain ⟨store, hs⟩ := reachable.space.holds
  obtain ⟨first, ordered⟩ := Instant.exists_first ordered
  have start : cache.space.IsSwept first cache'.space :=
    ⟨store, store, hs, same ▸ hs, .refl first store⟩
  refine ⟨(run_isSwept start ordered).1, fun before now turn hpart => ?_⟩
  have h := (run_isSwept start (ordered.sublist ((hpart.sublist.map Prod.fst).cons_cons first))).2
  rw [List.map_append, List.map_singleton, List.getLastD_concat] at h
  exact h.observed

/-- A cache with a sweeper that ticks every second. -/
def ticking : Cache :=
  ⟨.single (.create (some (.ofMillis 1000))), ⟨none, none, []⟩,
    some (.spawn (.ofMillis 1000) (Nat.succ_pos _) 0)⟩

/-- A value is stored and is swept when it has expired. -/
def lapsing : List (Instant × Turn) :=
  [(.nearest 0, .operation (.set "k" (.leaf (.text "v")) .default)),
    (.nearest 1000000001, .ticks 1000000001)]

theorem run_swept_ticking :
    let after := (ticking.run lapsing).2.space
    let after' := (ticking.run (lapsing.filter fun turn => turn.2.isOperation)).2.space
    (ticking.Reachable ∧ (lapsing.map Prod.fst).Pairwise (· ≤ ·)) ∧
      after.size = 0 ∧ after'.size = 1 ∧
      (after.tally.expired : Int) - after'.tally.expired ≥ after'.size - after.size := by
  intro after after'
  have created : createSingle ((Settings.default.withLifetime (.ofMillis 1000)).withInterval
      (.ofMillis 1000)) true 0 = .ok ticking := rfl
  have ordered : (lapsing.map Prod.fst).Pairwise (· ≤ ·) := by decide
  obtain ⟨-, points⟩ := run_swept (.single created) rfl ordered
  obtain ⟨-, -, -, counted, -⟩ := points (lapsing.take 1) _ _ (List.prefix_refl _)
  exact ⟨⟨.single created, ordered⟩, by decide +kernel, by decide +kernel, counted⟩

end Cache

end ExpiringCache
