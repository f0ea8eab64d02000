import ExpiringCache.Proofs.KeySpaces

/-!
# Statistics and entries

The statistics of a key space account for every lookup and every entry. A `Ledger` says of a run
what an onlooker counts: lookups that found a visible item and lookups that did not, items that came
in under keys that had none, and items that were deleted or flushed. In every run, by any clock and
with any number of shards, the hits and misses are those of the ledger, and whatever came in is
still there, or it was deleted or flushed, or it is counted as expired
(`KeySpace.ledger_balanced`). A sweep in the background is a step like any removal of expired items
(`KeySpace.sweep_eq`).

Each step of a store is balanced (`Store.act_balanced`). An operation on one key is so because its
effect leaves under the key what it found there and what it stored, less what it deletes or counts
as expired (`Store.apply_balanced`); a run is so because balances add up (`Store.Balanced.trans`).
-/

namespace ExpiringCache

/-! ## Ledgers -/

/-- The key that a step looks up. -/
def StoreAction.lookup? : StoreAction → Option String
  | .perform (.get key) => some key
  | .perform (.getText key) => some key
  | _ => none

/-- The table that a step takes items from. -/
def StoreAction.incoming? : StoreAction → Option (Table Item)
  | .perform (.load source) => (Snapshot.load source).toOption
  | .merge incoming => some incoming
  | _ => none

/-- What there is to account for in a run. -/
structure Ledger where
  /-- Lookups of keys with a visible item. -/
  found : Nat
  /-- Lookups of other keys. -/
  missed : Nat
  /-- Values stored under keys that had no item, not even an expired one. -/
  stored : Nat
  /-- Items merged or loaded under keys that had no item. -/
  merged : Nat
  /-- Calls of `delete` that removed an item. -/
  deleted : Nat
  /-- Items that were there when everything was removed. -/
  flushed : Nat
  deriving DecidableEq, Repr

namespace Ledger

/-- Nothing has happened. -/
def zero : Ledger := ⟨0, 0, 0, 0, 0, 0⟩

/-- What happens in two runs, one after the other. -/
def add (a b : Ledger) : Ledger :=
  ⟨a.found + b.found, a.missed + b.missed, a.stored + b.stored, a.merged + b.merged,
    a.deleted + b.deleted, a.flushed + b.flushed⟩

end Ledger

/-- The number of items of a table whose keys had no item before and have one after. -/
def Table.arrivals (before after incoming : Table Item) : Nat :=
  incoming.entries.countP fun p => (before.get? p.1).isNone && (after.get? p.1).isSome

/-- What there is to account for in a step, by the items before it, the answer, and the items after
it. -/
def StoreAction.entry (action : StoreAction) (now : Instant) (before : Table Item)
    (answer : Except Failure Reply) (after : Table Item) : Ledger where
  found := action.lookup?.elim 0 fun key =>
    ((before.get? key).any fun item => item.visibleAt now).toNat
  missed := action.lookup?.elim 0 fun key =>
    (!(before.get? key).any fun item => item.visibleAt now).toNat
  stored := match action with
    | .perform (.set key _ _) => (before.get? key).isNone.toNat
    | _ => 0
  merged := action.incoming?.elim 0 (before.arrivals after)
  deleted := match action, answer with
    | .perform (.delete _), .ok (.count 1) => 1
    | _, _ => 0
  flushed := match action with
    | .perform .flush => before.size
    | _ => 0

namespace KeySpace

/-- The step of a run, for the ledger. -/
def entry (space : KeySpace) (now : Instant) (action : StoreAction) : Ledger :=
  let (answer, after) := space.act now action
  action.entry now space.items answer after.items

/-- What there is to account for in a run. -/
def ledger (space : KeySpace) : List (Instant × StoreAction) → Ledger
  | [] => .zero
  | (now, action) :: rest => (space.entry now action).add ((space.act now action).2.ledger rest)

/-- The key space at the end of a run. -/
def after (space : KeySpace) : List (Instant × StoreAction) → KeySpace
  | [] => space
  | (now, action) :: rest => (space.act now action).2.after rest

end KeySpace

/-! ## Operations on one key -/

/-- What is found under a key is live or is counted as expired. -/
theorem Item.isSome_live?_add (now : Instant) (found : Option Item) :
    (live? now found).isSome.toNat + (expiry? now found).expired = found.isSome.toNat := by
  cases found with
  | none => rfl
  | some item =>
    rw [live?_some, expiry?, Option.any_some]
    cases item.expired now <;> rfl

theorem Item.any_visibleAt (now : Instant) (found : Option Item) :
    (found.any fun item => item.visibleAt now) = (live? now found).isSome := by
  cases found with
  | none => rfl
  | some item =>
    rw [live?_some, Option.any_some, visibleAt_eq]
    cases item.expired now <;> rfl

/-- A lookup counts as a hit if what it finds is visible and as a miss if not; it counts what has
expired as well. -/
theorem Item.lookup_expiry? (now : Instant) (found : Option Item) :
    (expiry? now found).lookup (live? now found) =
      ⟨(found.any fun item => item.visibleAt now).toNat,
        (!found.any fun item => item.visibleAt now).toNat, (expiry? now found).expired, 0⟩ := by
  rw [any_visibleAt]
  cases live? now found <;> rfl

/-! ## Steps -/

namespace Store

/-- The step has put in the counts and the items what the ledger says. -/
structure Balanced (before : Store) (entry : Ledger) (after : Store) : Prop where
  hits : after.counts.hits = before.counts.hits + entry.found
  misses : after.counts.misses = before.counts.misses + entry.missed
  items : after.size + entry.deleted + entry.flushed + after.counts.expired =
    before.size + entry.stored + entry.merged + before.counts.expired

theorem Balanced.refl (store : Store) : store.Balanced .zero store := ⟨rfl, rfl, rfl⟩

theorem Balanced.trans {a b c : Store} {first second : Ledger} (h : a.Balanced first b)
    (h' : b.Balanced second c) : a.Balanced (first.add second) c := by
  obtain ⟨hits, misses, items⟩ := h
  obtain ⟨hits', misses', items'⟩ := h'
  constructor <;> simp only [Ledger.add] <;> omega

variable {store : Store} {now : Instant} {key : String}

/-- What is balanced in the counts and under the key is balanced in the store. -/
theorem apply_balanced {effect : Effect} {entry : Ledger}
    (hits : effect.counted.hits = entry.found) (misses : effect.counted.misses = entry.missed)
    (items : effect.left.isSome.toNat + entry.deleted + effect.counted.expired =
      (store.items.get? key).isSome.toNat + entry.stored)
    (merged : entry.merged = 0) (flushed : entry.flushed = 0) :
    store.Balanced entry (store.apply key effect).2 := by
  refine ⟨congrArg _ hits, congrArg _ misses, ?_⟩
  have := store.items.size_put key effect.left
  simp only [apply, size, Tally.add]
  omega

theorem modify_balanced {α : Type} (reply : α → Reply) (expected : Expected)
    (change : Value → Option (Value × α)) :
    store.Balanced .zero (store.apply key (.modify reply key expected change
      (Item.expiry? now (store.items.get? key)) (Item.live? now (store.items.get? key)))).2 := by
  rw [Effect.modify_counted]
  refine apply_balanced rfl rfl ?_ rfl rfl
  rw [Effect.isSome_left_modify]
  exact Item.isSome_live?_add now (store.items.get? key)

theorem perform_on_balanced (store : Store) (now : Instant) (key : String)
    (operation : KeyOperation) :
    let action := StoreAction.perform (operation.on key)
    store.Balanced (action.entry now store.items (store.act now action).1
      (store.act now action).2.items) (store.act now action).2 := by
  intro action
  have hkept := Item.isSome_live?_add now (store.items.get? key)
  have hlookup := Item.lookup_expiry? now (store.items.get? key)
  simp only [action, act, perform_on]
  cases operation with
  | get =>
    refine apply_balanced (congrArg _ hlookup) (congrArg _ hlookup) ?_ rfl rfl
    simp only [KeyOperation.effect, hlookup]
    exact hkept
  | getText =>
    refine apply_balanced (congrArg _ hlookup) (congrArg _ hlookup) ?_ rfl rfl
    simp only [KeyOperation.effect, hlookup]
    exact hkept
  | set value expiry =>
    refine apply_balanced rfl rfl ?_ rfl rfl
    show 1 = (store.items.get? key).isSome.toNat + (store.items.get? key).isNone.toNat
    cases store.items.get? key <;> rfl
  | contains => exact apply_balanced rfl rfl hkept rfl rfl
  | delete =>
    refine apply_balanced rfl rfl ?_ rfl rfl
    rw [← hkept]
    simp only [KeyOperation.effect, apply]
    cases Item.live? now (store.items.get? key) with
    | none => rfl
    | some item => rfl
  | increment delta => exact modify_balanced _ _ _
  | incrementFloat delta => exact modify_balanced _ _ _
  | decrement delta => exact modify_balanced _ _ _

theorem deleteExpired_size (store : Store) (now : Instant) :
    (store.deleteExpired now).2.size + (store.deleteExpired now).1 = store.size :=
  Nat.add_sub_cancel' (List.length_filter_le _ _)

theorem deleteExpired_balanced (store : Store) (now : Instant) :
    store.Balanced .zero (store.deleteExpired now).2 := by
  refine ⟨rfl, rfl, ?_⟩
  have := deleteExpired_size store now
  simp only [deleteExpired, Tally.expire, Ledger.zero] at this ⊢
  omega

/-- Under a key without an item, what a merge took in is what is there afterwards. -/
theorem merge_arrivals (store : Store) (now : Instant) (incoming : Table Item) :
    store.items.arrivals (store.merge now incoming).2.items incoming =
      incoming.entries.countP fun p => Item.admitted now (store.items.get? p.1) p.2 &&
        (store.items.get? p.1).isNone := by
  refine List.countP_congr fun p hp => ?_
  have hf : incoming.get? p.1 = some p.2 := Table.get?_eq_some_iff.2 hp
  rw [get?_merge, hf, Bool.and_comm]
  cases store.items.get? p.1 with
  | some resident => rw [Option.isNone_some, Bool.and_false, Bool.and_false]
  | none =>
    cases ha : Item.admitted now none p.2 with
    | true => rw [Item.merged_of_admitted ha, Option.isSome_some]
    | false => rw [Item.merged_of_not_admitted ha, Option.isSome_none]

theorem merge_balanced (store : Store) (now : Instant) (incoming : Table Item) :
    store.Balanced
      ⟨0, 0, 0, store.items.arrivals (store.merge now incoming).2.items incoming, 0, 0⟩
      (store.merge now incoming).2 := by
  obtain ⟨-, hcounts⟩ := merge_frame store now incoming
  refine ⟨congrArg Tally.hits hcounts, congrArg Tally.misses hcounts, ?_⟩
  rw [merge_arrivals, hcounts, merge_size]
  rfl

theorem act_balanced (store : Store) (now : Instant) (action : StoreAction) :
    store.Balanced (action.entry now store.items (store.act now action).1
      (store.act now action).2.items) (store.act now action).2 := by
  cases action with
  | merge incoming => exact merge_balanced store now incoming
  | perform operation =>
    cases operation using Operation.cases_on_key with
    | on operation key => exact perform_on_balanced store now key operation
    | deleteExpired => exact deleteExpired_balanced store now
    | flush =>
      refine ⟨rfl, rfl, ?_⟩
      show 0 + 0 + store.size + store.counts.expired = store.size + 0 + 0 + store.counts.expired
      omega
    | save sink => exact .refl store
    | load source =>
      simp only [act, perform, load, StoreAction.entry, StoreAction.incoming?]
      cases Snapshot.load source with
      | error failure => exact .refl store
      | ok incoming => exact merge_balanced store now incoming

end Store

/-! ## Runs -/

namespace KeySpace

variable {space : KeySpace} {store : Store}

theorem Holds.entry_eq (h : space.Holds store) (now : Instant) (action : StoreAction) :
    space.entry now action = action.entry now store.items (store.act now action).1
      (store.act now action).2.items := by
  obtain ⟨ha, hs⟩ := h.act now action
  simp only [entry, h.items_eq, ha, hs.items_eq]

/-- A key space keeps holding the items and counts of a store whose counts and size are balanced
with the ledger of the run. -/
theorem Holds.after_balanced (h : space.Holds store) (steps : List (Instant × StoreAction)) :
    ∃ last : Store, (space.after steps).Holds last ∧ store.Balanced (space.ledger steps) last := by
  induction steps generalizing space store with
  | nil => exact ⟨store, h, .refl store⟩
  | cons step steps ih =>
    obtain ⟨last, hl, hb⟩ := ih (h.act step.1 step.2).2
    refine ⟨last, hl, .trans ?_ hb⟩
    rw [h.entry_eq]
    exact store.act_balanced step.1 step.2

/-- In every run from an empty key space the hits and misses are the lookups that found a visible
item and those that did not, and no other step changes them; the entries are the items present; and
of the items that came in under keys that had none, each is present, or was deleted, or is counted
as expired, or was flushed. -/
theorem ledger_balanced (fresh : space.Fresh) (steps : List (Instant × StoreAction)) :
    let after := space.after steps
    let ledger := space.ledger steps
    after.tally.hits = ledger.found ∧ after.tally.misses = ledger.missed ∧
      after.tally.entries = after.size ∧
      ledger.stored + ledger.merged =
        after.size + ledger.deleted + after.tally.expired + ledger.flushed ∧
      ∀ now action, action.lookup? = none →
        (after.act now action).2.tally.hits = after.tally.hits ∧
        (after.act now action).2.tally.misses = after.tally.misses := by
  intro after ledger
  obtain ⟨lifetime, hf⟩ := fresh.holds
  obtain ⟨last, hl, hits, misses, items⟩ := hf.after_balanced steps
  refine ⟨?_, ?_, ?_, ?_, fun now action hn => ?_⟩
  · rw [hl.tally_eq]
    exact hits.trans (Nat.zero_add _)
  · rw [hl.tally_eq]
    exact misses.trans (Nat.zero_add _)
  · rw [hl.tally_eq, hl.size_eq]
    rfl
  · rw [hl.tally_eq, hl.size_eq]
    have hz : (Store.create lifetime).size + (Store.create lifetime).counts.expired = 0 := rfl
    show (space.ledger steps).stored + (space.ledger steps).merged =
      last.size + (space.ledger steps).deleted + last.counts.expired + (space.ledger steps).flushed
    omega
  · obtain ⟨hits, misses, -⟩ := last.act_balanced now action
    simp only [StoreAction.entry, hn, Option.elim_none, Nat.add_zero] at hits misses
    rw [hl.tally_eq, (hl.act now action).2.tally_eq]
    exact ⟨hits, misses⟩

/-- A run in which a value is found and, after its deadline, is missed; a merge brings it back with
a second one, of which one is deleted and the other flushed. -/
def comings : List (Instant × StoreAction) :=
  [(.nearest 0, .perform (.set "k" (.leaf (.text "v")) .default)),
    (.nearest 1000000000, .perform (.getText "k")),
    (.nearest 1000000001, .perform (.getText "k")),
    (.nearest 1000000001, .merge
      (.ofList [("k", ⟨.leaf (.text "w"), none⟩), ("l", ⟨.leaf (.text "w"), none⟩)])),
    (.nearest 1000000001, .perform (.delete "l")),
    (.nearest 1000000001, .perform .flush)]

theorem ledger_balanced_comings :
    let space := KeySpace.sharded (.create 2 (by decide) (some (.ofMillis 1000)))
    let after := space.after comings
    space.Fresh ∧ after.tally.hits = 1 ∧ after.tally.misses = 1 ∧
      1 + 2 = after.size + 1 + after.tally.expired + 1 := by
  intro space after
  have fresh : space.Fresh := .sharded _ _
  have hl : space.ledger comings = ⟨1, 1, 1, 2, 1, 1⟩ := by decide +kernel
  obtain ⟨hits, misses, -, items, -⟩ := ledger_balanced fresh comings
  rw [hl] at hits misses items
  exact ⟨fresh, hits, misses, items⟩

end KeySpace

end ExpiringCache
