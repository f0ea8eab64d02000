import ExpiringCache.Proofs.Loading
import ExpiringCache.Proofs.Saving

/-!
# From one key space to another

What one key space has saved is loaded into another, be they single stores or divided among any
numbers of shards (`KeySpace.load_saved`). The snapshot stands for the table of the one, whatever
the order of its entries (`Snapshot.decode_spelled`), and the load merges that table into the
other. Merging decides key by key: a key that is visible in the target keeps its item, and any
other has from then on the visible item of the source, up to the deadline that it had there.
-/

namespace ExpiringCache

/-- Under a key that has no live item, what is live after a merge is what comes in. -/
theorem Item.live?_merged_of_none {now later : Instant} (h : now ≤ later) {resident : Option Item}
    (hr : Item.live? now resident = none) (incoming : Option Item) :
    Item.live? later (Item.merged now resident incoming) = Item.live? later incoming := by
  have gone : Item.live? later resident = none := by rw [← live?_live? h, hr]; rfl
  rw [merged, hr, Option.none_or, ← live?_live? h incoming]
  cases Item.live? now incoming with
  | none => rw [Option.none_or, gone]; rfl
  | some item => rw [Option.some_or]

namespace KeySpace

namespace Holds

variable {space : KeySpace} {store : Store}

theorem merge_count (h : space.Holds store) (now : Instant) (incoming : Table Item) :
    (space.merge now incoming).1 = incoming.entries.countP fun p =>
      p.2.visibleAt now && (space.visible now p.1).isNone := by
  rw [(h.merge now incoming).1, Store.merge_count]
  simp only [Item.admitted, h.visible_eq, Item.visibleAt_eq]

theorem get?_merge (h : space.Holds store) (now : Instant) (incoming : Table Item)
    (key : String) :
    (space.merge now incoming).2.items.get? key =
      Item.merged now (store.items.get? key) (incoming.get? key) := by
  rw [(h.merge now incoming).2.items_eq, Store.get?_merge]

end Holds

/-- A snapshot that one key space has saved is loaded into another.

* The source saves, and whatever it is seen to save is a snapshot of its table.
* The load takes in the entries of the source that are visible and whose keys are not visible in
  the target, and tells their number.
* A key that is visible in the target keeps its item.
* Any other key is visible at the load and later if and as long as it is visible in the table of
  the source, with the value and the deadline that it has there.

In all three key spaces a lookup finds what is visible. -/
theorem load_saved {source target : KeySpace} (hs : source.Reachable) (ht : target.Reachable)
    (writable : Snapshot.Writable source.items) :
    (∀ now, (source.perform now (.save .unlimited)).1.result = .ok .done) ∧
    (∀ now sink, sink.taken = [] → (source.perform now (.save sink)).1.result = .ok .done →
      Snapshot.Spells (source.perform now (.save sink)).1.written source.items) ∧
    ∀ bytes, Snapshot.Spells bytes source.items → ∀ now,
      let (outcome, after) := target.perform now (.load (.ofBytes bytes))
      outcome.result = .ok (.count (source.items.entries.countP fun p =>
        p.2.visibleAt now && (target.visible now p.1).isNone)) ∧
      (∀ key item, target.visible now key = some item → after.items.get? key = some item) ∧
      (∀ key, target.visible now key = none → ∀ later, now ≤ later →
        after.visible later key = source.visible later key) ∧
      ∀ space ∈ [source, target, after], ∀ now key,
        (space.perform now (.get key)).1.result =
          .ok (.value ((space.visible now key).map Item.value)) := by
  obtain ⟨sourceStore, hs⟩ := hs.holds
  obtain ⟨targetStore, ht⟩ := ht.holds
  have hsave : ∀ now sink, source.perform now (.save sink) =
      (.ofSave (Snapshot.save source.items sink), source) := by
    intro now sink
    cases source <;> rfl
  refine ⟨fun now => ?_, fun now sink empty h => ?_, fun bytes hb now => ?_⟩
  · rw [hsave, Outcome.ofSave, Snapshot.save_unlimited writable]
    rfl
  · rw [hsave] at h ⊢
    refine Snapshot.spells_of_save empty ?_
    rw [Outcome.ofSave] at h
    cases hr : (Snapshot.save source.items sink).1 with
    | ok done => rfl
    | error failure => rw [hr] at h; cases h
  · have hload : Snapshot.load (.ofBytes bytes) = .ok source.items := by
      rw [Snapshot.load_ofBytes, Snapshot.decode_spelled writable hb]
    have hafter := (ht.merge now source.items).2
    rw [perform_load, hload]
    refine ⟨?_, fun key item hv => ?_, fun key hv later hl => ?_, ?_⟩
    · rw [ht.merge_count]
    · rw [ht.visible_eq] at hv
      rw [ht.get?_merge, Item.merged, hv, Option.some_or]
    · rw [ht.visible_eq] at hv
      rw [hafter.visible_eq, Store.get?_merge, Item.live?_merged_of_none hl hv, hs.visible_eq,
        hs.items_eq]
    · simp only [List.forall_mem_cons, List.not_mem_nil, false_imp_iff, implies_true, and_true]
      exact ⟨hs.get_visible, ht.get_visible, hafter.get_visible⟩

/-- Two shards, and in one of them a value that lives for a second. -/
def sent : KeySpace :=
  ((KeySpace.sharded (.create 2 (by decide) none)).perform (.nearest 0)
    (.set "k" (.leaf (.text "v")) (.after (.ofMillis 1000)))).2

theorem load_saved_sent :
    let target := KeySpace.single (.create none)
    (sent.Reachable ∧ target.Reachable ∧ Snapshot.Writable sent.items) ∧
      (∀ now, (sent.perform now (.save .unlimited)).1.result = .ok .done) ∧
      ∀ bytes, Snapshot.Spells bytes sent.items →
        (target.perform (.nearest 1000000000) (.load (.ofBytes bytes))).1.result =
          .ok (.count 1) := by
  intro target
  have hs : sent.Reachable := (Reachable.fresh (.sharded _ _)).perform _ _
  have ht : target.Reachable := .fresh (.single _)
  have writable : Snapshot.Writable sent.items := by decide +kernel
  obtain ⟨saves, -, loads⟩ := load_saved hs ht writable
  refine ⟨⟨hs, ht, writable⟩, saves, fun bytes spells => ?_⟩
  have counted : (sent.items.entries.countP fun p => p.2.visibleAt (.nearest 1000000000) &&
      (target.visible (.nearest 1000000000) p.1).isNone) = 1 := by decide +kernel
  rw [← counted]
  exact (loads bytes spells (.nearest 1000000000)).1

end KeySpace

end ExpiringCache
