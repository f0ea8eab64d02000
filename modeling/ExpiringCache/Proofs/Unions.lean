import ExpiringCache.Proofs.TimedMap
import Mathlib.Data.Set.Card

/-!
# Merges as unions

Under a key a merge takes what comes in if that is visible and no visible item is there
(`Store.Takes`), and leaves everything else. The count is the number of keys that take an item, and
it is what the number of live items grows by (`Store.merge_grows`).

Merges at one reading of the clock come to a single merge, of the table that has under each key the
first visible item of all that come in (`Table.firstVisible`, `Store.mergeAll_eq`). After them none
of the tables has anything left to give.
-/

namespace ExpiringCache

namespace Item

theorem live?_or_live? (now : Instant) (first second : Option Item) :
    live? now ((live? now first).or (live? now second)) =
      (live? now first).or (live? now second) := by
  cases hf : live? now first with
  | none => rw [Option.none_or, live?_self]
  | some item => rw [Option.some_or, ← hf, live?_self]

/-- Merging one item after another is merging the first of them that is live. -/
theorem merged_merged (now : Instant) (resident first second : Option Item) :
    merged now (merged now resident first) second =
      merged now resident ((live? now first).or (live? now second)) := by
  rw [merged, live?_merged, merged, merged, live?_or_live?]
  cases live? now resident with
  | some item => rfl
  | none => cases live? now first <;> rfl

theorem merged_of_live {now : Instant} {resident incoming : Option Item}
    (h : (live? now incoming).isSome → (live? now resident).isSome) :
    merged now resident incoming = resident := by
  cases hr : live? now resident with
  | some item =>
    rw [merged, hr, Option.some_or]
    exact (Option.filter_eq_some_iff.1 hr).1.symm
  | none =>
    cases hi : live? now incoming with
    | some item => exact absurd (h (by rw [hi]; rfl)) (by rw [hr]; exact Bool.false_ne_true)
    | none => rw [merged, hr, hi, Option.none_or, Option.none_or]

end Item

/-! ## The first visible items -/

namespace Table

/-- The items whose deadline has not passed. -/
def live (now : Instant) (items : Table Item) : Table Item :=
  items.filter fun _ item => !item.expired now

/-- Under each key the first item whose deadline has not passed. -/
def firstVisible (now : Instant) : List (Table Item) → Table Item
  | [] => .empty
  | items :: rest => (firstVisible now rest).extend (items.live now)

theorem get?_live (now : Instant) (items : Table Item) (key : String) :
    (items.live now).get? key = Item.live? now (items.get? key) :=
  get?_filter _ items key

theorem get?_firstVisible_cons (now : Instant) (items : Table Item) (rest : List (Table Item))
    (key : String) :
    (firstVisible now (items :: rest)).get? key =
      (Item.live? now (items.get? key)).or ((firstVisible now rest).get? key) := by
  rw [firstVisible, get?_extend, get?_live]

theorem get?_firstVisible (now : Instant) (tables : List (Table Item)) (key : String) :
    (firstVisible now tables).get? key =
      tables.findSome? fun items => (items.get? key).filter fun item => item.visibleAt now := by
  induction tables with
  | nil => rfl
  | cons items rest ih =>
    rw [get?_firstVisible_cons, ih, List.findSome?_cons]
    simp only [Item.live?, Item.visibleAt_eq]
    cases (items.get? key).filter fun item => !item.expired now <;> rfl

theorem live?_firstVisible (now : Instant) (tables : List (Table Item)) (key : String) :
    Item.live? now ((firstVisible now tables).get? key) = (firstVisible now tables).get? key := by
  induction tables with
  | nil => rfl
  | cons items rest ih => rw [get?_firstVisible_cons, ← ih, Item.live?_or_live?]

theorem live_put (now : Instant) (items : Table Item) (key : String) (entry : Option Item) :
    (items.put key entry).live now = (items.live now).put key (Item.live? now entry) := by
  refine ext fun key' => ?_
  rw [get?_live, get?_put, get?_put, get?_live]
  split <;> rfl

end Table

/-! ## One merge -/

namespace Store

/-- The item comes in under the key and is visible, and no visible item is there. -/
def Takes (store : Store) (now : Instant) (incoming : Table Item) (key : String)
    (item : Item) : Prop :=
  incoming.get? key = some item ∧ item.visibleAt now = true ∧
    ∀ resident, store.items.get? key = some resident → resident.visibleAt now = false

variable {store : Store} {now : Instant} {incoming : Table Item} {key : String}

theorem takes_iff {item : Item} :
    store.Takes now incoming key item ↔
      incoming.get? key = some item ∧ Item.admitted now (store.items.get? key) item = true := by
  rw [Takes, Item.admitted, Item.visibleAt_eq, Bool.and_eq_true]
  refine and_congr_right fun _ => and_congr_right fun _ => ?_
  cases store.items.get? key with
  | none => simp [Item.live?]
  | some resident =>
    rw [Item.live?_some]
    cases he : resident.expired now <;> simp [Item.visibleAt_eq, he]

theorem get?_merge_of_takes {item : Item} (h : store.Takes now incoming key item) :
    (store.merge now incoming).2.items.get? key = some item := by
  obtain ⟨comes, admitted⟩ := takes_iff.1 h
  rw [get?_merge, comes, Item.merged_of_admitted admitted]

theorem get?_merge_of_not_takes (h : ∀ item, ¬ store.Takes now incoming key item) :
    (store.merge now incoming).2.items.get? key = store.items.get? key := by
  rw [get?_merge]
  cases hi : incoming.get? key with
  | none => exact Item.merged_none now _
  | some item =>
    refine Item.merged_of_not_admitted ?_
    rw [← Bool.not_eq_true]
    exact fun admitted => h item (takes_iff.2 ⟨hi, admitted⟩)

theorem merge_ncard : (store.merge now incoming).1 =
    {key | ∃ item, store.Takes now incoming key item}.ncard := by
  have distinct : (incoming.entries.filter fun p =>
      Item.admitted now (store.items.get? p.1) p.2).Pairwise fun p q => p.1 ≠ q.1 :=
    (Table.Ascending.distinct incoming.ascending).filter _
  have keys : {key | ∃ item, store.Takes now incoming key item} =
      ((incoming.entries.filter fun p =>
        Item.admitted now (store.items.get? p.1) p.2).map Prod.fst).toFinset := by
    ext key
    simp only [Set.mem_ofPred_eq, takes_iff, Table.get?_eq_some_iff, List.coe_toFinset,
      List.mem_map, List.mem_filter]
    constructor
    · rintro ⟨item, comes, admitted⟩
      exact ⟨(key, item), ⟨comes, admitted⟩, rfl⟩
    · rintro ⟨⟨_, item⟩, ⟨comes, admitted⟩, rfl⟩
      exact ⟨item, comes, admitted⟩
  rw [merge_count, keys, Set.ncard_coe_finset,
    List.toFinset_card_of_nodup (List.pairwise_map.2 distinct), List.length_map,
    List.countP_eq_length_filter]

/-- Merges leave the lifetime and the counts alone, so that what is under the keys decides. -/
theorem acceptMany_eq {store' : Store} {order order' : List (String × Item)}
    (lifetime : store.lifetime = store'.lifetime) (counts : store.counts = store'.counts)
    (h : ∀ key, (store.acceptMany now order).2.items.get? key =
      (store'.acceptMany now order').2.items.get? key) :
    (store.acceptMany now order).2 = (store'.acceptMany now order').2 := by
  obtain ⟨hl, hc⟩ := acceptMany_frame now order store
  obtain ⟨hl', hc'⟩ := acceptMany_frame now order' store'
  have items := Table.ext h
  generalize (store.acceptMany now order).2 = a at items hl hc
  generalize (store'.acceptMany now order').2 = b at items hl' hc'
  cases a
  cases b
  simp_all only

/-- In whatever order the items come in, the outcome is the same. -/
theorem acceptMany_perm {order : List (String × Item)} (h : order.Perm incoming.entries) :
    store.acceptMany now order = store.merge now incoming := by
  have distinct : Table.Distinct incoming.entries := Table.Ascending.distinct incoming.ascending
  have distinct' : Table.Distinct order := distinct.perm h.symm
  refine Prod.ext ?_ (acceptMany_eq rfl rfl fun key => ?_)
  · rw [acceptMany_count now distinct', merge_count, h.countP_eq]
  · rw [get?_acceptMany now distinct', get?_acceptMany now distinct, Table.find?_perm distinct' h]

/-! ## Many merges -/

theorem accept_grows (store : Store) (now : Instant) (key : String) (item : Item) :
    (store.accept now key item).1.toNat + (store.items.live now).size =
      ((store.accept now key item).2.items.live now).size := by
  have placed := (store.items.live now).size_put key
    (Item.live? now (Item.merged now (store.items.get? key) (some item)))
  have admitted : (Item.admitted now (store.items.get? key) item).toNat +
      (Item.live? now (store.items.get? key)).isSome.toNat =
        (Item.live? now (Item.merged now (store.items.get? key) (some item))).isSome.toNat := by
    rw [Item.live?_merged, Item.live?_some, Item.admitted]
    cases Item.live? now (store.items.get? key) <;> cases item.expired now <;> rfl
  rw [Table.get?_live] at placed
  rw [accept_eq]
  dsimp only
  rw [Table.live_put]
  omega

/-- As many items are taken in as the number of live items grows by. -/
theorem merge_grows (store : Store) (now : Instant) (incoming : Table Item) :
    (store.merge now incoming).1 + (store.items.live now).size =
      ((store.merge now incoming).2.items.live now).size := by
  rw [merge]
  generalize incoming.entries = entries
  induction entries generalizing store with
  | nil => exact Nat.zero_add _
  | cons p entries ih =>
    have first := store.accept_grows now p.1 p.2
    have later := ih (store.accept now p.1 p.2).2
    simp only [acceptMany]
    omega

/-- Merges tables one after the other; gives the numbers of items taken in. -/
def mergeAll (store : Store) (now : Instant) : List (Table Item) → List Nat × Store
  | [] => ([], store)
  | incoming :: rest =>
    let (count, store) := store.merge now incoming
    let (counts, store) := store.mergeAll now rest
    (count :: counts, store)

theorem mergeAll_grows (store : Store) (now : Instant) (tables : List (Table Item)) :
    (store.mergeAll now tables).1.sum + (store.items.live now).size =
      ((store.mergeAll now tables).2.items.live now).size := by
  induction tables generalizing store with
  | nil => exact Nat.zero_add _
  | cons incoming rest ih =>
    have first := store.merge_grows now incoming
    have later := ih (store.merge now incoming).2
    simp only [mergeAll, List.sum_cons]
    omega

theorem merge_merge (store : Store) (now : Instant) {first second both : Table Item}
    (h : ∀ key, both.get? key =
      (Item.live? now (first.get? key)).or (Item.live? now (second.get? key))) :
    ((store.merge now first).2.merge now second).2 = (store.merge now both).2 := by
  obtain ⟨lifetime, counts⟩ := merge_frame store now first
  refine acceptMany_eq lifetime counts fun key => ?_
  exact (get?_merge _ _ _ _).trans (by rw [get?_merge, Item.merged_merged, ← h, ← get?_merge]; rfl)

/-- One merge of the first visible items does what all merges do. -/
theorem mergeAll_eq (store : Store) (now : Instant) (tables : List (Table Item)) :
    (store.mergeAll now tables).2 = (store.merge now (Table.firstVisible now tables)).2 := by
  induction tables generalizing store with
  | nil => rfl
  | cons incoming rest ih =>
    refine (ih (store.merge now incoming).2).trans (merge_merge store now fun key => ?_)
    rw [Table.get?_firstVisible_cons, Table.live?_firstVisible]

theorem mergeAll_sum (store : Store) (now : Instant) (tables : List (Table Item)) :
    (store.mergeAll now tables).1.sum = (store.merge now (Table.firstVisible now tables)).1 := by
  have many := store.mergeAll_grows now tables
  have one := store.merge_grows now (Table.firstVisible now tables)
  rw [mergeAll_eq] at many
  omega

/-- A table that gives no live item under a key without one is not taken from. -/
theorem merge_of_live {store : Store} {now : Instant} {incoming : Table Item}
    (h : ∀ key, (Item.live? now (incoming.get? key)).isSome →
      (Item.live? now (store.items.get? key)).isSome) :
    store.merge now incoming = (0, store) := by
  have same : (store.acceptMany now incoming.entries).2 = (store.acceptMany now []).2 :=
    acceptMany_eq rfl rfl fun key => (get?_merge _ _ _ _).trans (Item.merged_of_live (h key))
  have grown := store.merge_grows now incoming
  rw [merge, same] at grown
  exact Prod.ext (Nat.add_right_cancel (grown.trans (Nat.zero_add _).symm)) same

theorem mergeAll_exhausts (store : Store) (now : Instant) {tables : List (Table Item)}
    {incoming : Table Item} (h : incoming ∈ tables) :
    (store.mergeAll now tables).2.merge now incoming = (0, (store.mergeAll now tables).2) := by
  refine merge_of_live fun key gives => ?_
  have first : ((Table.firstVisible now tables).get? key).isSome := by
    rw [Table.get?_firstVisible, List.findSome?_isSome_iff]
    refine ⟨incoming, h, ?_⟩
    simp only [Item.visibleAt_eq]
    exact gives
  rw [mergeAll_eq, get?_merge, Item.live?_merged, Table.live?_firstVisible, Option.isSome_or, first,
    Bool.or_true]

/-- A merge is the union in which live items win over what comes in: a key takes the item that comes
in if that is visible and no visible item is there, and otherwise keeps what it had. The count is
the number of keys that take an item. The order in which the items come in makes no difference.

Merging table after table is merging the first visible item under each key, with the same number of
items in all; none of the tables has then anything left to give. -/
theorem merge_first_visible (store : Store) (now : Instant) :
    (∀ incoming : Table Item,
      let (count, after) := store.merge now incoming
      (∀ key item, store.Takes now incoming key item → after.items.get? key = some item) ∧
      (∀ key, (∀ item, ¬ store.Takes now incoming key item) →
        after.items.get? key = store.items.get? key) ∧
      count = {key | ∃ item, store.Takes now incoming key item}.ncard ∧
      after.lifetime = store.lifetime ∧ after.counts = store.counts ∧
      ∀ order : List (String × Item), order.Perm incoming.entries →
        store.acceptMany now order = (count, after)) ∧
    ∀ tables : List (Table Item), ∃ first : Table Item,
      (∀ key, first.get? key =
        tables.findSome? fun items => (items.get? key).filter fun item => item.visibleAt now) ∧
      let (counts, after) := store.mergeAll now tables
      (counts.sum, after) = store.merge now first ∧
      ∀ incoming ∈ tables, after.merge now incoming = (0, after) := by
  refine ⟨fun incoming => ⟨fun key item => get?_merge_of_takes, fun key => get?_merge_of_not_takes,
    merge_ncard, (merge_frame store now incoming).1, (merge_frame store now incoming).2,
    fun order => acceptMany_perm⟩, fun tables => ⟨Table.firstVisible now tables,
    Table.get?_firstVisible now tables, ?_, fun incoming => store.mergeAll_exhausts now⟩⟩
  exact Prod.ext (store.mergeAll_sum now tables) (store.mergeAll_eq now tables)

/-- An item that is live up to a number of nanoseconds. -/
def upTo (nanos : Int) : Item := ⟨Value.null, some (.ofInstant (.nearest nanos))⟩

/-- A store with an item that has expired after 9 ns and one that has not. -/
def halfExpired : Store := ⟨.ofList [("a", upTo 9), ("b", upTo 11)], none, .zero⟩

/-- Two tables with items for both keys; the deadline of one item is the reading of the clock. -/
def arriving : List (Table Item) :=
  [.ofList [("a", upTo 9), ("b", upTo 20)], .ofList [("a", upTo 10), ("b", upTo 30)]]

theorem merge_first_visible_at_deadline :
    ∃ second ∈ arriving, halfExpired.Takes (.nearest 10) second "a" (upTo 10) ∧
      (halfExpired.merge (.nearest 10) second).2.items.get? "a" = some (upTo 10) ∧
      (halfExpired.merge (.nearest 10) second).2.items.get? "b" = some (upTo 11) ∧
      halfExpired.acceptMany (.nearest 10) second.entries.reverse =
        halfExpired.merge (.nearest 10) second ∧
      (halfExpired.mergeAll (.nearest 10) arriving).2.merge (.nearest 10) second =
        (0, (halfExpired.mergeAll (.nearest 10) arriving).2) := by
  obtain ⟨one, many⟩ := merge_first_visible halfExpired (.nearest 10)
  obtain ⟨second, member⟩ : ∃ second, second = arriving[1] := ⟨_, rfl⟩
  have here : second ∈ arriving := member ▸ List.getElem_mem _
  obtain ⟨taken, left, -, -, -, orders⟩ := one second
  obtain ⟨first, -, -, exhausted⟩ := many arriving
  have takes : halfExpired.Takes (.nearest 10) second "a" (upTo 10) := by
    refine member ▸ ⟨rfl, by decide +kernel, fun resident found => ?_⟩
    obtain rfl : upTo 9 = resident := Option.some.inj found
    decide +kernel
  have resident : halfExpired.items.get? "b" = some (upTo 11) := rfl
  have spares : ∀ item, ¬ halfExpired.Takes (.nearest 10) second "b" item := fun item takes =>
    absurd (takes.2.2 _ resident) (by decide +kernel)
  exact ⟨second, here, takes, taken "a" _ takes, (left "b" spares).trans resident,
    orders _ (List.reverse_perm _), exhausted second here⟩

end Store

end ExpiringCache
