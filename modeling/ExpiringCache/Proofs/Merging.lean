import ExpiringCache.Proofs.KeyEffects

/-!
# Merging tables into a store

A merge is decided key by key, whatever the order in which the items are taken in: a live item in
the store stays, in its absence a live item that comes in is put there, and in the absence of both
the key keeps what it had (`Item.merged`, `Store.get?_merge`). The count is the number of incoming
items that are live and whose keys hold no live item (`Store.merge_count`); the store grows by
those of them under whose keys there was nothing at all (`Store.merge_size`).
-/

namespace ExpiringCache

/-- What is under a key after a merge. -/
def Item.merged (now : Instant) (resident incoming : Option Item) : Option Item :=
  (Item.live? now resident).or ((Item.live? now incoming).or resident)

/-- An item that comes in is taken in. -/
def Item.admitted (now : Instant) (resident : Option Item) (incoming : Item) : Bool :=
  !incoming.expired now && (Item.live? now resident).isNone

namespace Item

theorem live?_some (now : Instant) (item : Item) :
    Item.live? now (some item) = if item.expired now then none else some item := by
  rw [Item.live?, Option.filter_some]
  cases item.expired now <;> rfl

theorem merged_none (now : Instant) (resident : Option Item) :
    Item.merged now resident none = resident := by
  rw [Item.merged]
  cases resident with
  | none => rfl
  | some item =>
    rw [live?_some]
    split <;> rfl

theorem merged_of_not_admitted {now : Instant} {resident : Option Item} {incoming : Item}
    (h : Item.admitted now resident incoming = false) :
    Item.merged now resident (some incoming) = resident := by
  rw [Item.merged, live?_some]
  cases resident with
  | none =>
    simp only [Item.admitted, Item.live?, Option.filter_none, Option.isNone_none, Bool.and_true,
      Bool.not_eq_false'] at h
    rw [h]
    rfl
  | some item =>
    rw [Item.admitted, live?_some] at h
    rw [live?_some]
    cases he : item.expired now with
    | false => rfl
    | true =>
      rw [he] at h
      simp only [if_true, Option.isNone_none, Bool.and_true, Bool.not_eq_false'] at h
      rw [h]
      rfl

theorem merged_of_admitted {now : Instant} {resident : Option Item} {incoming : Item}
    (h : Item.admitted now resident incoming = true) :
    Item.merged now resident (some incoming) = some incoming := by
  simp only [Item.admitted, Bool.and_eq_true, Bool.not_eq_true', Option.isNone_iff_eq_none] at h
  rw [Item.merged, h.2, live?_some, h.1]
  rfl

/-- A merge leaves what it finds or puts in its place what comes in. -/
theorem merged_cases (now : Instant) (resident incoming : Option Item) :
    Item.merged now resident incoming = resident ∨
      ∃ item, incoming = some item ∧ Item.merged now resident incoming = some item := by
  cases incoming with
  | none => exact .inl (Item.merged_none now resident)
  | some item =>
    cases ha : Item.admitted now resident item with
    | false => exact .inl (Item.merged_of_not_admitted ha)
    | true => exact .inr ⟨item, rfl, Item.merged_of_admitted ha⟩

end Item

namespace Store

open Table (find?)

theorem accept_eq (store : Store) (now : Instant) (key : String) (item : Item) :
    store.accept now key item =
      (Item.admitted now (store.items.get? key) item,
        { store with
          items := store.items.put key
            (Item.merged now (store.items.get? key) (some item)) }) := by
  have hc :
      (item.expired now ∨ (store.items.get? key).any (fun resident => !resident.expired now)) ↔
        Item.admitted now (store.items.get? key) item = false := by
    rw [Item.admitted]
    cases store.items.get? key with
    | none => simp [Item.live?]
    | some resident => cases hr : resident.expired now <;> simp [Item.live?_some, hr]
  rw [accept]
  cases ha : Item.admitted now (store.items.get? key) item with
  | false => rw [if_pos (hc.2 ha), Item.merged_of_not_admitted ha, Table.put_get?]
  | true =>
    rw [if_neg (by rw [hc, ha]; decide), Item.merged_of_admitted ha]
    rfl

theorem acceptMany_frame (now : Instant) (entries : List (String × Item)) (store : Store) :
    (store.acceptMany now entries).2.lifetime = store.lifetime ∧
      (store.acceptMany now entries).2.counts = store.counts := by
  induction entries generalizing store with
  | nil => exact ⟨rfl, rfl⟩
  | cons p entries ih =>
    simp only [acceptMany, accept_eq]
    exact ih _

theorem get?_acceptMany (now : Instant) {entries : List (String × Item)}
    (h : Table.Distinct entries) (store : Store) (key : String) :
    (store.acceptMany now entries).2.items.get? key =
      Item.merged now (store.items.get? key) (find? key entries) := by
  induction entries generalizing store with
  | nil => exact (Item.merged_none now _).symm
  | cons p entries ih =>
    obtain ⟨hp, hr⟩ := List.pairwise_cons.1 h
    simp only [acceptMany, accept_eq, find?]
    rw [ih hr, Table.get?_put]
    by_cases e : p.1 = key
    · have hn : find? key entries = none :=
        Table.find?_eq_none_of_forall_ne fun q hq e' => hp q hq (e.trans e'.symm)
      rw [if_pos e, if_pos e, hn, Item.merged_none, e]
    · rw [if_neg e, if_neg e]

/-- What is put under a key makes no difference to what is under the others. -/
theorem countP_put (items : Table Item) {key : String} (entry : Option Item)
    {entries : List (String × Item)} (h : ∀ p ∈ entries, key ≠ p.1)
    (f : Option Item → Item → Bool) :
    (entries.countP fun p => f ((items.put key entry).get? p.1) p.2) =
      entries.countP fun p => f (items.get? p.1) p.2 :=
  List.countP_congr fun p hp => by rw [Table.get?_put, if_neg (h p hp)]

theorem acceptMany_count (now : Instant) {entries : List (String × Item)}
    (h : Table.Distinct entries) (store : Store) :
    (store.acceptMany now entries).1 =
      entries.countP fun p => Item.admitted now (store.items.get? p.1) p.2 := by
  induction entries generalizing store with
  | nil => rfl
  | cons p entries ih =>
    obtain ⟨hp, hr⟩ := List.pairwise_cons.1 h
    simp only [acceptMany, accept_eq]
    rw [ih hr, List.countP_cons, countP_put store.items _ hp (Item.admitted now)]
    cases Item.admitted now (store.items.get? p.1) p.2 <;> rfl

theorem acceptMany_size (now : Instant) {entries : List (String × Item)}
    (h : Table.Distinct entries) (store : Store) :
    (store.acceptMany now entries).2.size = store.size +
      entries.countP fun p => Item.admitted now (store.items.get? p.1) p.2 &&
        (store.items.get? p.1).isNone := by
  induction entries generalizing store with
  | nil => rfl
  | cons p entries ih =>
    obtain ⟨hp, hr⟩ := List.pairwise_cons.1 h
    simp only [acceptMany, accept_eq]
    have hs := store.items.size_put p.1 (Item.merged now (store.items.get? p.1) (some p.2))
    rw [ih hr, countP_put store.items _ hp fun resident item =>
      Item.admitted now resident item && resident.isNone, List.countP_cons]
    simp only [size]
    cases ha : Item.admitted now (store.items.get? p.1) p.2 with
    | false =>
      rw [Item.merged_of_not_admitted ha] at hs ⊢
      simp only [Bool.false_and, Bool.false_eq_true, if_false]
      omega
    | true =>
      rw [Item.merged_of_admitted ha] at hs ⊢
      generalize store.items.get? p.1 = resident at hs ⊢
      cases resident with
      | none =>
        simp only [Option.isNone_none, Option.isSome_none, Option.isSome_some, Bool.true_and,
          Bool.toNat_false, Bool.toNat_true, if_true] at hs ⊢
        omega
      | some item =>
        simp only [Option.isNone_some, Option.isSome_some, Bool.and_false, Bool.false_eq_true,
          if_false] at hs ⊢
        omega

theorem get?_merge (store : Store) (now : Instant) (incoming : Table Item) (key : String) :
    (store.merge now incoming).2.items.get? key =
      Item.merged now (store.items.get? key) (incoming.get? key) :=
  get?_acceptMany now (Table.Ascending.distinct incoming.ascending) store key

theorem merge_count (store : Store) (now : Instant) (incoming : Table Item) :
    (store.merge now incoming).1 =
      incoming.entries.countP fun p => Item.admitted now (store.items.get? p.1) p.2 :=
  acceptMany_count now (Table.Ascending.distinct incoming.ascending) store

theorem merge_size (store : Store) (now : Instant) (incoming : Table Item) :
    (store.merge now incoming).2.size = store.size +
      incoming.entries.countP fun p => Item.admitted now (store.items.get? p.1) p.2 &&
        (store.items.get? p.1).isNone :=
  acceptMany_size now (Table.Ascending.distinct incoming.ascending) store

theorem merge_frame (store : Store) (now : Instant) (incoming : Table Item) :
    (store.merge now incoming).2.lifetime = store.lifetime ∧
      (store.merge now incoming).2.counts = store.counts :=
  acceptMany_frame now incoming.entries store

theorem lifetime_perform (store : Store) (now : Instant) (operation : Operation) :
    (store.perform now operation).2.lifetime = store.lifetime := by
  cases operation using Operation.cases_on_key with
  | on operation key => exact lifetime_perform_on store now key operation
  | deleteExpired => rfl
  | flush => rfl
  | save sink => rfl
  | load source =>
    simp only [Store.perform, load]
    cases Snapshot.load source with
    | error failure => rfl
    | ok incoming => exact (merge_frame store now incoming).1

end Store

end ExpiringCache
