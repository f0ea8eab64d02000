import ExpiringCache.Proofs.Division

/-!
# What an operation on one key touches

`KeyOperation.Does` lists all that an operation on a key can do, by what it finds there: it stores an
item, it misses, it refuses a value of another kind, it finds what it looks up, it changes a number,
or it deletes. In each case the answer or error determines what is left under the key and whether an
expiration is counted (`KeyOperation.does_effect`).

From this follows what the operation may touch in a table (`KeyOperation.Does.footprint`), hence in a
store, and in every key space that holds what a single store holds: after every run, in a cache of
any kind and with any number of shards (`Cache.operation_footprint`).
-/

namespace ExpiringCache

/-! ## Answers, values, kinds -/

/-- The answer or error says that no live item is under the key. -/
inductive Missing : Except Failure Reply → Prop
  | notFound (key : String) : Missing (.error (.notFound key))
  | value : Missing (.ok (.value none))
  | text : Missing (.ok (.text none))
  | flag : Missing (.ok (.flag false))

/-- The values are integers of one type or floats of one format. -/
inductive Value.SameVariant : Value → Value → Prop
  | int {a b : FixedInt} (h : a.type = b.type) : SameVariant (.leaf (.int a)) (.leaf (.int b))
  | float32 (x y : Binary32) : SameVariant (.leaf (.float32 x)) (.leaf (.float32 y))
  | float64 (x y : Binary64) : SameVariant (.leaf (.float64 x)) (.leaf (.float64 y))

namespace Value

variable {value value' : Value}

theorem sameVariant_of_increment? {delta answer : Int64}
    (h : value.increment? delta = some (value', answer)) : value.SameVariant value' := by
  unfold increment? at h
  split at h
  · obtain ⟨rfl, -⟩ := Prod.mk.inj (Option.some.inj h)
    exact .int rfl
  · cases h

theorem sameVariant_of_decrement? {delta answer : Int64}
    (h : value.decrement? delta = some (value', answer)) : value.SameVariant value' := by
  unfold decrement? at h
  split at h
  · obtain ⟨rfl, -⟩ := Prod.mk.inj (Option.some.inj h)
    exact .int rfl
  · cases h

theorem sameVariant_of_incrementFloat? {delta answer : Binary64}
    (h : value.incrementFloat? delta = some (value', answer)) : value.SameVariant value' := by
  unfold incrementFloat? at h
  split at h
  · obtain ⟨rfl, -⟩ := Prod.mk.inj (Option.some.inj h)
    exact .float32 _ _
  · obtain ⟨rfl, -⟩ := Prod.mk.inj (Option.some.inj h)
    exact .float64 _ _
  · cases h

end Value

/-- What an operation on a key is for. -/
inductive KeyOperation.Purpose where
  | store | lookUp | delete | change
  deriving DecidableEq

/-- The purpose of the operation. -/
def KeyOperation.purpose : KeyOperation → Purpose
  | .set _ _ => .store
  | .get | .getText | .contains => .lookUp
  | .delete => .delete
  | .increment _ | .incrementFloat _ | .decrement _ => .change

theorem Item.live?_eq_some_iff {now : Instant} {found : Option Item} {item : Item} :
    live? now found = some item ↔ found = some item ∧ item.expired now = false := by
  rw [live?, Option.filter_eq_some_iff, Bool.not_eq_true']

theorem Item.live?_eq_none_iff {now : Instant} {found : Option Item} :
    live? now found = none ↔ ∀ item, found = some item → item.expired now = true := by
  simp only [live?, Option.filter_eq_none_iff, Bool.not_eq_true', Bool.not_eq_false]

/-! ## All that an operation can do -/

namespace KeyOperation

/-- All that an operation on a key does, by its purpose and by the item that it finds or the lack of
one: its answer or error, what it leaves under the key, and how many expirations it counts. -/
inductive Does (key : String) (now : Instant) :
    Purpose → Option Item → Except Failure Reply → Option Item → Nat → Prop
  | stores {found : Option Item} {item : Item} : Does key now .store found (.ok .done) (some item) 0
  /-- A lookup finds nothing; an item that has expired goes and is counted. -/
  | misses {found : Option Item} {reply : Reply} (dead : Item.live? now found = none)
      (missing : Missing (.ok reply)) :
      Does key now .lookUp found (.ok reply) none (found.any fun item => item.expired now).toNat
  /-- There is nothing to delete or to change; an item that has expired goes and is counted. -/
  | fails {purpose : Purpose} {found : Option Item} (acts : purpose = .delete ∨ purpose = .change)
      (dead : Item.live? now found = none) :
      Does key now purpose found (.error (.notFound key)) none
        (found.any fun item => item.expired now).toNat
  | refuses {purpose : Purpose} {item : Item} {expected : Expected}
      (typed : purpose = .lookUp ∨ purpose = .change) (live : item.expired now = false) :
      Does key now purpose (some item) (.error (.wrongType key expected)) (some item) 0
  | finds {item : Item} {reply : Reply} (live : item.expired now = false)
      (present : ¬ Missing (.ok reply)) :
      Does key now .lookUp (some item) (.ok reply) (some item) 0
  | changes {item : Item} {value : Value} {reply : Reply} (live : item.expired now = false)
      (variant : item.value.SameVariant value) (present : ¬ Missing (.ok reply)) :
      Does key now .change (some item) (.ok reply) (some ⟨value, item.deadline⟩) 0
  | deletes {item : Item} (live : item.expired now = false) :
      Does key now .delete (some item) (.ok (.count 1)) none 0

variable {key : String} {now : Instant} {found : Option Item}

theorem expired_expiry?_of_live {item : Item} (live : item.expired now = false) :
    (Item.expiry? now (some item)).expired = 0 := by
  rw [Item.expiry?, Option.any_some, live]
  rfl

theorem expired_lookup {α : Type} (counted : Tally) (live : Option α) :
    (counted.lookup live).expired = counted.expired := by
  cases live <;> rfl

theorem does_modify {α : Type} {reply : α → Reply} {expected : Expected}
    {change : Value → Option (Value × α)}
    (numeric : ∀ answer, ¬ Missing (.ok (reply answer)))
    (variant : ∀ value value' answer, change value = some (value', answer) →
      value.SameVariant value') :
    let effect := Effect.modify reply key expected change (Item.expiry? now found)
      (Item.live? now found)
    Does key now .change found effect.outcome.result effect.left effect.counted.expired := by
  cases hl : Item.live? now found with
  | none => exact .fails (.inr rfl) hl
  | some item =>
    obtain ⟨rfl, live⟩ := Item.live?_eq_some_iff.1 hl
    rw [Effect.modify]
    cases hc : change item.value with
    | none =>
      dsimp only
      rw [expired_expiry?_of_live live]
      exact .refuses (.inr rfl) live
    | some changed =>
      obtain ⟨value, answer⟩ := changed
      dsimp only
      rw [expired_expiry?_of_live live]
      exact .changes live (variant _ _ _ hc) (numeric answer)

/-- Whatever an operation makes of what is under its key is in the list. -/
theorem does_effect (operation : KeyOperation) (key : String) (now : Instant)
    (lifetime : Option Duration) (found : Option Item) :
    let effect := operation.effect now lifetime key found
    Does key now operation.purpose found effect.outcome.result effect.left
      effect.counted.expired := by
  cases operation with
  | get =>
    simp only [effect, expired_lookup]
    cases hl : Item.live? now found with
    | none => exact .misses hl .value
    | some item =>
      obtain ⟨rfl, live⟩ := Item.live?_eq_some_iff.1 hl
      rw [expired_expiry?_of_live live]
      exact .finds live (by rintro ⟨⟩)
  | getText =>
    simp only [effect, expired_lookup]
    cases hl : Item.live? now found with
    | none => exact .misses hl .text
    | some item =>
      obtain ⟨rfl, live⟩ := Item.live?_eq_some_iff.1 hl
      rw [expired_expiry?_of_live live]
      dsimp only
      cases Value.text? item.value with
      | none => exact .refuses (.inl rfl) live
      | some text => exact .finds live (by rintro ⟨⟩)
  | set value expiry => exact .stores
  | contains =>
    simp only [effect]
    cases hl : Item.live? now found with
    | none => exact .misses hl .flag
    | some item =>
      obtain ⟨rfl, live⟩ := Item.live?_eq_some_iff.1 hl
      rw [expired_expiry?_of_live live]
      exact .finds live (by rintro ⟨⟩)
  | delete =>
    simp only [effect]
    cases hl : Item.live? now found with
    | none => exact .fails (.inl rfl) hl
    | some item =>
      obtain ⟨rfl, live⟩ := Item.live?_eq_some_iff.1 hl
      rw [expired_expiry?_of_live live]
      exact .deletes live
  | increment delta =>
    exact does_modify (by rintro _ ⟨⟩) fun _ _ _ => Value.sameVariant_of_increment?
  | incrementFloat delta =>
    exact does_modify (by rintro _ ⟨⟩) fun _ _ _ => Value.sameVariant_of_incrementFloat?
  | decrement delta =>
    exact does_modify (by rintro _ ⟨⟩) fun _ _ _ => Value.sameVariant_of_decrement?

namespace Does

variable {purpose : Purpose} {result : Except Failure Reply} {left : Option Item} {counted : Nat}

theorem names_key (done : Does key now purpose found result left counted) {failure : Failure}
    (h : result = .error failure) :
    failure = .notFound key ∨ ∃ expected, failure = .wrongType key expected := by
  cases done with
  | fails _ _ => exact .inl (Except.error.inj h).symm
  | refuses _ _ => exact .inr ⟨_, (Except.error.inj h).symm⟩
  | _ => cases h

theorem of_missing (done : Does key now purpose found result left counted)
    (missing : Missing result) :
    left = none ∧ Item.live? now found = none ∧
      counted = (found.any fun item => item.expired now).toNat := by
  cases done with
  | misses dead _ => exact ⟨rfl, dead, rfl⟩
  | fails _ dead => exact ⟨rfl, dead, rfl⟩
  | finds _ present => exact absurd missing present
  | changes _ _ present => exact absurd missing present
  | _ => cases missing

/-- But for an operation that stores, nothing is reported missing that is live, and nothing that is
not live goes unreported. -/
theorem missing_iff (done : Does key now purpose found result left counted)
    (looks : purpose ≠ .store) : Missing result ↔ Item.live? now found = none := by
  refine ⟨fun missing => (done.of_missing missing).2.1, fun dead => ?_⟩
  have absurd_live {item : Item} (live : item.expired now = false)
      (dead : Item.live? now (some item) = none) : False := by
    rw [Item.live?_eq_some_iff.2 ⟨rfl, live⟩] at dead
    cases dead
  cases done with
  | stores => exact absurd rfl looks
  | misses _ missing => exact missing
  | fails _ _ => exact .notFound key
  | refuses _ live => exact (absurd_live live dead).elim
  | finds live _ => exact (absurd_live live dead).elim
  | changes live _ _ => exact (absurd_live live dead).elim
  | deletes live => exact (absurd_live live dead).elim

theorem of_wrongType (done : Does key now purpose found result left counted) {name : String}
    {expected : Expected} (h : result = .error (.wrongType name expected)) :
    left = found ∧ counted = 0 := by
  cases done with
  | refuses _ _ => exact ⟨rfl, rfl⟩
  | _ => cases h

theorem of_found (done : Does key now .lookUp found result left counted)
    (present : ¬ Missing result) : left = found ∧ counted = 0 := by
  cases done with
  | refuses _ _ => exact ⟨rfl, rfl⟩
  | finds _ _ => exact ⟨rfl, rfl⟩
  | misses _ missing => exact absurd missing present
  | fails _ _ => exact absurd (.notFound key) present

theorem of_changed (done : Does key now .change found result left counted) {reply : Reply}
    (h : result = .ok reply) :
    ∃ item value, found = some item ∧ item.expired now = false ∧ item.value.SameVariant value ∧
      left = some ⟨value, item.deadline⟩ ∧ counted = 0 := by
  cases done with
  | changes live variant _ => exact ⟨_, _, rfl, live, variant, rfl, rfl⟩
  | fails _ _ => cases h
  | refuses _ _ => cases h

theorem of_deleted (done : Does key now .delete found result left counted) {reply : Reply}
    (h : result = .ok reply) :
    (∃ item, found = some item ∧ item.expired now = false) ∧ reply = .count 1 ∧ left = none ∧
      counted = 0 := by
  cases done with
  | deletes live => exact ⟨⟨_, rfl, live⟩, (Except.ok.inj h).symm, rfl, rfl⟩
  | fails _ _ => cases h
  | refuses _ _ => cases h

theorem deletes_iff (done : Does key now .delete found result left counted) :
    (∃ reply, result = .ok reply) ↔ ∃ item, found = some item ∧ item.expired now = false := by
  refine ⟨fun ⟨reply, h⟩ => (done.of_deleted h).1, fun ⟨item, here, live⟩ => ?_⟩
  cases done with
  | deletes _ => exact ⟨_, rfl⟩
  | fails _ dead =>
    rw [Item.live?_eq_some_iff.2 ⟨here, live⟩] at dead
    cases dead
  | refuses typed _ => cases typed <;> contradiction

end Does

/-! ## What an operation may touch -/

/-- What an operation on a key may touch in a table of items and in a count of expirations, by its
answer or error. -/
structure Footprint (operation : KeyOperation) (key : String) (now : Instant)
    (result : Except Failure Reply) (items items' : Table Item) (expired expired' : Nat) : Prop where
  /-- The items under other keys, live or expired, stay as they are. -/
  others : ∀ key', key ≠ key' → items'.get? key' = items.get? key'
  names_key : ∀ failure, result = .error failure →
    failure = .notFound key ∨ ∃ expected, failure = .wrongType key expected
  /-- Just what is not live is reported missing. -/
  missing_iff : operation.purpose ≠ .store →
    (Missing result ↔ ∀ item, items.get? key = some item → item.expired now = true)
  /-- Where nothing was, nothing changes. An expired item goes and is counted once. -/
  missing : Missing result →
    (items.get? key = none ∧ items' = items ∧ expired' = expired) ∨
      ∃ item, items.get? key = some item ∧ item.expired now = true ∧
        items' = items.erase key ∧ expired' = expired + 1
  refused : ∀ name expected, result = .error (.wrongType name expected) →
    items' = items ∧ expired' = expired
  found : operation.purpose = .lookUp → ¬ Missing result → items' = items ∧ expired' = expired
  /-- A change keeps the type of the number, and the deadline. -/
  changed : operation.purpose = .change → ∀ reply, result = .ok reply →
    ∃ item value, items.get? key = some item ∧ item.expired now = false ∧
      item.value.SameVariant value ∧ items' = items.insert key ⟨value, item.deadline⟩ ∧
      expired' = expired
  /-- Just what is live can be deleted. -/
  deletes_iff : operation.purpose = .delete →
    ((∃ reply, result = .ok reply) ↔ ∃ item, items.get? key = some item ∧ item.expired now = false)
  deleted : operation.purpose = .delete → ∀ reply, result = .ok reply →
    reply = .count 1 ∧ items' = items.erase key ∧ expired' = expired

/-- What is done where one key's item is, is all that happens to the table. -/
theorem Does.footprint {operation : KeyOperation} {items : Table Item}
    {result : Except Failure Reply} {left : Option Item} {counted : Nat}
    (done : Does key now operation.purpose (items.get? key) result left counted) (expired : Nat) :
    operation.Footprint key now result items (items.put key left) expired (expired + counted) where
  others key' other := by rw [Table.get?_put, if_neg other]
  names_key failure h := done.names_key h
  missing_iff looks := (done.missing_iff looks).trans Item.live?_eq_none_iff
  missing missing := by
    obtain ⟨rfl, dead, rfl⟩ := done.of_missing missing
    cases hf : items.get? key with
    | none =>
      have unchanged := items.put_get? key
      rw [hf] at unchanged
      exact .inl ⟨rfl, unchanged, rfl⟩
    | some item =>
      have gone := Item.live?_eq_none_iff.1 dead item hf
      refine .inr ⟨item, rfl, gone, rfl, ?_⟩
      rw [Option.any_some, gone]
      rfl
  refused name expected h := by
    obtain ⟨rfl, rfl⟩ := done.of_wrongType h
    exact ⟨items.put_get? key, rfl⟩
  found purpose present := by
    obtain ⟨rfl, rfl⟩ := (purpose ▸ done).of_found present
    exact ⟨items.put_get? key, rfl⟩
  changed purpose reply h := by
    obtain ⟨item, value, here, live, variant, rfl, rfl⟩ := (purpose ▸ done).of_changed h
    exact ⟨item, value, here, live, variant, rfl, rfl⟩
  deletes_iff purpose := (purpose ▸ done).deletes_iff
  deleted purpose reply h := by
    obtain ⟨-, answer, rfl, rfl⟩ := (purpose ▸ done).of_deleted h
    exact ⟨answer, rfl, rfl⟩

end KeyOperation

/-! ## Stores, key spaces, caches -/

theorem Store.footprint_perform_on (store : Store) (now : Instant) (key : String)
    (operation : KeyOperation) :
    let done := store.perform now (operation.on key)
    operation.Footprint key now done.1.result store.items done.2.items store.tally.expired
      done.2.tally.expired := by
  rw [perform_on]
  exact (operation.does_effect key now store.lifetime (store.items.get? key)).footprint _

namespace KeySpace

variable {space : KeySpace}

theorem Holds.footprint_perform_on {store : Store} (h : space.Holds store) (now : Instant)
    (key : String) (operation : KeyOperation) :
    let done := space.perform now (operation.on key)
    operation.Footprint key now done.1.result space.items done.2.items space.tally.expired
      done.2.tally.expired := by
  obtain ⟨outcome, held⟩ := h.perform now (operation.on key)
  dsimp only
  rw [outcome, h.items_eq, h.tally_eq, held.items_eq, held.tally_eq]
  exact store.footprint_perform_on now key operation

theorem getElem?_perform_on (space : KeySpace) (now : Instant) (key : String)
    (operation : KeyOperation) (i : Nat) :
    (space.perform now (operation.on key)).2.stores[i]? = space.stores[i]?.map fun store =>
      if space.bucket key = i then (store.perform now (operation.on key)).2 else store := by
  rw [perform_on_eq_mapStores, stores_mapStores, List.getElem?_mapIdx]

theorem getElem?_zero (space : KeySpace) :
    space.stores[0]?.map Store.lifetime = some space.lifetime := by
  cases space with
  | single store => rfl
  | sharded shards => exact shards.getElem?_zero

theorem lifetimes_perform_on (space : KeySpace) (now : Instant) (key : String)
    (operation : KeyOperation) (i : Nat) :
    (space.perform now (operation.on key)).2.stores[i]?.map Store.lifetime =
      space.stores[i]?.map Store.lifetime := by
  rw [getElem?_perform_on, Option.map_map]
  congr 1
  funext store
  rw [Function.comp_apply]
  split
  · exact store.lifetime_perform_on now key operation
  · rfl

theorem lifetime_perform_on (space : KeySpace) (now : Instant) (key : String)
    (operation : KeyOperation) :
    (space.perform now (operation.on key)).2.lifetime = space.lifetime := by
  refine Option.some.inj ?_
  rw [← getElem?_zero, ← getElem?_zero, lifetimes_perform_on]

end KeySpace

namespace Cache

/-- After every run of a cache of any kind, and in each of its stores, an operation on a key touches
no more than it may: no other key, no default lifetime and no store but the one that the key is
routed to. What is reported missing is removed if it had expired, and counted once; an error about
the type changes nothing; a change of a number keeps its type and its deadline; and a deletion
succeeds just for a live item, which it removes. -/
theorem operation_footprint {cache : Cache} (fresh : cache.space.Fresh)
    (before : List (Instant × CacheStep)) (now : Instant) (key : String)
    (operation : KeyOperation) :
    let reached := (cache.through before).space
    let done := (cache.through before).perform now (operation.on key)
    operation.Footprint key now done.1.result reached.items done.2.2.space.items
        reached.tally.expired done.2.2.space.tally.expired ∧
      done.2.2.space.lifetime = reached.lifetime ∧
      (∀ i : Nat,
        done.2.2.space.stores[i]?.map Store.lifetime = reached.stores[i]?.map Store.lifetime) ∧
      (∀ i : Nat, reached.bucket key ≠ i → done.2.2.space.stores[i]? = reached.stores[i]?) ∧
      ∀ store ∈ reached.stores,
        let done := store.perform now (operation.on key)
        operation.Footprint key now done.1.result store.items done.2.items store.tally.expired
            done.2.tally.expired ∧
          done.2.lifetime = store.lifetime := by
  obtain ⟨store, held⟩ := holds_through fresh before
  generalize cache.through before = reached at held
  refine ⟨held.footprint_perform_on now key operation,
    reached.space.lifetime_perform_on now key operation,
    reached.space.lifetimes_perform_on now key operation, fun i elsewhere => ?_, fun store _ =>
      ⟨store.footprint_perform_on now key operation, store.lifetime_perform_on now key operation⟩⟩
  refine (reached.space.getElem?_perform_on now key operation i).trans ?_
  simp only [if_neg elsewhere, Option.map_id']

/-- A number is stored, and a text for a millisecond. -/
def storedBriefly : List (Instant × CacheStep) :=
  [(.nearest 0, .perform (.set "a" (.leaf (.int (.ofInt .uint8 255))) .never)),
    (.nearest 0, .perform (.set "b" (.leaf (.text "v")) (.after (.ofMillis 1))))]

/-- When the text has expired it cannot be deleted, but goes. -/
theorem operation_footprint_once :
    let reached := (threeShards.through storedBriefly).space
    let done := (threeShards.through storedBriefly).perform (.nearest 1000001) (.delete "b")
    threeShards.space.Fresh ∧ done.1.result = .error (.notFound "b") ∧
      done.2.2.space.items = reached.items.erase "b" ∧
      done.2.2.space.tally.expired = reached.tally.expired + 1 := by
  have fresh : threeShards.space.Fresh := .sharded (by decide) none
  obtain ⟨footprint, -⟩ := operation_footprint fresh storedBriefly (.nearest 1000001) "b" .delete
  have result : ((threeShards.through storedBriefly).perform (.nearest 1000001)
      (.delete "b")).1.result = .error (.notFound "b") := by rfl
  rcases footprint.missing (result ▸ .notFound "b") with ⟨none, -, -⟩ | ⟨item, -, -, erased, counted⟩
  · have there : ((threeShards.through storedBriefly).space.items.get? "b").isSome := by
      decide +kernel
    rw [none] at there
    cases there
  · exact ⟨fresh, result, erased, counted⟩

end Cache

end ExpiringCache
