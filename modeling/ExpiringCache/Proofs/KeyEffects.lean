import ExpiringCache.Operation
import ExpiringCache.Proofs.Tables

/-!
# Operations on one key

What an operation on one key does to a store is a function of the clock, the default lifetime and
the item under the key (`KeyOperation.effect`): it answers, leaves an item or none under the key,
and adds to the counts. `Store.perform_on` says that this is all it does, so that what holds of an
effect holds of the operation in every store, single or sharded.

The other operations are on the whole key space (`Operation.cases_on_key`).
-/

namespace ExpiringCache

/-! ## Setting or removing what is under a key -/

namespace Table

variable {α : Type}

/-- Sets what is under a key, or removes it. -/
def put (table : Table α) (key : String) : Option α → Table α
  | some entry => table.insert key entry
  | none => table.erase key

theorem get?_put (table : Table α) (key key' : String) (entry : Option α) :
    (table.put key entry).get? key' = if key = key' then entry else table.get? key' := by
  cases entry with
  | none => exact get?_erase _ _ _
  | some entry => exact get?_insert _ _ _ _

@[simp] theorem get?_put_self (table : Table α) (key : String) (entry : Option α) :
    (table.put key entry).get? key = entry := by
  rw [get?_put, if_pos rfl]

theorem put_put (table : Table α) (key : String) (entry entry' : Option α) :
    (table.put key entry).put key entry' = table.put key entry' := by
  refine ext fun key' => ?_
  simp only [get?_put]
  split <;> rfl

theorem insert_put (table : Table α) (key : String) (entry : Option α) (entry' : α) :
    (table.put key entry).insert key entry' = table.put key (some entry') :=
  put_put table key entry (some entry')

theorem erase_put (table : Table α) (key : String) (entry : Option α) :
    (table.put key entry).erase key = table.put key none :=
  put_put table key entry none

theorem put_get? (table : Table α) (key : String) : table.put key (table.get? key) = table := by
  refine ext fun key' => ?_
  rw [get?_put]
  split
  · rename_i e
    rw [e]
  · rfl

theorem size_put (table : Table α) (key : String) (entry : Option α) :
    (table.put key entry).size + (table.get? key).isSome.toNat =
      table.size + entry.isSome.toNat := by
  cases entry with
  | none => exact size_erase table key
  | some entry => exact size_insert table key entry

end Table

/-! ## Adding to the counts -/

namespace Tally

theorem add_zero (tally : Tally) : tally.add .zero = tally := rfl

theorem add_assoc (a b c : Tally) : (a.add b).add c = a.add (b.add c) := by
  simp only [add, Nat.add_assoc]

/-- Counts a lookup by what it found. -/
def lookup {α : Type} (tally : Tally) : Option α → Tally
  | some _ => tally.hit
  | none => tally.miss

end Tally

/-! ## Effects -/

/-- An operation on one key. -/
inductive KeyOperation where
  | get
  | getText
  | set (value : Value) (expiry : Expiry)
  | contains
  | delete
  | increment (delta : Int64)
  | incrementFloat (delta : Binary64)
  | decrement (delta : Int64)

/-- The operation, on a key. -/
def KeyOperation.on (operation : KeyOperation) (key : String) : Operation :=
  match operation with
  | .get => .get key
  | .getText => .getText key
  | .set value expiry => .set key value expiry
  | .contains => .contains key
  | .delete => .delete key
  | .increment delta => .increment key delta
  | .incrementFloat delta => .incrementFloat key delta
  | .decrement delta => .decrement key delta

/-- An operation is on one key, or it is one of four on the whole key space. -/
@[elab_as_elim]
theorem Operation.cases_on_key {motive : Operation → Prop}
    (on : ∀ (operation : KeyOperation) (key : String), motive (operation.on key))
    (deleteExpired : motive .deleteExpired) (flush : motive .flush)
    (save : ∀ sink, motive (.save sink)) (load : ∀ source, motive (.load source))
    (operation : Operation) : motive operation := by
  cases operation with
  | get key => exact on .get key
  | getText key => exact on .getText key
  | set key value expiry => exact on (.set value expiry) key
  | contains key => exact on .contains key
  | delete key => exact on .delete key
  | increment key delta => exact on (.increment delta) key
  | incrementFloat key delta => exact on (.incrementFloat delta) key
  | decrement key delta => exact on (.decrement delta) key
  | deleteExpired => exact deleteExpired
  | flush => exact flush
  | save sink => exact save sink
  | load source => exact load source

/-- What comes of an operation on one key. -/
structure Effect where
  /-- The answer or the error. -/
  outcome : Outcome
  /-- The item that is then under the key. -/
  left : Option Item
  /-- What is added to the counts. -/
  counted : Tally

/-- The item, if it is live. -/
def Item.live? (now : Instant) (found : Option Item) : Option Item :=
  found.filter fun item => !item.expired now

/-- The count of the item if it has expired. -/
def Item.expiry? (now : Instant) (found : Option Item) : Tally :=
  ⟨0, 0, (found.any fun item => item.expired now).toNat, 0⟩

/-- Changing the value of a live item. -/
def Effect.modify {α : Type} (reply : α → Reply) (key : String) (expected : Expected)
    (change : Value → Option (Value × α)) (counted : Tally) (live : Option Item) : Effect :=
  match live with
  | none => ⟨.of reply (.error (.notFound key)), none, counted⟩
  | some item =>
    match change item.value with
    | none => ⟨.of reply (.error (.wrongType key expected)), some item, counted⟩
    | some (value, answer) => ⟨.of reply (.ok answer), some { item with value := value }, counted⟩

/-- Only the counts depend on what is counted. -/
theorem Effect.modify_counted {α : Type} (reply : α → Reply) (key : String) (expected : Expected)
    (change : Value → Option (Value × α)) (counted : Tally) (live : Option Item) :
    modify reply key expected change counted live =
      { modify reply key expected change .zero live with counted := counted } := by
  unfold modify
  split
  · rfl
  · split <;> rfl

theorem Effect.isSome_left_modify {α : Type} (reply : α → Reply) (key : String)
    (expected : Expected) (change : Value → Option (Value × α)) (counted : Tally)
    (live : Option Item) :
    (modify reply key expected change counted live).left.isSome = live.isSome := by
  unfold modify
  split
  · rfl
  · split <;> rfl

/-- What an operation does where it finds an item or none under its key. Only `set` does not look
at what it finds. -/
def KeyOperation.effect (operation : KeyOperation) (now : Instant) (lifetime : Option Duration)
    (key : String) (found : Option Item) : Effect :=
  let live := Item.live? now found
  let gone := Item.expiry? now found
  match operation with
  | .get => ⟨.of .value (.ok (live.map Item.value)), live, gone.lookup live⟩
  | .getText =>
    let result := match live with
      | none => .ok none
      | some item =>
        match Value.text? item.value with
        | some text => .ok (some text)
        | none => .error (.wrongType key .text)
    ⟨.of .text result, live, gone.lookup live⟩
  | .set value expiry =>
    ⟨⟨.ok .done, []⟩, some (.create value (expiry.resolve lifetime) now), .zero⟩
  | .contains => ⟨.of .flag (.ok live.isSome), live, gone⟩
  | .delete =>
    ⟨.of .count (if live.isSome then .ok 1 else .error (.notFound key)), none, gone⟩
  | .increment delta =>
    .modify .integer key .integer (fun value => Value.increment? delta value) gone live
  | .incrementFloat delta =>
    .modify .float key .float (fun value => Value.incrementFloat? delta value) gone live
  | .decrement delta =>
    .modify .integer key .integer (fun value => Value.decrement? delta value) gone live

namespace Store

/-- The outcome of an effect, and the store after it. -/
def apply (store : Store) (key : String) (effect : Effect) : Outcome × Store :=
  (effect.outcome,
    { store with
      items := store.items.put key effect.left
      counts := store.counts.add effect.counted })

theorem purge_eq (store : Store) (now : Instant) (key : String) :
    store.purge now key =
      { store with
        items := store.items.put key (Item.live? now (store.items.get? key))
        counts := store.counts.add (Item.expiry? now (store.items.get? key)) } := by
  have hput := store.items.put_get? key
  rw [purge]
  split
  · rename_i item hf
    rw [hf] at hput
    split
    · rename_i he
      simp only [hf, Item.live?, Item.expiry?, Option.filter, Option.any_some, he, Bool.not_true,
        Bool.false_eq_true, if_false, Bool.toNat_true, Table.put]
      rfl
    · rename_i he
      simp only [hf, Item.live?, Item.expiry?, Option.filter, Option.any_some, he, Bool.not_false,
        if_true, Bool.toNat_false, hput]
      rfl
  · rename_i hf
    rw [hf] at hput
    simp only [hf, Item.live?, Item.expiry?, Option.filter, Option.any_none, Bool.toNat_false, hput]
    rfl

theorem get_eq (store : Store) (now : Instant) (key : String) :
    store.get now key =
      let live := Item.live? now (store.items.get? key)
      (live.map Item.value,
        { store with
          items := store.items.put key live
          counts := store.counts.add
            ((Item.expiry? now (store.items.get? key)).lookup live) }) := by
  simp only [get, purge_eq, Table.get?_put_self]
  generalize Item.live? now (store.items.get? key) = live
  cases live with
  | none => rfl
  | some item => rfl

theorem modify_eq {α : Type} (reply : α → Reply) (store : Store) (now : Instant) (key : String)
    (expected : Expected) (change : Value → Option (Value × α)) :
    (let (result, after) := store.modify now key expected change
     (Outcome.of reply result, after)) =
      store.apply key (.modify reply key expected change
        (Item.expiry? now (store.items.get? key)) (Item.live? now (store.items.get? key))) := by
  simp only [modify, purge_eq, Table.get?_put_self, Effect.modify, apply]
  generalize Item.live? now (store.items.get? key) = live
  cases live with
  | none => rfl
  | some item =>
    dsimp only
    cases change item.value with
    | none => rfl
    | some changed =>
      dsimp only
      rw [Table.insert_put]

/-- An operation on one key does to a store what its effect says, and nothing else. -/
theorem perform_on (store : Store) (now : Instant) (key : String) (operation : KeyOperation) :
    store.perform now (operation.on key) =
      store.apply key (operation.effect now store.lifetime key (store.items.get? key)) := by
  cases operation with
  | get => simp only [KeyOperation.on, perform, get_eq, KeyOperation.effect, apply]
  | getText =>
    simp only [KeyOperation.on, perform, getText, get_eq, KeyOperation.effect, apply]
    generalize Item.live? now (store.items.get? key) = live
    cases live with
    | none => rfl
    | some item =>
      dsimp only [Option.map_some]
      cases Value.text? item.value <;> rfl
  | set value expiry => rfl
  | contains =>
    simp only [KeyOperation.on, perform, contains, purge_eq, Table.get?_put_self,
      KeyOperation.effect, apply]
  | delete =>
    simp only [KeyOperation.on, perform, delete, purge_eq, Table.get?_put_self,
      KeyOperation.effect, apply]
    generalize Item.live? now (store.items.get? key) = live
    cases live with
    | none => rfl
    | some item =>
      dsimp only
      rw [Table.erase_put]
      rfl
  | increment delta => exact modify_eq .integer store now key .integer _
  | incrementFloat delta => exact modify_eq .float store now key .float _
  | decrement delta => exact modify_eq .integer store now key .integer _

/-! ## What an operation on one key leaves -/

theorem get?_perform_on (store : Store) (now : Instant) (key key' : String)
    (operation : KeyOperation) :
    (store.perform now (operation.on key)).2.items.get? key' =
      if key = key' then (operation.effect now store.lifetime key (store.items.get? key)).left
      else store.items.get? key' := by
  rw [perform_on]
  exact Table.get?_put _ _ _ _

theorem lifetime_perform_on (store : Store) (now : Instant) (key : String)
    (operation : KeyOperation) :
    (store.perform now (operation.on key)).2.lifetime = store.lifetime := by
  rw [perform_on]
  rfl

end Store

end ExpiringCache
