import ExpiringCache.Proofs.Merging
import Mathlib.Data.List.Forall2

/-!
# Stores as timed maps

The reference for a store is a partial map from keys to items (`TimedMap`) that never loses an
entry because its deadline passes: an entry is visible at a reading of the clock if it has no
deadline or one that is not before the reading, and every operation looks at the visible entries
only.

A store removes expired items when it meets them and in sweeps, in whatever order they come. None
of this can be seen: over every run on a clock that does not go back, each answer and error is the
one that the map gives, and after each step the live items are the visible entries, up to the next
step (`Store.trace_refines`). `Store.act_refines` is one step.
-/

namespace ExpiringCache

/-! ## Visibility -/

/-- The deadline is not before a reading of the clock: the seconds are compared first, then the
nanoseconds into the second. -/
def Deadline.Reaches (d : Deadline) (now : Instant) : Prop :=
  now.second < d.second ∨ now.second = d.second ∧ now.nanos % 1000000000 ≤ d.fraction

instance (d : Deadline) (now : Instant) : Decidable (d.Reaches now) :=
  inferInstanceAs (Decidable (_ ∨ _))

/-- The item has no deadline or one that is not before `now`. -/
def Item.visibleAt (item : Item) (now : Instant) : Bool :=
  item.deadline.all fun deadline => decide (deadline.Reaches now)

theorem Deadline.passed_eq (d : Deadline) (now : Instant) :
    d.passed now = !decide (d.Reaches now) := by
  have hf := d.fraction_lt
  rw [Deadline.passed, ← decide_not, decide_eq_decide, Deadline.Reaches, Deadline.lastNanos,
    Instant.second]
  omega

theorem Item.visibleAt_eq (item : Item) (now : Instant) :
    item.visibleAt now = !item.expired now := by
  rw [Item.visibleAt, Item.expired]
  cases item.deadline with
  | none => rfl
  | some deadline => rw [Option.all_some, Option.any_some, Deadline.passed_eq, Bool.not_not]

namespace Item

theorem expired_later {item : Item} {now later : Instant} (h : now ≤ later)
    (he : item.expired now = true) : item.expired later = true := by
  rw [expired, Option.any_eq_true] at he ⊢
  obtain ⟨deadline, hd, hp⟩ := he
  refine ⟨deadline, hd, ?_⟩
  rw [Deadline.passed, decide_eq_true_eq] at hp ⊢
  exact Int.lt_of_lt_of_le hp h

theorem live?_live? {now later : Instant} (h : now ≤ later) (found : Option Item) :
    live? later (live? now found) = live? later found := by
  cases found with
  | none => rfl
  | some item =>
    rw [live?_some now]
    split
    · rename_i he
      rw [live?_some, expired_later h he]
      rfl
    · rfl

theorem live?_self (now : Instant) (found : Option Item) :
    live? now (live? now found) = live? now found := live?_live? (Int.le_refl now.nanos) found

theorem live?_merged (now : Instant) (resident incoming : Option Item) :
    live? now (merged now resident incoming) = (live? now resident).or (live? now incoming) := by
  rw [merged]
  cases hr : live? now resident with
  | some item =>
    have := live?_self now resident
    rw [hr] at this
    simpa using this
  | none =>
    cases hi : live? now incoming with
    | some item =>
      have := live?_self now incoming
      rw [hi] at this
      simpa using this
    | none => simpa using hr

end Item

/-! ## The reference -/

/-- Items under keys, each visible up to its deadline. -/
structure TimedMap where
  /-- The lifetime of values that are stored without one of their own. -/
  lifetime : Option Duration
  /-- What is under each key, visible or not. -/
  entry : String → Option Item

namespace TimedMap

/-- A map without entries. A default lifetime of zero is none. -/
def create (lifetime : Option Duration) : TimedMap := ⟨Duration.nonzero? lifetime, fun _ => none⟩

/-- The visible entry under a key. -/
def visible (map : TimedMap) (now : Instant) (key : String) : Option Item :=
  (map.entry key).filter fun item => item.visibleAt now

/-- Sets or removes the entry under a key. -/
def update (map : TimedMap) (key : String) (entry : Option Item) : TimedMap :=
  { map with entry := fun key' => if key = key' then entry else map.entry key' }

/-- Changes the value of the visible entry under a key and keeps its deadline. -/
def change {α : Type} (map : TimedMap) (now : Instant) (key : String) (expected : Expected)
    (change : Value → Option (Value × α)) (reply : α → Reply) :
    Except Failure Reply × TimedMap :=
  match map.visible now key with
  | none => (.error (.notFound key), map)
  | some item =>
    match change item.value with
    | none => (.error (.wrongType key expected), map)
    | some (value, answer) => (.ok (reply answer), map.update key (some ⟨value, item.deadline⟩))

/-- An item that comes in is visible, and no entry under its key is. -/
def takes (map : TimedMap) (now : Instant) (key : String) (item : Item) : Bool :=
  item.visibleAt now && (map.visible now key).isNone

/-- Takes in the visible ones of the items whose keys have no visible entry; gives their number. -/
def merge (map : TimedMap) (now : Instant) (incoming : Table Item) : Nat × TimedMap :=
  (incoming.entries.countP fun p => map.takes now p.1 p.2,
    { map with entry := fun key =>
        ((incoming.get? key).filter (map.takes now key)).or (map.entry key) })

end TimedMap

/-- A step of a run on a store. -/
inductive StoreAction where
  /-- An operation that every cache has. -/
  | perform (operation : Operation)
  /-- Taking in the items of a table. -/
  | merge (incoming : Table Item)

namespace TimedMap

/-- The step on the map, with its answer or error. How many expired items a sweep removes and what
a save writes of them is not for the map to say. -/
def act (map : TimedMap) (now : Instant) :
    StoreAction → Option (Except Failure Reply) × TimedMap
  | .perform (.get key) => (some (.ok (.value ((map.visible now key).map Item.value))), map)
  | .perform (.getText key) =>
    match map.visible now key with
    | none => (some (.ok (.text none)), map)
    | some item =>
      match Value.text? item.value with
      | some text => (some (.ok (.text (some text))), map)
      | none => (some (.error (.wrongType key .text)), map)
  | .perform (.set key value expiry) =>
    (some (.ok .done), map.update key (some (.create value (expiry.resolve map.lifetime) now)))
  | .perform (.contains key) => (some (.ok (.flag (map.visible now key).isSome)), map)
  | .perform (.delete key) =>
    match map.visible now key with
    | none => (some (.error (.notFound key)), map)
    | some _ => (some (.ok (.count 1)), map.update key none)
  | .perform (.increment key delta) =>
    let (result, map) := map.change now key .integer (Value.increment? delta) .integer
    (some result, map)
  | .perform (.incrementFloat key delta) =>
    let (result, map) := map.change now key .float (Value.incrementFloat? delta) .float
    (some result, map)
  | .perform (.decrement key delta) =>
    let (result, map) := map.change now key .integer (Value.decrement? delta) .integer
    (some result, map)
  | .perform .deleteExpired => (none, map)
  | .perform .flush => (some (.ok .done), { map with entry := fun _ => none })
  | .perform (.save _) => (none, map)
  | .perform (.load source) =>
    match Snapshot.load source with
    | .ok incoming =>
      let (count, map) := map.merge now incoming
      (some (.ok (.count count)), map)
    | .error failure => (some (.error failure), map)
  | .merge incoming =>
    let (count, map) := map.merge now incoming
    (some (.ok (.count count)), map)

/-- The steps of a run, each with its reading of the clock, its answer and the map after it. -/
def trace (map : TimedMap) :
    List (Instant × StoreAction) → List (Instant × Option (Except Failure Reply) × TimedMap)
  | [] => []
  | (now, action) :: rest => (now, map.act now action) :: (map.act now action).2.trace rest

end TimedMap

namespace Store

/-- The step on a store, with its answer or error. -/
def act (store : Store) (now : Instant) : StoreAction → Except Failure Reply × Store
  | .perform operation =>
    let (outcome, store) := store.perform now operation
    (outcome.result, store)
  | .merge incoming =>
    let (count, store) := store.merge now incoming
    (.ok (.count count), store)

/-- The steps of a run, each with its answer and the store after it. -/
def trace (store : Store) :
    List (Instant × StoreAction) → List (Except Failure Reply × Store)
  | [] => []
  | (now, action) :: rest => store.act now action :: (store.act now action).2.trace rest

/-- The live items of the store are the visible entries of the map, at `now` and later, and both
have one default lifetime. -/
def Shows (store : Store) (now : Instant) (map : TimedMap) : Prop :=
  store.lifetime = map.lifetime ∧
    ∀ later, now ≤ later → ∀ key, Item.live? later (store.items.get? key) = map.visible later key

/-- A step of a store shows a step of a map: it gives the answer that the map determines, and the
live items are then the visible entries. -/
def Matches (observed : Except Failure Reply × Store)
    (expected : Instant × Option (Except Failure Reply) × TimedMap) : Prop :=
  (∀ answer, expected.2.1 = some answer → observed.1 = answer) ∧
    observed.2.Shows expected.1 expected.2.2

end Store

/-! ## One step -/

theorem TimedMap.visible_eq (map : TimedMap) (now : Instant) (key : String) :
    map.visible now key = Item.live? now (map.entry key) := by
  simp only [visible, Item.live?, Item.visibleAt_eq]

theorem TimedMap.filter_takes (map : TimedMap) (now : Instant) (key : String)
    (incoming : Option Item) :
    incoming.filter (map.takes now key) =
      if (map.visible now key).isNone then Item.live? now incoming else none := by
  cases incoming with
  | none => exact (ite_self _).symm
  | some item =>
    rw [Item.live?, Option.filter_some, Option.filter_some, takes, Item.visibleAt_eq]
    cases (map.visible now key).isNone <;> cases item.expired now <;> rfl

theorem TimedMap.update_entry (map : TimedMap) (key : String) :
    map.update key (map.entry key) = map := by
  have h : (fun key' => if key = key' then map.entry key else map.entry key') = map.entry := by
    funext key'
    split
    · rename_i e
      rw [e]
    · rfl
  rw [update, h]

namespace Store

variable {store : Store} {map : TimedMap} {now : Instant}

/-- What is live at `now` decides what is live later. -/
theorem shows_of_live (hl : store.lifetime = map.lifetime)
    (h : ∀ key, Item.live? now (store.items.get? key) = Item.live? now (map.entry key)) :
    store.Shows now map := by
  refine ⟨hl, fun later hle key => ?_⟩
  rw [map.visible_eq, ← Item.live?_live? hle (store.items.get? key), h key, Item.live?_live? hle]

theorem Shows.live (h : store.Shows now map) (key : String) :
    Item.live? now (store.items.get? key) = map.visible now key := h.2 now (Int.le_refl _) key

theorem Shows.later {later : Instant} (h : store.Shows now map) (hle : now ≤ later) :
    store.Shows later map :=
  ⟨h.1, fun _ hle' => h.2 _ (Int.le_trans hle hle')⟩

/-- An effect on a key matches a change of the entry under the key if both leave the same live
item. -/
theorem matches_apply (h : store.Shows now map) (key : String) {effect : Effect}
    {result : Except Failure Reply} {entry : Option Item} (ho : effect.outcome.result = result)
    (hl : Item.live? now effect.left = Item.live? now entry) :
    Matches ((store.apply key effect).1.result, (store.apply key effect).2)
      (now, some result, map.update key entry) := by
  refine ⟨fun answer ha => ho.trans (Option.some.inj ha), shows_of_live h.1 fun key' => ?_⟩
  simp only [apply, TimedMap.update, Table.get?_put]
  split
  · exact hl
  · rw [h.live, map.visible_eq]

/-- An effect that leaves the live item as it is matches no change. -/
theorem matches_kept (h : store.Shows now map) {key : String} {effect : Effect}
    {result : Except Failure Reply} (ho : effect.outcome.result = result)
    (hl : Item.live? now effect.left = map.visible now key) :
    Matches ((store.apply key effect).1.result, (store.apply key effect).2)
      (now, some result, map) := by
  have := matches_apply h key ho (hl.trans (map.visible_eq now key))
  rwa [map.update_entry] at this

theorem matches_modify {α : Type} (h : store.Shows now map) (reply : α → Reply) (key : String)
    (expected : Expected) (change : Value → Option (Value × α)) (counted : Tally) :
    let effect := Effect.modify reply key expected change counted (map.visible now key)
    Matches ((store.apply key effect).1.result, (store.apply key effect).2)
      (now, some (map.change now key expected change reply).1,
        (map.change now key expected change reply).2) := by
  intro effect
  unfold TimedMap.change
  cases hv : map.visible now key with
  | none =>
    refine matches_kept h ?_ ?_ <;> simp only [effect, hv, Effect.modify]
    · rfl
    · rfl
  | some item =>
    have hlive := hv
    rw [map.visible_eq] at hlive
    dsimp only
    cases hc : change item.value with
    | none =>
      refine matches_kept h ?_ ?_ <;> simp only [effect, hv, Effect.modify, hc]
      · rfl
      · rw [← hlive, Item.live?_self]
    | some changed =>
      refine matches_apply h key ?_ ?_ <;> simp only [effect, hv, Effect.modify, hc]
      rfl

/-- A step on one key. -/
theorem act_on (h : store.Shows now map) (operation : KeyOperation) (key : String) :
    Matches (store.act now (.perform (operation.on key)))
      (now, map.act now (.perform (operation.on key))) := by
  have hlive := h.live key
  have hself : Item.live? now (map.visible now key) = map.visible now key := by
    rw [map.visible_eq, Item.live?_self]
  simp only [act, perform_on, KeyOperation.effect, hlive, h.1]
  cases operation with
  | get => exact matches_kept h rfl hself
  | getText =>
    simp only [KeyOperation.on, TimedMap.act]
    cases hv : map.visible now key with
    | none => exact matches_kept h rfl hv.symm
    | some item =>
      rw [hv] at hself
      dsimp only
      cases Value.text? item.value with
      | none => exact matches_kept h rfl (hself.trans hv.symm)
      | some text => exact matches_kept h rfl (hself.trans hv.symm)
  | set value expiry => exact matches_apply h key rfl rfl
  | contains => exact matches_kept h rfl hself
  | delete =>
    simp only [KeyOperation.on, TimedMap.act]
    cases hv : map.visible now key with
    | none => exact matches_kept h rfl hv.symm
    | some item => exact matches_apply h key rfl rfl
  | increment delta => exact matches_modify h _ _ _ _ _
  | incrementFloat delta => exact matches_modify h _ _ _ _ _
  | decrement delta => exact matches_modify h _ _ _ _ _

/-- A merge takes in the same items on both sides. -/
theorem merge_refines (h : store.Shows now map) (incoming : Table Item) :
    (store.merge now incoming).1 = (map.merge now incoming).1 ∧
      (store.merge now incoming).2.Shows now (map.merge now incoming).2 := by
  refine ⟨?_, shows_of_live ((merge_frame store now incoming).1.trans h.1) fun key => ?_⟩
  · rw [merge_count, TimedMap.merge]
    refine List.countP_congr fun p _ => ?_
    rw [Item.admitted, h.live, TimedMap.takes, Item.visibleAt_eq]
  · rw [get?_merge, Item.live?_merged, h.live]
    simp only [TimedMap.merge, map.filter_takes]
    cases hv : map.visible now key with
    | some item =>
      rw [Option.some_or, if_neg (by simp), Option.none_or, ← hv, map.visible_eq]
    | none =>
      rw [Option.none_or, if_pos Option.isNone_none]
      rw [map.visible_eq] at hv
      cases hi : Item.live? now (incoming.get? key) with
      | none => rw [Option.none_or, hv]
      | some item => rw [Option.some_or, ← hi, Item.live?_self]

/-- One step on the store is one step on the map. -/
theorem act_refines (h : store.Shows now map) (action : StoreAction) :
    Matches (store.act now action) (now, map.act now action) := by
  have merged (incoming : Table Item) : Matches (store.act now (.merge incoming))
      (now, map.act now (.merge incoming)) := by
    obtain ⟨hc, hs⟩ := merge_refines h incoming
    refine ⟨fun answer ha => ?_, hs⟩
    rw [← Option.some.inj ha]
    exact congrArg (fun count => Except.ok (Reply.count count)) hc
  cases action with
  | merge incoming => exact merged incoming
  | perform operation =>
    cases operation using Operation.cases_on_key with
    | on operation key => exact act_on h operation key
    | deleteExpired =>
      refine ⟨fun answer ha => (nomatch ha), shows_of_live h.1 fun key => ?_⟩
      have hg : (store.deleteExpired now).2.items.get? key =
          Item.live? now (store.items.get? key) := get?_deleteExpired store now key
      refine (congrArg _ hg).trans ?_
      rw [Item.live?_self, h.live, map.visible_eq]
      rfl
    | flush =>
      exact ⟨fun answer ha => Option.some.inj ha, shows_of_live h.1 fun _ => rfl⟩
    | save sink => exact ⟨fun answer ha => (nomatch ha), h⟩
    | load source =>
      simp only [act, perform, load, TimedMap.act]
      cases Snapshot.load source with
      | error failure => exact ⟨fun answer ha => Option.some.inj ha, h⟩
      | ok incoming => exact merged incoming

/-! ## Runs -/

theorem create_shows (lifetime : Option Duration) (now : Instant) :
    (create lifetime).Shows now (.create lifetime) := shows_of_live rfl fun _ => rfl

theorem trace_from_refines {steps : List (Instant × StoreAction)} (h : store.Shows now map)
    (ordered : (now :: steps.map Prod.fst).Pairwise (· ≤ ·)) :
    List.Forall₂ Matches (store.trace steps) (map.trace steps) := by
  induction steps generalizing store map now with
  | nil => exact .nil
  | cons step steps ih =>
    obtain ⟨hn, hr⟩ := List.pairwise_cons.1 ordered
    have hm := act_refines (h.later (hn step.1 List.mem_cons_self)) step.2
    exact .cons hm (ih hm.2 hr)

/-- Over every run on a clock that does not go back, a store gives the answers and errors of the
timed map, and after each step its live items are the visible entries. -/
theorem trace_refines (lifetime : Option Duration) {steps : List (Instant × StoreAction)}
    (ordered : (steps.map Prod.fst).Pairwise (· ≤ ·)) :
    List.Forall₂ Matches ((create lifetime).trace steps)
      ((TimedMap.create lifetime).trace steps) := by
  cases steps with
  | nil => exact .nil
  | cons step steps =>
    have hm := act_refines (create_shows lifetime step.1) step.2
    exact .cons hm (trace_from_refines hm.2 ordered)

/-- A run in which a value is read at its deadline, has expired a nanosecond later, and comes back
in a merge. -/
def lapse : List (Instant × StoreAction) :=
  [(.nearest 0, .perform (.set "k" (.leaf (.text "v")) .default)),
    (.nearest 1000000000, .perform (.getText "k")),
    (.nearest 1000000001, .perform (.increment "k" 1)),
    (.nearest 1000000001, .merge (.ofList [("k", ⟨.leaf (.text "w"), none⟩)]))]

theorem trace_refines_lapse :
    (lapse.map Prod.fst).Pairwise (· ≤ ·) ∧
      List.Forall₂ Matches ((create (some (.ofMillis 1000))).trace lapse)
        ((TimedMap.create (some (.ofMillis 1000))).trace lapse) :=
  ⟨by decide, trace_refines _ (by decide)⟩

end Store

end ExpiringCache
