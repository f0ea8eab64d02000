import ExpiringCache.Proofs.KeyEffects
import ExpiringCache.Proofs.Number.Wrapping
import Mathlib.Algebra.Order.BigOperators.Group.List
import Mathlib.Algebra.Order.Group.Int

/-!
# Differences that stop at the bounds

A decrement stores the exact difference, stopped at zero and at the greatest value of the type
(`FixedInt.Stopped`). A machine with 128 bits finds the difference without overflow, and what it
stops there fits the width (`FixedInt.decrementWide_eq`).

To stop time and again is to stop once, as long as the deltas lead away from the bound that has not
been reached (`FixedInt.foldl_decrement`): all of one sign, they add up, however large their sum.

In a store a decrement changes the value of a live item and nothing else; a value that is no integer
stays as it is (`Store.decrement_live`).
-/

namespace ExpiringCache

namespace FixedInt

/-! ## 128 bits -/

/-- The difference in 128 bits with a sign. -/
def wideDifference (n : FixedInt) (delta : Int64) : BitVec 128 :=
  .ofInt 128 n.val - .ofInt 128 delta.toInt

/-- The subtraction in 128 bits: the difference is stopped there and then cut to the width. -/
def decrementWide (n : FixedInt) (delta : Int64) : FixedInt :=
  ofInt n.type (max 0 (min (n.wideDifference delta).toInt n.type.max))

theorem val_bounds (n : FixedInt) : -2 ^ 63 ≤ n.val ∧ n.val < 2 ^ 64 := by
  have lower : -2 ^ 63 ≤ n.type.min := by cases n.type <;> decide
  have upper : n.type.max < 2 ^ 64 := by cases n.type <;> decide
  exact ⟨lower.trans n.min_le, n.le_max.trans_lt upper⟩

theorem toInt_ofInt_wide {a : Int} (lower : -2 ^ 63 ≤ a) (upper : a < 2 ^ 64) :
    (BitVec.ofInt 128 a).toInt = a :=
  BitVec.toInt_ofInt_eq_self (by decide) (by omega) (by omega)

variable (n : FixedInt) (delta : Int64)

theorem wideDifference_fits :
    (BitVec.ofInt 128 n.val).ssubOverflow (.ofInt 128 delta.toInt) = false := by
  obtain ⟨lower, upper⟩ := n.val_bounds
  have below := delta.le_toInt
  have above := delta.toInt_lt
  rw [BitVec.ssubOverflow, toInt_ofInt_wide lower upper, toInt_ofInt_wide below (by omega)]
  simp only [Bool.or_eq_false_iff, decide_eq_false_iff_not]
  omega

theorem toInt_wideDifference : (n.wideDifference delta).toInt = n.val - delta.toInt := by
  obtain ⟨lower, upper⟩ := n.val_bounds
  have below := delta.le_toInt
  have above := delta.toInt_lt
  have fits := n.wideDifference_fits delta
  rw [wideDifference, BitVec.toInt_sub_of_not_ssubOverflow (by rw [fits]; decide),
    toInt_ofInt_wide lower upper, toInt_ofInt_wide below (by omega)]

theorem decrementWide_eq : n.decrementWide delta = n.decrement delta := by
  rw [decrementWide, toInt_wideDifference]
  exact ofInt_val (n.decrement delta)

/-! ## One decrement -/

/-- What stands after a delta is subtracted, and what is answered. -/
structure Stopped (stopped : FixedInt) (answer : Int64) : Prop where
  type_eq : stopped.type = n.type
  val_eq : stopped.val = max 0 (min (n.val - delta.toInt) n.type.max)
  /-- The difference does not overflow in 128 bits. -/
  fits : (BitVec.ofInt 128 n.val).ssubOverflow (.ofInt 128 delta.toInt) = false
  wide_eq : n.decrementWide delta = stopped
  /-- The answer has the bits of the number, as far as 64 bits go. -/
  answer_eq : answer.toInt = stopped.val.bmod (2 ^ 64)
  /-- The answer is the number itself, but for the greatest numbers of one type. -/
  number_eq : stopped.toInt64? =
    if stopped.type = .uint64 ∧ 2 ^ 63 ≤ stopped.val then none else some answer

theorem val_lt_of_ne (other : n.type ≠ .uint64) : n.val < 2 ^ 63 := by
  have upper : n.type.max < 2 ^ 63 := by
    generalize n.type = type at other
    cases type <;> first | decide | exact absurd rfl other
  exact n.le_max.trans_lt upper

theorem toInt64?_eq :
    n.toInt64? = if n.type = .uint64 ∧ 2 ^ 63 ≤ n.val then none else some n.toInt64 := by
  have narrow := n.val_lt_of_ne
  rw [toInt64?]
  split <;> split <;> first | rfl | omega | grind

theorem stopped_decrement : n.Stopped delta (n.decrement delta) (n.decrement delta).toInt64 where
  type_eq := rfl
  val_eq := rfl
  fits := n.wideDifference_fits delta
  wide_eq := n.decrementWide_eq delta
  answer_eq := Int64.toInt_ofInt
  number_eq := (n.decrement delta).toInt64?_eq

/-- Where nothing is stopped, to subtract is to add the opposite. Only the least delta has none. -/
theorem decrement_eq_increment (lower : 0 ≤ n.val - delta.toInt)
    (upper : n.val - delta.toInt ≤ n.type.max) (opposite : delta ≠ Int64.minValue) :
    n.decrement delta = n.increment (-delta) := by
  have below := delta.le_toInt
  have above := delta.toInt_lt
  have least : delta.toInt ≠ -2 ^ 63 := fun e => opposite (Int64.toInt_inj.1 (e.trans (by decide)))
  have negated : (-delta).toInt = -delta.toInt := by
    rw [Int64.toInt_neg]
    exact Int.bmod_eq_of_le (by omega) (by omega)
  have stays : n.type.clamp (n.val - delta.toInt) = n.val - delta.toInt := by
    rw [IntType.clamp]
    omega
  calc n.decrement delta = ofInt n.type (n.decrement delta).val := (ofInt_val _).symm
    _ = ofInt n.type (n.val - delta.toInt) := congrArg (ofInt n.type) stays
    _ = ofInt n.type (n.val + (-delta).toInt) := by rw [negated, Int.sub_eq_add_neg]

/-! ## Many decrements -/

/-- The value of a type from 0 on that is nearest to a number. -/
def nearest (type : IntType) (a : Int) : FixedInt :=
  ⟨type, type.clamp a, type.min_le_clamp a, type.clamp_le_max a⟩

variable {n}

theorem nearest_val (nonneg : 0 ≤ n.val) : nearest n.type n.val = n := by
  have upper := n.le_max
  have stays : n.type.clamp n.val = n.val := by
    rw [IntType.clamp]
    omega
  simp only [nearest, stays]

/-- To stop and then subtract is to subtract and then stop, if the delta leads away from the bound
that the number does not pass. -/
theorem nearest_decrement {type : IntType} {a : Int} {delta : Int64}
    (h : a ≤ type.max ∧ 0 ≤ delta.toInt ∨ 0 ≤ a ∧ delta.toInt ≤ 0) :
    (nearest type a).decrement delta = nearest type (a - delta.toInt) := by
  have positive := type.max_pos
  have once : type.clamp (type.clamp a - delta.toInt) = type.clamp (a - delta.toInt) := by
    simp only [IntType.clamp]
    omega
  simp only [decrement, nearest, once]

/-- Deltas of one sign that lead away from the bound that the number does not pass add up. -/
theorem foldl_decrement {type : IntType} {a : Int} {deltas : List Int64}
    (h : (a ≤ type.max ∧ ∀ delta ∈ deltas, 0 ≤ delta.toInt) ∨
      (0 ≤ a ∧ ∀ delta ∈ deltas, delta.toInt ≤ 0)) :
    deltas.foldl decrement (nearest type a) = nearest type (a - (deltas.map Int64.toInt).sum) := by
  induction deltas generalizing a with
  | nil => rw [List.foldl_nil, List.map_nil, List.sum_nil, Int.sub_zero]
  | cons delta deltas ih =>
    simp only [List.forall_mem_cons] at h
    have one : a ≤ type.max ∧ 0 ≤ delta.toInt ∨ 0 ≤ a ∧ delta.toInt ≤ 0 :=
      h.imp (fun h => ⟨h.1, h.2.1⟩) fun h => ⟨h.1, h.2.1⟩
    -- Away from one bound is not past the other, so that the exact difference stays in reach.
    have rest : (a - delta.toInt ≤ type.max ∧ ∀ delta ∈ deltas, 0 ≤ delta.toInt) ∨
        (0 ≤ a - delta.toInt ∧ ∀ delta ∈ deltas, delta.toInt ≤ 0) :=
      h.imp (fun h => ⟨by omega, h.2.2⟩) fun h => ⟨by omega, h.2.2⟩
    rw [List.foldl_cons, nearest_decrement one, ih rest, List.map_cons, List.sum_cons,
      Int.sub_sub]

theorem type_foldl_decrement (n : FixedInt) (deltas : List Int64) :
    (deltas.foldl decrement n).type = n.type := by
  induction deltas generalizing n with
  | nil => rfl
  | cons delta deltas ih => exact ih (n.decrement delta)

theorem foldl_decrement_nonneg (n : FixedInt) {deltas : List Int64} (nonempty : deltas ≠ []) :
    0 ≤ (deltas.foldl decrement n).val := by
  obtain ⟨front, delta, rfl⟩ := (List.eq_nil_or_concat deltas).resolve_left nonempty
  rw [List.concat_eq_append, List.foldl_append]
  exact Int.le_max_left 0 _

theorem foldl_decrement_down (n : FixedInt) {deltas : List Int64} (nonempty : deltas ≠ [])
    (down : ∀ delta ∈ deltas, 0 ≤ delta.toInt) :
    (deltas.foldl decrement n).val = max 0 (n.val - (deltas.map Int64.toInt).sum) := by
  cases deltas with
  | nil => exact absurd rfl nonempty
  | cons delta deltas =>
    obtain ⟨first, rest⟩ := List.forall_mem_cons.1 down
    have upper := n.le_max
    have total : 0 ≤ (deltas.map Int64.toInt).sum :=
      List.sum_nonneg fun _ hm => by
        obtain ⟨delta, hd, rfl⟩ := List.mem_map.1 hm
        exact rest delta hd
    have folded : deltas.foldl decrement (n.decrement delta) = nearest n.type
        (n.val - delta.toInt - (deltas.map Int64.toInt).sum) :=
      foldl_decrement (.inl ⟨by omega, rest⟩)
    rw [List.foldl_cons, folded, List.map_cons, List.sum_cons]
    simp only [nearest, IntType.clamp]
    omega

theorem foldl_decrement_up {n : FixedInt} (nonneg : 0 ≤ n.val) {deltas : List Int64}
    (up : ∀ delta ∈ deltas, delta.toInt ≤ 0) :
    (deltas.foldl decrement n).val = min n.type.max (n.val - (deltas.map Int64.toInt).sum) := by
  have total : (deltas.map Int64.toInt).sum ≤ 0 := by
    refine (List.sum_le_card_nsmul _ 0 fun _ hm => ?_).trans_eq (nsmul_zero _)
    obtain ⟨delta, hd, rfl⟩ := List.mem_map.1 hm
    exact up delta hd
  have folded : deltas.foldl decrement (nearest n.type n.val) =
      nearest n.type (n.val - (deltas.map Int64.toInt).sum) := foldl_decrement (.inr ⟨nonneg, up⟩)
  have positive := n.type.max_pos
  rw [nearest_val nonneg] at folded
  rw [folded]
  simp only [nearest, IntType.clamp]
  omega

end FixedInt

/-! ## Values and stores -/

namespace Value

/-- A value after a decrement; one that is no integer stays as it is. -/
def decremented (value : Value) (delta : Int64) : Value :=
  ((value.decrement? delta).map Prod.fst).getD value

theorem foldl_decremented (n : FixedInt) (deltas : List Int64) :
    deltas.foldl decremented (.leaf (.int n)) =
      .leaf (.int (deltas.foldl FixedInt.decrement n)) := by
  induction deltas generalizing n with
  | nil => rfl
  | cons delta deltas ih => exact ih (n.decrement delta)

end Value

namespace Store

/-- Decrements under a key, one after the other, each at its reading of the clock. -/
def decrementAll (store : Store) (key : String) (steps : List (Instant × Int64)) : Store :=
  steps.foldl (fun store step => (store.decrement step.1 key step.2).2) store

variable {store : Store} {now : Instant} {key : String} {item : Item}

theorem purge_live (found : store.items.get? key = some item) (live : item.expired now = false) :
    store.purge now key = store := by
  rw [purge, found]
  simp only [live, Bool.false_eq_true, if_false]

theorem insert_found (found : store.items.get? key = some item) :
    ⟨store.items.insert key item, store.lifetime, store.counts⟩ = store := by
  have same := store.items.put_get? key
  rw [found] at same
  exact congrArg (fun items => (⟨items, store.lifetime, store.counts⟩ : Store)) same

/-- A change of a live item answers for its value and stores it anew, with the same deadline. -/
theorem modify_live {α : Type} (found : store.items.get? key = some item)
    (live : item.expired now = false) (expected : Expected)
    (change : Value → Option (Value × α)) :
    store.modify now key expected change =
      ((change item.value).elim (.error (.wrongType key expected)) fun p => .ok p.2,
        ⟨store.items.insert key ⟨((change item.value).map Prod.fst).getD item.value, item.deadline⟩,
          store.lifetime, store.counts⟩) := by
  rw [modify, purge_live found live, found]
  dsimp only
  cases change item.value with
  | none => exact congrArg (Prod.mk _) (insert_found found).symm
  | some changed => rfl

theorem decrement_live (found : store.items.get? key = some item)
    (live : item.expired now = false) (delta : Int64) :
    store.decrement now key delta =
      ((item.value.decrement? delta).elim (.error (.wrongType key .integer)) fun p => .ok p.2,
        ⟨store.items.insert key ⟨item.value.decremented delta, item.deadline⟩, store.lifetime,
          store.counts⟩) :=
  modify_live found live .integer _

theorem decrementAll_live {steps : List (Instant × Int64)}
    (found : store.items.get? key = some item)
    (live : ∀ step ∈ steps, item.expired step.1 = false) :
    store.decrementAll key steps =
      ⟨store.items.insert key
        ⟨(steps.map Prod.snd).foldl Value.decremented item.value, item.deadline⟩,
        store.lifetime, store.counts⟩ := by
  induction steps generalizing store item with
  | nil => exact (insert_found found).symm
  | cons step steps ih =>
    obtain ⟨now, later⟩ := List.forall_mem_cons.1 live
    have stored : (Store.mk (store.items.insert key
        ⟨item.value.decremented step.2, item.deadline⟩) store.lifetime store.counts).items.get? key =
          some ⟨item.value.decremented step.2, item.deadline⟩ :=
      store.items.get?_put_self key (some _)
    have rest := ih stored later
    rw [decrementAll, List.foldl_cons, decrement_live found now]
    refine rest.trans ?_
    rw [List.map_cons, List.foldl_cons]
    exact congrArg (fun items => (⟨items, store.lifetime, store.counts⟩ : Store))
      (Table.put_put store.items key (some _) (some _))

/-- A decrement is exact subtraction, stopped at zero and at the greatest value of the type; the
answer is the number in 64 bits. Where nothing is stopped it is an increment by the opposite.

After any decrement an integer is between zero and the greatest value. Deltas of one sign add up, be
their sum within 64 bits or not: downwards from any value, upwards from one that is not negative.

Other values are refused and stay. In a store this is all that happens to a live item. -/
theorem decrement_clamps :
    (∀ (n : FixedInt) (delta : Int64), ∃ stopped answer,
      Value.decrement? delta (.leaf (.int n)) = some (.leaf (.int stopped), answer) ∧
        n.Stopped delta stopped answer) ∧
    (∀ (n : FixedInt) (delta : Int64), 0 ≤ n.val - delta.toInt →
      n.val - delta.toInt ≤ n.type.max → delta ≠ Int64.minValue →
        Value.decrement? delta (.leaf (.int n)) = Value.increment? (-delta) (.leaf (.int n))) ∧
    (∀ (n : FixedInt) (deltas : List Int64), ∃ last : FixedInt,
      deltas.foldl Value.decremented (.leaf (.int n)) = .leaf (.int last) ∧ last.type = n.type ∧
      (deltas ≠ [] → 0 ≤ last.val ∧ last.val ≤ n.type.max) ∧
      (deltas ≠ [] → (∀ delta ∈ deltas, 0 ≤ delta.toInt) →
        last.val = max 0 (n.val - (deltas.map Int64.toInt).sum)) ∧
      (0 ≤ n.val → (∀ delta ∈ deltas, delta.toInt ≤ 0) →
        last.val = min n.type.max (n.val - (deltas.map Int64.toInt).sum))) ∧
    (∀ value : Value, (∀ n, value ≠ .leaf (.int n)) → ∀ delta,
      value.decrement? delta = none ∧ value.decremented delta = value) ∧
    ∀ (store : Store) (key : String) (item : Item), store.items.get? key = some item →
      (∀ now, item.expired now = false → ∀ delta, store.decrement now key delta =
        ((item.value.decrement? delta).elim (.error (.wrongType key .integer)) fun p => .ok p.2,
          ⟨store.items.insert key ⟨item.value.decremented delta, item.deadline⟩, store.lifetime,
            store.counts⟩)) ∧
      ∀ steps : List (Instant × Int64), (∀ step ∈ steps, item.expired step.1 = false) →
        store.decrementAll key steps =
          ⟨store.items.insert key
            ⟨(steps.map Prod.snd).foldl Value.decremented item.value, item.deadline⟩,
            store.lifetime, store.counts⟩ := by
  refine ⟨fun n delta => ⟨_, _, rfl, n.stopped_decrement delta⟩,
    fun n delta lower upper opposite => ?_, fun n deltas => ?_, fun value other delta => ?_,
    fun store key item found => ⟨fun now live => decrement_live found live,
      fun steps live => decrementAll_live found live⟩⟩
  · have same := n.decrement_eq_increment delta lower upper opposite
    exact congrArg (fun m : FixedInt => some ((.leaf (.int m) : Value), m.toInt64)) same
  · have kind := n.type_foldl_decrement deltas
    refine ⟨_, Value.foldl_decremented n deltas, kind, fun nonempty => ⟨?_, ?_⟩,
      n.foldl_decrement_down, fun nonneg => FixedInt.foldl_decrement_up nonneg⟩
    · exact n.foldl_decrement_nonneg nonempty
    · exact kind ▸ FixedInt.le_max _
  · have refused : value.decrement? delta = none := by
      rw [Value.decrement?.eq_def]
      split
      · exact absurd rfl (other _)
      · rfl
    exact ⟨refused, by rw [Value.decremented, refused]; rfl⟩

/-- Sums of deltas beyond 64 bits, at the least and at the greatest width. -/
theorem decrement_clamps_twice :
    (∃ last : FixedInt, [Int64.maxValue, Int64.maxValue].foldl Value.decremented
        (.leaf (.int (.ofInt .int8 (-100)))) = .leaf (.int last) ∧ last.val = 0) ∧
    (∃ last : FixedInt, [Int64.minValue, Int64.minValue].foldl Value.decremented
        (.leaf (.int (.ofInt .uint64 5))) = .leaf (.int last) ∧ last.val = 2 ^ 64 - 1) ∧
    Value.decrement? 3 (.leaf (.int (.ofInt .int16 7))) =
      Value.increment? (-3) (.leaf (.int (.ofInt .int16 7))) ∧
    Value.decrement? 3 Value.null = none ∧
    ((Store.mk (.ofList [("k", ⟨Value.null, none⟩)]) none .zero).decrement (.nearest 0) "k" 3).1 =
      .error (.wrongType "k" .integer) := by
  obtain ⟨-, opposite, many, refused, stores⟩ := decrement_clamps
  refine ⟨?_, ?_, opposite _ _ (by decide) (by decide) (by decide), ?_, ?_⟩
  · obtain ⟨last, reached, -, -, down, -⟩ := many (.ofInt .int8 (-100)) [.maxValue, .maxValue]
    have nonneg : ∀ delta ∈ [Int64.maxValue, .maxValue], 0 ≤ delta.toInt :=
      List.forall_mem_cons.2 ⟨by decide, List.forall_mem_singleton.2 (by decide)⟩
    exact ⟨last, reached, (down (List.cons_ne_nil _ _) nonneg).trans (by decide)⟩
  · obtain ⟨last, reached, -, -, -, up⟩ := many (.ofInt .uint64 5) [.minValue, .minValue]
    have nonpos : ∀ delta ∈ [Int64.minValue, .minValue], delta.toInt ≤ 0 :=
      List.forall_mem_cons.2 ⟨by decide, List.forall_mem_singleton.2 (by decide)⟩
    exact ⟨last, reached, (up (by decide) nonpos).trans (by decide)⟩
  · exact (refused Value.null (fun n => nofun) 3).1
  · have found : (Table.ofList [("k", (⟨Value.null, none⟩ : Item))]).get? "k" =
        some ⟨Value.null, none⟩ := rfl
    exact congrArg Prod.fst ((stores ⟨_, none, .zero⟩ "k" _ found).1 (.nearest 0) rfl 3)

end Store

end ExpiringCache
