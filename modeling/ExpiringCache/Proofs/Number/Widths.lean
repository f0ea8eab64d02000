import ExpiringCache.Proofs.Division
import ExpiringCache.Proofs.Number.Stopping

/-!
# Sums at the width of a type

A value of a type is the only one in the range of the type (`IntType.Holds`) that is congruent to it
modulo the number of values (`IntType.eq_of_modEq`). As a word of the width it stands for itself
(`FixedInt.number_word`), and the same word with its sign or with zeros in front is the number in 64
bits (`FixedInt.widen_word`).

A machine cuts the delta to the width and adds it there, whatever the signs. The sum is the word of
the value that is congruent to the exact sum (`FixedInt.wordSum_eq`), so an increment is addition
modulo the width (`FixedInt.wrapped_increment`), which the opposite delta undoes
(`FixedInt.increment_neg`). In a cache of any kind this is all that happens to a live item
(`Cache.increments_wrap_at_width`).
-/

namespace ExpiringCache

namespace IntType

variable (type : IntType)

/-! ## Ranges -/

/-- The number is in the range of the type. -/
def Holds (a : Int) : Prop :=
  if type.signed then -2 ^ (type.bits - 1) ≤ a ∧ a < 2 ^ (type.bits - 1)
  else 0 ≤ a ∧ a < 2 ^ type.bits

variable {type}

theorem holds_iff {a : Int} : type.Holds a ↔ type.min ≤ a ∧ a ≤ type.max := by
  cases type <;> simp only [Holds, min, max, signed, modulus, bits, byteCount] <;> grind

theorem wrap_congr {a b : Int} (h : a ≡ b [ZMOD type.modulus]) : type.wrap a = type.wrap b := by
  unfold wrap
  split
  · rw [← Int.emod_bmod a, ← Int.emod_bmod b, h]
  · exact h

/-- Congruent numbers in the range of a type are the same. -/
theorem eq_of_modEq {a b : Int} (ha : type.Holds a) (hb : type.Holds b)
    (h : a ≡ b [ZMOD type.modulus]) : a = b := by
  obtain ⟨lower, upper⟩ := holds_iff.1 ha
  obtain ⟨lower', upper'⟩ := holds_iff.1 hb
  calc a = type.wrap a := (wrap_self lower upper).symm
    _ = type.wrap b := wrap_congr h
    _ = b := wrap_self lower' upper'

theorem modulus_dvd (type : IntType) : (type.modulus : Int) ∣ (2 ^ 64 : Nat) := by
  cases type <;> decide

theorem bits_le (type : IntType) : type.bits ≤ 64 := by cases type <;> decide

/-! ## Words -/

/-- The number that a word of the width stands for. -/
def number (type : IntType) (word : BitVec type.bits) : Int :=
  if type.signed then word.toInt else word.toNat

/-- The word in 64 bits, with its sign or with zeros in front. -/
def widen (type : IntType) (word : BitVec type.bits) : BitVec 64 :=
  if type.signed then word.signExtend 64 else word.setWidth 64

theorem modulus_eq_two_pow (type : IntType) : type.modulus = 2 ^ type.bits := Nat.one_shiftLeft _

theorem number_ofInt (type : IntType) (a : Int) :
    type.number (.ofInt type.bits a) = type.wrap a := by
  unfold number wrap
  split
  · rw [BitVec.toInt_ofInt, modulus_eq_two_pow]
  · rw [BitVec.toNat_ofInt, modulus_eq_two_pow]
    exact Int.toNat_of_nonneg
      (Int.emod_nonneg a (Int.natCast_ne_zero.2 (Nat.two_pow_pos type.bits).ne'))

/-- Congruent numbers have the same word. -/
theorem ofInt_congr {a b : Int} (h : a ≡ b [ZMOD type.modulus]) :
    BitVec.ofInt type.bits a = BitVec.ofInt type.bits b := by
  refine BitVec.eq_of_toInt_eq ?_
  rw [modulus_eq_two_pow] at h
  rw [BitVec.toInt_ofInt, BitVec.toInt_ofInt, ← Int.emod_bmod a, ← Int.emod_bmod b, h]

theorem widen_eq (type : IntType) (word : BitVec type.bits) :
    type.widen word = .ofInt 64 (type.number word) := by
  unfold widen number
  split
  · rfl
  · rw [BitVec.ofInt_natCast, BitVec.ofNat_toNat]

end IntType

namespace FixedInt

variable (n : FixedInt) (delta : Int64)

/-- The number in a word of the width. -/
def word : BitVec n.type.bits := .ofInt _ n.val

/-- The addition in words: the delta is cut to the width, and the sum wraps. -/
def wordSum : BitVec n.type.bits := n.word + delta.toBitVec.setWidth n.type.bits

theorem number_word : n.type.number n.word = n.val :=
  (n.type.number_ofInt n.val).trans (IntType.wrap_self n.min_le n.le_max)

theorem holds_val : n.type.Holds n.val := IntType.holds_iff.2 ⟨n.min_le, n.le_max⟩

theorem widen_word : n.type.widen n.word = n.toInt64.toBitVec := by
  rw [IntType.widen_eq, number_word, toInt64, Int64.toBitVec_ofInt]

theorem wordSum_eq : n.wordSum delta = (n.increment delta).word := by
  -- To cut a word is to take the word of its number, with its sign.
  have cut : delta.toBitVec.setWidth n.type.bits = .ofInt n.type.bits delta.toInt :=
    (BitVec.signExtend_eq_setWidth_of_le delta.toBitVec n.type.bits_le).symm
  have sum : n.wordSum delta = .ofInt n.type.bits (n.val + delta.toInt) := by
    rw [wordSum, cut, word, BitVec.ofInt_add]
  exact sum.trans (IntType.ofInt_congr (n.type.wrap_modEq _)).symm

/-! ## One increment -/

/-- What stands after a delta is added, and what is answered. -/
structure Wrapped (sum : FixedInt) (answer : Int64) : Prop where
  type_eq : sum.type = n.type
  holds : n.type.Holds sum.val
  modEq : sum.val ≡ n.val + delta.toInt [ZMOD 2 ^ n.type.bits]
  /-- No other number in the range of the type is congruent to the exact sum. -/
  only : ∀ a, n.type.Holds a → a ≡ n.val + delta.toInt [ZMOD 2 ^ n.type.bits] → a = sum.val
  number_eq : n.type.number (n.wordSum delta) = sum.val
  /-- The answer is the word with its sign or with zeros in front. -/
  widen_eq : n.type.widen (n.wordSum delta) = answer.toBitVec
  /-- The answer is the number itself, but for the greatest numbers of one type. -/
  answer_eq : answer.toInt =
    if sum.type = .uint64 ∧ 2 ^ 63 ≤ sum.val then sum.val - 2 ^ 64 else sum.val
  toInt64?_eq : sum.toInt64? =
    if sum.type = .uint64 ∧ 2 ^ 63 ≤ sum.val then none else some answer

theorem toInt_toInt64 : n.toInt64.toInt =
    if n.type = .uint64 ∧ 2 ^ 63 ≤ n.val then n.val - 2 ^ 64 else n.val := by
  obtain ⟨lower, upper⟩ := n.val_bounds
  rw [toInt64, Int64.toInt_ofInt, Int.bmod_def, Int64.size]
  by_cases large : n.type = .uint64 ∧ 2 ^ 63 ≤ n.val
  · rw [if_pos large]
    split <;> omega
  · have small : n.val < 2 ^ 63 := by
      by_cases kind : n.type = .uint64
      · exact Int.not_le.1 fun le => large ⟨kind, le⟩
      · exact n.val_lt_of_ne kind
    rw [if_neg large]
    split <;> omega

theorem wrapped_increment : n.Wrapped delta (n.increment delta) (n.increment delta).toInt64 where
  type_eq := rfl
  holds := (n.increment delta).holds_val
  modEq := n.type.modulus_eq ▸ n.type.wrap_modEq _
  only a held congruent := by
    rw [← n.type.modulus_eq] at congruent
    exact IntType.eq_of_modEq held (n.increment delta).holds_val
      (congruent.trans (n.type.wrap_modEq _).symm)
  number_eq := by
    rw [wordSum_eq]
    exact (n.increment delta).number_word
  widen_eq := by
    rw [wordSum_eq]
    exact (n.increment delta).widen_word
  answer_eq := (n.increment delta).toInt_toInt64
  toInt64?_eq := (n.increment delta).toInt64?_eq

/-- The opposite delta, in 64 bits, undoes an increment. -/
theorem increment_neg : (n.increment delta).increment (-delta) = n := by
  have opposite : (-delta).toInt ≡ -delta.toInt [ZMOD n.type.modulus] := by
    rw [Int64.toInt_neg]
    exact Int.ModEq.of_dvd n.type.modulus_dvd Int.bmod_emod
  have back : n.val + delta.toInt + (-delta).toInt ≡ n.val [ZMOD n.type.modulus] := by
    calc n.val + delta.toInt + (-delta).toInt
        ≡ n.val + delta.toInt + -delta.toInt [ZMOD n.type.modulus] := opposite.add_left _
      _ = n.val := by omega
  calc (n.increment delta).increment (-delta)
      = ofInt n.type (n.val + delta.toInt + (-delta).toInt) := ofInt_add n.type _ _
    _ = ofInt n.type n.val := by simp only [ofInt, IntType.wrap_congr back]
    _ = n := n.ofInt_val

end FixedInt

/-! ## Values, stores, caches -/

namespace Store

variable {store : Store} {now : Instant} {key : String}

theorem increment_integer {n : FixedInt} {deadline : Option Deadline}
    (found : store.items.get? key = some ⟨.leaf (.int n), deadline⟩)
    (live : (Item.mk (.leaf (.int n)) deadline).expired now = false) (delta : Int64) :
    store.perform now (.increment key delta) =
      (⟨.ok (.integer (n.increment delta).toInt64), []⟩,
        ⟨store.items.insert key ⟨.leaf (.int (n.increment delta)), deadline⟩, store.lifetime,
          store.counts⟩) := by
  rw [perform, increment, modify_live found live]
  rfl

theorem increment_other {item : Item} (found : store.items.get? key = some item)
    (live : item.expired now = false) {delta : Int64}
    (refused : item.value.increment? delta = none) :
    store.perform now (.increment key delta) =
      (⟨.error (.wrongType key .integer), []⟩, store) := by
  rw [perform, increment, modify_live found live, refused]
  exact congrArg (Prod.mk _) (insert_found found)

end Store

theorem Value.increment?_eq_none {value : Value} (other : ∀ n, value ≠ .leaf (.int n))
    (delta : Int64) : value.increment? delta = none := by
  rw [increment?.eq_def]
  split
  · exact absurd rfl (other _)
  · rfl

namespace Cache

/-- An increment is addition modulo the width. It stores the only value in the range of the type that
is congruent to the exact sum, which is the delta cut to the width and added there; it answers that
value in 64 bits, which is the value itself as far as it fits; and the opposite delta undoes it.

Other values are refused. In a cache of any kind, after any run, this is what happens to a live item,
which keeps its deadline; what is refused changes nothing. -/
theorem increments_wrap_at_width :
    (∀ (n : FixedInt) (delta : Int64), ∃ sum answer,
      Value.increment? delta (.leaf (.int n)) = some (.leaf (.int sum), answer) ∧
        n.Wrapped delta sum answer ∧
        (∀ number, Value.int64? (.leaf (.int sum)) = some number → answer = number) ∧
        Value.increment? (-delta) (.leaf (.int sum)) = some (.leaf (.int n), n.toInt64)) ∧
    (∀ value : Value, (∀ n, value ≠ .leaf (.int n)) → ∀ delta, value.increment? delta = none) ∧
    ∀ (cache : Cache), cache.space.Fresh →
      ∀ (before : List (Instant × CacheStep)) (now : Instant) (key : String) (item : Item),
      (cache.through before).space.items.get? key = some item → item.expired now = false →
      ∀ delta,
        let reached := (cache.through before).space
        let done := (cache.through before).perform now (.increment key delta)
        (∀ n, item.value = .leaf (.int n) → ∃ sum answer, n.Wrapped delta sum answer ∧
          done.1.result = .ok (.integer answer) ∧
          done.2.2.space.items = reached.items.insert key ⟨.leaf (.int sum), item.deadline⟩) ∧
        ((∀ n, item.value ≠ .leaf (.int n)) →
          done.1.result = .error (.wrongType key .integer) ∧
          done.2.2.space.items = reached.items ∧ done.2.2.space.tally = reached.tally) := by
  refine ⟨fun n delta => ⟨_, _, rfl, n.wrapped_increment delta, fun number fits => ?_, ?_⟩,
    fun value other => value.increment?_eq_none other,
    fun cache fresh before now key item found live delta => ?_⟩
  · rw [Value.int64?, (n.wrapped_increment delta).toInt64?_eq] at fits
    split at fits
    · cases fits
    · exact Option.some.inj fits
  · have back := n.increment_neg delta
    exact congrArg (fun m : FixedInt => some ((.leaf (.int m) : Value), m.toInt64)) back
  · obtain ⟨store, held⟩ := holds_through fresh before
    rw [held.items_eq] at found
    generalize cache.through before = reached at held
    obtain ⟨outcome, after⟩ := held.perform now (.increment key delta)
    obtain ⟨value, deadline⟩ := item
    refine ⟨fun n same => ?_, fun other => ?_⟩
    · obtain rfl : value = .leaf (.int n) := same
      rw [Store.increment_integer found live delta] at outcome after
      refine ⟨_, _, n.wrapped_increment delta, congrArg Outcome.result outcome, ?_⟩
      exact after.items_eq.trans (congrArg (Table.insert · key _) held.items_eq.symm)
    · rw [Store.increment_other found live (value.increment?_eq_none other delta)] at outcome after
      exact ⟨congrArg Outcome.result outcome, after.items_eq.trans held.items_eq.symm,
        after.tally_eq.trans held.tally_eq.symm⟩

/-- The greatest number and a text, in a cache with three shards. -/
def storedGreatest : List (Instant × CacheStep) :=
  [(.nearest 0, .perform (.set "a" (.leaf (.int (.ofInt .uint64 (-1)))) .never)),
    (.nearest 0, .perform (.set "b" (.leaf (.text "v")) .never))]

/-- At 8 bits a sum wraps to the least number and back. At 64 bits, less than the greatest number by
one is still no number with a sign. -/
theorem increments_wrap_at_width_once :
    (∃ sum answer, Value.increment? 3 (.leaf (.int (.ofInt .int8 125))) =
        some (.leaf (.int sum), answer) ∧ answer = -128 ∧
        Value.increment? (-3) (.leaf (.int sum)) = some (.leaf (.int (.ofInt .int8 125)), 125)) ∧
      Value.increment? 1 (.leaf (.text "v")) = none ∧ threeShards.space.Fresh ∧
      (∃ sum answer, (FixedInt.ofInt .uint64 (-1)).Wrapped (-1) sum answer ∧
        sum.val = 2 ^ 64 - 2 ∧ answer = -2 ∧
        ((threeShards.through storedGreatest).perform (.nearest 0)
          (.increment "a" (-1))).1.result = .ok (.integer answer)) ∧
      ((threeShards.through storedGreatest).perform (.nearest 0)
        (.increment "b" 1)).1.result = .error (.wrongType "b" .integer) := by
  have fresh : threeShards.space.Fresh := .sharded (by decide) none
  have number : (threeShards.through storedGreatest).space.items.get? "a" =
      some ⟨.leaf (.int (.ofInt .uint64 (-1))), none⟩ := by rfl
  have text : (threeShards.through storedGreatest).space.items.get? "b" =
      some ⟨.leaf (.text "v"), none⟩ := by rfl
  obtain ⟨integers, others, reached⟩ := increments_wrap_at_width
  obtain ⟨least, wrapped_to, added, -, number_of, back⟩ := integers (.ofInt .int8 125) 3
  have answer_eq : wrapped_to = -128 := by
    obtain ⟨same, -⟩ := Prod.mk.inj (Option.some.inj added)
    exact number_of _ (congrArg Value.int64? same.symm)
  have reached := reached threeShards fresh storedGreatest (.nearest 0)
  obtain ⟨sum, answer, wrapped, answered, -⟩ := (reached "a" _ number rfl (-1)).1 _ rfl
  obtain ⟨refused, -⟩ := (reached "b" _ text rfl 1).2 fun n => nofun
  have value : sum.val = 2 ^ 64 - 2 :=
    (wrapped.only _ (IntType.holds_iff.2 ⟨by decide, by decide⟩) rfl).symm
  have negative : answer.toInt = -2 := by
    rw [wrapped.answer_eq, wrapped.type_eq, value]
    rfl
  exact ⟨⟨least, wrapped_to, added, answer_eq, back⟩,
    others (.leaf (.text "v")) (fun n => nofun) 1, fresh,
    ⟨sum, answer, wrapped, value, Int64.toInt_inj.1 negative, answered⟩, refused⟩

end Cache

end ExpiringCache
