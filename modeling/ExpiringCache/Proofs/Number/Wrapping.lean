import ExpiringCache.Number.FixedInt
import Mathlib.Algebra.BigOperators.Group.List.Basic
import Mathlib.Data.Int.ModEq
import Mathlib.Data.List.Nodup

/-!
# Sums that wrap

To add and to wrap time and again is to add all and to wrap once (`FixedInt.foldl_increment`), so the
order of what is added makes no difference in the end. In 64 bits values differ if their numbers are
not congruent at the width (`FixedInt.modEq_of_toInt64_eq`); counting by ones, they do not repeat
before the values of the type are exhausted (`FixedInt.nodup_totals`).
-/

namespace ExpiringCache

namespace IntType

theorem modulus_eq (type : IntType) : (type.modulus : Int) = 2 ^ type.bits := by
  rw [modulus, Nat.one_shiftLeft, Nat.cast_pow]
  rfl

/-- A value of the type stays as it is. -/
theorem wrap_self {type : IntType} {n : Int} (hmin : type.min ≤ n) (hmax : n ≤ type.max) :
    type.wrap n = n := by
  cases type <;>
    simp only [wrap, signed, modulus, bits, byteCount, min, max, Int.bmod_def] at hmin hmax ⊢ <;>
    grind

theorem wrap_add_wrap (type : IntType) (a b : Int) :
    type.wrap (type.wrap a + b) = type.wrap (a + b) := by
  unfold wrap
  split
  · exact Int.bmod_add_bmod
  · exact Int.emod_add_emod a type.modulus b

theorem wrap_modEq (type : IntType) (a : Int) : type.wrap a ≡ a [ZMOD type.modulus] := by
  unfold wrap
  split
  · exact Int.bmod_emod
  · exact Int.mod_modEq a type.modulus

end IntType

namespace FixedInt

theorem ofInt_add (type : IntType) (a b : Int) :
    ofInt type ((ofInt type a).val + b) = ofInt type (a + b) := by
  have h := type.wrap_add_wrap a b
  simp only [ofInt, h]

theorem ofInt_val (n : FixedInt) : ofInt n.type n.val = n := by
  have h := IntType.wrap_self n.min_le n.le_max
  simp only [ofInt, h]

/-- To wrap after each delta is to wrap once after all of them. -/
theorem foldl_increment (n : FixedInt) (deltas : List Int64) :
    deltas.foldl increment n = ofInt n.type (n.val + (deltas.map Int64.toInt).sum) := by
  induction deltas generalizing n with
  | nil => rw [List.foldl_nil, List.map_nil, List.sum_nil, Int.add_zero, ofInt_val]
  | cons delta deltas ih =>
    rw [List.foldl_cons, ih, List.map_cons, List.sum_cons, ← Int.add_assoc]
    exact ofInt_add n.type _ _

/-- What stands after each delta. -/
def totals (n : FixedInt) : List Int64 → List FixedInt
  | [] => []
  | delta :: deltas => n.increment delta :: (n.increment delta).totals deltas

theorem length_totals (n : FixedInt) (deltas : List Int64) :
    (n.totals deltas).length = deltas.length := by
  induction deltas generalizing n with
  | nil => rfl
  | cons delta deltas ih => exact congrArg Nat.succ (ih _)

theorem totals_ones (n : FixedInt) (count : Nat) :
    n.totals (.replicate count 1) =
      (List.range count).map fun i : Nat => ofInt n.type (n.val + 1 + i) := by
  induction count generalizing n with
  | zero => rfl
  | succ count ih =>
    rw [List.replicate_succ, totals, ih, List.range_succ_eq_map, List.map_cons, List.map_map]
    refine List.cons_eq_cons.2 ⟨congrArg (ofInt n.type) (Int.add_zero _).symm, ?_⟩
    refine List.map_congr_left fun i _ => ?_
    calc ofInt n.type ((ofInt n.type (n.val + 1)).val + 1 + i)
        = ofInt n.type ((ofInt n.type (n.val + 1)).val + (1 + i)) := by rw [Int.add_assoc]
      _ = ofInt n.type (n.val + 1 + (1 + i)) := ofInt_add n.type _ _
      _ = ofInt n.type (n.val + 1 + (i + 1 : Nat)) := congrArg (ofInt n.type) (by omega)

/-- Values with the same number in 64 bits come from numbers that are congruent at the width. -/
theorem modEq_of_toInt64_eq {type : IntType} {a b : Int}
    (h : (ofInt type a).toInt64 = (ofInt type b).toInt64) : a ≡ b [ZMOD type.modulus] := by
  have wide : type.wrap a ≡ type.wrap b [ZMOD (Int64.size : Nat)] := by
    have number := congrArg Int64.toInt h
    rw [toInt64, toInt64, Int64.toInt_ofInt, Int64.toInt_ofInt] at number
    calc type.wrap a % (Int64.size : Nat) = (type.wrap a).bmod Int64.size % (Int64.size : Nat) :=
          Int.bmod_emod.symm
      _ = (type.wrap b).bmod Int64.size % (Int64.size : Nat) := congrArg (· % _) number
      _ = type.wrap b % (Int64.size : Nat) := Int.bmod_emod
  have divides : (type.modulus : Int) ∣ (Int64.size : Nat) := by cases type <;> decide
  calc a ≡ type.wrap a [ZMOD type.modulus] := (type.wrap_modEq a).symm
    _ ≡ type.wrap b [ZMOD type.modulus] := wide.of_dvd divides
    _ ≡ b [ZMOD type.modulus] := type.wrap_modEq b

/-- Counting by ones, no total comes twice as long as there are not more of them than values. -/
theorem nodup_totals (n : FixedInt) {count : Nat} (h : count ≤ n.type.modulus) :
    ((n.totals (.replicate count 1)).map toInt64).Nodup := by
  rw [totals_ones, List.map_map]
  refine List.Nodup.map_on (fun i hi j hj same => ?_) List.nodup_range
  have congruent := Int.ModEq.add_left_cancel' _ (modEq_of_toInt64_eq same)
  have below {k : Nat} (hk : k ∈ List.range count) : k < n.type.modulus :=
    (List.mem_range.1 hk).trans_le h
  exact Nat.ModEq.eq_of_lt_of_lt (Int.natCast_modEq_iff.1 congruent) (below hi) (below hj)

end FixedInt

end ExpiringCache
