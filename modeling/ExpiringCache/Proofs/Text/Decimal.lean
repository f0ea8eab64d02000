import ExpiringCache.Text.Blank
import ExpiringCache.Text.Decimal
import Mathlib.Algebra.Group.Nat.Defs

/-!
# Decimal numerals

A number that fits a width is the value of its numeral of that width (`value_fixed`), and the
numeral consists of that many digits (`length_fixed`, `isDigit_of_mem_fixed`).

What texts are read as numbers is said by place value (`Spells`), with a plus sign or not
(`Unsigned`), or with either sign (`Signed`).
-/

namespace ExpiringCache.Decimal

theorem toNat_digit (n : Nat) : (digit n).toNat = 48 + n % 10 := by
  have hv : (48 + n % 10).isValidChar := .inl (by omega)
  show (Char.ofNat (48 + n % 10)).toNat = 48 + n % 10
  rw [Char.ofNat, dif_pos hv]
  rfl

theorem digitValue_digit (n : Nat) : digitValue (digit n) = n % 10 := by
  rw [digitValue, toNat_digit]
  exact Nat.add_sub_cancel_left 48 (n % 10)

theorem isDigit_digit (n : Nat) : (digit n).isDigit := by
  rw [Char.isDigit_iff_toNat, toNat_digit]
  exact ⟨Nat.le_add_right _ _, show 48 + n % 10 ≤ 57 by omega⟩

@[simp] theorem length_fixed (width n : Nat) : (fixed width n).length = width := by
  induction width generalizing n with
  | zero => rfl
  | succ width ih => rw [fixed, List.length_append, ih, List.length_singleton]

theorem isDigit_of_mem_fixed {width n : Nat} {c : Char} (h : c ∈ fixed width n) : c.isDigit := by
  induction width generalizing n with
  | zero => cases h
  | succ width ih =>
    rw [fixed, List.mem_append, List.mem_singleton] at h
    rcases h with h | rfl
    · exact ih h
    · exact isDigit_digit n

theorem value_append (digits : List Char) (c : Char) :
    value (digits ++ [c]) = 10 * value digits + digitValue c := by
  rw [value, List.foldl_append]
  rfl

/-- A number that fits is the value of its numeral. -/
theorem value_fixed {width n : Nat} (h : n < 10 ^ width) : value (fixed width n) = n := by
  induction width generalizing n with
  | zero =>
    rw [Nat.pow_zero, Nat.lt_one_iff] at h
    rw [h]
    rfl
  | succ width ih =>
    have : n / 10 < 10 ^ width := by
      rw [Nat.pow_succ] at h
      omega
    rw [fixed, value_append, ih this, digitValue_digit]
    omega

/-! ## Reading -/

/-- Each digit counts by its place: the last one once, the one before it ten times, and so on. -/
inductive Spells : List Char → Nat → Prop where
  | nil : Spells [] 0
  | cons {c : Char} {d n : Nat} {digits : List Char} (hc : c.toNat = '0'.toNat + d) (hd : d < 10)
      (h : Spells digits n) : Spells (c :: digits) (d * 10 ^ digits.length + n)

/-- The text is one or more digits that spell the number, possibly after a plus sign. -/
inductive Unsigned : List Char → Nat → Prop where
  | digits {digits : List Char} {n : Nat} (hne : digits ≠ []) (h : Spells digits n) :
      Unsigned digits n
  | plus {digits : List Char} {n : Nat} (hne : digits ≠ []) (h : Spells digits n) :
      Unsigned ('+' :: digits) n

/-- The text is one or more digits that spell the number, possibly after a sign. -/
inductive Signed : List Char → Int → Prop where
  | unsigned {text : List Char} {n : Nat} (h : Unsigned text n) : Signed text n
  | minus {digits : List Char} {n : Nat} (hne : digits ≠ []) (h : Spells digits n) :
      Signed ('-' :: digits) (-n)

/-- To read on from a number is to move it by as many places as there are digits. -/
theorem foldl_digitValue (n : Nat) (digits : List Char) :
    digits.foldl (fun n c => 10 * n + digitValue c) n = n * 10 ^ digits.length + value digits := by
  induction digits generalizing n with
  | nil => exact (Nat.mul_one n).symm
  | cons c digits ih =>
    have hv : value (c :: digits) = digitValue c * 10 ^ digits.length + value digits := by
      rw [value, List.foldl_cons, ih, Nat.mul_zero, Nat.zero_add]
    rw [List.foldl_cons, ih, hv, List.length_cons, Nat.pow_succ, Nat.add_mul, Nat.add_assoc,
      Nat.mul_comm 10 n, Nat.mul_assoc, Nat.mul_comm 10]

theorem value_cons (c : Char) (digits : List Char) :
    value (c :: digits) = digitValue c * 10 ^ digits.length + value digits := by
  rw [value, List.foldl_cons, Nat.mul_zero, Nat.zero_add, foldl_digitValue]

theorem isDigit_iff {c : Char} : c.isDigit = true ↔ ∃ d < 10, c.toNat = '0'.toNat + d := by
  rw [Char.isDigit_iff_toNat]
  constructor
  · rintro ⟨h, h'⟩
    have h : 48 ≤ c.toNat := h
    have h' : c.toNat ≤ 57 := h'
    exact ⟨c.toNat - 48, by omega, show c.toNat = 48 + (c.toNat - 48) by omega⟩
  · rintro ⟨d, hd, h⟩
    have h : c.toNat = 48 + d := h
    exact ⟨show 48 ≤ c.toNat by omega, show c.toNat ≤ 57 by omega⟩

theorem spells_iff {digits : List Char} {n : Nat} :
    Spells digits n ↔ digits.all Char.isDigit = true ∧ value digits = n := by
  constructor
  · intro h
    induction h with
    | nil => exact ⟨rfl, rfl⟩
    | @cons c d n digits hc hd _ ih =>
      refine ⟨?_, ?_⟩
      · rw [List.all_cons, ih.1, isDigit_iff.2 ⟨d, hd, hc⟩, Bool.and_self]
      · rw [value_cons, digitValue, hc, Nat.add_sub_cancel_left, ih.2]
  · rintro ⟨h, rfl⟩
    induction digits with
    | nil => exact .nil
    | cons c digits ih =>
      rw [List.all_cons, Bool.and_eq_true] at h
      obtain ⟨d, hd, hc⟩ := isDigit_iff.1 h.1
      rw [value_cons, digitValue, hc, Nat.add_sub_cancel_left]
      exact .cons hc hd (ih h.2)

theorem digits?_eq_some_iff {text : List Char} {n : Nat} :
    digits? text = some n ↔ text ≠ [] ∧ Spells text n := by
  rw [digits?, spells_iff, Option.ite_none_right_eq_some, Option.some.injEq, and_assoc]

/-- No sign is a digit. -/
theorem not_spells_cons {c : Char} (h : c.isDigit = false) {digits : List Char} {n : Nat} :
    ¬ Spells (c :: digits) n := fun hs => by
  have := (spells_iff.1 hs).1
  rw [List.all_cons, h, Bool.false_and] at this
  cases this

theorem natural?_eq_some_iff {text : List Char} {n : Nat} :
    natural? text = some n ↔ Unsigned text n := by
  -- A sign is no digit, so the grammar has one form for either case of the reader.
  unfold natural?
  split
  · rw [digits?_eq_some_iff]
    refine ⟨fun h => .plus h.1 h.2, fun h => ?_⟩
    cases h with
    | digits _ h => exact absurd h (not_spells_cons rfl)
    | plus hne h => exact ⟨hne, h⟩
  · rename_i other
    rw [digits?_eq_some_iff]
    refine ⟨fun h => .digits h.1 h.2, fun h => ?_⟩
    cases h with
    | digits hne h => exact ⟨hne, h⟩
    | plus => exact absurd rfl (other _)

theorem integer?_minus (digits : List Char) :
    integer? ('-' :: digits) = (digits? digits).map fun n : Nat => -(n : Int) := by
  -- There the number becomes an integer before its sign is put on, here both are one step.
  rw [integer?]
  cases digits? digits <;> rfl

theorem integer?_of_not_minus {text : List Char} (h : ¬ ∃ digits, text = '-' :: digits) :
    integer? text = (natural? text).map Int.ofNat := by
  unfold integer?
  split
  · exact absurd ⟨_, rfl⟩ h
  · rfl

theorem integer?_eq_some_iff {text : List Char} {n : Int} :
    integer? text = some n ↔ Signed text n := by
  by_cases minus : ∃ digits, text = '-' :: digits
  · obtain ⟨digits, rfl⟩ := minus
    rw [integer?_minus, Option.map_eq_some_iff]
    constructor
    · rintro ⟨n, h, rfl⟩
      rw [digits?_eq_some_iff] at h
      exact .minus h.1 h.2
    · intro h
      cases h with
      | unsigned h =>
        cases h with
        | digits _ h => exact absurd h (not_spells_cons rfl)
      | minus hne h => exact ⟨_, digits?_eq_some_iff.2 ⟨hne, h⟩, rfl⟩
  · rw [integer?_of_not_minus minus, Option.map_eq_some_iff]
    constructor
    · rintro ⟨n, h, rfl⟩
      exact .unsigned (natural?_eq_some_iff.1 h)
    · intro h
      cases h with
      | unsigned h => exact ⟨_, natural?_eq_some_iff.2 h, rfl⟩
      | minus => exact absurd ⟨_, rfl⟩ minus

theorem Spells.zeros {digits : List Char} {n : Nat} (h : Spells digits n) (k : Nat) :
    Spells (List.replicate k '0' ++ digits) n := by
  induction k with
  | zero => exact h
  | succ k ih =>
    have := Spells.cons (c := '0') (d := 0) rfl (by decide) ih
    rwa [Nat.zero_mul, Nat.zero_add] at this

theorem natural?_minus (text : List Char) : natural? ('-' :: text) = none := by
  show digits? ('-' :: text) = none
  exact if_neg fun h => Bool.false_ne_true h.2

/-- The signs of numerals, or none. -/
def signs : List (List Char) := [[], ['+'], ['-']]

section
variable {sign digits : List Char} {n : Nat}

/-- Zeros between the sign and the digits of a numeral change nothing. -/
theorem natural?_zeros (hs : sign ∈ signs) (hne : digits ≠ []) (h : Spells digits n) (k : Nat) :
    natural? (sign ++ (List.replicate k '0' ++ digits)) = natural? (sign ++ digits) := by
  have hne' : List.replicate k '0' ++ digits ≠ [] := List.append_ne_nil_of_right_ne_nil _ hne
  simp only [signs, List.mem_cons, List.not_mem_nil, or_false] at hs
  rcases hs with rfl | rfl | rfl
  · exact (natural?_eq_some_iff.2 (.digits hne' (h.zeros k))).trans
      (natural?_eq_some_iff.2 (.digits hne h)).symm
  · exact (natural?_eq_some_iff.2 (.plus hne' (h.zeros k))).trans
      (natural?_eq_some_iff.2 (.plus hne h)).symm
  · exact (natural?_minus _).trans (natural?_minus _).symm

theorem integer?_zeros (hs : sign ∈ signs) (hne : digits ≠ []) (h : Spells digits n) (k : Nat) :
    integer? (sign ++ (List.replicate k '0' ++ digits)) = integer? (sign ++ digits) := by
  have hne' : List.replicate k '0' ++ digits ≠ [] := List.append_ne_nil_of_right_ne_nil _ hne
  simp only [signs, List.mem_cons, List.not_mem_nil, or_false] at hs
  rcases hs with rfl | rfl | rfl
  · exact (integer?_eq_some_iff.2 (.unsigned (.digits hne' (h.zeros k)))).trans
      (integer?_eq_some_iff.2 (.unsigned (.digits hne h))).symm
  · exact (integer?_eq_some_iff.2 (.unsigned (.plus hne' (h.zeros k)))).trans
      (integer?_eq_some_iff.2 (.unsigned (.plus hne h))).symm
  · exact (integer?_eq_some_iff.2 (.minus hne' (h.zeros k))).trans
      (integer?_eq_some_iff.2 (.minus hne h)).symm

end

theorem not_isBlank_of_isDigit {c : Char} (h : c.isDigit) : isBlank c = false := by
  obtain ⟨h, h'⟩ := Char.isDigit_iff_toNat.1 h
  have h : 48 ≤ c.toNat := h
  have h' : c.toNat ≤ 57 := h'
  simp only [isBlank, Bool.or_eq_false_iff, Bool.and_eq_false_iff, decide_eq_false_iff_not,
    beq_eq_false_iff_ne]
  omega

end ExpiringCache.Decimal
