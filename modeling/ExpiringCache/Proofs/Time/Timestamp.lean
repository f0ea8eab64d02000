import ExpiringCache.Proofs.Except
import ExpiringCache.Proofs.Text.Decimal
import ExpiringCache.Proofs.Time.Date
import ExpiringCache.Time.Timestamp

/-!
# Timestamps, printed and read

Every deadline is read back from its text (`parse_print`): the year with or without a sign and
with its zeros in front, the fraction with 0, 3, 6 or 9 digits, and the second 60 of a leap
second.

Each part of the text has a lemma that says what its step takes from a text that begins with the
part and how much it leaves.
-/

namespace ExpiringCache.Timestamp

open Decimal (fixed value isDigit_of_mem_fixed not_isBlank_of_isDigit)

/-- The text does not begin with a digit. -/
def EndsNumber (text : List Char) : Prop := ∀ c rest, text = c :: rest → c.isDigit = false

theorem endsNumber_cons {c : Char} (rest : List Char) (h : c.isDigit = false) :
    EndsNumber (c :: rest) := by
  intro c' rest' e
  obtain ⟨rfl, _⟩ := List.cons.inj e
  exact h

theorem takeWhile_digits {digits rest : List Char} (hd : ∀ c ∈ digits, c.isDigit)
    (hr : EndsNumber rest) : (digits ++ rest).takeWhile Char.isDigit = digits := by
  rw [List.takeWhile_append_of_pos hd]
  cases rest with
  | nil => exact List.append_nil digits
  | cons c rest => rw [List.takeWhile_cons_of_neg (by rw [hr c rest rfl]; decide), List.append_nil]

theorem EndsNumber.dropWhile {text : List Char} (h : EndsNumber text) :
    text.dropWhile Char.isDigit = text := by
  cases text with
  | nil => rfl
  | cons c rest => exact List.dropWhile_cons_of_neg (by rw [h c rest rfl]; decide)

/-- As many digits as are taken: all there are, or no more than may be. -/
theorem takeWhile_take {digits rest : List Char} {most : Nat} (hd : ∀ c ∈ digits, c.isDigit)
    (hm : digits.length = most ∨ digits.length ≤ most ∧ EndsNumber rest) :
    ((digits ++ rest).take most).takeWhile Char.isDigit = digits := by
  rcases hm with rfl | ⟨hm, hr⟩
  · rw [List.take_left' rfl]
    have h := takeWhile_digits hd (show EndsNumber [] from fun _ _ e => by cases e)
    rwa [List.append_nil] at h
  · obtain ⟨k, rfl⟩ := Nat.le.dest hm
    rw [List.take_length_add_append]
    refine takeWhile_digits hd fun c rest' e => ?_
    cases rest with
    | nil => rw [List.take_nil] at e; cases e
    | cons c' rest =>
      cases k with
      | zero => cases e
      | succ k =>
        obtain ⟨rfl, _⟩ := List.cons.inj e
        exact hr _ _ rfl

/-! ## The steps -/

/-- Takes the digits at the front. -/
theorem number_digits {digits rest : List Char} {most n : Nat} (hd : ∀ c ∈ digits, c.isDigit)
    (hn : digits ≠ []) (hv : value digits = n) (hlt : n < 0x8000000000000000)
    (hm : digits.length = most ∨ digits.length ≤ most ∧ EndsNumber rest) :
    number most (digits ++ rest) = .ok (n, rest) := by
  rw [number, takeWhile_take hd hm, if_neg hn, hv, if_neg (Nat.not_le.2 hlt), List.drop_left' rfl]

theorem fixed_ne_nil {width : Nat} (h : 0 < width) (n : Nat) : fixed width n ≠ [] := by
  intro e
  have := Decimal.length_fixed width n
  rw [e] at this
  exact absurd this (Nat.ne_of_lt h)

theorem trimBlank_self {c : Char} (h : isBlank c = false) (rest : List Char) :
    trimBlank (c :: rest) = c :: rest := List.dropWhile_cons_of_neg (by rw [h]; decide)

theorem trimBlank_digits {digits : List Char} (hd : ∀ c ∈ digits, c.isDigit) (hn : digits ≠ [])
    (rest : List Char) : trimBlank (digits ++ rest) = digits ++ rest := by
  cases digits with
  | nil => exact absurd rfl hn
  | cons c digits =>
    exact trimBlank_self (not_isBlank_of_isDigit (hd c List.mem_cons_self)) _

theorem field_fixed {least most n : Nat} (hl : least ≤ n) (hm : n ≤ most) (hlt : most < 100)
    (rest : List Char) : field least most (fixed 2 n ++ rest) = .ok (n, rest) := by
  have hd : ∀ c ∈ fixed 2 n, c.isDigit := fun c hc => isDigit_of_mem_fixed hc
  have hne := fixed_ne_nil Nat.two_pos n
  rw [field, trimBlank_digits hd hne,
    number_digits hd hne (Decimal.value_fixed (by omega)) (by omega) (.inl (by simp))]
  show (if least ≤ n ∧ n ≤ most then _ else _) = _
  rw [if_pos ⟨hl, hm⟩]
  rfl

theorem mark_self {c : Char} (h : isBlank c = false) (rest : List Char) :
    mark c (c :: rest) = .ok ((), rest) := by
  rw [mark, trimBlank_self h]
  simp only
  rw [if_pos trivial]

theorem year_minus {text rest : List Char} {n : Nat} (hn : number text.length text = .ok (n, rest))
    (hlt : n ≤ 262143) : year ('-' :: text) = .ok (-(n : Int), rest) := by
  have hb : -0x80000000 ≤ -(n : Int) ∧ -(n : Int) < 0x80000000 := by omega
  rw [year, trimBlank_self (by decide)]
  split
  · rename_i h
    obtain ⟨_, rfl⟩ := List.cons.inj h
    rw [hn, ok_bind]
    simp only [pure_bind]
    rw [if_pos hb]
    rfl
  · rename_i h
    exact absurd (List.cons.inj h).1 (by decide)
  · rename_i h _
    exact absurd rfl (h text)

theorem year_plus {text rest : List Char} {n : Nat} (hn : number text.length text = .ok (n, rest))
    (hlt : n ≤ 262143) : year ('+' :: text) = .ok ((n : Int), rest) := by
  have hb : -0x80000000 ≤ (n : Int) ∧ (n : Int) < 0x80000000 := by omega
  rw [year, trimBlank_self (by decide)]
  split
  · rename_i h
    exact absurd (List.cons.inj h).1 (by decide)
  · rename_i h
    obtain ⟨_, rfl⟩ := List.cons.inj h
    rw [hn, ok_bind]
    simp only [pure_bind]
    rw [if_pos hb]
    rfl
  · rename_i h
    exact absurd rfl (h text)

theorem year_unsigned {c : Char} {text rest : List Char} {n : Nat} (hc : c.isDigit)
    (hn : number 4 (c :: text) = .ok (n, rest)) (hlt : n ≤ 262143) :
    year (c :: text) = .ok ((n : Int), rest) := by
  have hb : -0x80000000 ≤ (n : Int) ∧ (n : Int) < 0x80000000 := by omega
  rw [year, trimBlank_self (not_isBlank_of_isDigit hc)]
  split
  · rename_i h
    obtain ⟨rfl, _⟩ := List.cons.inj h
    exact absurd hc (by decide)
  · rename_i h
    obtain ⟨rfl, _⟩ := List.cons.inj h
    exact absurd hc (by decide)
  · rw [hn, ok_bind]
    simp only [pure_bind]
    rw [if_pos hb]
    rfl

/-- The digits of a year are as many as it needs, and at least four. -/
theorem printYear_eq {y : Int} (h : y.natAbs < 1000000) :
    ∃ width, 0 < width ∧ y.natAbs < 10 ^ width ∧
      printYear y = if 0 ≤ y ∧ y ≤ 9999 then fixed 4 y.natAbs
        else (if y < 0 then '-' else '+') :: fixed width y.natAbs := by
  refine ⟨if y.natAbs < 10000 then 4 else if y.natAbs < 100000 then 5 else 6, ?_, ?_, ?_⟩
  · split
    · decide
    · split <;> decide
  · split
    · assumption
    · split <;> assumption
  · rw [printYear]
    by_cases hy : 0 ≤ y ∧ y ≤ 9999
    · simp only [if_pos hy]
      rw [if_pos (by omega)]
    · simp only [if_neg hy]

/-- Takes a printed year. -/
theorem year_printYear {y : Int} (h : -262143 ≤ y) (h' : y ≤ 262142) {rest : List Char}
    (hr : EndsNumber rest) : year (printYear y ++ rest) = .ok (y, rest) := by
  obtain ⟨width, hw, hlt, hp⟩ := printYear_eq (show y.natAbs < 1000000 by omega)
  rw [hp]
  by_cases hy : 0 ≤ y ∧ y ≤ 9999
  · have hd : ∀ c ∈ fixed 4 y.natAbs, c.isDigit := fun c hc => isDigit_of_mem_fixed hc
    have hn : number 4 (fixed 4 y.natAbs ++ rest) = .ok (y.natAbs, rest) :=
      number_digits hd (fixed_ne_nil (by decide) _) (Decimal.value_fixed (by omega)) (by omega)
        (.inl (Decimal.length_fixed 4 _))
    rw [if_pos hy]
    cases e : fixed 4 y.natAbs with
    | nil => exact absurd e (fixed_ne_nil (by decide) _)
    | cons c digits =>
      rw [e] at hn hd
      rw [List.cons_append] at hn ⊢
      rw [year_unsigned (hd c List.mem_cons_self) hn (by omega)]
      rw [show (y.natAbs : Int) = y by omega]
  · have hd : ∀ c ∈ fixed width y.natAbs, c.isDigit := fun c hc => isDigit_of_mem_fixed hc
    have hn : number (fixed width y.natAbs ++ rest).length (fixed width y.natAbs ++ rest) =
        .ok (y.natAbs, rest) :=
      number_digits hd (fixed_ne_nil hw _) (Decimal.value_fixed hlt) (by omega)
        (.inr ⟨by rw [List.length_append]; exact Nat.le_add_right _ _, hr⟩)
    rw [if_neg hy]
    by_cases hneg : y < 0
    · rw [if_pos hneg, List.cons_append, year_minus hn (by omega)]
      rw [show -(y.natAbs : Int) = y by omega]
    · rw [if_neg hneg, List.cons_append, year_plus hn (by omega)]
      rw [show (y.natAbs : Int) = y by omega]

theorem fraction_digits {width n : Nat} (hw : 0 < width) (hm : width ≤ 9) (hn : n < 10 ^ width)
    {rest : List Char} (hr : EndsNumber rest) :
    fraction ('.' :: (fixed width n ++ rest)) = .ok (n * 10 ^ (9 - width), rest) := by
  have hd : ∀ c ∈ fixed width n, c.isDigit := fun c hc => isDigit_of_mem_fixed hc
  have hl : (fixed width n).length ≤ 9 := by rw [Decimal.length_fixed]; exact hm
  have hlt : n < 10 ^ 9 := Nat.lt_of_lt_of_le hn (Nat.pow_le_pow_right (by decide) hm)
  rw [fraction, takeWhile_take hd (.inr ⟨hl, hr⟩),
    number_digits hd (fixed_ne_nil hw n) (Decimal.value_fixed hn) (by omega) (.inr ⟨hl, hr⟩),
    ok_bind, Decimal.length_fixed]
  show Except.ok (n * 10 ^ (9 - width), rest.dropWhile Char.isDigit) = _
  rw [hr.dropWhile]

/-- Takes a printed fraction, or none before a text that begins with none. -/
theorem fraction_printFraction {n : Nat} (h : n < 1000000000) {rest : List Char}
    (hr : EndsNumber rest) (hf : fraction rest = .ok (0, rest)) :
    fraction (printFraction n ++ rest) = .ok (n, rest) := by
  rw [printFraction]
  by_cases h0 : n = 0
  · rw [if_pos h0, List.nil_append, hf, h0]
  by_cases h3 : n % 1000000 = 0
  · rw [if_neg h0, if_pos h3, List.cons_append,
      fraction_digits (by decide) (by decide) (by omega) hr]
    rw [show n / 1000000 * 10 ^ (9 - 3) = n by omega]
  by_cases h6 : n % 1000 = 0
  · rw [if_neg h0, if_neg h3, if_pos h6, List.cons_append,
      fraction_digits (by decide) (by decide) (by omega) hr]
    rw [show n / 1000 * 10 ^ (9 - 6) = n by omega]
  · rw [if_neg h0, if_neg h3, if_neg h6, List.cons_append,
      fraction_digits (by decide) (by decide) (by omega) hr]
    rw [show n * 10 ^ (9 - 9) = n by omega]

/-! ## Whole texts -/

theorem deadline_eq {d : Deadline} {date : Date} {hour minute second fraction : Nat}
    (hv : date.isValid ∧ -262143 ≤ date.year ∧ date.year ≤ 262142)
    (hs : date.toDays * 86400 + hour * 3600 + minute * 60 +
      (if second = 60 then 59 else second : Nat) = d.second)
    (hf : (if second = 60 then fraction + 1000000000 else fraction) = d.fraction) :
    deadline date hour minute second fraction 0 = .ok d := by
  rw [deadline, if_neg (not_not_intro hv), if_neg (by decide)]
  simp only [Int.zero_mul, Int.sub_zero, hs, hf]
  rw [dif_pos ⟨d.fraction_lt, d.leap_last, d.first_le, d.le_last⟩]

/-- The deadline at its own date and time of day. -/
theorem deadline_of_clock (d : Deadline) :
    let clock := (d.second % 86400).toNat
    deadline (Date.ofDays (d.second / 86400)) (clock / 3600) (clock / 60 % 60)
      (if d.isLeap then 60 else clock % 60)
      (if d.isLeap then d.fraction - 1000000000 else d.fraction) 0 = .ok d := by
  have hfirst := d.first_le
  have hlast := d.le_last
  intro clock
  refine deadline_eq ⟨Date.isValid_ofDays _, Date.year_bounds (by omega) (by omega)⟩ ?_ ?_
  · rw [Date.toDays_ofDays]
    by_cases hl : d.isLeap
    · have := d.leap_last (of_decide_eq_true hl)
      rw [if_pos hl, if_pos rfl]
      omega
    · rw [if_neg hl, if_neg (by omega)]
      omega
  · by_cases hl : d.isLeap
    · have : 1000000000 ≤ d.fraction := of_decide_eq_true hl
      rw [if_pos hl, if_pos rfl, if_pos hl]
      omega
    · rw [if_neg hl, if_neg (by omega), if_neg hl]

/-- Every deadline is read back from its text. -/
theorem parse_print (d : Deadline) : parse (print d) = .ok d := by
  have hfirst := d.first_le
  have hlast := d.le_last
  have hdash := mark_self (c := '-') (by decide)
  have hT : ∀ rest, separator ('T' :: rest) = .ok ((), rest) := fun _ => rfl
  have hcolon := mark_self (c := ':') (by decide)
  obtain ⟨hlow, hhigh⟩ := Date.year_bounds
    (show -96465292 ≤ d.second / 86400 by omega) (show d.second / 86400 ≤ 95026236 by omega)
  obtain ⟨⟨hmonth, hmonth'⟩, hday, hday'⟩ :=
    Date.bounds_of_isValid (Date.isValid_ofDays (d.second / 86400))
  have hdead := deadline_of_clock d
  rw [print]
  simp only [List.append_assoc, List.cons_append] at hdead ⊢
  generalize Date.ofDays (d.second / 86400) = date at *
  generalize hclock : (d.second % 86400).toNat = clock at *
  have hsecond : (if d.isLeap then 60 else clock % 60) ≤ 60 := by split <;> omega
  have hfrac : (if d.isLeap then d.fraction - 1000000000 else d.fraction) < 1000000000 := by
    have := d.fraction_lt
    by_cases hl : d.isLeap
    · rw [if_pos hl]
      omega
    · have : ¬ 1000000000 ≤ d.fraction := of_decide_eq_false (eq_false_of_ne_true hl)
      rw [if_neg hl]
      omega
  generalize (if d.isLeap then 60 else clock % 60) = second at *
  generalize (if d.isLeap then d.fraction - 1000000000 else d.fraction) = frac at *
  have hend : EndsNumber ['Z'] := endsNumber_cons [] (by decide)
  rw [parse, year_printYear hlow hhigh (endsNumber_cons _ (by decide))]
  simp only [ok_bind, hdash]
  rw [field_fixed hmonth hmonth' (by decide)]
  simp only [ok_bind, hdash]
  rw [field_fixed hday hday' (by decide)]
  simp only [ok_bind, hT]
  rw [field_fixed (Nat.zero_le _) (by omega) (by decide)]
  simp only [ok_bind, hcolon]
  rw [field_fixed (Nat.zero_le _) (by omega) (by decide)]
  simp only [ok_bind, hcolon]
  rw [field_fixed (Nat.zero_le _) hsecond (by decide), ok_bind,
    fraction_printFraction hfrac hend rfl, ok_bind]
  exact hdead

theorem length_printYear_le (y : Int) : (printYear y).length ≤ 7 := by
  simp only [printYear]
  split
  · rw [Decimal.length_fixed]
    split
    · decide
    · split <;> decide
  · rw [List.length_cons, Decimal.length_fixed]
    split
    · decide
    · split <;> decide

theorem length_printFraction_le (n : Nat) : (printFraction n).length ≤ 10 := by
  simp only [printFraction]
  split
  · decide
  · split
    · rw [List.length_cons, Decimal.length_fixed]
      decide
    · split
      · rw [List.length_cons, Decimal.length_fixed]
        decide
      · rw [List.length_cons, Decimal.length_fixed]

theorem length_print_le (d : Deadline) : (print d).length ≤ 33 := by
  simp only [print, List.length_append, List.length_cons, List.length_nil, Decimal.length_fixed]
  have := length_printYear_le (Date.ofDays (d.second / 86400)).year
  have := length_printFraction_le (if d.isLeap then d.fraction - 1000000000 else d.fraction)
  omega

end ExpiringCache.Timestamp
