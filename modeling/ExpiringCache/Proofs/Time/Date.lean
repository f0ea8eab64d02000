import ExpiringCache.Time.Date
import Mathlib.Tactic.IntervalCases

/-!
# Dates and days

Every number of days since 1970-01-01 has a date, and the date has that number
(`toDays_ofDays`); the date is one of the calendar (`isValid_ofDays`), and its year grows with the
days (`year_bounds`).

A cycle of 400 years has 146097 days. `InCycle` gives a day of a cycle its century, the group of
four years within it, the year within the group and the day of the year; the last day of a group
is a leap day, unless the century ends with it.
-/

namespace ExpiringCache.Date

/-- A day of a cycle is day `k` of year `100 * c + 4 * q + r`, from March on. -/
structure InCycle (day c q r k : Nat) : Prop where
  eq : day = 36524 * c + 1461 * q + 365 * r + k
  century : c ≤ 3
  group : q ≤ 24
  year : r ≤ 3
  day_le : k ≤ 365
  leap : k = 365 → r = 3 ∧ (q ≤ 23 ∨ c = 3)

theorem exists_inCycle {day : Nat} (h : day < 146097) : ∃ c q r k, InCycle day c q r k := by
  obtain ⟨c, e, hc, he, hd⟩ :
      ∃ c e, c ≤ 3 ∧ (e ≤ 36523 ∨ e = 36524 ∧ c = 3) ∧ day = 36524 * c + e := by
    by_cases hl : day = 146096
    · exact ⟨3, 36524, by omega, by omega, by omega⟩
    · exact ⟨day / 36524, day % 36524, by omega, by omega, by omega⟩
  obtain ⟨q, f, hq, hf, he'⟩ : ∃ q f, q ≤ 24 ∧ f ≤ 1460 ∧ e = 1461 * q + f :=
    ⟨e / 1461, e % 1461, by omega, by omega, by omega⟩
  by_cases hl : f = 1460
  · exact ⟨c, q, 3, 365, by omega, hc, hq, by omega, by omega, by omega⟩
  · exact ⟨c, q, f / 365, f % 365, by omega, hc, hq, by omega, by omega, by omega⟩

theorem InCycle.year_eq {day c q r k : Nat} (h : InCycle day c q r k) :
    (day - day / 1460 + day / 36524 - day / 146096) / 365 = 100 * c + 4 * q + r := by
  obtain ⟨hd, hc, hq, hr, hk, hl⟩ := h
  by_cases hlast : day = 146096
  · obtain rfl : c = 3 := by omega
    obtain rfl : q = 24 := by omega
    obtain rfl : r = 3 := by omega
    omega
  · have h0 : day / 146096 = 0 := by omega
    have h1 : day / 36524 = c := by omega
    have h2 : day / 1460 = 25 * c + q ∨ day / 1460 = 25 * c + q + 1 ∧ 1364 ≤ 365 * r + k := by
      omega
    rw [h0, h1]
    omega

theorem daysBefore_cycle (cycle : Int) {c q r : Nat} (hc : c ≤ 3) (hq : q ≤ 24) (hr : r ≤ 3) :
    daysBefore ((100 * c + 4 * q + r : Nat) + 400 * cycle) =
      146097 * cycle + (36524 * c + 1461 * q + 365 * r : Nat) := by
  have h4 : ((100 * c + 4 * q + r : Nat) + 400 * cycle) / 4 = 25 * c + q + 100 * cycle := by omega
  have h100 : ((100 * c + 4 * q + r : Nat) + 400 * cycle) / 100 = c + 4 * cycle := by omega
  have h400 : ((100 * c + 4 * q + r : Nat) + 400 * cycle) / 400 = cycle := by omega
  rw [daysBefore, h4, h100, h400]
  omega

theorem isLeapYear_cycle (cycle : Int) {c q : Nat} (hq : q ≤ 24) (h : q ≤ 23 ∨ c = 3) :
    isLeapYear ((100 * c + 4 * q + 3 : Nat) + 400 * cycle + 1) := by
  have h4 : ((100 * c + 4 * q + 3 : Nat) + 400 * cycle + 1) % 4 = 0 := by omega
  have h100 : ((100 * c + 4 * q + 3 : Nat) + 400 * cycle + 1) % 100 ≠ 0 ∨
      ((100 * c + 4 * q + 3 : Nat) + 400 * cycle + 1) % 400 = 0 := by
    by_cases hq' : q ≤ 23
    · exact .inl (by omega)
    · exact .inr (by omega)
  simp only [isLeapYear, Bool.and_eq_true, Bool.or_eq_true, beq_iff_eq, bne_iff_ne]
  exact ⟨h4, h100⟩

/-- The day `k` of the year that begins in March of `year`. -/
def ofYearDay (year : Int) (k : Nat) : Date :=
  let month := (5 * k + 2) / 153
  let day := k - (153 * month + 2) / 5 + 1
  if month < 10 then ⟨year, month + 3, day⟩ else ⟨year + 1, month - 9, day⟩

theorem ofDays_eq (days : Int) :
    ∃ (year : Int) (k : Nat), days = daysBefore year + k - epoch ∧ k ≤ 365 ∧
      (k = 365 → isLeapYear (year + 1)) ∧ ofDays days = ofYearDay year k := by
  obtain ⟨c, q, r, k, h⟩ :=
    exists_inCycle (show ((days + epoch) % 146097).toNat < 146097 by omega)
  have hy := h.year_eq
  obtain ⟨hd, hc, hq, hr, hk, hl⟩ := h
  refine ⟨(100 * c + 4 * q + r : Nat) + 400 * ((days + epoch) / 146097), k, ?_, hk, ?_, ?_⟩
  · rw [daysBefore_cycle _ hc hq hr]
    omega
  · intro hlast
    obtain ⟨rfl, h⟩ := hl hlast
    exact isLeapYear_cycle _ hq h
  · have h4 : (100 * c + 4 * q + r) / 4 = 25 * c + q := by omega
    have h100 : (100 * c + 4 * q + r) / 100 = c := by omega
    have hrest : 36524 * c + 1461 * q + 365 * r + k -
        (365 * (100 * c + 4 * q + r) + (25 * c + q) - c) = k := by omega
    simp only [ofDays, hy]
    rw [h4, h100, hd, hrest]
    rfl

theorem toDays_ofYearDay (year : Int) {k : Nat} (hk : k ≤ 365) :
    (ofYearDay year k).toDays = daysBefore year + k - epoch := by
  have hm : (5 * k + 2) / 153 ≤ 11 := by omega
  have hle : (153 * ((5 * k + 2) / 153) + 2) / 5 ≤ k := by omega
  rw [ofYearDay]
  generalize (5 * k + 2) / 153 = month at hm hle
  by_cases h : month < 10
  · rw [if_pos h, toDays]
    simp only
    rw [if_neg (by omega), show (month + 3 + 9) % 12 = month by omega]
    omega
  · rw [if_neg h, toDays]
    simp only
    rw [if_pos (by omega), show (month - 9 + 9) % 12 = month by omega, Int.add_sub_cancel]
    omega

/-- The date of a number of days has that number. -/
theorem toDays_ofDays (days : Int) : (ofDays days).toDays = days := by
  obtain ⟨year, k, hd, hk, _, he⟩ := ofDays_eq days
  rw [he, toDays_ofYearDay year hk, hd]

theorem isValid_ofYearDay {year : Int} {k : Nat} (hk : k ≤ 365)
    (hl : k = 365 → isLeapYear (year + 1)) : (ofYearDay year k).isValid := by
  have hm : (5 * k + 2) / 153 ≤ 11 := by omega
  have hlow : 153 * ((5 * k + 2) / 153) ≤ 5 * k + 2 := by omega
  have hhigh : 5 * k + 2 < 153 * ((5 * k + 2) / 153) + 153 := by omega
  rw [ofYearDay]
  generalize (5 * k + 2) / 153 = month at hm hlow hhigh
  by_cases hfeb : month = 11
  · subst hfeb
    simp only [isValid, daysInMonth]
    by_cases hlast : k = 365
    · subst hlast
      simp [hl rfl]
    · have hday : k - (153 * 11 + 2) / 5 + 1 ≤ 28 := by omega
      have hmost : 28 ≤ if isLeapYear (year + 1) then 29 else 28 := by split <;> decide
      simp
      omega
  · simp only [isValid]
    interval_cases month <;> simp [daysInMonth] <;> omega

theorem isValid_ofDays (days : Int) : (ofDays days).isValid := by
  obtain ⟨year, k, _, hk, hl, he⟩ := ofDays_eq days
  rw [he]
  exact isValid_ofYearDay hk hl

theorem daysInMonth_le (year : Int) (month : Nat) : daysInMonth year month ≤ 31 := by
  unfold daysInMonth
  split
  · split <;> decide
  all_goals decide

theorem bounds_of_isValid {date : Date} (h : date.isValid) :
    (1 ≤ date.month ∧ date.month ≤ 12) ∧ 1 ≤ date.day ∧ date.day ≤ 31 := by
  simp only [isValid, Bool.and_eq_true, decide_eq_true_eq] at h
  obtain ⟨⟨⟨hm, hm'⟩, hd⟩, hd'⟩ := h
  exact ⟨⟨hm, hm'⟩, hd, Nat.le_trans hd' (daysInMonth_le _ _)⟩

/-- The dates that a deadline can have lie within the years from -262143 to 262142. -/
theorem year_bounds {days : Int} (h : -96465292 ≤ days) (h' : days ≤ 95026236) :
    -262143 ≤ (ofDays days).year ∧ (ofDays days).year ≤ 262142 := by
  obtain ⟨year, k, hd, hk, _, he⟩ := ofDays_eq days
  rw [daysBefore, epoch] at hd
  have hlow : -262143 ≤ year ∨ year = -262144 ∧ 306 ≤ k := by
    by_cases hy : year = -262144
    · subst hy
      omega
    · have : ¬ year ≤ -262145 := by omega
      omega
  have hhigh : year ≤ 262141 ∨ year = 262142 ∧ k ≤ 305 := by
    by_cases hy : year = 262142
    · subst hy
      omega
    · have : ¬ 262143 ≤ year := by omega
      omega
  rw [he, ofYearDay]
  by_cases hm : (5 * k + 2) / 153 < 10
  · rw [if_pos hm]
    simp only
    omega
  · rw [if_neg hm]
    simp only
    omega

end ExpiringCache.Date
