import ExpiringCache.Cache

/-!
# The ticks of a sweeper

At a reading of its clock a running sweeper deals with one tick after the other, for as long as one
is due (`Sweeper.due_eq_succ`). When the next is due depends on whether the tick was late: all this
is `Sweeper.Scheduled`. So after a sweeper has dealt with what was due at a reading, nothing is due
at that reading (`Cache.sweepDue_again`).
-/

namespace ExpiringCache

namespace Sweeper

variable {sweeper : Sweeper} {reading : Nat}

theorem due_of_not_running (h : sweeper.isRunning = false) (reading : Nat) :
    sweeper.due reading = 0 := by
  rw [due, h]
  rfl

theorem due_of_early (early : reading < sweeper.next) : sweeper.due reading = 0 := by
  rw [due, if_pos]
  rw [Bool.or_eq_true, decide_eq_true_iff]
  exact .inr early

theorem due_of_late (hr : sweeper.isRunning = true) (late : sweeper.next + leeway < reading) :
    sweeper.due reading = 1 := by
  have notEarly : ¬ reading < sweeper.next := by omega
  have isLate : sweeper.isLate reading = true := decide_eq_true late
  simp only [due, hr, notEarly, isLate, Bool.not_true, decide_false, Bool.or_self,
    Bool.false_eq_true, if_false, if_true]

theorem due_of_prompt (hr : sweeper.isRunning = true) (there : sweeper.next ≤ reading)
    (prompt : reading ≤ sweeper.next + leeway) :
    sweeper.due reading = (reading - sweeper.next) / sweeper.interval.nanos + 1 := by
  have notEarly : ¬ reading < sweeper.next := by omega
  have notLate : sweeper.isLate reading = false := decide_eq_false (by omega)
  simp only [due, hr, notEarly, notLate, Bool.not_true, decide_false, Bool.or_self,
    Bool.false_eq_true, if_false]

theorem next_tick_of_late (late : sweeper.next + leeway < reading) :
    (sweeper.tick reading).next = reading + sweeper.interval.nanos := by
  have isLate : sweeper.isLate reading = true := decide_eq_true late
  rw [tick, isLate]
  rfl

theorem next_tick_of_prompt (prompt : reading ≤ sweeper.next + leeway) :
    (sweeper.tick reading).next = sweeper.next + sweeper.interval.nanos := by
  have notLate : sweeper.isLate reading = false := decide_eq_false (by omega)
  rw [tick, notLate]
  rfl

/-- A tick that is due is dealt with, and then those that are due after it. -/
theorem due_eq_succ (hr : sweeper.isRunning = true) (there : sweeper.next ≤ reading) :
    sweeper.due reading = (sweeper.tick reading).due reading + 1 := by
  have running : (sweeper.tick reading).isRunning = true := hr
  have positive := sweeper.interval_pos
  by_cases late : sweeper.next + leeway < reading
  · have later := next_tick_of_late late
    rw [due_of_late hr late, due_of_early (by omega)]
  · have prompt : reading ≤ sweeper.next + leeway := Nat.le_of_not_lt late
    have later := next_tick_of_prompt prompt
    rw [due_of_prompt hr there prompt]
    by_cases again : sweeper.next + sweeper.interval.nanos ≤ reading
    · have same : (sweeper.tick reading).interval = sweeper.interval := rfl
      rw [due_of_prompt running (later ▸ again) (by omega), later, same, ← Nat.sub_sub,
        Nat.div_eq_sub_div positive (by omega)]
    · rw [due_of_early (by omega), Nat.div_eq_of_lt (by omega)]

/-- At a reading of the clock, the sweeper keeps to its schedule. -/
structure Scheduled (sweeper : Sweeper) (reading : Nat) : Prop where
  /-- Before its time the next tick is not due. -/
  early : reading < sweeper.next → sweeper.due reading = 0
  /-- A tick that is due is dealt with, and then those that are due after it. -/
  each : sweeper.next ≤ reading →
    sweeper.due reading = (sweeper.tick reading).due reading + 1
  /-- A tick that is dealt with in time is followed by another an interval after it was due. -/
  prompt : reading ≤ sweeper.next + leeway →
    (sweeper.tick reading).next = sweeper.next + sweeper.interval.nanos
  /-- One that is late is dealt with by itself, and the next is an interval away. -/
  late : sweeper.next + leeway < reading → sweeper.due reading = 1 ∧
    ∀ soon, soon < reading + sweeper.interval.nanos → (sweeper.tick reading).due soon = 0

theorem scheduled (hr : sweeper.isRunning = true) (reading : Nat) : sweeper.Scheduled reading where
  early := due_of_early
  each := due_eq_succ hr
  prompt := next_tick_of_prompt
  late late := ⟨due_of_late hr late, fun _ early => due_of_early (next_tick_of_late late ▸ early)⟩

/-- A sweeper that is looked at after three and a half intervals sweeps once, and then an interval
later. -/
example :
    let sweeper := spawn (.ofMillis 1000) (by decide) 0
    sweeper.due 3500000000 = 1 ∧ (sweeper.tick 3500000000).due 4000000000 = 0 ∧
      (sweeper.tick 3500000000).due 4500000000 = 1 := by
  decide

end Sweeper

/-! ## Caches -/

namespace Cache

variable {cache : Cache} {sweeper : Sweeper} {reading : Nat}

theorem sweepDue_of_due_eq_zero (h : cache.sweeper = some sweeper)
    (hd : sweeper.due reading = 0) (now : Instant) : cache.sweepDue now reading = ([], cache) := by
  obtain ⟨space, reporter, _⟩ := cache
  subst h
  simp only [sweepDue, hd]
  rfl

/-- The sweeper that deals with ticks is the given one, whichever the cache has. -/
theorem sweepTicks_with_sweeper (cache : Cache) (other : Option Sweeper) (now : Instant)
    (reading : Nat) (sweeper : Sweeper) (n : Nat) :
    { cache with sweeper := other }.sweepTicks now reading sweeper n =
      cache.sweepTicks now reading sweeper n := by
  induction n generalizing cache sweeper with
  | zero => rfl
  | succ n ih =>
    have later := ih { cache with space := (cache.space.sweep now).2 } (sweeper.tick reading)
    exact congrArg (fun p => (Event.swept (cache.space.sweep now).1 :: p.1, p.2)) later

/-- When a sweeper has dealt with the ticks that are due, no more are. -/
theorem due_sweepTicks (hr : sweeper.isRunning = true) (now : Instant) :
    ∃ after, (cache.sweepTicks now reading sweeper (sweeper.due reading)).2.sweeper = some after ∧
      after.due reading = 0 := by
  generalize hn : sweeper.due reading = n
  induction n generalizing cache sweeper with
  | zero => exact ⟨sweeper, rfl, hn⟩
  | succ n ih =>
    have there : sweeper.next ≤ reading := Nat.le_of_not_lt fun early => by
      rw [Sweeper.due_of_early early] at hn
      cases hn
    rw [Sweeper.due_eq_succ hr there] at hn
    exact @ih { cache with space := (cache.space.sweep now).2 } (sweeper.tick reading) hr
      (Nat.succ.inj hn)

/-- Looking twice at the ticks that are due at a reading is looking once. -/
theorem sweepDue_again (cache : Cache) (now later : Instant) (reading : Nat) :
    (cache.sweepDue now reading).2.sweepDue later reading =
      ([], (cache.sweepDue now reading).2) := by
  cases hs : cache.sweeper with
  | none =>
    have idle : cache.sweepDue now reading = ([], cache) := by rw [sweepDue, hs]
    rw [idle, sweepDue, hs]
  | some sweeper =>
    cases hr : sweeper.isRunning with
    | true =>
      obtain ⟨after, ha, none_due⟩ := @due_sweepTicks cache sweeper reading hr now
      have dealt : cache.sweepDue now reading =
        cache.sweepTicks now reading sweeper (sweeper.due reading) := by rw [sweepDue, hs]
      rw [dealt]
      exact sweepDue_of_due_eq_zero ha none_due later
    | false =>
      have none_due := Sweeper.due_of_not_running hr reading
      rw [sweepDue_of_due_eq_zero hs none_due, sweepDue_of_due_eq_zero hs none_due]

end Cache

end ExpiringCache
