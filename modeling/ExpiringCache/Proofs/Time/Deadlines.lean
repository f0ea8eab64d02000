import ExpiringCache.Proofs.TimedMap

/-!
# Deadlines are exact or absent

A lifetime has a deadline if it is no longer than as many milliseconds as 63 bits count and ends at
an instant that exists. The deadline is then the exact sum, and there is none otherwise
(`Deadline.after?_eq_some_iff`).

A deadline outside of leap seconds lies within the bounds of the clock, so that what is left of it at
any instant does not overflow (`Deadline.within`). An item with such a deadline is live up to and
including it and has exactly what is left, nothing at the deadline and after it
(`Item.liveUpTo_of_deadline`). So a longer lifetime never ends before a shorter one, whether their
deadlines exist or not (`Item.deadlines_exact_or_absent`).
-/

namespace ExpiringCache

theorem Instant.later?_eq_some_iff {now later : Instant} {time : Duration} :
    now.later? time = some later ↔ later.nanos = now.nanos + time.nanos := by
  have first_le := now.first_le
  have le_last := later.le_last
  rw [later?, ofNanos?]
  split
  · rw [Option.some.injEq]
    constructor
    · rintro rfl
      rfl
    · intro sum
      obtain ⟨nanos, _, _⟩ := later
      obtain rfl : nanos = now.nanos + time.nanos := sum
      rfl
  · rename_i outside
    simp only [first, last] at outside
    constructor
    · nofun
    · omega

/-- The time is no longer than as many milliseconds as 63 bits count, and from `now` on it ends at an
instant that exists. -/
def Duration.Ends (time : Duration) (now : Instant) : Prop :=
  time.nanos ≤ Deadline.longest ∧ now.nanos + time.nanos ≤ Instant.last

namespace Deadline

variable {d : Deadline}

theorem nanos_ofInstant (t : Instant) : (ofInstant t).nanos = t.nanos := by
  simp only [nanos, ofInstant]
  omega

theorem isLeap_ofInstant (t : Instant) : (ofInstant t).isLeap = false :=
  decide_eq_false (by dsimp only [ofInstant]; omega)

theorem after?_eq_some_iff {now : Instant} {time : Duration} :
    after? now time = some d ↔ time.nanos ≤ longest ∧
      ∃ due : Instant, due.nanos = now.nanos + time.nanos ∧ ofInstant due = d := by
  rw [after?]
  split
  · rename_i short
    simp only [Option.map_eq_some_iff, Instant.later?_eq_some_iff, short, true_and]
  · rename_i long
    simp only [long, false_and, reduceCtorEq]

theorem passed_iff (whole : d.isLeap = false) (t : Instant) :
    d.passed t = true ↔ d.nanos < t.nanos := by
  rw [isLeap, decide_eq_false_iff_not] at whole
  rw [passed, decide_eq_true_eq, lastNanos, nanos]
  omega

theorem remaining_nanos (whole : d.isLeap = false) (t : Instant) :
    ((d.remaining t).nanos : Int) = max 0 (d.nanos - t.nanos) := by
  simp only [remaining, whole, Bool.false_eq_true, false_and, if_false]
  omega

/-- What is left at any instant fits into the milliseconds that 63 bits count. -/
theorem within (whole : d.isLeap = false) (t : Instant) :
    -(longest : Int) ≤ d.nanos - t.nanos ∧ d.nanos - t.nanos ≤ longest := by
  rw [isLeap, decide_eq_false_iff_not] at whole
  have first_le := d.first_le
  have le_last := d.le_last
  have first_le' := t.first_le
  have le_last' := t.le_last
  rw [nanos, longest]
  omega

end Deadline

namespace Item

/-- The item is live up to and including a number of nanoseconds since 1970-01-01T00:00:00Z, and
what is left until then is exact. -/
structure LiveUpTo (item : Item) (due : Int) : Prop where
  expired_iff : ∀ t, item.expired t = true ↔ due < t.nanos
  remaining : ∀ t, ∃ left, item.remaining t = some left ∧ (left.nanos : Int) = max 0 (due - t.nanos)
  /-- Neither what is left nor what has passed since overflows. -/
  fits : ∀ t : Instant,
    -(Deadline.longest : Int) ≤ due - t.nanos ∧ due - t.nanos ≤ Deadline.longest

variable {item : Item} {due : Int} {t : Instant}

theorem liveUpTo_of_deadline {d : Deadline} (h : item.deadline = some d)
    (whole : d.isLeap = false) : item.LiveUpTo d.nanos where
  expired_iff t := by
    rw [expired, h, Option.any_some]
    exact Deadline.passed_iff whole t
  remaining t := ⟨d.remaining t, congrArg (Option.map _) h, Deadline.remaining_nanos whole t⟩
  fits := Deadline.within whole

namespace LiveUpTo

theorem remaining_zero (h : item.LiveUpTo due) (past : due ≤ t.nanos) :
    item.remaining t = some .zero := by
  obtain ⟨⟨left⟩, remaining, exactly⟩ := h.remaining t
  obtain rfl : left = 0 := by
    dsimp only at exactly
    omega
  exact remaining

theorem remaining_expired (h : item.LiveUpTo due) (expired : item.expired t = true) :
    item.remaining t = some .zero :=
  h.remaining_zero (Int.le_of_lt ((h.expired_iff t).1 expired))

/-- At the last instant at which the item is live nothing is left. -/
theorem last (h : item.LiveUpTo due) (same : t.nanos = due) :
    item.expired t = false ∧ item.remaining t = some .zero := by
  refine ⟨?_, h.remaining_zero (Int.le_of_eq same.symm)⟩
  rw [← Bool.not_eq_true, h.expired_iff, same]
  exact Int.lt_irrefl due

end LiveUpTo

/-! ## Items with a lifetime -/

variable (value : Value) {now : Instant} {time : Duration}

theorem liveUpTo_create (ends : time.Ends now) :
    (∃ due : Instant, due.nanos = now.nanos + time.nanos ∧
      (create value (some time) now).deadline = some (.ofInstant due)) ∧
    (create value (some time) now).LiveUpTo (now.nanos + time.nanos) := by
  have first_le := now.first_le
  let due : Instant := ⟨now.nanos + time.nanos, by omega, ends.2⟩
  have deadline : (create value (some time) now).deadline = some (.ofInstant due) :=
    Deadline.after?_eq_some_iff.2 ⟨ends.1, due, rfl, rfl⟩
  have upTo := liveUpTo_of_deadline deadline (Deadline.isLeap_ofInstant due)
  rw [Deadline.nanos_ofInstant] at upTo
  exact ⟨⟨due, rfl, deadline⟩, upTo⟩

theorem deadline_create_of_not_ends (endless : ¬ time.Ends now) :
    (create value (some time) now).deadline = none := by
  refine Option.eq_none_iff_forall_ne_some.2 fun d h => endless ?_
  obtain ⟨short, due, sum, -⟩ := Deadline.after?_eq_some_iff.1 h
  exact ⟨short, sum ▸ due.le_last⟩

theorem expired_create (t : Instant) : (create value (some time) now).expired t = true ↔
    (create value (some time) now).deadline.isSome = true ∧ now.nanos + time.nanos < t.nanos := by
  by_cases ends : time.Ends now
  · obtain ⟨⟨due, -, deadline⟩, upTo⟩ := liveUpTo_create value ends
    rw [upTo.expired_iff, deadline]
    simp only [Option.isSome_some, true_and]
  · rw [expired, deadline_create_of_not_ends value ends]
    simp only [Option.any_none, Option.isSome_none, Bool.false_eq_true, false_and]

variable {value} in
/-- A longer lifetime does not end before a shorter one. -/
theorem live_create_longer {value' : Value} {longer : Duration} {t : Instant}
    (le : time.nanos ≤ longer.nanos) (live : (create value (some time) now).expired t = false) :
    (create value' (some longer) now).expired t = false := by
  by_contra expired
  rw [Bool.not_eq_false, expired_create] at expired
  obtain ⟨deadline, late⟩ := expired
  have ends : longer.Ends now := by
    by_contra endless
    rw [deadline_create_of_not_ends value' endless] at deadline
    cases deadline
  have sooner : time.Ends now := ⟨Nat.le_trans le ends.1, by have := ends.2; omega⟩
  have past := ((liveUpTo_create value sooner).2.expired_iff t).2 (by omega)
  rw [live] at past
  cases past

/-- A lifetime has a deadline just if it is short enough and its end exists; the deadline is then the
exact end. The item expires after it, what is left until then is exact, and nothing overflows. A
longer lifetime from the same instant does not end before it.

The same holds of every deadline outside of leap seconds, where nothing is left at the deadline and
after it. Only without a deadline is there no end, and what has expired stays expired. -/
theorem deadlines_exact_or_absent :
    (∀ (value : Value) (now : Instant) (time : Duration),
      let item := create value (some time) now
      let due := now.nanos + time.nanos
      (time.Ends now → (∃ last : Instant, last.nanos = due ∧
        item.deadline = some (.ofInstant last)) ∧ item.LiveUpTo due) ∧
      (¬ time.Ends now → item.deadline = none) ∧
      (∀ t, item.expired t = true ↔ item.deadline.isSome = true ∧ due < t.nanos) ∧
      ∀ (value' : Value) (longer : Duration) (t : Instant), time.nanos ≤ longer.nanos →
        item.expired t = false → (create value' (some longer) now).expired t = false) ∧
    (∀ (item : Item) (d : Deadline), item.deadline = some d → d.isLeap = false →
      item.LiveUpTo d.nanos) ∧
    (∀ (item : Item) (due : Int) (t : Instant), item.LiveUpTo due →
      (item.expired t = true → item.remaining t = some .zero) ∧
      (t.nanos = due → item.expired t = false ∧ item.remaining t = some .zero)) ∧
    (∀ (item : Item) (t : Instant), item.remaining t = none ↔ item.deadline = none) ∧
    ∀ (item : Item) (t later : Instant), t ≤ later → item.expired t = true →
      item.expired later = true :=
  ⟨fun value _ _ => ⟨liveUpTo_create value, deadline_create_of_not_ends value,
      expired_create value, fun _ _ _ => live_create_longer⟩,
    fun _ _ => liveUpTo_of_deadline, fun _ _ _ h => ⟨h.remaining_expired, h.last⟩,
    fun _ _ => Option.map_eq_none_iff, fun _ _ _ => expired_later⟩

/-- A lifetime that ends at the last instant of the clock, and one that is longer; and a deadline
that has passed. -/
theorem deadlines_exact_or_absent_last :
    let now : Instant := .nearest (Instant.last - 1)
    let item : Item := ⟨.null, some (.ofInstant (.nearest 5))⟩
    (Duration.mk 1).Ends now ∧ ¬ (Duration.mk 2).Ends now ∧
      (create .null (some ⟨1⟩) now).expired (.nearest Instant.last) = false ∧
      (create .null (some ⟨1⟩) now).remaining (.nearest Instant.last) = some .zero ∧
      (create .null (some ⟨2⟩) now).deadline = none ∧
      (create .null (some ⟨2⟩) now).expired (.nearest Instant.last) = false ∧
      item.remaining (.nearest 6) = some .zero ∧ item.expired (.nearest 7) = true := by
  intro now item
  have ends : (Duration.mk 1).Ends now := ⟨by decide, by decide⟩
  have endless : ¬ (Duration.mk 2).Ends now := fun ends => absurd ends.2 (by decide)
  obtain ⟨created, stored, counted, -, later⟩ := deadlines_exact_or_absent
  obtain ⟨exact_end, -, -, longer⟩ := created .null now ⟨1⟩
  obtain ⟨-, absent, -, -⟩ := created .null now ⟨2⟩
  obtain ⟨live, nothing⟩ := (counted _ _ (.nearest Instant.last) (exact_end ends).2).2 rfl
  have passed : item.expired (.nearest 6) = true := by decide
  exact ⟨ends, endless, live, nothing, absent endless, longer .null ⟨2⟩ _ (by decide) live,
    (counted item _ _ (stored item _ rfl rfl)).1 passed, later item _ _ (by decide) passed⟩

end Item

end ExpiringCache
