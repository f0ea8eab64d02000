import ExpiringCache.Proofs.KeySpaces
import ExpiringCache.Proofs.Ticks

/-!
# The life of a sweeper

A cache that is swept in the background has a task that is woken now and then. It deals with one
tick without a sweep; at each tick after that it sweeps every store once, until the cache is
stopped, closed or dropped, and never again after that (`Life.Safe`). A stop that has been asked for
is looked at before a tick that is due, and the task does not keep alive the items that it sweeps.
The first tick is at the start of the task, and from then on the ticks keep to the schedule.

`Life.step` is one thing that happens, and `Life.wake_cases` lists what a waking comes to. What a
step makes of a life is said once (`Life.step_advances`), and what has happened so far determines
from it how far the life has come (`Life.tracks_run`). What can then still happen is read off that
(`Life.Tracks.safe`). The running cache deals with the ticks that are due at once as with so many
wakings of the task (`Life.run_ticks`).
-/

namespace ExpiringCache

/-! ## Sweepers -/

namespace Sweeper

variable {sweeper : Sweeper}

theorem isRunning_stop (sweeper : Sweeper) : sweeper.stop.isRunning = false := by
  obtain ⟨interval, interval_pos, next, phase⟩ := sweeper
  cases phase <;> rfl

theorem interval_stop (sweeper : Sweeper) : sweeper.stop.interval = sweeper.interval := by
  obtain ⟨interval, interval_pos, next, phase⟩ := sweeper
  cases phase <;> rfl

theorem stop_of_not_running (h : sweeper.isRunning = false) : sweeper.stop = sweeper := by
  obtain ⟨interval, interval_pos, next, phase⟩ := sweeper
  cases phase with
  | running => cases h
  | _ => rfl

theorem isRunning_settle (sweeper : Sweeper) : sweeper.settle.2.isRunning = sweeper.isRunning := by
  obtain ⟨interval, interval_pos, next, phase⟩ := sweeper
  cases phase <;> rfl

theorem interval_settle (sweeper : Sweeper) : sweeper.settle.2.interval = sweeper.interval := by
  obtain ⟨interval, interval_pos, next, phase⟩ := sweeper
  cases phase <;> rfl

end Sweeper

namespace Cache

variable {cache : Cache} {sweeper : Sweeper}

theorem close_of_not_running (h : cache.sweeper = some sweeper)
    (hr : sweeper.isRunning = false) : cache.close = cache := by
  obtain ⟨space, reporter, _⟩ := cache
  subst h
  rw [close, Option.map_some, Sweeper.stop_of_not_running hr]

end Cache

theorem Reporter.swept_notMem_report (reporter : Reporter) (operation : Operation)
    (result : Except Failure Reply) (n : Nat) : .swept n ∉ reporter.report operation result := by
  have opened (name : String) : .swept n ∉ reporter.opening name := by
    rw [opening]
    split <;> simp
  have closed (name : String) : .swept n ∉ reporter.closing name := by
    rw [closing]
    split <;> simp
  simp only [report, List.mem_append]
  rintro ((h | h) | h)
  · exact opened _ h
  · exact closed _ h
  · cases result with
    | ok reply => cases h
    | error error => cases operation <;> simp [failure] at h

/-! ## What happens -/

/-- Something that happens to a cache with a sweeper. -/
inductive Occurrence where
  /-- An operation is carried out. -/
  | operation (operation : Operation)
  /-- The clock moves. -/
  | clock (now : Instant)
  /-- The task is woken, by a tick that it deals with at a reading of its clock, or without one. -/
  | wake (tick : Option Nat)
  /-- The cache is closed or its sweeper stopped. -/
  | close
  /-- The cache is being dropped: its items are let go. -/
  | release
  /-- The cache is dropped, its sweeper with it. -/
  | drop

namespace Occurrence

/-- A tick is dealt with. -/
def isTick : Occurrence → Bool
  | .wake tick => tick.isSome
  | _ => false

/-- The sweeper is told to stop. -/
def stops : Occurrence → Bool
  | .close | .drop => true
  | _ => false

/-- The items are let go. -/
def releases : Occurrence → Bool
  | .release | .drop => true
  | _ => false

/-- The cache is stopped, closed or dropped. -/
def ends (occurrence : Occurrence) : Bool := occurrence.stops || occurrence.releases

theorem any_ends (past : List Occurrence) :
    past.any ends = (past.any stops || past.any releases) := by
  induction past with
  | nil => rfl
  | cons first past ih =>
    rw [List.any_cons, List.any_cons, List.any_cons, ih, ends]
    cases first.stops <;> simp [Bool.or_left_comm]

end Occurrence

/-- A cache with what its task has come to. -/
structure Life where
  /-- The cache. -/
  cache : Cache
  /-- The cache holds its items; the task alone does not. -/
  held : Bool
  /-- The task has dealt with the tick at its start. -/
  begun : Bool
  /-- The reading of the clock. -/
  now : Instant

namespace Life

/-- A cache that has just been created. -/
def begin (cache : Cache) (now : Instant) : Life := ⟨cache, true, false, now⟩

/-- The time between two ticks. -/
def interval? (life : Life) : Option Duration := life.cache.sweeper.map Sweeper.interval

/-- The sweeper shows itself as running. -/
def isRunning (life : Life) : Bool := life.cache.sweeper.any Sweeper.isRunning

/-- The sweeper is another. -/
def withSweeper (life : Life) (sweeper : Sweeper) : Life :=
  { life with cache := { life.cache with sweeper := some sweeper } }

/-- After the tick at the start of the task, which lets the next be due an interval later. -/
def started (life : Life) (sweeper : Sweeper) (reading : Nat) : Life :=
  { life.withSweeper (sweeper.restart reading) with begun := true }

/-- After the task has ended, there being no items. -/
def ended (life : Life) (sweeper : Sweeper) : Life :=
  life.withSweeper { sweeper with phase := .finished }

/-- The task is woken. That it has been told to stop counts before a tick. -/
def wake (life : Life) (sweeper : Sweeper) (tick : Option Nat) : List Event × Life :=
  if !life.begun then
    match tick with
    | none => ([], life)
    | some reading => ([], life.started sweeper reading)
  else if !sweeper.isRunning then
    let (events, cache) := life.cache.settle
    (events, { life with cache := cache })
  else
    match tick with
    | none => ([], life)
    | some reading =>
      if life.held then
        let (events, cache) := life.cache.sweepTicks life.now reading sweeper 1
        (events, { life with cache := cache })
      else ([.sweeperStopped], life.ended sweeper)

/-- Something happens. Operations are carried out only while there are items. -/
def step (life : Life) : Occurrence → List Event × Life
  | .operation operation =>
    if life.held then
      let (_, events, cache) := life.cache.perform life.now operation
      (events, { life with cache := cache })
    else ([], life)
  | .clock now => ([], { life with now := now })
  | .wake tick =>
    match life.cache.sweeper with
    | none => ([], life)
    | some sweeper => life.wake sweeper tick
  | .close => ([], { life with cache := life.cache.close })
  | .release => ([], { life with held := false })
  | .drop => ([], { life with held := false, cache := life.cache.close })

/-- One thing happens after the other. -/
def run (life : Life) : List Occurrence → List Event × Life
  | [] => ([], life)
  | occurrence :: rest =>
    let (events, life) := life.step occurrence
    let (later, life) := life.run rest
    (events ++ later, life)

theorem run_concat (life : Life) (past : List Occurrence) (occurrence : Occurrence) :
    (life.run (past ++ [occurrence])).2 = ((life.run past).2.step occurrence).2 := by
  induction past generalizing life with
  | nil => rfl
  | cons first past ih => exact ih (life.step first).2

/-! ## One step -/

variable {life : Life} {sweeper : Sweeper} {tick : Option Nat} {reading : Nat}

theorem wake_starts (hb : life.begun = false) :
    life.wake sweeper (some reading) = ([], life.started sweeper reading) := by
  rw [wake, hb]
  rfl

theorem wake_stopped (hb : life.begun = true) (hr : sweeper.isRunning = false) :
    life.wake sweeper tick = (life.cache.settle.1, { life with cache := life.cache.settle.2 }) := by
  rw [wake.eq_def, hb, hr]
  rfl

/-- After a sweep. -/
def swept (life : Life) (sweeper : Sweeper) (reading : Nat) : Life :=
  { life with cache := { life.cache with
    space := (life.cache.space.sweep life.now).2
    sweeper := some (sweeper.tick reading) } }

theorem wake_sweeps (hb : life.begun = true) (hr : sweeper.isRunning = true)
    (hh : life.held = true) :
    life.wake sweeper (some reading) =
      ([.swept (life.cache.space.sweep life.now).1], life.swept sweeper reading) := by
  obtain ⟨cache, held, begun, now⟩ := life
  obtain rfl : begun = true := hb
  obtain rfl : held = true := hh
  rw [wake, hr]
  rfl

/-- All that comes of a waking. -/
theorem wake_cases {motive : List Event × Life → Prop} (sweeper : Sweeper) (tick : Option Nat)
    (starts : ∀ reading, life.begun = false → tick = some reading →
      motive ([], life.started sweeper reading))
    (stopped : life.begun = true → sweeper.isRunning = false →
      motive (life.cache.settle.1, { life with cache := life.cache.settle.2 }))
    (idle : tick = none → motive ([], life))
    (sweeps : ∀ reading, life.begun = true → sweeper.isRunning = true → tick = some reading →
      life.held = true →
      motive ([.swept (life.cache.space.sweep life.now).1], life.swept sweeper reading))
    (released : life.begun = true → sweeper.isRunning = true → life.held = false →
      motive ([.sweeperStopped], life.ended sweeper)) :
    motive (life.wake sweeper tick) := by
  obtain ⟨cache, held, begun, now⟩ := life
  rw [wake.eq_def]
  cases begun with
  | false =>
    cases tick with
    | none => exact idle rfl
    | some reading => exact starts reading rfl rfl
  | true =>
    cases hr : sweeper.isRunning with
    | false => exact stopped rfl hr
    | true =>
      cases tick with
      | none => exact idle rfl
      | some reading =>
        cases held with
        | true => exact sweeps reading rfl hr rfl rfl
        | false => exact released rfl hr rfl

/-- What an occurrence makes of a life. -/
structure Advances (life : Life) (occurrence : Occurrence) (next : Life) : Prop where
  interval : next.interval? = life.interval?
  begun : next.begun = (life.begun || occurrence.isTick)
  held : next.held = (life.held && !occurrence.releases)
  running : life.held = true → occurrence.stops = false → next.isRunning = life.isRunning
  stopped : occurrence.stops = true → next.isRunning = false
  remains : life.isRunning = false → next.isRunning = false
  space : life.cache.space.Reachable → next.cache.space.Reachable

theorem isRunning_eq (h : life.cache.sweeper = some sweeper) :
    life.isRunning = sweeper.isRunning := by
  rw [isRunning, h]
  rfl

theorem interval?_eq (h : life.cache.sweeper = some sweeper) :
    life.interval? = some sweeper.interval := by
  rw [interval?, h]
  rfl

/-- An occurrence that does not tell the sweeper to stop. -/
theorem Advances.of_isRunning_eq {occurrence : Occurrence} {next : Life} {sweeper' : Sweeper}
    (h : life.cache.sweeper = some sweeper) (h' : next.cache.sweeper = some sweeper')
    (hi : sweeper'.interval = sweeper.interval) (hr : sweeper'.isRunning = sweeper.isRunning)
    (hs : occurrence.stops = false) (hb : next.begun = (life.begun || occurrence.isTick))
    (hh : next.held = (life.held && !occurrence.releases))
    (space : life.cache.space.Reachable → next.cache.space.Reachable) :
    Advances life occurrence next := by
  have same : next.isRunning = life.isRunning := by rw [isRunning_eq h, isRunning_eq h', hr]
  have interval : next.interval? = life.interval? := by
    rw [interval?_eq h, interval?_eq h', hi]
  refine ⟨interval, hb, hh, fun _ _ => same, fun stops => ?_, same.trans, space⟩
  rw [hs] at stops
  cases stops

/-- An occurrence after which the sweeper does not run. -/
theorem Advances.of_not_running {occurrence : Occurrence} {next : Life} {sweeper' : Sweeper}
    (h : life.cache.sweeper = some sweeper) (h' : next.cache.sweeper = some sweeper')
    (hi : sweeper'.interval = sweeper.interval) (hr : sweeper'.isRunning = false)
    (lost : life.held = false ∨ occurrence.stops = true)
    (hb : next.begun = (life.begun || occurrence.isTick))
    (hh : next.held = (life.held && !occurrence.releases))
    (space : life.cache.space.Reachable → next.cache.space.Reachable) :
    Advances life occurrence next := by
  have stopped : next.isRunning = false := by rw [isRunning_eq h', hr]
  have interval : next.interval? = life.interval? := by
    rw [interval?_eq h, interval?_eq h', hi]
  refine ⟨interval, hb, hh, fun held runs => ?_, fun _ => stopped, fun _ => stopped, space⟩
  rcases lost with lost | lost
  · rw [held] at lost
    cases lost
  · rw [runs] at lost
    cases lost

theorem wake_advances (h : life.cache.sweeper = some sweeper) (tick : Option Nat) :
    Advances life (.wake tick) (life.wake sweeper tick).2 := by
  have begun (hb : life.begun = true) : life.begun = (life.begun || tick.isSome) := by
    rw [hb]
    rfl
  have held : life.held = (life.held && true) := (Bool.and_true _).symm
  refine wake_cases (motive := fun result => Advances life (.wake tick) result.2) sweeper tick
    (fun reading hb ht => ?starts) (fun hb _ => ?stopped) (fun ht => ?idle)
    (fun reading hb _ _ _ => ?sweeps) (fun hb _ hh => ?released)
  case starts =>
    have begun : true = (life.begun || tick.isSome) := by rw [hb, ht]; rfl
    exact .of_isRunning_eq h rfl rfl rfl rfl begun held id
  case stopped =>
    have settled : life.cache.settle.2.sweeper = some sweeper.settle.2 := by
      rw [Cache.settle, h]
    refine .of_isRunning_eq h settled sweeper.interval_settle sweeper.isRunning_settle rfl
      (begun hb) held fun hs => ?_
    rw [Cache.settle, h]
    exact hs
  case idle =>
    have begun : life.begun = (life.begun || tick.isSome) := by rw [ht]; exact (Bool.or_false _).symm
    exact .of_isRunning_eq h h rfl rfl rfl begun held id
  case sweeps =>
    exact .of_isRunning_eq h rfl rfl rfl rfl (begun hb) held fun hs => hs.sweep life.now
  case released => exact .of_not_running h rfl rfl rfl (.inl hh) (begun hb) held id

theorem step_advances (h : life.cache.sweeper = some sweeper) (occurrence : Occurrence) :
    Advances life occurrence (life.step occurrence).2 := by
  have closed : life.cache.close.sweeper = some sweeper.stop := by
    rw [Cache.close, h]
    rfl
  cases occurrence with
  | operation operation =>
    rw [step]
    split
    · exact .of_isRunning_eq h h rfl rfl rfl (Bool.or_false _).symm (Bool.and_true _).symm fun hs =>
        hs.perform life.now operation
    · exact .of_isRunning_eq h h rfl rfl rfl (Bool.or_false _).symm (Bool.and_true _).symm id
  | clock now =>
    exact .of_isRunning_eq h h rfl rfl rfl (Bool.or_false _).symm (Bool.and_true _).symm id
  | wake tick =>
    rw [step, h]
    exact wake_advances h tick
  | close =>
    exact .of_not_running h closed sweeper.interval_stop sweeper.isRunning_stop (.inr rfl)
      (Bool.or_false _).symm (Bool.and_true _).symm id
  | release =>
    exact .of_isRunning_eq h h rfl rfl rfl (Bool.or_false _).symm (Bool.and_false _).symm id
  | drop =>
    exact .of_not_running h closed sweeper.interval_stop sweeper.isRunning_stop (.inr rfl)
      (Bool.or_false _).symm (Bool.and_false _).symm id

/-! ## Runs -/

variable {interval : Duration}

/-- How far a life has come by what has happened. -/
structure Tracks (interval : Duration) (past : List Occurrence) (life : Life) : Prop where
  interval : life.interval? = some interval
  begun : life.begun = past.any Occurrence.isTick
  held : life.held = !past.any Occurrence.releases
  running : past.any Occurrence.ends = false → life.isRunning = true
  stopped : past.any Occurrence.stops = true → life.isRunning = false
  space : life.cache.space.Reachable

theorem Tracks.exists_sweeper {past : List Occurrence} (h : Tracks interval past life) :
    ∃ sweeper, life.cache.sweeper = some sweeper ∧ sweeper.interval = interval :=
  Option.map_eq_some_iff.1 h.interval

theorem Tracks.held_of_alive {past : List Occurrence} (h : Tracks interval past life)
    (alive : past.any Occurrence.ends = false) : life.held = true := by
  rw [Occurrence.any_ends, Bool.or_eq_false_iff] at alive
  rw [h.held, alive.2]
  rfl

theorem Tracks.step {past : List Occurrence} (h : Tracks interval past life)
    (occurrence : Occurrence) : Tracks interval (past ++ [occurrence]) (life.step occurrence).2 := by
  obtain ⟨sweeper, hs, -⟩ := h.exists_sweeper
  have next := step_advances hs occurrence
  have concat (P : Occurrence → Bool) :
      (past ++ [occurrence]).any P = (past.any P || P occurrence) := by
    rw [List.any_append, List.any_cons, List.any_nil, Bool.or_false]
  refine ⟨next.interval.trans h.interval, ?_, ?_, fun alive => ?_, fun stops => ?_,
    next.space h.space⟩
  · rw [next.begun, h.begun, concat]
  · rw [next.held, h.held, concat, Bool.not_or]
  · rw [concat, Bool.or_eq_false_iff] at alive
    rw [next.running (h.held_of_alive alive.1) (Bool.or_eq_false_iff.1 alive.2).1,
      h.running alive.1]
  · rw [concat, Bool.or_eq_true_iff] at stops
    rcases stops with before | now
    · exact next.remains (h.stopped before)
    · exact next.stopped now

theorem tracks_run {past : List Occurrence} (h : Tracks interval [] life) :
    Tracks interval past (life.run past).2 := by
  induction past using List.reverseRecOn with
  | nil => exact h
  | append_singleton past occurrence ih =>
    rw [run_concat]
    exact ih.step occurrence

/-- Ticks that are due together are dealt with as if the task was woken by each. -/
theorem run_ticks (h : life.cache.sweeper = some sweeper) (hb : life.begun = true)
    (hh : life.held = true) (hr : sweeper.isRunning = true) (reading n : Nat) :
    life.run (List.replicate n (.wake (some reading))) =
      ((life.cache.sweepTicks life.now reading sweeper n).1,
        { life with cache := (life.cache.sweepTicks life.now reading sweeper n).2 }) := by
  induction n generalizing life sweeper with
  | zero =>
    obtain ⟨⟨space, reporter, _⟩, held, begun, now⟩ := life
    subst h
    rfl
  | succ n ih =>
    rw [List.replicate_succ, run, step, h]
    simp only [wake_sweeps hb hr hh]
    have later := Cache.sweepTicks_with_sweeper
      { life.cache with space := (life.cache.space.sweep life.now).2 }
      (some (sweeper.tick reading)) life.now reading (sweeper.tick reading) n
    rw [@ih (life.swept sweeper reading) (sweeper.tick reading) rfl hb hh hr]
    exact congrArg (fun p => (_ :: p.1, { life with cache := p.2 })) later

/-! ## Safety -/

/-- A waking before the tick at the start, or after the end, does nothing to the items. -/
theorem wake_quiet (h : life.cache.sweeper = some sweeper) (tick : Option Nat)
    (idle : tick.isSome = true → life.begun = false ∨ life.isRunning = false ∨ life.held = false) :
    (∀ n, .swept n ∉ (life.wake sweeper tick).1) ∧
      (life.wake sweeper tick).2.cache.space = life.cache.space := by
  rw [isRunning_eq h] at idle
  refine wake_cases (motive := fun result => (∀ n, .swept n ∉ result.1) ∧
      result.2.cache.space = life.cache.space) sweeper tick
    (fun _ _ _ => ?starts) (fun _ _ => ?stopped) (fun _ => ?idle)
    (fun reading hb hr ht hh => ?sweeps) (fun _ _ _ => ?released)
  case starts => exact ⟨fun _ => List.not_mem_nil, rfl⟩
  case stopped =>
    rw [Cache.settle, h]
    refine ⟨fun n => ?_, rfl⟩
    simp only
    split <;> simp
  case idle => exact ⟨fun _ => List.not_mem_nil, rfl⟩
  case sweeps =>
    rw [hb, hr, hh] at idle
    simp [ht] at idle
  case released => exact ⟨fun n => by simp, rfl⟩

/-- The life of a sweeper after what has happened. -/
structure Safe (interval : Duration) (past : List Occurrence) (life : Life) : Prop where
  /-- The tick at the start of the task lets the next be due an interval later. -/
  starts : past.any Occurrence.isTick = false → ∀ reading, ∃ sweeper,
    (life.step (.wake (some reading))).2.cache.sweeper = some sweeper ∧
      sweeper.next = reading + interval.nanos
  /-- After the tick at the start, and unless the cache is stopped, closed or dropped, a tick is
  dealt with by one sweep, and that is of every store. -/
  sweeps : past.any Occurrence.isTick = true → past.any Occurrence.ends = false →
    ∀ reading events next, life.step (.wake (some reading)) = (events, next) →
      events = [.swept (life.cache.space.sweep life.now).1] ∧
      next.cache.space = (life.cache.space.sweep life.now).2 ∧
      next.cache.space.stores =
        life.cache.space.stores.map fun store => (store.deleteExpired life.now).2
  /-- Nothing else sweeps, and but for operations nothing else does anything to the items. -/
  quiet : ∀ occurrence : Occurrence, (occurrence.isTick = true →
      past.any Occurrence.isTick = false ∨ past.any Occurrence.ends = true) →
    (∀ n, .swept n ∉ (life.step occurrence).1) ∧
    ((∀ operation, occurrence ≠ .operation operation) →
      (life.step occurrence).2.cache.space = life.cache.space)
  running : past.any Occurrence.ends = false → life.isRunning = true
  /-- A sweeper that was told to stop never runs again. To be told again changes nothing, no tick
  is due, not even one at the moment of the stop, and its task ends where it would deal with one. -/
  stopped : past.any Occurrence.stops = true →
    life.isRunning = false ∧ life.step .close = ([], life) ∧
      (∀ reading, life.cache.sweepDue life.now reading = ([], life.cache)) ∧
      (past.any Occurrence.isTick = true → ∀ tick, life.step (.wake tick) =
        (life.cache.settle.1, { life with cache := life.cache.settle.2 }))
  /-- Once the cache is stopped, closed or dropped, an item goes by an operation alone. -/
  remains : past.any Occurrence.ends = true →
    ∀ occurrence key item, life.cache.space.items.get? key = some item →
      (life.step occurrence).2.cache.space.items.get? key ≠ some item →
      ∃ operation, occurrence = .operation operation ∧
        operation.Displaces key ((life.step occurrence).2.cache.space.items.get? key)
  /-- The ticks that are due by the clock of the sweeper are such wakings of its task. -/
  due : past.any Occurrence.isTick = true → past.any Occurrence.releases = false →
    ∀ sweeper, life.cache.sweeper = some sweeper → ∀ reading,
      life.cache.sweepDue life.now reading =
        ((life.run (List.replicate (sweeper.due reading) (.wake (some reading)))).1,
          (life.run (List.replicate (sweeper.due reading) (.wake (some reading)))).2.cache)
  /-- Ticks that have been dealt with at a reading are not due again at it. -/
  once : ∀ reading later, (life.cache.sweepDue life.now reading).2.sweepDue later reading =
    ([], (life.cache.sweepDue life.now reading).2)
  /-- As long as the sweeper runs, its ticks are due by the schedule of its interval. -/
  schedule : past.any Occurrence.ends = false → ∃ sweeper, life.cache.sweeper = some sweeper ∧
    sweeper.interval = interval ∧ ∀ reading, sweeper.Scheduled reading

namespace Tracks

variable {past : List Occurrence}

theorem idle_of_ended (h : Tracks interval past life) (ended : past.any Occurrence.ends = true) :
    life.isRunning = false ∨ life.held = false := by
  rw [Occurrence.any_ends, Bool.or_eq_true_iff] at ended
  refine ended.imp h.stopped fun released => ?_
  rw [h.held, released]
  rfl

theorem starts (h : Tracks interval past life) (early : past.any Occurrence.isTick = false)
    (reading : Nat) : ∃ sweeper, (life.step (.wake (some reading))).2.cache.sweeper = some sweeper ∧
      sweeper.next = reading + interval.nanos := by
  obtain ⟨sweeper, hs, rfl⟩ := h.exists_sweeper
  have woken : life.step (.wake (some reading)) = ([], life.started sweeper reading) := by
    rw [Life.step, hs]
    exact wake_starts (h.begun.trans early)
  rw [woken]
  exact ⟨sweeper.restart reading, rfl, rfl⟩

theorem sweeps (h : Tracks interval past life) (begun : past.any Occurrence.isTick = true)
    (alive : past.any Occurrence.ends = false) (reading : Nat) :
    ∃ sweeper, life.step (.wake (some reading)) =
      ([.swept (life.cache.space.sweep life.now).1], life.swept sweeper reading) := by
  obtain ⟨sweeper, hs, -⟩ := h.exists_sweeper
  have hr : sweeper.isRunning = true := (isRunning_eq hs).symm.trans (h.running alive)
  refine ⟨sweeper, ?_⟩
  rw [Life.step, hs]
  exact wake_sweeps (h.begun.trans begun) hr (h.held_of_alive alive)

theorem quiet (h : Tracks interval past life) (occurrence : Occurrence)
    (idle : occurrence.isTick = true →
      past.any Occurrence.isTick = false ∨ past.any Occurrence.ends = true) :
    (∀ n, .swept n ∉ (life.step occurrence).1) ∧
      ((∀ operation, occurrence ≠ .operation operation) →
        (life.step occurrence).2.cache.space = life.cache.space) := by
  cases occurrence with
  | wake tick =>
    obtain ⟨sweeper, hs, -⟩ := h.exists_sweeper
    have woken := wake_quiet hs tick fun due => by
      rcases idle due with early | ended
      · exact .inl (h.begun.trans early)
      · exact .inr (h.idle_of_ended ended)
    rw [Life.step, hs]
    exact ⟨woken.1, fun _ => woken.2⟩
  | operation operation =>
    refine ⟨fun n => ?_, fun other => absurd rfl (other operation)⟩
    rw [Life.step]
    split
    · exact life.cache.reporter.swept_notMem_report operation _ n
    · exact List.not_mem_nil
  | _ => exact ⟨fun _ => List.not_mem_nil, fun _ => rfl⟩

theorem stays_stopped (h : Tracks interval past life) (stops : past.any Occurrence.stops = true) :
    life.step .close = ([], life) ∧
      (∀ reading, life.cache.sweepDue life.now reading = ([], life.cache)) ∧
      (past.any Occurrence.isTick = true → ∀ tick, life.step (.wake tick) =
        (life.cache.settle.1, { life with cache := life.cache.settle.2 })) := by
  obtain ⟨sweeper, hs, -⟩ := h.exists_sweeper
  have hr : sweeper.isRunning = false := (isRunning_eq hs).symm.trans (h.stopped stops)
  refine ⟨?_, fun reading => ?_, fun begun tick => ?_⟩
  · rw [Life.step, Cache.close_of_not_running hs hr]
  · exact Cache.sweepDue_of_due_eq_zero hs (Sweeper.due_of_not_running hr reading) _
  · rw [Life.step, hs]
    exact wake_stopped (h.begun.trans begun) hr

theorem displaces (h : Tracks interval past life) (ended : past.any Occurrence.ends = true)
    (occurrence : Occurrence) {key : String} {item : Item}
    (present : life.cache.space.items.get? key = some item)
    (gone : (life.step occurrence).2.cache.space.items.get? key ≠ some item) :
    ∃ operation, occurrence = .operation operation ∧
      operation.Displaces key ((life.step occurrence).2.cache.space.items.get? key) := by
  by_cases performed : ∃ operation, occurrence = .operation operation
  · obtain ⟨operation, rfl⟩ := performed
    obtain ⟨store, holds⟩ := h.space.holds
    refine ⟨operation, rfl, ?_⟩
    rw [Life.step] at gone ⊢
    split at gone
    · rename_i held
      rw [if_pos held]
      exact holds.displaces life.now operation present gone
    · exact absurd present gone
  · have same := (h.quiet occurrence fun _ => .inr ended).2 fun operation e => performed ⟨_, e⟩
    rw [same] at gone
    exact absurd present gone

theorem sweepDue_eq_run (h : Tracks interval past life)
    (begun : past.any Occurrence.isTick = true) (kept : past.any Occurrence.releases = false)
    (hs : life.cache.sweeper = some sweeper) (reading : Nat) :
    life.cache.sweepDue life.now reading =
      ((life.run (List.replicate (sweeper.due reading) (.wake (some reading)))).1,
        (life.run (List.replicate (sweeper.due reading) (.wake (some reading)))).2.cache) := by
  have hh : life.held = true := by
    rw [h.held, kept]
    rfl
  cases hr : sweeper.isRunning with
  | true => rw [run_ticks hs (h.begun.trans begun) hh hr, Cache.sweepDue, hs]
  | false =>
    have hd := Sweeper.due_of_not_running hr reading
    rw [hd, Cache.sweepDue_of_due_eq_zero hs hd]
    rfl

theorem schedule (h : Tracks interval past life) (alive : past.any Occurrence.ends = false) :
    ∃ sweeper, life.cache.sweeper = some sweeper ∧
      sweeper.interval = interval ∧ ∀ reading, sweeper.Scheduled reading := by
  obtain ⟨sweeper, hs, hi⟩ := h.exists_sweeper
  exact ⟨sweeper, hs, hi, Sweeper.scheduled ((isRunning_eq hs).symm.trans (h.running alive))⟩

theorem safe (h : Tracks interval past life) : Safe interval past life where
  starts := h.starts
  sweeps begun alive reading events next he := by
    obtain ⟨sweeper, hs⟩ := h.sweeps begun alive reading
    obtain ⟨rfl, rfl⟩ := Prod.mk.inj (hs.symm.trans he)
    exact ⟨rfl, rfl, KeySpace.stores_sweep _ _⟩
  quiet := h.quiet
  running := h.running
  stopped stops := ⟨h.stopped stops, h.stays_stopped stops⟩
  remains ended occurrence _ _ present gone := h.displaces ended occurrence present gone
  due begun kept _ hs reading := h.sweepDue_eq_run begun kept hs reading
  once reading later := life.cache.sweepDue_again life.now later reading
  schedule := h.schedule

end Tracks

end Life

/-! ## From its creation -/

namespace Cache

variable {settings : Settings} {interval : Duration} {background : Bool} {reading : Nat}
  {cache : Cache}

theorem hire_eq_ok (asked : settings.interval = some interval) (nonzero : interval.nanos ≠ 0)
    {sweeper : Option Sweeper} (hired : hire settings background reading = .ok sweeper) :
    sweeper = some (.spawn interval (Nat.pos_of_ne_zero nonzero) reading) := by
  have kept : Duration.nonzero? settings.interval = some interval := by
    rw [asked, Duration.nonzero?, Option.filter_some, if_pos (bne_iff_ne.2 nonzero)]
  rw [hire] at hired
  split at hired
  · rename_i idle
    rw [kept] at idle
    cases idle
  · rename_i interval' found
    obtain rfl : interval = interval' := Option.some.inj (kept.symm.trans found)
    cases background with
    | true => exact (Except.ok.inj hired).symm
    | false => cases hired

/-- A cache has the sweeper that its settings ask for. -/
theorem hire_of_created (created : createSingle settings background reading = .ok cache ∨
    createSharded settings background reading = .ok cache) :
    hire settings background reading = .ok cache.sweeper := by
  rcases created with h | h
  · obtain ⟨sweeper, hired, hc⟩ := bind_eq_ok_iff.1 h
    rw [← Except.ok.inj hc]
    exact hired
  · by_cases positive : 0 < settings.shardCount
    · rw [createSharded, dif_pos positive] at h
      obtain ⟨sweeper, hired, hc⟩ := bind_eq_ok_iff.1 h
      rw [← Except.ok.inj hc]
      exact hired
    · rw [createSharded, dif_neg positive] at h
      cases h

theorem tracks_begin (created : createSingle settings background reading = .ok cache ∨
    createSharded settings background reading = .ok cache)
    {interval_pos : 0 < interval.nanos}
    (hs : cache.sweeper = some (.spawn interval interval_pos reading)) (now : Instant) :
    Life.Tracks interval [] (.begin cache now) := by
  have begun : (Life.begin cache now).cache.sweeper =
    some (.spawn interval interval_pos reading) := hs
  have reachable : cache.Reachable := created.elim .single .sharded
  exact ⟨Life.interval?_eq begun, rfl, rfl, fun _ => Life.isRunning_eq begun, nofun,
    reachable.space⟩

/-- The life of a cache that is created with an interval is safe, whatever happens to it, and it is
not swept by the tick at its start. -/
theorem lifecycle (asked : settings.interval = some interval) (nonzero : interval.nanos ≠ 0)
    (created : createSingle settings background reading = .ok cache ∨
      createSharded settings background reading = .ok cache) (now : Instant) :
    (∀ soon, soon < reading + interval.nanos → cache.sweepDue now soon = ([], cache)) ∧
      ∀ past, Life.Safe interval past ((Life.begin cache now).run past).2 := by
  have hs := hire_eq_ok asked nonzero (hire_of_created created)
  exact ⟨fun soon early => sweepDue_of_due_eq_zero hs (Sweeper.due_of_early early) now,
    fun past => (Life.tracks_run (tracks_begin created hs now)).safe⟩

/-- Two shards that are swept every second. -/
def twoShards : Settings := (Settings.default.withShardCount 2).withInterval (.ofMillis 1000)

/-- The task starts late, sweeps at the next tick, and never again after it has been stopped. -/
theorem lifecycle_two_shards :
    twoShards.interval = some (.ofMillis 1000) ∧ (Duration.ofMillis 1000).nanos ≠ 0 ∧
      ∃ cache, createSharded twoShards true 0 = .ok cache ∧
        (∀ past, Life.Safe (.ofMillis 1000) past ((Life.begin cache (.nearest 0)).run past).2) ∧
        ((Life.begin cache (.nearest 0)).run
          [.wake (some 500), .wake (some 1000000500), .close, .wake (some 2000000500), .close,
            .wake none]).1 =
          [.swept 0, .sweeperStopped] := by
  have asked : twoShards.interval = some (.ofMillis 1000) := rfl
  have nonzero : (Duration.ofMillis 1000).nanos ≠ 0 := by decide
  have created : createSharded twoShards true 0 =
      .ok ⟨.sharded (.create 2 (by decide) none), twoShards.reporter,
        some (.spawn (.ofMillis 1000) (by decide) 0)⟩ := rfl
  exact ⟨asked, nonzero, _, created, (lifecycle asked nonzero (.inr created) (.nearest 0)).2,
    by decide +kernel⟩

end Cache

end ExpiringCache
