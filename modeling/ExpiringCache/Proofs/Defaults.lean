import ExpiringCache.Proofs.Division
import ExpiringCache.Proofs.Reporting

/-!
# Other words for the default lifetime

A default lifetime is written into a configuration or set step by step, and a cache or a store is
created with it (`Cache.Begins`). In either case all stores have it, unless it is zero, in which case
they have none (`Cache.Begins.lives`).

A time of zero stands for the default lifetime, in whatever way it is given, and so does the default
lifetime itself where there is one; where there is none, it can as well be said that the value never
expires (`Expiry.SaysAs`). Whichever of these words are used, at however many places of a run, makes
no difference to any answer or report, nor to the items, deadlines and counts at any moment
(`Cache.record_saysAs`, `Store.trace_saysAs`).
-/

namespace ExpiringCache

/-! ## Configurations and expirations -/

theorem Duration.nonzero?_nonzero? (lifetime : Option Duration) :
    nonzero? (nonzero? lifetime) = nonzero? lifetime := by
  rw [nonzero?, nonzero?, Option.filter_filter]
  simp only [Bool.and_self]

/-- The configuration has been given a default lifetime. -/
inductive Settings.Given : Option Duration → Settings → Prop
  | written (settings : Settings) : Given settings.lifetime settings
  | set (settings : Settings) (lifetime : Duration) :
      Given (some lifetime) (settings.withLifetime lifetime)

theorem Settings.Given.nonzero? {given : Option Duration} {settings : Settings}
    (h : settings.Given given) :
    Duration.nonzero? settings.lifetime = Duration.nonzero? given := by
  cases h with
  | written => rfl
  | set settings lifetime => exact Duration.nonzero?_nonzero? (some lifetime)

namespace Expiry

/-- With the default lifetime that has been given, the one expiration can be said as the other. -/
inductive SaysAs (given : Option Duration) : Expiry → Expiry → Prop
  | zero : SaysAs given .default (.after .zero)
  | zeroMillis : SaysAs given .default (.ofMillis 0)
  | zeroDuration : SaysAs given .default (.ofDuration .zero)
  | lifetime {time : Duration} (here : given = some time) (nonzero : time.nanos ≠ 0) :
      SaysAs given .default (.after time)
  | endless (absent : given = none ∨ given = some .zero) : SaysAs given .default .never
  | negative {n : Int} (negative : n < 0) : SaysAs given (.ofMillis n) .never
  | positive {n : Int} (positive : 0 < n) :
      SaysAs given (.ofMillis n) (.after (.ofMillis n.toNat))

theorem SaysAs.resolve {given : Option Duration} {expiry expiry' : Expiry}
    (h : expiry.SaysAs given expiry') :
    expiry.resolve (Duration.nonzero? given) = expiry'.resolve (Duration.nonzero? given) := by
  cases h with
  | zero => rfl
  | zeroMillis => rfl
  | zeroDuration => rfl
  | lifetime here nonzero =>
    rw [Expiry.resolve, Expiry.resolve, if_neg nonzero, here, Duration.nonzero?]
    exact Option.filter_eq_some_iff.2 ⟨rfl, bne_iff_ne.2 nonzero⟩
  | endless absent =>
    rcases absent with rfl | rfl
    · rfl
    · rfl
  | negative negative => rw [ofMillis, if_neg (Int.ne_of_lt negative), if_pos negative]
  | positive positive =>
    rw [ofMillis, if_neg (Int.ne_of_gt positive), if_neg (Int.not_lt.2 (Int.le_of_lt positive))]

end Expiry

/-! ## Operations -/

/-- The operations are the same, but that a value may be stored with another word for the
expiration. -/
inductive Operation.SaysAs (given : Option Duration) : Operation → Operation → Prop
  | same (operation : Operation) : SaysAs given operation operation
  | set (key : String) (value : Value) {expiry expiry' : Expiry} (h : expiry.SaysAs given expiry') :
      SaysAs given (.set key value expiry) (.set key value expiry')

variable {given : Option Duration} {operation operation' : Operation}

theorem Store.perform_saysAs {store : Store} (lives : store.lifetime = Duration.nonzero? given)
    (h : operation.SaysAs given operation') (now : Instant) :
    store.perform now operation = store.perform now operation' := by
  cases h with
  | same => rfl
  | set key value h =>
    have same := h.resolve
    rw [← lives] at same
    rw [perform, perform, set, set, same]

theorem KeySpace.perform_saysAs {space : KeySpace} (lives : space.Lives (Duration.nonzero? given))
    (h : operation.SaysAs given operation') (now : Instant) :
    space.perform now operation = space.perform now operation' := by
  cases h with
  | same => rfl
  | set key value h =>
    have stored := Store.perform_saysAs (lives.home key) (.set key value h) now
    cases space with
    | single store => exact congrArg (fun done => (done.1, single done.2)) stored
    | sharded shards =>
      exact congrArg (fun done => (done.1, sharded (shards.setShard key done.2))) stored

theorem Reporter.report_saysAs (h : operation.SaysAs given operation') (reporter : Reporter)
    (result : Except Failure Reply) :
    reporter.report operation result = reporter.report operation' result := by
  cases h with
  | same => rfl
  | set key value h => rfl

/-! ## Runs of a store -/

/-- The actions are the same, but that a value may be stored with another word for the
expiration. -/
inductive StoreAction.SaysAs (given : Option Duration) : StoreAction → StoreAction → Prop
  | merge (incoming : Table Item) : SaysAs given (.merge incoming) (.merge incoming)
  | perform {operation operation' : Operation} (h : operation.SaysAs given operation') :
      SaysAs given (.perform operation) (.perform operation')

theorem Store.trace_saysAs {store : Store} (lives : store.lifetime = Duration.nonzero? given)
    {steps steps' : List (Instant × StoreAction)}
    (h : List.Forall₂ (fun p p' => p.1 = p'.1 ∧ p.2.SaysAs given p'.2) steps steps') :
    store.trace steps = store.trace steps' := by
  induction h generalizing store with
  | nil => rfl
  | @cons p p' steps steps' h _ ih =>
    obtain ⟨now, action⟩ := p
    obtain ⟨now', action'⟩ := p'
    obtain ⟨rfl : now = now', h⟩ := h
    have done : store.act now action = store.act now action' := by
      cases h with
      | merge incoming => rfl
      | perform h => rw [act, act, perform_saysAs lives h now]
    rw [trace, trace, done, ih ((store.lifetime_act now action').trans lives)]

/-! ## Runs of a cache -/

/-- The turns are the same, but that a value may be stored with another word for the expiration. -/
inductive CacheTurn.SaysAs (given : Option Duration) : CacheTurn → CacheTurn → Prop
  | same (turn : CacheTurn) : SaysAs given turn turn
  | call {operation operation' : Operation} (h : operation.SaysAs given operation') :
      SaysAs given (.call (.perform operation)) (.call (.perform operation'))

/-- The moments differ at most in what happens, and not in what comes of it. -/
def Moment.Alike (moment moment' : Moment) : Prop := { moment with turn := moment'.turn } = moment'

namespace Cache

variable {cache : Cache}

/-- The cache or the store has just been created, with a default lifetime. -/
inductive Begins (given : Option Duration) : Cache → Prop
  | store (reporter : Reporter) : Begins given ⟨.single (.create given), reporter, none⟩
  | single {settings : Settings} {background : Bool} {reading : Nat} {cache : Cache}
      (h : settings.Given given) (created : createSingle settings background reading = .ok cache) :
      Begins given cache
  | sharded {settings : Settings} {background : Bool} {reading : Nat} {cache : Cache}
      (h : settings.Given given) (created : createSharded settings background reading = .ok cache) :
      Begins given cache

theorem Begins.lives (h : cache.Begins given) : cache.space.Lives (Duration.nonzero? given) := by
  cases h with
  | store reporter => exact KeySpace.lives_create_single given
  | single h created =>
    obtain ⟨sweeper, -, hc⟩ := bind_eq_ok_iff.1 created
    rw [← Except.ok.inj hc, ← h.nonzero?]
    exact KeySpace.lives_create_single _
  | sharded h created =>
    obtain ⟨positive, hc⟩ := createSharded_space created
    rw [hc, ← h.nonzero?]
    exact KeySpace.lives_create_sharded positive _

theorem turn_saysAs (lives : cache.space.Lives (Duration.nonzero? given)) (now : Instant)
    (files : FileSystem) {turn turn' : CacheTurn} (h : turn.SaysAs given turn') :
    cache.turn now files turn = cache.turn now files turn' := by
  cases h with
  | same => rfl
  | call h =>
    simp only [turn, respond, perform, KeySpace.perform_saysAs lives h now,
      Reporter.report_saysAs h]

/-- A turn is a run of one step or of none. -/
theorem turn_through (cache : Cache) (now : Instant) (files : FileSystem) (turn : CacheTurn) :
    ∃ steps : List (Instant × CacheStep),
      (cache.turn now files turn).2.2.1 = cache.through steps := by
  cases turn with
  | call call =>
    cases call with
    | perform operation => exact ⟨[(now, .perform operation)], rfl⟩
    | saveFile path => exact ⟨[], rfl⟩
    | loadFile path => exact ⟨[(now, .loadFile files path)], rfl⟩
    | network operation => exact ⟨[], rfl⟩
  | ticks reading => exact ⟨[(now, .ticks reading)], rfl⟩
  | close => exact ⟨[(now, .close)], rfl⟩
  | settle => exact ⟨[(now, .settle)], rfl⟩
  | outside files => exact ⟨[], rfl⟩

theorem record_saysAs (lives : cache.space.Lives (Duration.nonzero? given)) (files : FileSystem)
    {turns turns' : List (Instant × CacheTurn)}
    (h : List.Forall₂ (fun p p' => p.1 = p'.1 ∧ p.2.SaysAs given p'.2) turns turns') :
    List.Forall₂ Moment.Alike (cache.record files turns).1 (cache.record files turns').1 ∧
      (cache.record files turns).2 = (cache.record files turns').2 := by
  induction h generalizing cache files with
  | nil => exact ⟨.nil, rfl⟩
  | @cons p p' turns turns' h _ ih =>
    obtain ⟨now, turn⟩ := p
    obtain ⟨now', turn'⟩ := p'
    obtain ⟨rfl : now = now', h⟩ := h
    obtain ⟨steps, after⟩ := cache.turn_through now files turn'
    obtain ⟨moments, last⟩ := @ih (cache.turn now files turn').2.2.1
      (after ▸ lives_through lives steps) (cache.turn now files turn').2.2.2
    rw [record_cons, record_cons, turn_saysAs lives now files h]
    exact ⟨.cons rfl moments, last⟩

/-- Values may be stored with other words for the default lifetime, or for a number of milliseconds,
at however many places of a run: in a cache of any kind and with any number of shards, that is given
a default lifetime in its configuration, at every moment the answer, the reports, the items with
their deadlines and the counts are the same, and so is all there is in the end. The same holds of a
store by itself. -/
theorem default_in_other_words (given : Option Duration) :
    (∀ cache : Cache, cache.Begins given → ∀ (files : FileSystem)
        (turns turns' : List (Instant × CacheTurn)),
      List.Forall₂ (fun p p' => p.1 = p'.1 ∧ p.2.SaysAs given p'.2) turns turns' →
        List.Forall₂ Moment.Alike (cache.record files turns).1 (cache.record files turns').1 ∧
          (cache.record files turns).2 = (cache.record files turns').2) ∧
    ∀ steps steps' : List (Instant × StoreAction),
      List.Forall₂ (fun p p' => p.1 = p'.1 ∧ p.2.SaysAs given p'.2) steps steps' →
        (Store.create given).trace steps = (Store.create given).trace steps' :=
  ⟨fun _ begins files _ _ h => record_saysAs begins.lives files h,
    fun _ _ h => Store.trace_saysAs rfl h⟩

/-- A cache with two shards and a default lifetime. -/
def lastingBriefly : Cache :=
  ⟨.sharded (.create 2 Nat.two_pos (some (.ofMillis 20))), ⟨none, none, []⟩, none⟩

/-- A value is stored and looked up when the default lifetime is over. -/
def storedFor (expiry : Expiry) : List (Instant × CacheTurn) :=
  [(.nearest 0, .call (.perform (.set "k" (.leaf (.text "v")) expiry))),
    (.nearest 20000001, .call (.perform (.get "k")))]

/-- The lookup counts an expiration in either run; and a store where the default lifetime is zero. -/
theorem default_in_other_words_once :
    lastingBriefly.Begins (some (.ofMillis 20)) ∧
      (lastingBriefly.record .empty (storedFor (.after (.ofMillis 20)))).2.1.space.tally =
        ⟨0, 1, 1, 0⟩ ∧
      (lastingBriefly.record .empty (storedFor .default)).2 =
        (lastingBriefly.record .empty (storedFor (.after (.ofMillis 20)))).2 ∧
      (Store.create (some .zero)).trace [(.nearest 0, .perform (.set "k" .null (.ofMillis 0)))] =
        (Store.create (some .zero)).trace [(.nearest 0, .perform (.set "k" .null .never))] := by
  have created : createSharded ((Settings.default.withShardCount 2).withLifetime (.ofMillis 20))
      false 0 = .ok lastingBriefly := rfl
  have begins : lastingBriefly.Begins (some (.ofMillis 20)) := .sharded (.set _ _) created
  have counted : (lastingBriefly.record .empty
      (storedFor (.after (.ofMillis 20)))).2.1.space.tally = ⟨0, 1, 1, 0⟩ := by decide +kernel
  obtain ⟨caches, -⟩ := default_in_other_words (some (.ofMillis 20))
  obtain ⟨-, same⟩ := caches lastingBriefly begins .empty (storedFor .default)
    (storedFor (.after (.ofMillis 20)))
    (.cons ⟨rfl, .call (.set "k" _ (.lifetime rfl (by decide)))⟩ (.cons ⟨rfl, .same _⟩ .nil))
  obtain ⟨-, stores⟩ := default_in_other_words (some .zero)
  exact ⟨begins, counted, same,
    stores _ _ (.cons ⟨rfl, .perform (.set "k" .null (.endless (.inr rfl)))⟩ .nil)⟩

end Cache

end ExpiringCache
