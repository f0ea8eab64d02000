import ExpiringCache.Report

/-!
# Settings

How a cache is to be built: step by step from the default configuration, or from variables of the
environment.
-/

namespace ExpiringCache

/-- How a cache is to be built. -/
structure Settings where
  /-- The lifetime of values that are stored without one of their own. -/
  lifetime : Option Duration
  /-- The time between two sweeps in the background. -/
  interval : Option Duration
  /-- The number of shards, if the cache has shards. -/
  shardCount : Nat
  /-- The names that go with each span. -/
  attributes : List String
  /-- The channel of errors. -/
  logger : Option Channel
  /-- The channel of spans. -/
  tracer : Option Channel
  deriving DecidableEq, Repr

namespace Settings

/-- The number of shards unless another is asked for. -/
def defaultShardCount : Nat := 16

/-- No lifetime, no sweeps and no channels. -/
def default : Settings := ⟨none, none, defaultShardCount, [], none, none⟩

/-- Sets the default lifetime; zero is none. -/
def withLifetime (settings : Settings) (lifetime : Duration) : Settings :=
  { settings with lifetime := Duration.nonzero? (some lifetime) }

/-- Sets the time between two sweeps; zero is none. -/
def withInterval (settings : Settings) (interval : Duration) : Settings :=
  { settings with interval := Duration.nonzero? (some interval) }

/-- Sets the number of shards. -/
def withShardCount (settings : Settings) (count : Nat) : Settings :=
  { settings with shardCount := count }

/-- Adds names to those that go with each span. -/
def withAttributes (settings : Settings) (attributes : List String) : Settings :=
  { settings with attributes := settings.attributes ++ attributes }

/-- Sets the channel of errors. -/
def withLogger (settings : Settings) (channel : Channel) : Settings :=
  { settings with logger := some channel }

/-- Sets the channel of spans. -/
def withTracer (settings : Settings) (channel : Channel) : Settings :=
  { settings with tracer := some channel }

/-- Checks what a cache with shards depends on. -/
def validate (settings : Settings) : Except Failure Unit :=
  if settings.shardCount = 0 then .error .noShards else .ok ()

/-- The reporter of the cache. -/
def reporter (settings : Settings) : Reporter :=
  ⟨settings.logger, settings.tracer, settings.attributes⟩

/-! ## Environment -/

/-- A number of milliseconds that is positive and at most `most`, as a duration. -/
def millis? (most : Int) (n : Int) : Option Duration :=
  if 0 < n ∧ n ≤ most then some (.ofMillis n.toNat) else none

/-- The configuration that variables of the environment describe; each is given as bytes. A
variable that is not set, is not text, is not a number or is out of range leaves its field as in
the default configuration. -/
def ofEnvironment (lookup : String → Option (List UInt8)) : Settings :=
  let text (name : String) : Option (List Char) :=
    (lookup name).bind fun bytes => (Utf8.decode bytes).toOption.map String.toList
  let lifetime := (text "CACHE_DEFAULT_EXPIRATION_MS").bind fun text =>
    (Decimal.integer? text).bind (millis? 0x7FFFFFFFFFFFFFFF)
  let interval := (text "CACHE_CLEANUP_INTERVAL_MS").bind fun text =>
    (Decimal.natural? text).bind fun n => millis? 0xFFFFFFFFFFFFFFFF n
  let shardCount := (text "CACHE_SHARD_COUNT").bind fun text =>
    (Decimal.natural? text).filter fun n => 0 < n ∧ n < 0x10000000000000000
  { default with
    lifetime := lifetime
    interval := interval
    shardCount := shardCount.getD defaultShardCount }

/-! ## Description -/

/-- A duration that may be absent. -/
def describeDuration : Option Duration → String
  | none => "None"
  | some d => "Some(" ++ d.describe ++ ")"

/-- The description of the configuration, which shows of the channels only whether they are set. -/
def describe (settings : Settings) : String :=
  "CacheConfig \x7b default_expiration: " ++ describeDuration settings.lifetime ++
    ", cleanup_interval: " ++ describeDuration settings.interval ++
    ", shard_count: " ++ toString settings.shardCount ++
    ", attributes: " ++ Quoted.list settings.attributes ++
    ", logger: " ++ toString settings.logger.isSome ++
    ", tracer: " ++ toString settings.tracer.isSome ++ " \x7d"

end Settings

end ExpiringCache
