import ExpiringCache.Settings
import ExpiringCache.FileSystem
import ExpiringCache.Sweeper

/-!
# Caches

A cache is a key space with a reporter and, if it is to be swept in the background, a sweeper. Each
operation gives its outcome and the reports on it. A snapshot is saved to a file through a
temporary file in the same directory, which is renamed when it is complete.
-/

namespace ExpiringCache

/-- A cache. -/
structure Cache where
  /-- The items and their counts. -/
  space : KeySpace
  /-- The channels that it reports to. -/
  reporter : Reporter
  /-- The sweeper. -/
  sweeper : Option Sweeper

namespace Cache

/-- The sweeper that a configuration asks for, started at a reading of the clock; an error if
nothing runs in the background. -/
def hire (settings : Settings) (background : Bool) (reading : Nat) :
    Except Failure (Option Sweeper) :=
  match asked : Duration.nonzero? settings.interval with
  | none => .ok none
  | some interval =>
    if background then .ok (some (.spawn interval (Duration.nanos_pos asked) reading))
    else .error .noRuntime

/-- A cache with a single store. -/
def createSingle (settings : Settings) (background : Bool) (reading : Nat) :
    Except Failure Cache := do
  let sweeper ← hire settings background reading
  return ⟨.single (.create settings.lifetime), settings.reporter, sweeper⟩

/-- A cache with as many stores as the configuration has shards. -/
def createSharded (settings : Settings) (background : Bool) (reading : Nat) :
    Except Failure Cache :=
  if positive : 0 < settings.shardCount then do
    let sweeper ← hire settings background reading
    let shards := ShardedStore.create settings.shardCount positive settings.lifetime
    return ⟨.sharded shards, settings.reporter, sweeper⟩
  else .error .noShards

/-- Carries out an operation and reports on it. -/
def perform (cache : Cache) (now : Instant) (operation : Operation) :
    Outcome × List Event × Cache :=
  let (outcome, space) := cache.space.perform now operation
  (outcome, cache.reporter.report operation outcome.result, { cache with space := space })

/-- Stops the sweeper, if there is one. -/
def close (cache : Cache) : Cache := { cache with sweeper := cache.sweeper.map Sweeper.stop }

/-- Lets the task of a stopped sweeper end, with a report. -/
def settle (cache : Cache) : List Event × Cache :=
  match cache.sweeper with
  | none => ([], cache)
  | some sweeper =>
    let (ended, sweeper) := sweeper.settle
    (if ended then [.sweeperStopped] else [], { cache with sweeper := some sweeper })

/-- The sweeper deals with `n` ticks at a reading of its clock: it sweeps at each and reports what it
removed. -/
def sweepTicks (cache : Cache) (now : Instant) (reading : Nat) (sweeper : Sweeper) :
    (n : Nat) → List Event × Cache
  | 0 => ([], { cache with sweeper := some sweeper })
  | n + 1 =>
    let (removed, space) := cache.space.sweep now
    let (events, cache) :=
      { cache with space := space }.sweepTicks now reading (sweeper.tick reading) n
    (.swept removed :: events, cache)

/-- The sweeper deals with the ticks that are due at a reading of its clock. -/
def sweepDue (cache : Cache) (now : Instant) (reading : Nat) : List Event × Cache :=
  match cache.sweeper with
  | none => ([], cache)
  | some sweeper => cache.sweepTicks now reading sweeper (sweeper.due reading)

/-! ## Files -/

/-- Saves a snapshot to a file, all or nothing. -/
def saveFile (cache : Cache) (now : Instant) (files : FileSystem) (path : String) :
    Except Failure Unit × List Event × FileSystem :=
  match files.parent path with
  | .error fault => (.error (.io fault), [], files)
  | .ok directory =>
    let (temporary, files) := files.makeTemporary directory
    let (outcome, events, _) := cache.perform now (.save .unlimited)
    match outcome.result with
    | .error error => (.error error, events, files.remove temporary)
    | .ok _ =>
      match (files.fill temporary outcome.written).rename temporary path with
      | .error fault => (.error (.io fault), events, files.remove temporary)
      | .ok files => (.ok (), events, files)

/-- Merges the snapshot in a file. A directory can be opened like a file, but not read. -/
def loadFile (cache : Cache) (now : Instant) (files : FileSystem) (path : String) :
    Except Failure Reply × List Event × Cache :=
  match files.locate path with
  | .error fault => (.error (.io fault), [], cache)
  | .ok node =>
    let source : Source := match node with
      | .file content => .ofBytes content
      | .directory => ⟨[], some .isDirectory⟩
    let (outcome, events, cache) := cache.perform now (.load source)
    (outcome.result, events, cache)

end Cache

end ExpiringCache
