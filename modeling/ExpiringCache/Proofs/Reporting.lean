import ExpiringCache.Proofs.Files

/-!
# Reports change nothing

What is asked of a cache is a call (`CacheCall`): an operation, a save to a file or a load from one,
or an operation that only a cache behind a network has. Between calls its sweeper sweeps, is told to
stop and ends, and the files change. A run is recorded moment by moment, each with what there was
before it, its answer and its reports (`Cache.record`).

The channels of a cache can be exchanged before a step or after it (`Cache.turn_withReporter`), so
that runs differ in their reports alone (`Cache.record_withReporter`). What a listener hears of a
call is a span for the operation that the call comes to, and after the span the error of a save or
load that has failed (`CacheCall.heard`).

`Cache.reporters_change_nothing` puts this together.
-/

namespace ExpiringCache

/-- All reports go to a listener of the caller's own. -/
def Reporter.recording (attributes : List String) : Reporter :=
  ⟨some .recorder, some .recorder, attributes⟩

/-- The listener hears the report. -/
def Event.isHeard : Event → Bool
  | .spanOpened channel _ _ => channel == .recorder
  | .spanClosed channel _ => channel == .recorder
  | .error channel _ => channel == .recorder
  | .sweeperStarted _ | .swept _ | .sweeperStopped => false

/-- The configuration with other channels. -/
def Settings.withReporter (settings : Settings) (reporter : Reporter) : Settings :=
  { settings with
    logger := reporter.logger
    tracer := reporter.tracer
    attributes := reporter.attributes }

/-! ## Calls -/

/-- Something asked of a cache. -/
inductive CacheCall where
  /-- An operation that every cache has. -/
  | perform (operation : Operation)
  /-- Save to a file. -/
  | saveFile (path : String)
  /-- Load from a file. -/
  | loadFile (path : String)
  /-- An operation that no cache in memory has. -/
  | network (operation : NetworkOperation)

/-- What can be read from a file that has been opened. -/
def FileNode.source : FileNode → Source
  | .file content => .ofBytes content
  | .directory => ⟨[], some .isDirectory⟩

namespace CacheCall

/-- The operation that a call comes to. A save to a file comes to none where no temporary file can
be made, and a load where the file cannot be opened. -/
def operation? (files : FileSystem) : CacheCall → Option Operation
  | .perform operation => some operation
  | .saveFile path => (files.parent path).toOption.map fun _ => .save .unlimited
  | .loadFile path => (files.locate path).toOption.map fun node => .load node.source
  | .network _ => none

/-- What a listener hears of an operation and what came of it. -/
def heardOf (attributes : List String) (operation : Operation) (result : Except Failure Reply) :
    List Event :=
  [.spanOpened .recorder operation.name attributes, .spanClosed .recorder operation.name] ++
    match operation, result with
    | .save _, .error failure => [.error .recorder ("Cache save failed: " ++ failure.message)]
    | .load _, .error failure => [.error .recorder ("Cache load failed: " ++ failure.message)]
    | _, _ => []

/-- What a listener hears of a call; for this it need not know how the call is answered in the end,
only what came of the operation. -/
def heard (call : CacheCall) (attributes : List String) (space : KeySpace) (now : Instant)
    (files : FileSystem) : List Event :=
  match call.operation? files with
  | some operation => heardOf attributes operation (space.perform now operation).1.result
  | none => []

theorem heardOf_isHeard {attributes : List String} {operation : Operation}
    {result : Except Failure Reply} :
    ∀ event ∈ heardOf attributes operation result, event.isHeard := by
  unfold heardOf
  rw [List.forall_mem_append]
  constructor
  · exact List.forall_mem_cons.2 ⟨rfl, List.forall_mem_singleton.2 rfl⟩
  · split
    · exact List.forall_mem_singleton.2 rfl
    · exact List.forall_mem_singleton.2 rfl
    · exact nofun

theorem heard_isHeard {call : CacheCall} {attributes : List String} {space : KeySpace}
    {now : Instant} {files : FileSystem} :
    ∀ event ∈ call.heard attributes space now files, event.isHeard := by
  rw [heard]
  split
  · exact heardOf_isHeard
  · exact nofun

theorem report_recording (attributes : List String) (operation : Operation)
    (result : Except Failure Reply) :
    (Reporter.recording attributes).report operation result =
      heardOf attributes operation result := by
  cases result with
  | ok reply => cases operation <;> rfl
  | error failure => cases operation <;> rfl

end CacheCall

/-- Something that happens to a cache or to the files. -/
inductive CacheTurn where
  /-- A call is answered. -/
  | call (call : CacheCall)
  /-- The sweeper deals with the ticks that are due at a reading of its clock. -/
  | ticks (reading : Nat)
  /-- The sweeper is told to stop. -/
  | close
  /-- The task of a stopped sweeper ends. -/
  | settle
  /-- The files are changed by others. -/
  | outside (files : FileSystem)

/-- What a listener hears of a turn. Sweepers report to the tracing of the process alone. -/
def CacheTurn.heard (turn : CacheTurn) (attributes : List String) (space : KeySpace) (now : Instant)
    (files : FileSystem) : List Event :=
  match turn with
  | .call asked => asked.heard attributes space now files
  | _ => []

/-- A moment of a run. -/
structure Moment where
  /-- The reading of the clock. -/
  now : Instant
  /-- What happens. -/
  turn : CacheTurn
  /-- The items and counts before it. -/
  space : KeySpace
  /-- The sweeper before it. -/
  sweeper : Option Sweeper
  /-- The files before it. -/
  files : FileSystem
  /-- The answer to a call. -/
  answer : Option Outcome
  /-- The reports. -/
  events : List Event

namespace Moment

/-- The moment without its reports. -/
def unreported (moment : Moment) : Moment := { moment with events := [] }

/-- What a listener hears of a moment. -/
def heard (attributes : List String) (moment : Moment) : List Event :=
  moment.turn.heard attributes moment.space moment.now moment.files

end Moment

namespace Cache

/-- The cache with other channels. -/
def withReporter (cache : Cache) (reporter : Reporter) : Cache := { cache with reporter := reporter }

/-- Answers a call. -/
def respond (cache : Cache) (now : Instant) (files : FileSystem) :
    CacheCall → Outcome × List Event × Cache × FileSystem
  | .perform operation =>
    let (outcome, events, cache) := cache.perform now operation
    (outcome, events, cache, files)
  | .saveFile path =>
    let (result, events, files) := cache.saveFile now files path
    (⟨result.map fun _ => .done, []⟩, events, cache, files)
  | .loadFile path =>
    let (result, events, cache) := cache.loadFile now files path
    (⟨result, []⟩, events, cache, files)
  | .network operation => (⟨.error (.unsupported operation), []⟩, [], cache, files)

/-- The answer, the reports, the cache and the files after a turn. -/
def turn (cache : Cache) (now : Instant) (files : FileSystem) :
    CacheTurn → Option Outcome × List Event × Cache × FileSystem
  | .call call =>
    let (outcome, events, cache, files) := cache.respond now files call
    (some outcome, events, cache, files)
  | .ticks reading =>
    let (events, cache) := cache.sweepDue now reading
    (none, events, cache, files)
  | .close => (none, [], cache.close, files)
  | .settle =>
    let (events, cache) := cache.settle
    (none, events, cache, files)
  | .outside files => (none, [], cache, files)

/-- The moments of a run, and what there is after it. -/
def record (cache : Cache) (files : FileSystem) :
    List (Instant × CacheTurn) → List Moment × Cache × FileSystem
  | [] => ([], cache, files)
  | (now, turn) :: rest =>
    let (answer, events, after, files') := cache.turn now files turn
    let (moments, last) := after.record files' rest
    (⟨now, turn, cache.space, cache.sweeper, files, answer, events⟩ :: moments, last)

variable (cache : Cache) (reporter : Reporter) (now : Instant) (files : FileSystem)

theorem record_cons (turn : CacheTurn) (rest : List (Instant × CacheTurn)) :
    cache.record files ((now, turn) :: rest) =
      let taken := cache.turn now files turn
      let later := taken.2.2.1.record taken.2.2.2 rest
      (⟨now, turn, cache.space, cache.sweeper, files, taken.1, taken.2.1⟩ :: later.1, later.2) := rfl

/-! ## Other channels -/

theorem createSingle_withReporter (settings : Settings) (background : Bool) (reading : Nat) :
    createSingle (settings.withReporter reporter) background reading =
      (createSingle settings background reading).map (·.withReporter reporter) := by
  have hired : hire (settings.withReporter reporter) background reading =
    hire settings background reading := rfl
  rw [createSingle, createSingle, hired]
  cases hire settings background reading <;> rfl

theorem createSharded_withReporter (settings : Settings) (background : Bool) (reading : Nat) :
    createSharded (settings.withReporter reporter) background reading =
      (createSharded settings background reading).map (·.withReporter reporter) := by
  have hired : hire (settings.withReporter reporter) background reading =
    hire settings background reading := rfl
  rw [createSharded, createSharded, hired]
  by_cases positive : 0 < settings.shardCount
  · rw [dif_pos positive]
    exact (dif_pos positive).trans (by cases hire settings background reading <;> rfl)
  · rw [dif_neg positive]
    exact dif_neg positive

theorem saveFile_withReporter (path : String) :
    ((cache.withReporter reporter).saveFile now files path).1 =
        (cache.saveFile now files path).1 ∧
      ((cache.withReporter reporter).saveFile now files path).2.2 =
        (cache.saveFile now files path).2.2 := by
  cases found : files.parent path with
  | error fault =>
    rw [saveFile_of_no_parent _ now found, saveFile_of_no_parent _ now found]
    exact ⟨rfl, rfl⟩
  | ok directory =>
    have same := cache.saveFile_eq_saveThrough now found
    have same' := (cache.withReporter reporter).saveFile_eq_saveThrough now found
    exact Prod.mk.inj (same'.trans same.symm)

theorem loadFile_withReporter (path : String) :
    ((cache.withReporter reporter).loadFile now files path).1 =
        (cache.loadFile now files path).1 ∧
      ((cache.withReporter reporter).loadFile now files path).2.2 =
        (cache.loadFile now files path).2.2.withReporter reporter := by
  rw [loadFile, loadFile]
  cases files.locate path <;> exact ⟨rfl, rfl⟩

theorem sweepTicks_withReporter (reading : Nat) (sweeper : Sweeper) (n : Nat) :
    (cache.withReporter reporter).sweepTicks now reading sweeper n =
      ((cache.sweepTicks now reading sweeper n).1,
        (cache.sweepTicks now reading sweeper n).2.withReporter reporter) := by
  induction n generalizing cache sweeper with
  | zero => rfl
  | succ n ih =>
    have later := ih { cache with space := (cache.space.sweep now).2 } (sweeper.tick reading)
    exact congrArg (fun p => (Event.swept (cache.space.sweep now).1 :: p.1, p.2)) later

theorem sweepDue_withReporter (reading : Nat) :
    (cache.withReporter reporter).sweepDue now reading =
      ((cache.sweepDue now reading).1, (cache.sweepDue now reading).2.withReporter reporter) := by
  obtain ⟨space, before, _ | sweeper⟩ := cache
  · rfl
  · exact sweepTicks_withReporter ⟨space, before, some sweeper⟩ reporter now reading sweeper _

theorem settle_withReporter :
    (cache.withReporter reporter).settle = (cache.settle.1, cache.settle.2.withReporter reporter) := by
  obtain ⟨space, before, _ | sweeper⟩ := cache <;> rfl

theorem respond_withReporter (call : CacheCall) :
    ((cache.withReporter reporter).respond now files call).1 =
        (cache.respond now files call).1 ∧
      ((cache.withReporter reporter).respond now files call).2.2.1 =
        (cache.respond now files call).2.2.1.withReporter reporter ∧
      ((cache.withReporter reporter).respond now files call).2.2.2 =
        (cache.respond now files call).2.2.2 := by
  cases call with
  | perform operation => exact ⟨rfl, rfl, rfl⟩
  | saveFile path =>
    obtain ⟨result, after⟩ := cache.saveFile_withReporter reporter now files path
    have answer := congrArg (fun result => Outcome.mk (result.map fun _ => .done) []) result
    exact ⟨answer, rfl, after⟩
  | loadFile path =>
    obtain ⟨result, after⟩ := cache.loadFile_withReporter reporter now files path
    exact ⟨congrArg (Outcome.mk · []) result, after, rfl⟩
  | network operation => exact ⟨rfl, rfl, rfl⟩

/-- To exchange the channels and take a turn is to take the turn and exchange the channels, but for
the reports. -/
theorem turn_withReporter (turn : CacheTurn) :
    ((cache.withReporter reporter).turn now files turn).1 = (cache.turn now files turn).1 ∧
      ((cache.withReporter reporter).turn now files turn).2.2.1 =
        (cache.turn now files turn).2.2.1.withReporter reporter ∧
      ((cache.withReporter reporter).turn now files turn).2.2.2 =
        (cache.turn now files turn).2.2.2 := by
  cases turn with
  | call call =>
    obtain ⟨answer, after⟩ := cache.respond_withReporter reporter now files call
    exact ⟨congrArg some answer, after⟩
  | ticks reading =>
    have swept := cache.sweepDue_withReporter reporter now reading
    exact ⟨rfl, congrArg Prod.snd swept, rfl⟩
  | close => exact ⟨rfl, rfl, rfl⟩
  | settle => exact ⟨rfl, congrArg Prod.snd (cache.settle_withReporter reporter), rfl⟩
  | outside files => exact ⟨rfl, rfl, rfl⟩

theorem record_withReporter (turns : List (Instant × CacheTurn)) :
    ((cache.withReporter reporter).record files turns).1.map Moment.unreported =
        (cache.record files turns).1.map Moment.unreported ∧
      ((cache.withReporter reporter).record files turns).2 =
        ((cache.record files turns).2.1.withReporter reporter, (cache.record files turns).2.2) := by
  induction turns generalizing cache files with
  | nil => exact ⟨rfl, rfl⟩
  | cons turn turns ih =>
    obtain ⟨now, turn⟩ := turn
    obtain ⟨answer, after, files'⟩ := cache.turn_withReporter reporter now files turn
    obtain ⟨moments, last⟩ := ih (cache.turn now files turn).2.2.1 (cache.turn now files turn).2.2.2
    rw [record_cons, record_cons]
    dsimp only
    -- After the turn the caches differ in their channels alone, as they did before it.
    rw [answer, after, files']
    exact ⟨congrArg (_ :: ·) moments, last⟩

/-! ## What a listener hears -/

theorem turn_reporter (turn : CacheTurn) :
    (cache.turn now files turn).2.2.1.reporter = cache.reporter := by
  have same := (cache.turn_withReporter cache.reporter now files turn).2.1
  exact (congrArg Cache.reporter same :)

variable {cache reporter now files}

/-- Where a temporary file can be made, the reports are those of the save, whether or not the file
is renamed in the end. -/
theorem saveFile_events {path : String} {directory : List String}
    (found : files.parent path = .ok directory) :
    (cache.saveFile now files path).2.1 = (cache.perform now (.save .unlimited)).2.1 := by
  rw [saveFile, found]
  dsimp only
  split
  · rfl
  · split <;> rfl

theorem loadFile_of_missing {path : String} {fault : IoFault}
    (missing : files.locate path = .error fault) :
    cache.loadFile now files path = (.error (.io fault), [], cache) := by
  rw [loadFile, missing]

theorem loadFile_events {path : String} {node : FileNode} (found : files.locate path = .ok node) :
    (cache.loadFile now files path).2.1 = (cache.perform now (.load node.source)).2.1 := by
  rw [loadFile, found]
  cases node <;> rfl

/-- A listener hears nothing of the sweeper. -/
theorem sweepTicks_unheard (cache : Cache) (now : Instant) (reading : Nat) (sweeper : Sweeper)
    (n : Nat) : (cache.sweepTicks now reading sweeper n).1.filter Event.isHeard = [] := by
  induction n generalizing cache sweeper with
  | zero => rfl
  | succ n ih => exact ih { cache with space := (cache.space.sweep now).2 } (sweeper.tick reading)

theorem sweepDue_unheard (cache : Cache) (now : Instant) (reading : Nat) :
    (cache.sweepDue now reading).1.filter Event.isHeard = [] := by
  rw [sweepDue]
  split
  · rfl
  · exact sweepTicks_unheard cache now reading _ _

theorem settle_unheard (cache : Cache) : cache.settle.1.filter Event.isHeard = [] := by
  rw [settle]
  split
  · rfl
  · dsimp only
    split <;> rfl

/-- What a listener would hear does not depend on the channels. -/
theorem flatMap_heard (attributes : List String) (moments : List Moment) :
    moments.flatMap (Moment.heard attributes) =
      (moments.map Moment.unreported).flatMap (Moment.heard attributes) :=
  (List.flatMap_map Moment.unreported (Moment.heard attributes) moments).symm

section Recording

variable {attributes : List String} (recording : cache.reporter = .recording attributes)
include recording

theorem perform_heard (operation : Operation) :
    (cache.perform now operation).2.1 =
      CacheCall.heardOf attributes operation (cache.space.perform now operation).1.result := by
  rw [perform, recording]
  exact CacheCall.report_recording _ _ _

theorem respond_heard (call : CacheCall) :
    (cache.respond now files call).2.1 = call.heard attributes cache.space now files := by
  cases call with
  | perform operation => exact perform_heard recording operation
  | saveFile path =>
    rw [CacheCall.heard, CacheCall.operation?]
    show (cache.saveFile now files path).2.1 = _
    cases found : files.parent path with
    | error fault => rw [saveFile_of_no_parent cache now found]; rfl
    | ok directory =>
      rw [saveFile_events found]
      exact perform_heard recording _
  | loadFile path =>
    rw [CacheCall.heard, CacheCall.operation?]
    show (cache.loadFile now files path).2.1 = _
    cases found : files.locate path with
    | error fault => rw [loadFile_of_missing found]; rfl
    | ok node =>
      rw [loadFile_events found]
      exact perform_heard recording _
  | network operation => rfl

theorem turn_heard (turn : CacheTurn) :
    (cache.turn now files turn).2.1.filter Event.isHeard =
      turn.heard attributes cache.space now files := by
  cases turn with
  | call call =>
    have heard : (cache.respond now files call).2.1 =
      call.heard attributes cache.space now files := respond_heard recording call
    exact (congrArg (List.filter Event.isHeard) heard).trans
      (List.filter_eq_self.2 CacheCall.heard_isHeard)
  | ticks reading => exact sweepDue_unheard cache now reading
  | close => rfl
  | settle => exact settle_unheard cache
  | outside files => rfl

theorem record_heard (turns : List (Instant × CacheTurn)) :
    ((cache.record files turns).1.flatMap Moment.events).filter Event.isHeard =
        (cache.record files turns).1.flatMap (Moment.heard attributes) ∧
      ∀ moment ∈ (cache.record files turns).1, ∀ call, moment.turn = .call call →
        moment.events = moment.heard attributes := by
  induction turns generalizing cache files with
  | nil => exact ⟨rfl, List.forall_mem_nil _⟩
  | cons turn turns ih =>
    obtain ⟨now, turn⟩ := turn
    have still := (cache.turn_reporter now files turn).trans recording
    obtain ⟨later, calls⟩ := @ih _ (cache.turn now files turn).2.2.2 still
    rw [record_cons]
    dsimp only
    refine ⟨?_, List.forall_mem_cons.2 ⟨fun call here => ?_, calls⟩⟩
    · rw [List.flatMap_cons, List.flatMap_cons, List.filter_append, later]
      exact congrArg (· ++ _) (turn_heard recording turn)
    · obtain rfl : turn = .call call := here
      exact respond_heard recording call

end Recording

/-- Two runs with the same steps differ in their reports alone: answers, items, counts, sweepers and
files are the same at every moment and in the end, whichever channels there are. Caches that are
created with different channels differ in these alone.

A listener hears of each call, in the order of the calls, a span for the operation that the call
comes to, and after it the error of a save or load that has failed. This is all that it hears.

A save to a file comes to no operation if no temporary file can be made, and a load if the file
cannot be opened. If only the renaming fails, there is no error. -/
theorem reporters_change_nothing :
    (∀ (settings : Settings) (reporter : Reporter) (background : Bool) (reading : Nat),
      createSingle (settings.withReporter reporter) background reading =
        (createSingle settings background reading).map (·.withReporter reporter) ∧
      createSharded (settings.withReporter reporter) background reading =
        (createSharded settings background reading).map (·.withReporter reporter)) ∧
    (∀ (cache : Cache) (files : FileSystem) (turns : List (Instant × CacheTurn))
        (reporter reporter' : Reporter),
      let run := (cache.withReporter reporter).record files turns
      let run' := (cache.withReporter reporter').record files turns
      run.1.map Moment.unreported = run'.1.map Moment.unreported ∧
        run.2.1.space = run'.2.1.space ∧ run.2.1.sweeper = run'.2.1.sweeper ∧
        run.2.2 = run'.2.2) ∧
    (∀ (cache : Cache) (files : FileSystem) (turns : List (Instant × CacheTurn))
        (attributes : List String) (reporter : Reporter),
      let run := (cache.withReporter (.recording attributes)).record files turns
      let run' := (cache.withReporter reporter).record files turns
      (run.1.flatMap Moment.events).filter Event.isHeard =
          run'.1.flatMap (Moment.heard attributes) ∧
        ∀ moment ∈ run.1, ∀ call, moment.turn = .call call →
          moment.events = call.heard attributes moment.space moment.now moment.files) ∧
    ∀ (cache : Cache) (now : Instant) (files : FileSystem) (path : String),
      (∀ fault, files.parent path = .error fault →
        cache.saveFile now files path = (.error (.io fault), [], files)) ∧
      (∀ fault, files.locate path = .error fault →
        cache.loadFile now files path = (.error (.io fault), [], cache)) ∧
      ∀ directory, files.parent path = .ok directory →
        (cache.saveFile now files path).2.1 = (cache.perform now (.save .unlimited)).2.1 ∧
        ∀ attributes reply, cache.reporter = .recording attributes →
          (cache.perform now (.save .unlimited)).1.result = .ok reply →
            (cache.saveFile now files path).2.1 =
              [.spanOpened .recorder "save" attributes, .spanClosed .recorder "save"] := by
  refine ⟨fun settings reporter background reading =>
      ⟨createSingle_withReporter reporter settings background reading,
        createSharded_withReporter reporter settings background reading⟩,
    fun cache files turns reporter reporter' => ?_,
    fun cache files turns attributes reporter => ?_,
    fun cache now files path => ⟨fun fault missing => saveFile_of_no_parent cache now missing,
      fun fault missing => loadFile_of_missing missing,
      fun directory found => ⟨saveFile_events found, fun attributes reply recording saved => ?_⟩⟩⟩
  · obtain ⟨moments, last⟩ := cache.record_withReporter reporter files turns
    obtain ⟨moments', last'⟩ := cache.record_withReporter reporter' files turns
    dsimp only
    rw [last, last']
    exact ⟨moments.trans moments'.symm, rfl, rfl, rfl⟩
  · have recording : (cache.withReporter (.recording attributes)).reporter =
      .recording attributes := rfl
    obtain ⟨heard, calls⟩ := @record_heard _ files _ recording turns
    refine ⟨?_, fun moment member call here => ?_⟩
    · have moments := (cache.record_withReporter (.recording attributes) files turns).1
      have moments' := (cache.record_withReporter reporter files turns).1
      rw [heard, flatMap_heard, moments, ← moments', ← flatMap_heard]
    · rw [calls moment member call here, Moment.heard, here]
      rfl
  · have result : (cache.space.perform now (.save .unlimited)).1.result = .ok reply := saved
    rw [saveFile_events found, perform_heard recording, result]
    rfl

/-- A cache that is swept every second, with a listener. -/
def overheard : Cache :=
  ⟨.single (.create none), .recording ["p"], some (.spawn (.ofMillis 1000) (by decide) 0)⟩

/-- A directory. -/
def oneDirectory : FileSystem := FileSystem.empty.put "d" .directory

/-- An operation, a load and a save that fail; then the cache is swept. -/
def failures : List (Instant × CacheTurn) :=
  [(.nearest 0, .call (.perform (.increment "k" 1))),
    (.nearest 0, .call (.perform (.load (.ofBytes [1, 2])))),
    (.nearest 0, .call (.perform (.set "k" (.leaf (.handle ⟨"h", .number 1⟩)) .default))),
    (.nearest 0, .call (.perform (.save .unlimited))),
    (.nearest 1000000000, .ticks 1000000000)]

/-- Only saves and loads complain, and a save to the path of a directory does not. -/
theorem reporters_change_nothing_failures :
    ((overheard.record oneDirectory failures).1.flatMap Moment.events).filter Event.isHeard =
      [.spanOpened .recorder "increment" ["p"], .spanClosed .recorder "increment",
        .spanOpened .recorder "load" ["p"], .spanClosed .recorder "load",
        .error .recorder "Cache load failed: Invalid snapshot: missing or truncated header",
        .spanOpened .recorder "set" ["p"], .spanClosed .recorder "set",
        .spanOpened .recorder "save" ["p"], .spanClosed .recorder "save",
        .error .recorder
          "Cache save failed: Cannot encode value of type u32 stored under key k"] ∧
    (overheard.saveFile (.nearest 0) oneDirectory "d").1 = .error (.io .isDirectory) ∧
    (overheard.saveFile (.nearest 0) oneDirectory "d").2.1 =
      [.spanOpened .recorder "save" ["p"], .spanClosed .recorder "save"] ∧
    overheard.saveFile (.nearest 0) oneDirectory "x/s" =
      (.error (.io .notFound), [], oneDirectory) ∧
    overheard.loadFile (.nearest 0) oneDirectory "x" = (.error (.io .notFound), [], overheard) := by
  obtain ⟨-, -, heard, onFiles⟩ := reporters_change_nothing
  have spans := (heard overheard oneDirectory failures ["p"] ⟨none, none, []⟩).1
  obtain ⟨-, -, reached⟩ := onFiles overheard (.nearest 0) oneDirectory "d"
  have there : oneDirectory.parent "d" = .ok [] := by decide +kernel
  have encodable : (Snapshot.save overheard.space.items .unlimited).1 = .ok () :=
    Snapshot.save_eq_ok_iff.2 (by decide)
  have written : (overheard.perform (.nearest 0) (.save .unlimited)).1.result = .ok .done := by
    rw [perform, KeySpace.perform_save, Outcome.ofSave, encodable]
    rfl
  have noDirectory : oneDirectory.parent "x/s" = .error .notFound := by decide +kernel
  have noFile : oneDirectory.locate "x" = .error .notFound := by decide +kernel
  exact ⟨spans.trans (by decide +kernel), by decide +kernel,
    (reached [] there).2 ["p"] .done rfl written,
    (onFiles overheard (.nearest 0) oneDirectory "x/s").1 _ noDirectory,
    (onFiles overheard (.nearest 0) oneDirectory "x").2.1 _ noFile⟩

end Cache

end ExpiringCache
