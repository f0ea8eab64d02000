import ExpiringCache.Session.Command

/-!
# Sessions

A session holds caches by name, a clock that moves only when it is told to, a directory with
files, and saved bytes by name. Where tasks run in the background, moving the clock makes the
sweepers tick, and every command is followed by what those tasks have left to do.

Sweepers that are due at the same moment sweep in the order in which they began to wait.
-/

namespace ExpiringCache.Session

/-- What a session holds under a name. -/
inductive Slot where
  /-- A store. -/
  | store (store : Store)
  /-- A store that several tasks may share. -/
  | shard (store : Store)
  /-- A cache. -/
  | cache (cache : Cache)

/-- The state of a session. -/
structure State where
  /-- The clock, in nanoseconds since 1970-01-01T00:00:00Z. -/
  clock : Int
  /-- Tasks run in the background. -/
  background : Bool
  /-- The time by which the clock has been moved, in nanoseconds. -/
  elapsed : Nat
  /-- The caches. -/
  slots : Table Slot
  /-- The names of the caches with sweepers, in the order in which the sweepers began to wait. -/
  waiting : List String
  /-- The saved bytes. -/
  buffers : Table (List UInt8)
  /-- The files, with the directory of the session as the current one. -/
  files : FileSystem

/-- A session without caches, in a directory without files. -/
def State.create (clock : Int) (background : Bool) : State :=
  ⟨clock, background, 0, .empty, [], .empty, .within "session"⟩

/-- How a cache of a session is to be built. -/
inductive Blueprint where
  | store (lifetime : Option Duration)
  | shard (lifetime : Option Duration)
  | single (settings : Settings)
  | sharded (settings : Settings)

/-- The step by which the background sees time pass, in nanoseconds. -/
def move : Nat := 1000000

namespace State

/-- The reading of the clock. -/
def now (state : State) : Instant := .nearest state.clock

/-- Puts something under a name. -/
def put (state : State) (name : String) (slot : Slot) : State :=
  { state with slots := state.slots.insert name slot }

/-- Takes up a cache, with the report of its sweeper's start. -/
def adopt (state : State) (name : String) (cache : Cache) : List Event × State :=
  let state := state.put name (.cache cache)
  match cache.sweeper with
  | none => ([], state)
  | some sweeper =>
    ([.sweeperStarted sweeper.interval], { state with waiting := state.waiting ++ [name] })

/-- Builds a cache under a name. -/
def build (state : State) (name : String) (blueprint : Blueprint) :
    Except Failure Unit × List Event × State :=
  match blueprint with
  | .store lifetime => (.ok (), [], state.put name (.store (.create lifetime)))
  | .shard lifetime => (.ok (), [], state.put name (.shard (.create lifetime)))
  | .single settings =>
    match Cache.createSingle settings state.background state.elapsed with
    | .ok cache => (.ok (), state.adopt name cache)
    | .error error => (.error error, [], state)
  | .sharded settings =>
    match Cache.createSharded settings state.background state.elapsed with
    | .ok cache => (.ok (), state.adopt name cache)
    | .error error => (.error error, [], state)

/-! ## Time -/

/-- Lets the sweeper of a cache deal with the ticks that are due, if there are any; tells whether
there were. -/
def wake (state : State) (name : String) : Bool × List Event × State :=
  match state.slots.get? name with
  | some (.cache cache) =>
    if (cache.sweeper.map fun sweeper => sweeper.due state.elapsed).getD 0 = 0 then
      (false, [], state)
    else
      let (events, cache) := cache.sweepDue state.now state.elapsed
      (true, events, state.put name (.cache cache))
  | _ => (false, [], state)

/-- Lets the sweepers of the named caches deal with their ticks, in order. Those that had ticks
wait anew, behind the others. -/
def wakeAll (state : State) : List String → List Event × State
  | [] => ([], state)
  | name :: rest =>
    let (due, events, state) := state.wake name
    let state := if due then
        { state with waiting := state.waiting.filter (· != name) ++ [name] }
      else state
    let (later, state) := state.wakeAll rest
    (events ++ later, state)

/-- Moves the clock by one step of the background after another. -/
def moveBy (state : State) : (moves : Nat) → List Event × State
  | 0 => ([], state)
  | moves + 1 =>
    let state := { state with clock := state.clock + move, elapsed := state.elapsed + move }
    let (events, state) := state.wakeAll state.waiting
    let (later, state) := state.moveBy moves
    (events ++ later, state)

/-- Moves the clock. Without a background, or without sweepers in it, this is one step. -/
def advance (state : State) (nanos : Int) : List Event × State :=
  if state.background ∧ state.waiting ≠ [] then state.moveBy (nanos.toNat / move)
  else
    ([], { state with clock := state.clock + nanos, elapsed := state.elapsed + nanos.toNat })

/-- Lets the background finish what a command has left to it. -/
def settle (state : State) : List String → List Event × State
  | [] => ([], state)
  | name :: rest =>
    match state.slots.get? name with
    | some (.cache cache) =>
      let (events, cache) := cache.settle
      let (later, state) := (state.put name (.cache cache)).settle rest
      (events ++ later, state)
    | _ => state.settle rest

/-! ## Commands -/

/-- The bytes that a command takes. -/
def bytes (state : State) (origin : Origin) (edits : List Edit) : List UInt8 :=
  let content := match origin with
    | .buffer name => (state.buffers.get? name).getD []
    | .bytes content => content
  edits.foldl Edit.apply content

/-- Carries out an operation on what a slot holds. Only a cache reports on it. -/
def operate (state : State) (slot : Slot) (operation : Operation) : Outcome × List Event × Slot :=
  match slot with
  | .store store =>
    let (outcome, store) := store.perform state.now operation
    (outcome, [], .store store)
  | .shard store =>
    let (outcome, store) := store.perform state.now operation
    (outcome, [], .shard store)
  | .cache cache =>
    let (outcome, events, cache) := cache.perform state.now operation
    (outcome, events, .cache cache)

/-- Carries out an operation a number of times; gives the reports. -/
def operateMany (state : State) (slot : Slot) (operation : Operation) :
    (times : Nat) → List Event × Slot
  | 0 => ([], slot)
  | times + 1 =>
    let (_, events, slot) := state.operate slot operation
    let (later, slot) := state.operateMany slot operation times
    (events ++ later, slot)

end State

/-- The items and counts of a slot. -/
def Slot.space : Slot → KeySpace
  | .store held => .single held
  | .shard held => .single held
  | .cache held => held.space

/-- A slot with other items and counts in a single store. -/
def Slot.withStore (slot : Slot) (changed : Store) : Slot :=
  match slot with
  | .store _ => .store changed
  | .shard _ => .shard changed
  | .cache held => .cache { held with space := .single changed }

/-- The store of a slot that holds nothing else. -/
def Slot.store? : Slot → Option Store
  | .store held => some held
  | .shard held => some held
  | .cache _ => none

/-- The result of an operation as an answer. -/
def Answer.ofResult : Except Failure Reply → Answer
  | .ok given => .reply given
  | .error fault => .error fault

namespace State

/-- The answer to a command on files that may fail. -/
def onFiles (state : State) (result : Except IoFault FileSystem) : Answer × State :=
  match result with
  | .ok files => (.reply .done, { state with files := files })
  | .error fault => (.error (.io fault), state)

/-- Carries out a command for what a slot holds under a name. -/
def runOn (state : State) (name : String) (slot : Slot) (command : Command) :
    Answer × List Event × State :=
  let same (answer : Answer) : Answer × List Event × State := (answer, [], state)
  match command, slot with
  | .perform operation, slot =>
    let (outcome, events, slot) := state.operate slot operation
    (.ofResult outcome.result, events, state.put name slot)
  | .getSame key value, slot =>
    let (outcome, events, slot) := state.operate slot (.get key)
    let same := match outcome.result with
      | .ok (.value (some found)) => Value.equals found value
      | _ => false
    (.reply (.flag same), events, state.put name slot)
  | .repeatIncrement key delta times, slot =>
    let (events, slot) := state.operateMany slot (.increment key delta) times
    (.reply .done, events, state.put name slot)
  | .lifetime, slot => same (.lifetime slot.space.lifetime)
  | .size, slot => same (.size slot.space.size slot.space.isEmpty)
  | .tally, slot => same (.tally slot.space.tally)
  | .items, .cache cache =>
    let (outcome, events, cache) := cache.perform state.now (.save .unlimited)
    let answer := match outcome.result.bind fun _ => Snapshot.decode outcome.written with
      | .ok items => .items items
      | .error error => .error error
    (answer, events, state.put name (.cache cache))
  | .items, slot => same (.items slot.space.items)
  | .save buffer sink, slot =>
    let (outcome, events, slot) := state.operate slot (.save sink)
    let state := state.put name slot
    match outcome.result with
    | .ok _ =>
      let buffers := match buffer with
        | some buffer => state.buffers.insert buffer outcome.written
        | none => state.buffers
      (.snapshot outcome.written, events, { state with buffers := buffers })
    | .error error => (.saveError error outcome.written.length, events, state)
  | .load origin edits perCall failAfter, slot =>
    let source := Source.bounded (state.bytes origin edits) perCall failAfter .brokenPipe
    let (outcome, events, slot) := state.operate slot (.load source)
    (.ofResult outcome.result, events, state.put name slot)
  | .merge incoming, slot =>
    match slot.store? with
    | some store =>
      let (count, store) := store.merge state.now incoming
      (.reply (.count count), [], state.put name (slot.withStore store))
    | none => same .noCache
  | .timeLeft key, slot =>
    same (.timeLeft ((slot.space.items.get? key).map fun item =>
      (item.remaining state.now, item.expired state.now)))
  | .sweep, slot =>
    let (outcome, events, slot) := state.operate slot .deleteExpired
    (.ofResult outcome.result, events, state.put name slot)
  | .saveFile path, .cache cache =>
    let (result, events, files) := cache.saveFile state.now state.files path
    (.ofResult (result.map fun _ => .done), events, { state with files := files })
  | .loadFile path, .cache cache =>
    let (result, events, cache) := cache.loadFile state.now state.files path
    (.ofResult result, events, state.put name (.cache cache))
  | .network operation, .cache _ => same (.error (.unsupported operation))
  | .bucket key, .cache { space := .sharded shards, .. } =>
    same (.bucket (shards.bucket key) shards.count)
  | .shardTallies, .cache { space := .sharded shards, .. } =>
    same (.shardTallies shards.shardTallies)
  | .close, .cache cache => (.reply .done, [], state.put name (.cache cache.close))
  | .sweeper, .cache cache => same (.sweeper cache.sweeper)
  | .sweeper, _ => same (.sweeper none)
  | .reporter, .cache cache => same (.text cache.reporter.describe)
  | .drop, slot =>
    let events := match slot with
      | .cache cache => cache.close.settle.1
      | _ => []
    (.reply (.flag true), events, { state with
      slots := state.slots.erase name
      waiting := state.waiting.filter (· != name) })
  | _, _ => same .noCache

/-- Carries out a command for a named cache. -/
def run (state : State) (name : String) (command : Command) : Answer × List Event × State :=
  match command with
  | .putFile path content =>
    let (answer, state) := state.onFiles (state.files.write path content)
    (answer, [], state)
  | .makeDirectory path =>
    let (answer, state) := state.onFiles (state.files.makeDirectory path)
    (answer, [], state)
  | .showFile path =>
    match state.files.read path with
    | .ok content => (.content (Snapshot.inKeyOrder content), [], state)
    | .error fault => (.error (.io fault), [], state)
  | .listFiles => (.names state.files.list, [], state)
  | .setClock nanos => (.reply .done, [], { state with clock := nanos })
  | .advance nanos =>
    let (events, state) := state.advance nanos
    (.reply .done, events, state)
  | .drop =>
    match state.slots.get? name with
    | some slot => state.runOn name slot .drop
    | none => (.reply (.flag false), [], state)
  | command =>
    match state.slots.get? name with
    | some slot => state.runOn name slot command
    | none => (.noCache, [], state)

/-- Carries out a command and what it leaves to the background. -/
def step (state : State) (name : String) (command : Command) : Answer × List Event × State :=
  let (answer, events, state) := state.run name command
  let (later, state) := state.settle state.waiting
  (answer, events ++ later, state)

/-- The statistics of a named cache. -/
def tally? (state : State) (name : String) : Option Tally :=
  (state.slots.get? name).map fun slot => slot.space.tally

end State

end ExpiringCache.Session
