import ExpiringCache.KeySpace
import ExpiringCache.Text.Quoted

/-!
# Reports

What a cache reports while it works: a span around each operation, an error after a failed save or
load, and the doings of its sweeper. Reports are data (`Event`), so a cache that reports differs
from one that does not only in its reports.
-/

namespace ExpiringCache

/-- Where a report goes. -/
inductive Channel where
  /-- A listener of the caller's own. -/
  | recorder
  /-- The tracing of the process. -/
  | tracing
  deriving DecidableEq, Repr

/-- A report. -/
inductive Event where
  /-- An operation begins; the names of the cache's peers go with it. -/
  | spanOpened (channel : Channel) (operation : String) (attributes : List String)
  /-- An operation ends. -/
  | spanClosed (channel : Channel) (operation : String)
  /-- Something failed. -/
  | error (channel : Channel) (message : String)
  /-- A sweeper begins its work. -/
  | sweeperStarted (interval : Duration)
  /-- A sweeper has swept. -/
  | swept (removed : Nat)
  /-- A sweeper has ended its work. -/
  | sweeperStopped
  deriving DecidableEq, Repr

/-- The lines that show a report. -/
def Event.lines : Event → List String
  | .spanOpened .recorder operation attributes =>
    ["start " ++ operation ++ " [" ++ ",".intercalate attributes ++ "]"]
  | .spanOpened .tracing operation attributes =>
    ["tracing span cache op=" ++ operation ++ " peers=" ++ Quoted.list attributes,
      "tracing enter"]
  | .spanClosed .recorder operation => ["end " ++ operation]
  | .spanClosed .tracing _ => ["tracing exit"]
  | .error .recorder message => ["error " ++ message]
  | .error .tracing message => ["tracing ERROR " ++ message]
  | .sweeperStarted interval =>
    ["tracing DEBUG Janitor started interval=" ++ interval.describe]
  | .swept 0 => ["tracing TRACE Janitor found no expired items"]
  | .swept removed =>
    ["tracing DEBUG Janitor removed expired items removed=" ++ toString removed]
  | .sweeperStopped => ["tracing DEBUG Janitor stopped"]

/-- The channels that a cache reports to. -/
structure Reporter where
  /-- The channel of errors; without one they go to the tracing of the process. -/
  logger : Option Channel
  /-- The channel of spans; without one there are none. -/
  tracer : Option Channel
  /-- The names that go with each span. -/
  attributes : List String
  deriving DecidableEq, Repr

namespace Reporter

/-- The report that an operation begins. -/
def opening (reporter : Reporter) (operation : String) : List Event :=
  match reporter.tracer with
  | some channel => [.spanOpened channel operation reporter.attributes]
  | none => []

/-- The report that an operation ends. -/
def closing (reporter : Reporter) (operation : String) : List Event :=
  match reporter.tracer with
  | some channel => [.spanClosed channel operation]
  | none => []

/-- The report of a failed save or load; other operations fail without one. -/
def failure (reporter : Reporter) (operation : Operation) (error : Failure) : List Event :=
  let channel := reporter.logger.getD .tracing
  match operation with
  | .save _ => [.error channel ("Cache save failed: " ++ error.message)]
  | .load _ => [.error channel ("Cache load failed: " ++ error.message)]
  | _ => []

/-- The reports on an operation and what came of it. -/
def report (reporter : Reporter) (operation : Operation) (result : Except Failure Reply) :
    List Event :=
  reporter.opening operation.name ++ reporter.closing operation.name ++
    match result with
    | .ok _ => []
    | .error error => reporter.failure operation error

/-- The description of the reporter, which does not show the channels. -/
def describe (reporter : Reporter) : String :=
  "Hooks \x7b logger: " ++ toString reporter.logger.isSome ++ ", tracer: " ++
    toString reporter.tracer.isSome ++ ", attributes: " ++ Quoted.list reporter.attributes ++
    " \x7d"

end Reporter

end ExpiringCache
