import ExpiringCache.Snapshot.Fault
import ExpiringCache.Stream

/-!
# Errors

The ways in which an operation on a cache fails, and their wording.
-/

namespace ExpiringCache

/-- The kinds of values that operations ask for. -/
inductive Expected where
  | text
  | integer
  | float
  deriving DecidableEq, Repr

/-- The wording of a kind. -/
def Expected.describe : Expected → String
  | .text => "a string"
  | .integer => "an integer"
  | .float => "a float32 or float64"

/-- The operations that only a cache behind a network has. -/
inductive NetworkOperation where
  | lpush | rpop | xread | xadd | xdel | getLock | releaseLock
  deriving DecidableEq, Repr

/-- The name of the operation. -/
def NetworkOperation.name : NetworkOperation → String
  | .lpush => "LPUSH"
  | .rpop => "RPOP"
  | .xread => "XREAD"
  | .xadd => "XADD"
  | .xdel => "XDEL"
  | .getLock => "GET_LOCK"
  | .releaseLock => "RELEASE_LOCK"

/-- Why an operation on a cache fails. -/
inductive Failure where
  /-- No live item is stored under the key. -/
  | notFound (key : String)
  /-- The value under the key is of another kind. -/
  | wrongType (key : String) (expected : Expected)
  /-- The value under the key holds a handle to an object of the given type. -/
  | unencodable (key typeName : String)
  /-- A value cannot be written or read. -/
  | codec (fault : Snapshot.CodecFault)
  /-- The bytes are not a snapshot. -/
  | invalidSnapshot (fault : Snapshot.SnapshotFault)
  /-- Bytes cannot be moved, or a file cannot be used. -/
  | io (fault : IoFault)
  /-- A cache in memory does not have the operation. -/
  | unsupported (operation : NetworkOperation)
  /-- A cache is configured to have no shards. -/
  | noShards
  /-- A cache is to be swept in the background, and nothing runs in the background. -/
  | noRuntime
  deriving DecidableEq, Repr

/-- The wording of an error. -/
def Failure.message : Failure → String
  | .notFound key => "Key not found: " ++ key
  | .wrongType key expected => "The value for " ++ key ++ " is not " ++ expected.describe
  | .unencodable key typeName =>
    "Cannot encode value of type " ++ typeName ++ " stored under key " ++ key
  | .codec fault => "Snapshot codec error: " ++ fault.message
  | .invalidSnapshot fault => "Invalid snapshot: " ++ fault.message
  | .io fault => "I/O error: " ++ fault.message
  | .unsupported operation => operation.name ++ " is not supported by the in-memory cache"
  | .noShards => "Invalid configuration: shard_count must be at least 1"
  | .noRuntime => "A cleanup interval requires a running tokio runtime"

/-- A problem in the bytes of a single value, as an error. -/
def Failure.ofReadFault : Snapshot.ReadFault → Failure
  | .outOfBytes => .io .unexpectedEof
  | .malformed fault => .codec fault

end ExpiringCache
