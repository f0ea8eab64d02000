import ExpiringCache.Tree
import ExpiringCache.Number.FixedInt
import ExpiringCache.Number.Binary

/-!
# Values

What a cache can hold: trees of lists and maps over scalars. A scalar may be a handle to an object
of the running process; it can be cached like any value, but it has no form in a snapshot.
-/

namespace ExpiringCache

/-- What a handle refers to: an object of any type. Some types are told apart because their content
can be asked for. -/
inductive Payload where
  | number (n : UInt32)
  | size (n : UInt64)
  | text (content : String)
  /-- An object of which nothing is known but the name of its type. -/
  | object (typeName : String)
  deriving DecidableEq

/-- The name of the payload's type. -/
def Payload.typeName : Payload → String
  | .number _ => "u32"
  | .size _ => "usize"
  | .text _ => "alloc::string::String"
  | .object name => name

/-- A handle to an object of the running process. -/
structure Handle where
  /-- Which object it is. -/
  id : String
  /-- What the object holds. -/
  payload : Payload
  deriving DecidableEq

/-- The name of the object's type. -/
def Handle.typeName (handle : Handle) : String := handle.payload.typeName

/-- The description of a handle, which does not show what it refers to. -/
def Handle.describe (handle : Handle) : String := "Opaque(" ++ handle.typeName ++ ")"

/-- A single value. -/
inductive Scalar where
  | null
  | bool (b : Bool)
  | int (n : FixedInt)
  | float32 (x : Binary32)
  | float64 (x : Binary64)
  | text (content : String)
  | bytes (content : List UInt8)
  | handle (handle : Handle)
  deriving DecidableEq

/-- A value in a cache. -/
abbrev Value := Tree Scalar

namespace Scalar

/-- The name of an integer type. -/
def intKind : IntType → String
  | .int8 => "i8" | .int16 => "i16" | .int32 => "i32" | .int64 => "i64"
  | .uint8 => "u8" | .uint16 => "u16" | .uint32 => "u32" | .uint64 => "u64"

/-- The name of the kind of scalar. -/
def kind : Scalar → String
  | .null => "null"
  | .bool _ => "bool"
  | .int n => intKind n.type
  | .float32 _ => "f32"
  | .float64 _ => "f64"
  | .text _ => "string"
  | .bytes _ => "bytes"
  | .handle h => h.typeName

/-- The name of the type of a handle; other scalars can be stored. -/
def handleType? : Scalar → Option String
  | .handle h => some h.typeName
  | _ => none

/-- The scalars are of one kind and equal: floats as numbers, handles if they refer to the same
object. -/
def equals : Scalar → Scalar → Bool
  | .null, .null => true
  | .bool a, .bool b => a == b
  | .int a, .int b => a == b
  | .float32 a, .float32 b => a.equals b
  | .float64 a, .float64 b => a.equals b
  | .text a, .text b => a == b
  | .bytes a, .bytes b => a == b
  | .handle a, .handle b => a.id == b.id
  | _, _ => false

end Scalar

namespace Value

/-- The value `null`. -/
def null : Value := .leaf .null

/-- The name of the kind of value. -/
def kind : Value → String
  | .leaf scalar => scalar.kind
  | .list _ => "list"
  | .map _ => "map"

/-- The text, if the value is one. -/
def text? : Value → Option String
  | .leaf (.text text) => some text
  | _ => none

/-- The truth value, if the value is one. -/
def bool? : Value → Option Bool
  | .leaf (.bool b) => some b
  | _ => none

/-- The number in 64 bits with a sign, if the value is an integer and fits. -/
def int64? : Value → Option Int64
  | .leaf (.int n) => n.toInt64?
  | _ => none

/-- The number in 64 bits, if the value is a float. -/
def float? : Value → Option Binary64
  | .leaf (.float32 x) => some x.widen
  | .leaf (.float64 x) => some x
  | _ => none

/-- The handle, if the value is one. -/
def handle? : Value → Option Handle
  | .leaf (.handle h) => some h
  | _ => none

/-- The name of the type of the first handle in the value, depth first. A value without handles
can be stored. -/
def unencodable? (value : Value) : Option String := value.leaves.findSome? Scalar.handleType?

/-- The values have the same shape and keys and equal scalars. -/
def equals (a b : Value) : Bool := Node.agrees Scalar.equals a b

/-! ## Arithmetic -/

/-- Adds to an integer, wrapping at its width; gives the new value and its number in 64 bits. -/
def increment? (delta : Int64) : Value → Option (Value × Int64)
  | .leaf (.int n) =>
    let sum := n.increment delta
    some (.leaf (.int sum), sum.toInt64)
  | _ => none

/-- Subtracts from an integer, stopping at zero and at the greatest value of its type; gives the
new value and its number in 64 bits. -/
def decrement? (delta : Int64) : Value → Option (Value × Int64)
  | .leaf (.int n) =>
    let difference := n.decrement delta
    some (.leaf (.int difference), difference.toInt64)
  | _ => none

/-- Adds to a float in its own format; gives the new value and its number in 64 bits. -/
def incrementFloat? (delta : Binary64) : Value → Option (Value × Binary64)
  | .leaf (.float32 x) =>
    let sum := x.add (.narrow delta)
    some (.leaf (.float32 sum), sum.widen)
  | .leaf (.float64 x) =>
    let sum := x.add delta
    some (.leaf (.float64 sum), sum)
  | _ => none

end Value

end ExpiringCache
