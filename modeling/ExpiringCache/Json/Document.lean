import ExpiringCache.Json.Number
import ExpiringCache.Value.Basic

/-!
# JSON documents

A document is a tree of lists and maps over nulls, truth values, numbers and texts. It becomes a
value leaf by leaf (`Value.ofJson`).
-/

namespace ExpiringCache

/-- A JSON value that is neither an array nor an object. -/
inductive JsonScalar where
  | null
  | bool (b : Bool)
  | number (n : JsonNumber)
  | text (content : String)
  deriving DecidableEq

/-- A JSON document. -/
abbrev Json := Tree JsonScalar

/-- The scalar for a number: an integer of 64 bits with a sign if it fits, without one if it does
not, or else a float. -/
def Scalar.ofJsonNumber : JsonNumber → Scalar
  | .int n low high =>
    if signed : n < 0x8000000000000000 then
      .int ⟨.int64, n, low, Int.le_sub_one_of_lt signed⟩
    else
      .int ⟨.uint64, n, Int.le_trans (by decide) (Int.not_lt.1 signed),
        Int.le_sub_one_of_lt high⟩
  | .float x => .float64 x

/-- The scalar for a JSON scalar. -/
def Scalar.ofJson : JsonScalar → Scalar
  | .null => .null
  | .bool b => .bool b
  | .number n => .ofJsonNumber n
  | .text content => .text content

/-- The value for a JSON document. -/
def Value.ofJson (document : Json) : Value := Node.mapLeaves Scalar.ofJson document

end ExpiringCache
