import ExpiringCache.Snapshot.Reader
import ExpiringCache.Value.Basic

/-!
# Values in bytes

A value is written as the index of its variant in four bytes and then its content: numbers in
their width, texts and bytes after their length, lists and maps after their count, the fields of a
map in key order. A handle has an index but cannot be written or read.
-/

namespace ExpiringCache.Snapshot

/-- The index of a variant. -/
def writeVariant (index : Nat) : List UInt8 := LittleEndian.toBytes 4 index

/-- The variant of integers of a type. -/
def intVariant : IntType → Nat
  | .int8 => 2 | .int16 => 3 | .int32 => 4 | .int64 => 5
  | .uint8 => 6 | .uint16 => 7 | .uint32 => 8 | .uint64 => 9

/-- The bytes of a scalar. -/
def writeScalar : Scalar → Except CodecFault (List UInt8)
  | .null => .ok (writeVariant 0)
  | .bool b => .ok (writeVariant 1 ++ [if b then 1 else 0])
  | .int n => .ok (writeVariant (intVariant n.type) ++ LittleEndian.toBytes n.type.byteCount n.code)
  | .float32 x => .ok (writeVariant 10 ++ LittleEndian.toBytes 4 x.bits.toNat)
  | .float64 x => .ok (writeVariant 11 ++ LittleEndian.toBytes 8 x.bits.toNat)
  | .text text => .ok (writeVariant 12 ++ writeText text)
  | .bytes content => .ok (writeVariant 13 ++ writeCount content.length ++ content)
  | .handle h => .error (.handle h.typeName)

/-- The bytes of a value, or of the rest of a list or map; the first handle stops it. -/
def writeNode : {layer : Layer} → Node Scalar layer → Except CodecFault (List UInt8)
  | _, .leaf scalar => writeScalar scalar
  | _, .list items => do
    let content ← writeNode items
    return writeVariant 14 ++ writeCount items.trees.length ++ content
  | _, .map fields => do
    let content ← writeNode fields
    return writeVariant 15 ++ writeCount fields.pairs.length ++ content
  | _, .nil => .ok []
  | _, .cons head tail => do
    let head ← writeNode head
    let tail ← writeNode tail
    return head ++ tail
  | _, .done => .ok []
  | _, .field key _ value rest => do
    let value ← writeNode value
    let rest ← writeNode rest
    return writeText key ++ value ++ rest

/-- The bytes of a value. -/
def writeValue (value : Value) : Except CodecFault (List UInt8) := writeNode value

/-- The bytes that are written before the first handle stops the writer, the index of the handle's
variant the last of them; all bytes, if there is no handle. -/
def writtenBefore : {layer : Layer} → Node Scalar layer → List UInt8
  | _, .leaf scalar => (writeScalar scalar).toOption.getD (writeVariant 16)
  | _, .list items => writeVariant 14 ++ writeCount items.trees.length ++ writtenBefore items
  | _, .map fields => writeVariant 15 ++ writeCount fields.pairs.length ++ writtenBefore fields
  | _, .nil => []
  | _, .cons head tail =>
    match writeNode head with
    | .ok written => written ++ writtenBefore tail
    | .error _ => writtenBefore head
  | _, .done => []
  | _, .field key _ value rest =>
    match writeNode value with
    | .ok written => writeText key ++ written ++ writtenBefore rest
    | .error _ => writeText key ++ writtenBefore value

/-- Takes an integer of a type. -/
def readInt (type : IntType) : Reader Scalar := fun bytes => do
  let (n, rest) ← readNat type.byteCount bytes
  return (.int (.ofInt type n), rest)

/-- Takes a truth value. -/
def readBool : Reader Scalar := fun bytes => do
  let (byte, rest) ← readByte bytes
  if byte = 0 then return (.bool false, rest)
  else if byte = 1 then return (.bool true, rest)
  else throw (.malformed (.bool byte))

/-- Takes the content of a scalar, after the index of its variant. A handle is refused, and so is
an index that no variant has. -/
def readScalar : (index : Nat) → Reader Scalar
  | 0, bytes => return (.null, bytes)
  | 1, bytes => readBool bytes
  | 2, bytes => readInt .int8 bytes
  | 3, bytes => readInt .int16 bytes
  | 4, bytes => readInt .int32 bytes
  | 5, bytes => readInt .int64 bytes
  | 6, bytes => readInt .uint8 bytes
  | 7, bytes => readInt .uint16 bytes
  | 8, bytes => readInt .uint32 bytes
  | 9, bytes => readInt .uint64 bytes
  | 10, bytes => do
    let (bits, rest) ← readNat 4 bytes
    return (.float32 ⟨bits.toUInt32⟩, rest)
  | 11, bytes => do
    let (bits, rest) ← readNat 8 bytes
    return (.float64 ⟨bits.toUInt64⟩, rest)
  | 12, bytes => do
    let (text, rest) ← readText bytes
    return (.text text, rest)
  | 13, bytes => do
    let (length, rest) ← readNat 8 bytes
    let (content, rest) ← readBytes length rest
    return (.bytes content, rest)
  | 16, _ => throw (.malformed .storedHandle)
  | index, _ => throw (.malformed (.variant index))

/-- Takes a field of a map with a reader for its value. -/
def readField (read : Reader Value) : Reader (String × Value) := fun bytes => do
  let (key, rest) ← readText bytes
  let (value, rest) ← read rest
  return ((key, value), rest)

/-- Takes a value in which lists and maps nest less than `depth` deep; where they nest deeper, the
bytes are taken to have run out. Of two fields of a map with one key the later stands. -/
def readValueWithin : (depth : Nat) → Reader Value
  | 0, _ => .error .outOfBytes
  | depth + 1, bytes => do
    let (index, rest) ← readNat 4 bytes
    if index = 14 then
      let (count, rest) ← readNat 8 rest
      let (items, rest) ← readMany (readValueWithin depth) count rest
      return (.list (.ofTrees items), rest)
    else if index = 15 then
      let (count, rest) ← readNat 8 rest
      let (fields, rest) ← readMany (readField (readValueWithin depth)) count rest
      return (.map (.ofPairs fields), rest)
    else
      let (scalar, rest) ← readScalar index rest
      return (.leaf scalar, rest)

/-- Takes a value. Each list or map around another takes bytes of its own, so no value nests as
deep as the input is long. -/
def readValue : Reader Value := fun bytes => readValueWithin (bytes.length + 1) bytes

end ExpiringCache.Snapshot
