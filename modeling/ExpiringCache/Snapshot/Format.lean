import ExpiringCache.Failure
import ExpiringCache.Item
import ExpiringCache.Snapshot.Value
import ExpiringCache.Table

/-!
# Snapshots

A snapshot is a header, the number of entries, and the entries of a table in key order: each a
key, a value, and a deadline or its absence. Bytes after the last entry are ignored. A table with
a handle in it is refused before anything is written.
-/

namespace ExpiringCache.Snapshot

/-- The first four bytes of a snapshot. -/
def magic : List UInt8 := [0x4D, 0x54, 0x54, 0x43]

/-- The version that is written and read. -/
def version : Nat := 1

/-- The bytes before the number of entries. -/
def header : List UInt8 := magic ++ LittleEndian.toBytes 2 version

/-! ## Writing -/

/-- The bytes of a deadline or its absence. -/
def writeDeadline : Option Deadline → List UInt8
  | none => [0]
  | some deadline => 1 :: writeText (String.ofList (Timestamp.print deadline))

/-- The bytes of an entry. -/
def writeEntry (key : String) (item : Item) : Except CodecFault (List UInt8) := do
  let value ← writeValue item.value
  return writeText key ++ value ++ writeDeadline item.deadline

/-- The bytes of entries, one after the other. -/
def writeEntries : List (String × Item) → Except CodecFault (List UInt8)
  | [] => .ok []
  | (key, item) :: rest => do
    let entry ← writeEntry key item
    let rest ← writeEntries rest
    return entry ++ rest

/-- The first key whose value holds a handle, with the name of the type of that handle. -/
def unencodable? (entries : List (String × Item)) : Option (String × String) :=
  entries.findSome? fun (key, item) => (Value.unencodable? item.value).map fun name => (key, name)

/-- The number of entries and the entries. -/
def writeBody (entries : List (String × Item)) : Except CodecFault (List UInt8) := do
  let content ← writeEntries entries
  return writeCount entries.length ++ content

/-- The bytes of a snapshot of a table. -/
def encode (items : Table Item) : Except Failure (List UInt8) :=
  match unencodable? items.entries with
  | some (key, typeName) => .error (.unencodable key typeName)
  | none =>
    match writeBody items.entries with
    | .ok body => .ok (header ++ body)
    | .error fault => .error (.codec fault)

/-- The bytes of entries that are written before the first handle stops the writer. -/
def entriesBefore : List (String × Item) → List UInt8
  | [] => []
  | (key, item) :: rest =>
    match writeEntry key item with
    | .ok entry => entry ++ entriesBefore rest
    | .error _ => writeText key ++ writtenBefore item.value

/-- Writes a snapshot of entries, in the order given, to a sink. If a handle is found beforehand,
nothing is written. -/
def saveInOrder (order : List (String × Item)) (sink : Sink) : Except Failure Unit × Sink :=
  match unencodable? order with
  | some (key, typeName) => (.error (.unencodable key typeName), sink)
  | none =>
    match writeBody order with
    | .ok body =>
      match sink.writePieces [header, body] with
      | (.ok (), sink) => (.ok (), sink)
      | (.error fault, sink) => (.error (.io fault), sink)
    | .error fault =>
      match sink.writeAll (header ++ writeCount order.length ++ entriesBefore order) with
      | (.ok (), sink) => (.error (.codec fault), sink)
      | (.error fault, sink) => (.error (.io fault), sink)

/-- Writes a snapshot of a table to a sink. -/
def save (items : Table Item) (sink : Sink) : Except Failure Unit × Sink :=
  saveInOrder items.entries sink

/-! ## Reading -/

/-- Takes a deadline or its absence. -/
def readDeadline : Reader (Option Deadline) := fun bytes => do
  let (mark, rest) ← readByte bytes
  if mark = 0 then return (none, rest)
  else if mark = 1 then
    let (text, rest) ← readText rest
    match Timestamp.parse text.toList with
    | .ok deadline => return (some deadline, rest)
    | .error fault => throw (.malformed (.deadline fault))
  else throw (.malformed (.deadlineMark mark))

/-- Takes an entry. -/
def readEntry : Reader (String × Item) := fun bytes => do
  let (key, rest) ← readText bytes
  let (value, rest) ← readValue rest
  let (deadline, rest) ← readDeadline rest
  return ((key, ⟨value, deadline⟩), rest)

/-- Takes the number of entries and the entries. -/
def readBody : Reader (List (String × Item)) := fun bytes => do
  let (count, rest) ← readNat 8 bytes
  readMany readEntry count rest

/-- The table in a snapshot; of two entries under one key the later stands. -/
def decode (bytes : List UInt8) : Except Failure (Table Item) :=
  match splitExactly 6 bytes with
  | none => .error (.invalidSnapshot .noHeader)
  | some (front, rest) =>
    let found := LittleEndian.ofBytes (front.drop 4)
    if front.take 4 ≠ magic then .error (.invalidSnapshot (.magic (front.take 4)))
    else if found ≠ version then .error (.invalidSnapshot (.version found))
    else match readBody rest with
      | .ok (entries, _) => .ok (.ofList entries)
      | .error .outOfBytes => .error (.invalidSnapshot .truncatedBody)
      | .error (.malformed fault) => .error (.codec fault)

/-- Reads the table of the snapshot that a source gives. -/
def load (source : Source) : Except Failure (Table Item) :=
  match source.readAll with
  | .ok bytes => decode bytes
  | .error fault => .error (.io fault)

end ExpiringCache.Snapshot
