import ExpiringCache.Text.Utf8
import ExpiringCache.Time.Timestamp

/-!
# Faults of stored bytes

What keeps a value or a snapshot from being written, and what keeps bytes from being read as one.
-/

namespace ExpiringCache.Snapshot

/-- Why a value cannot be written, or bytes are not a written value. -/
inductive CodecFault where
  /-- A handle to an object of the given type is to be written. -/
  | handle (typeName : String)
  /-- A truth value is written as another byte than 0 or 1. -/
  | bool (byte : UInt8)
  /-- No variant of values has the index. -/
  | variant (index : Nat)
  /-- A handle is to be read. -/
  | storedHandle
  /-- The mark before a deadline is another byte than 0 or 1. -/
  | deadlineMark (byte : UInt8)
  /-- A text is not in UTF-8. -/
  | text (fault : Utf8.Fault)
  /-- The text of a deadline is not a timestamp. -/
  | deadline (fault : Timestamp.Fault)
  deriving DecidableEq, Repr

/-- The wording of a fault. -/
def CodecFault.message : CodecFault → String
  | .handle typeName => "cannot encode value of type " ++ typeName
  | .bool byte => "invalid u8 while decoding bool, expected 0 or 1, found " ++ toString byte.toNat
  | .variant index =>
    "invalid value: integer \x60" ++ toString index ++ "\x60, expected variant index 0 <= i < 17"
  | .storedHandle => "opaque values cannot be decoded"
  | .deadlineMark byte => "tag for enum is not valid, found " ++ toString byte.toNat
  | .text fault => "string is not valid utf8: " ++ fault.message
  | .deadline fault => fault.message

/-- The first problem met when reading bytes from left to right. -/
inductive ReadFault where
  /-- The bytes have run out. -/
  | outOfBytes
  /-- The bytes are there but are not a written value. -/
  | malformed (fault : CodecFault)
  deriving DecidableEq, Repr

/-- What keeps a whole snapshot from being read before its values are looked at. -/
inductive SnapshotFault where
  /-- There are fewer bytes than the header has. -/
  | noHeader
  /-- The first four bytes are not those of a snapshot. -/
  | magic (bytes : List UInt8)
  /-- The version is not the one that is written. -/
  | version (n : Nat)
  /-- The bytes after the header have run out. -/
  | truncatedBody
  deriving DecidableEq, Repr

/-- The wording of a fault. -/
def SnapshotFault.message : SnapshotFault → String
  | .noHeader => "missing or truncated header"
  | .magic bytes =>
    "unexpected magic bytes [" ++ ", ".intercalate (bytes.map fun b => toString b.toNat) ++ "]"
  | .version n => "unsupported version " ++ toString n ++ " (expected 1)"
  | .truncatedBody => "truncated or corrupted body"

end ExpiringCache.Snapshot
