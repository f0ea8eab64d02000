import ExpiringCache.Snapshot.Format

/-!
# Key order in a snapshot

A snapshot may hold its entries in any order. Here they are put into key order as they are, byte
for byte.
-/

namespace ExpiringCache.Snapshot

/-- Takes an entry; gives its key and its bytes. -/
def cutEntry : Reader (String × List UInt8) := fun bytes => do
  let ((key, _), rest) ← readEntry bytes
  return ((key, bytes.take (bytes.length - rest.length)), rest)

/-- A snapshot with its entries in key order; those under one key stay in the order in which they
are, and the bytes before and after the entries stay in place. Other bytes are left as they are. -/
def inKeyOrder (bytes : List UInt8) : List UInt8 :=
  let (front, body) := bytes.splitAt (header.length + 8)
  let count := LittleEndian.ofBytes (front.drop header.length)
  match decode bytes, readMany cutEntry count body with
  | .ok _, .ok (entries, rest) =>
    let ordered := entries.mergeSort fun a b => decide (a.1 ≤ b.1)
    front ++ ordered.flatMap Prod.snd ++ rest
  | _, _ => bytes

end ExpiringCache.Snapshot
