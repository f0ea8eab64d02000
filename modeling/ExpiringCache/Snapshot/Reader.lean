import ExpiringCache.Bytes.LittleEndian
import ExpiringCache.Snapshot.Fault

/-!
# Reading and writing the parts of a snapshot

Numbers of fixed width, lengths, texts and sequences. A reader takes bytes from the front of its
input and returns the rest; a length is only as good as the bytes that follow it.
-/

namespace ExpiringCache.Snapshot

/-- A reading step: it takes bytes from the front of its input. -/
abbrev Reader (α : Type) := List UInt8 → Except ReadFault (α × List UInt8)

/-! ## Writing -/

/-- A length or a count, in eight bytes. -/
def writeCount (n : Nat) : List UInt8 := LittleEndian.toBytes 8 n

/-- A text: its length in bytes, then its UTF-8 form. -/
def writeText (text : String) : List UInt8 :=
  let bytes := Utf8.encode text
  writeCount bytes.length ++ bytes

/-! ## Reading -/

/-- Splits off the first `n` elements of a list that has as many. -/
def splitExactly {α : Type} : (n : Nat) → List α → Option (List α × List α)
  | 0, rest => some ([], rest)
  | _ + 1, [] => none
  | n + 1, head :: tail => (splitExactly n tail).map fun (front, rest) => (head :: front, rest)

theorem splitExactly_eq_some_iff {α : Type} {n : Nat} {list front rest : List α} :
    splitExactly n list = some (front, rest) ↔ list = front ++ rest ∧ front.length = n := by
  induction n generalizing list front with
  | zero => cases front <;> simp [splitExactly, eq_comm]
  | succ n ih =>
    cases list with
    | nil => cases front <;> simp [splitExactly]
    | cons head tail =>
      cases front with
      | nil => simp [splitExactly]
      | cons head' front =>
        simp only [splitExactly, Option.map_eq_some_iff, Prod.mk.injEq, List.cons.injEq,
          Prod.exists, List.cons_append, List.length_cons, Nat.add_right_cancel_iff]
        constructor
        · rintro ⟨a, b, h, ⟨rfl, rfl⟩, rfl⟩
          have := ih.1 h
          simp [this]
        · rintro ⟨⟨rfl, h⟩, h'⟩
          exact ⟨front, rest, ih.2 ⟨h, h'⟩, by simp⟩

/-- Takes `n` bytes. -/
def readBytes (n : Nat) : Reader (List UInt8) := fun bytes =>
  match splitExactly n bytes with
  | some result => .ok result
  | none => .error .outOfBytes

/-- Takes a number of `width` bytes. -/
def readNat (width : Nat) : Reader Nat := fun bytes => do
  let (front, rest) ← readBytes width bytes
  return (LittleEndian.ofBytes front, rest)

/-- Takes one byte. -/
def readByte : Reader UInt8
  | [] => .error .outOfBytes
  | byte :: rest => .ok (byte, rest)

/-- Takes a text. -/
def readText : Reader String := fun bytes => do
  let (length, rest) ← readNat 8 bytes
  let (content, rest) ← readBytes length rest
  match Utf8.decode content with
  | .ok text => return (text, rest)
  | .error fault => throw (.malformed (.text fault))

/-- Takes `n` things, one after the other. -/
def readMany {α : Type} (read : Reader α) : (n : Nat) → Reader (List α)
  | 0, bytes => .ok ([], bytes)
  | n + 1, bytes => do
    let (head, rest) ← read bytes
    let (tail, rest) ← readMany read n rest
    return (head :: tail, rest)

end ExpiringCache.Snapshot
