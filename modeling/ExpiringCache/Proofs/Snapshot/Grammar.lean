import ExpiringCache.Proofs.Text.Utf8
import ExpiringCache.Snapshot.Format
import Mathlib.Algebra.Group.Nat.Defs

/-!
# The grammar of snapshots

For each part of a snapshot there are two relations. A form (`TextForm`, `ScalarForm`,
`ValueForm`, `DeadlineForm`, `EntryForm`, `BodyForm`) says which bytes are a written part and
what they stand for. The relation of its stops (`TextStops` and so on) says which bytes do not
begin with a written part, and what the first problem is when they are looked at from left to
right: whatever stands before it is in form.

`Verdict` puts them together: what a snapshot is, and what is wrong with any other bytes.
-/

namespace ExpiringCache.Snapshot

/-! ## Texts -/

/-- A text: the number of bytes of its UTF-8 form, and the form. -/
inductive TextForm : List UInt8 → String → Prop where
  | intro (text : String) (hl : (Utf8.encode text).length < 2 ^ 64) :
      TextForm (writeCount (Utf8.encode text).length ++ Utf8.encode text) text

/-- There is no text at the front of the bytes. -/
inductive TextStops : List UInt8 → ReadFault → Prop where
  | noLength {bytes : List UInt8} (h : bytes.length < 8) : TextStops bytes .outOfBytes
  | short {n : Nat} {content : List UInt8} (hn : n < 2 ^ 64) (h : content.length < n) :
      TextStops (writeCount n ++ content) .outOfBytes
  | illFormed {content rest : List UInt8} {fault : Utf8.Fault} (hn : content.length < 2 ^ 64)
      (h : Utf8.IllFormed content fault) :
      TextStops (writeCount content.length ++ content ++ rest) (.malformed (.text fault))

/-! ## Values -/

/-- The content of a scalar of the variant with an index. -/
inductive ScalarForm : (index : Nat) → List UInt8 → Scalar → Prop where
  | null : ScalarForm 0 [] .null
  | bool (b : Bool) : ScalarForm 1 [if b then 1 else 0] (.bool b)
  | int (type : IntType) {content : List UInt8} (h : content.length = type.byteCount) :
      ScalarForm (intVariant type) content (.int (.ofInt type (LittleEndian.ofBytes content)))
  | float32 {content : List UInt8} (h : content.length = 4) :
      ScalarForm 10 content (.float32 ⟨(LittleEndian.ofBytes content).toUInt32⟩)
  | float64 {content : List UInt8} (h : content.length = 8) :
      ScalarForm 11 content (.float64 ⟨(LittleEndian.ofBytes content).toUInt64⟩)
  | text {content : List UInt8} {text : String} (h : TextForm content text) :
      ScalarForm 12 content (.text text)
  | bytes {content : List UInt8} (h : content.length < 2 ^ 64) :
      ScalarForm 13 (writeCount content.length ++ content) (.bytes content)

/-- After the index of a variant other than lists and maps there is no content of it. -/
inductive ScalarStops : (index : Nat) → List UInt8 → ReadFault → Prop where
  | noBool : ScalarStops 1 [] .outOfBytes
  | bool {b : UInt8} {rest : List UInt8} (h : b ≠ 0) (h' : b ≠ 1) :
      ScalarStops 1 (b :: rest) (.malformed (.bool b))
  | int (type : IntType) {bytes : List UInt8} (h : bytes.length < type.byteCount) :
      ScalarStops (intVariant type) bytes .outOfBytes
  | float32 {bytes : List UInt8} (h : bytes.length < 4) : ScalarStops 10 bytes .outOfBytes
  | float64 {bytes : List UInt8} (h : bytes.length < 8) : ScalarStops 11 bytes .outOfBytes
  | text {bytes : List UInt8} {fault : ReadFault} (h : TextStops bytes fault) :
      ScalarStops 12 bytes fault
  | noLength {bytes : List UInt8} (h : bytes.length < 8) : ScalarStops 13 bytes .outOfBytes
  | bytes {n : Nat} {content : List UInt8} (hn : n < 2 ^ 64) (h : content.length < n) :
      ScalarStops 13 (writeCount n ++ content) .outOfBytes
  | handle {bytes : List UInt8} : ScalarStops 16 bytes (.malformed .storedHandle)
  | unknown {index : Nat} {bytes : List UInt8} (h : 16 < index) :
      ScalarStops index bytes (.malformed (.variant index))

mutual

/-- A value: the index of its variant and the content. The items of a list and the fields of a map
come with the bytes that they are in. Under each key a map has the last of its fields. -/
inductive ValueForm : List UInt8 → Value → Prop where
  | leaf {index : Nat} {content : List UInt8} {scalar : Scalar}
      (h : ScalarForm index content scalar) :
      ValueForm (writeVariant index ++ content) (.leaf scalar)
  | list {parts : List (List UInt8 × Value)} (hn : parts.length < 2 ^ 64)
      (h : ∀ part ∈ parts, ValueForm part.1 part.2) :
      ValueForm (writeVariant 14 ++ writeCount parts.length ++ parts.flatMap Prod.fst)
        (.list (.ofTrees (parts.map Prod.snd)))
  | map {parts : List (List UInt8 × String × Value)} {fields : Fields Scalar none}
      (hn : parts.length < 2 ^ 64) (h : ∀ part ∈ parts, FieldForm part.1 part.2)
      (hf : ∀ key, Table.find? key fields.pairs =
        Table.find? key (parts.map Prod.snd).reverse) :
      ValueForm (writeVariant 15 ++ writeCount parts.length ++ parts.flatMap Prod.fst)
        (.map fields)

/-- A field of a map: a key and a value. -/
inductive FieldForm : List UInt8 → String × Value → Prop where
  | intro {k v : List UInt8} {key : String} {value : Value} (hk : TextForm k key)
      (hv : ValueForm v value) : FieldForm (k ++ v) (key, value)

end

mutual

/-- There is no value at the front of the bytes. -/
inductive ValueStops : List UInt8 → ReadFault → Prop where
  | noVariant {bytes : List UInt8} (h : bytes.length < 4) : ValueStops bytes .outOfBytes
  | scalar {index : Nat} {bytes : List UInt8} {fault : ReadFault} (hi : index < 2 ^ 32)
      (h : ScalarStops index bytes fault) : ValueStops (writeVariant index ++ bytes) fault
  | noCount {index : Nat} {bytes : List UInt8} (hi : index = 14 ∨ index = 15)
      (h : bytes.length < 8) : ValueStops (writeVariant index ++ bytes) .outOfBytes
  | item {n : Nat} {parts : List (List UInt8 × Value)} {rest : List UInt8} {fault : ReadFault}
      (hn : n < 2 ^ 64) (hp : parts.length < n) (h : ∀ part ∈ parts, ValueForm part.1 part.2)
      (hs : ValueStops rest fault) :
      ValueStops (writeVariant 14 ++ writeCount n ++ parts.flatMap Prod.fst ++ rest) fault
  | field {n : Nat} {parts : List (List UInt8 × String × Value)} {rest : List UInt8}
      {fault : ReadFault} (hn : n < 2 ^ 64) (hp : parts.length < n)
      (h : ∀ part ∈ parts, FieldForm part.1 part.2) (hs : FieldStops rest fault) :
      ValueStops (writeVariant 15 ++ writeCount n ++ parts.flatMap Prod.fst ++ rest) fault

/-- There is no field at the front of the bytes. -/
inductive FieldStops : List UInt8 → ReadFault → Prop where
  | key {bytes : List UInt8} {fault : ReadFault} (h : TextStops bytes fault) :
      FieldStops bytes fault
  | value {k rest : List UInt8} {key : String} {fault : ReadFault} (hk : TextForm k key)
      (hs : ValueStops rest fault) : FieldStops (k ++ rest) fault

end

/-! ## Entries -/

/-- A deadline or its absence. -/
inductive DeadlineForm : List UInt8 → Option Deadline → Prop where
  | none : DeadlineForm [0] none
  | some {content : List UInt8} {text : String} {deadline : Deadline} (h : TextForm content text)
      (hd : Timestamp.parse text.toList = .ok deadline) :
      DeadlineForm (1 :: content) (some deadline)

/-- There is no deadline at the front of the bytes, nor is its absence. -/
inductive DeadlineStops : List UInt8 → ReadFault → Prop where
  | noMark : DeadlineStops [] .outOfBytes
  | mark {b : UInt8} {rest : List UInt8} (h : b ≠ 0) (h' : b ≠ 1) :
      DeadlineStops (b :: rest) (.malformed (.deadlineMark b))
  | text {bytes : List UInt8} {fault : ReadFault} (h : TextStops bytes fault) :
      DeadlineStops (1 :: bytes) fault
  | timestamp {content rest : List UInt8} {text : String} {fault : Timestamp.Fault}
      (h : TextForm content text) (hd : Timestamp.parse text.toList = .error fault) :
      DeadlineStops (1 :: (content ++ rest)) (.malformed (.deadline fault))

/-- An entry: a key, a value, and a deadline or its absence. -/
inductive EntryForm : List UInt8 → String × Item → Prop where
  | intro {k v d : List UInt8} {key : String} {item : Item} (hk : TextForm k key)
      (hv : ValueForm v item.value) (hd : DeadlineForm d item.deadline) :
      EntryForm (k ++ v ++ d) (key, item)

/-- There is no entry at the front of the bytes. -/
inductive EntryStops : List UInt8 → ReadFault → Prop where
  | key {bytes : List UInt8} {fault : ReadFault} (h : TextStops bytes fault) :
      EntryStops bytes fault
  | value {k rest : List UInt8} {key : String} {fault : ReadFault} (hk : TextForm k key)
      (h : ValueStops rest fault) : EntryStops (k ++ rest) fault
  | deadline {k v rest : List UInt8} {key : String} {value : Value} {fault : ReadFault}
      (hk : TextForm k key) (hv : ValueForm v value) (h : DeadlineStops rest fault) :
      EntryStops (k ++ v ++ rest) fault

/-- The number of entries and the entries. -/
inductive BodyForm : List UInt8 → List (String × Item) → Prop where
  | intro {parts : List (List UInt8 × String × Item)} (hn : parts.length < 2 ^ 64)
      (h : ∀ part ∈ parts, EntryForm part.1 part.2) :
      BodyForm (writeCount parts.length ++ parts.flatMap Prod.fst) (parts.map Prod.snd)

/-- The bytes after a header do not begin with as many entries as they say. -/
inductive BodyStops : List UInt8 → ReadFault → Prop where
  | noCount {bytes : List UInt8} (h : bytes.length < 8) : BodyStops bytes .outOfBytes
  | entry {n : Nat} {parts : List (List UInt8 × String × Item)} {rest : List UInt8}
      {fault : ReadFault} (hn : n < 2 ^ 64) (hp : parts.length < n)
      (h : ∀ part ∈ parts, EntryForm part.1 part.2) (hs : EntryStops rest fault) :
      BodyStops (writeCount n ++ parts.flatMap Prod.fst ++ rest) fault

/-! ## Snapshots -/

/-- What bytes are as a snapshot: a table that has, under each key, the last of the entries, or
the first thing wrong. What follows the entries does not matter. -/
inductive Verdict : List UInt8 → Except Failure (Table Item) → Prop where
  | accepted {body rest : List UInt8} {entries : List (String × Item)} {items : Table Item}
      (h : BodyForm body entries)
      (hm : ∀ key, items.get? key = Table.find? key entries.reverse) :
      Verdict (header ++ body ++ rest) (.ok items)
  | noHeader {bytes : List UInt8} (h : bytes.length < 6) :
      Verdict bytes (.error (.invalidSnapshot .noHeader))
  | magic {found rest : List UInt8} (h : found.length = 4) (h' : 2 ≤ rest.length)
      (hm : found ≠ magic) : Verdict (found ++ rest) (.error (.invalidSnapshot (.magic found)))
  | version {n : Nat} {rest : List UInt8} (hn : n < 2 ^ 16) (h : n ≠ version) :
      Verdict (magic ++ LittleEndian.toBytes 2 n ++ rest)
        (.error (.invalidSnapshot (.version n)))
  | truncated {body : List UInt8} (h : BodyStops body .outOfBytes) :
      Verdict (header ++ body) (.error (.invalidSnapshot .truncatedBody))
  | malformed {body : List UInt8} {fault : CodecFault} (h : BodyStops body (.malformed fault)) :
      Verdict (header ++ body) (.error (.codec fault))

end ExpiringCache.Snapshot
