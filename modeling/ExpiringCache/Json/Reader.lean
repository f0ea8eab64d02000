import ExpiringCache.Json.Document
import ExpiringCache.Text.Decimal

/-!
# Reading JSON

Reads a whole text as a JSON document (RFC 8259). Of two fields of an object with one name the
later stands.
-/

namespace ExpiringCache.Json

/-- A reading step: it takes characters from the front of a text, or refuses. -/
abbrev Step (α : Type) := List Char → Option (α × List Char)

/-- The text from its first character that is not insignificant. -/
def skip (text : List Char) : List Char :=
  text.dropWhile fun c => c = ' ' ∨ c = '\t' ∨ c = '\n' ∨ c = '\r'

/-- Takes a given word. -/
def word (expected : List Char) : Step Unit := fun text =>
  if expected.isPrefixOf text then some ((), text.drop expected.length) else none

/-! ## Numbers -/

/-- Takes at least one digit. -/
def digits : Step (List Char) := fun text =>
  let taken := text.takeWhile Char.isDigit
  if taken = [] then none else some (taken, text.drop taken.length)

/-- Takes the digits before the point: a zero stands alone. -/
def whole : Step (List Char) := fun text => do
  let (taken, rest) ← digits text
  if taken.head? = some '0' ∧ taken.length ≠ 1 then none else some (taken, rest)

/-- Takes a point and digits, if there is a point. -/
def fraction : Step (Option (List Char))
  | '.' :: text => do
    let (taken, rest) ← digits text
    return (some taken, rest)
  | text => some (none, text)

/-- Takes an exponent, if there is one. -/
def exponent : Step (Option Int) := fun text =>
  match text with
  | c :: rest =>
    if c = 'e' ∨ c = 'E' then do
      let (negative, rest) := match rest with
        | '-' :: rest => (true, rest)
        | '+' :: rest => (false, rest)
        | rest => (false, rest)
      let (taken, rest) ← digits rest
      let n : Int := Decimal.value taken
      return (some (if negative then -n else n), rest)
    else some (none, text)
  | [] => some (none, [])

/-- Takes a number. -/
def number : Step JsonNumber := fun text => do
  let (negative, text) := match text with
    | '-' :: text => (true, text)
    | text => (false, text)
  let (whole, text) ← whole text
  let (fraction, text) ← fraction text
  let (exponent, text) ← exponent text
  let n ← JsonNumber.ofNumeral? ⟨negative, whole, fraction, exponent⟩
  return (n, text)

/-! ## Texts -/

/-- The number that a hexadecimal digit stands for. -/
def hexDigit? (c : Char) : Option Nat :=
  if '0' ≤ c ∧ c ≤ '9' then some (c.toNat - '0'.toNat)
  else if 'a' ≤ c ∧ c ≤ 'f' then some (c.toNat - 'a'.toNat + 10)
  else if 'A' ≤ c ∧ c ≤ 'F' then some (c.toNat - 'A'.toNat + 10)
  else none

/-- The number that four hexadecimal digits spell. -/
def hex4? (a b c d : Char) : Option Nat := do
  let a ← hexDigit? a
  let b ← hexDigit? b
  let c ← hexDigit? c
  let d ← hexDigit? d
  return 4096 * a + 256 * b + 16 * c + d

/-- The character of a short escape. -/
def shortEscape? : Char → Option Char
  | '"' => some '"'
  | '\\' => some '\\'
  | '/' => some '/'
  | 'b' => some '\x08'
  | 'f' => some '\x0c'
  | 'n' => some '\n'
  | 'r' => some '\r'
  | 't' => some '\t'
  | _ => none

/-- The character with a number, if there is one. -/
def char? (n : Nat) : Option Char := if n.isValidChar then some (Char.ofNat n) else none

/-- Takes the characters of a text up to and including the closing quote. A character beyond
U+FFFF may be written as two escaped halves. -/
def characters : Step (List Char)
  | [] => none
  | '"' :: rest => some ([], rest)
  | '\\' :: 'u' :: a :: b :: c :: d :: rest => do
    let high ← hex4? a b c d
    if 0xD800 ≤ high ∧ high < 0xDC00 then
      match rest with
      | '\\' :: 'u' :: a :: b :: c :: d :: rest => do
        let low ← hex4? a b c d
        if 0xDC00 ≤ low ∧ low < 0xE000 then
          let c ← char? (0x10000 + (high - 0xD800) * 0x400 + (low - 0xDC00))
          let (text, rest) ← characters rest
          return (c :: text, rest)
        else none
      | _ => none
    else
      let c ← char? high
      let (text, rest) ← characters rest
      return (c :: text, rest)
  | '\\' :: c :: rest => do
    let c ← shortEscape? c
    let (text, rest) ← characters rest
    return (c :: text, rest)
  | c :: rest =>
    if c.toNat < 0x20 ∨ c = '\\' then none
    else do
      let (text, rest) ← characters rest
      return (c :: text, rest)

/-- Takes a text with its quotes. -/
def text : Step String
  | '"' :: rest => do
    let (text, rest) ← characters rest
    return (String.ofList text, rest)
  | _ => none

/-! ## Documents -/

/-- Takes elements with commas between them up to and including the character `close`, at most
`most` of them. -/
def elements {α : Type} (read : Step α) (close : Char) : (most : Nat) → Step (List α)
  | 0, _ => none
  | most + 1, text => do
    let (head, rest) ← read text
    match skip rest with
    | c :: rest =>
      if c = close then return ([head], rest)
      else if c = ',' then
        let (tail, rest) ← elements read close most rest
        return (head :: tail, rest)
      else none
    | [] => none

/-- Takes a field of an object. -/
def field (read : Step Json) : Step (String × Json) := fun t => do
  let (key, rest) ← text (skip t)
  let (_, rest) ← word [':'] (skip rest)
  let (value, rest) ← read rest
  return ((key, value), rest)

/-- Takes a document in which arrays and objects nest less than `depth` deep. -/
def documentWithin : (depth : Nat) → Step Json
  | 0, _ => none
  | depth + 1, t =>
    match skip t with
    | 'n' :: rest => do
      let (_, rest) ← word ['u', 'l', 'l'] rest
      return (.leaf .null, rest)
    | 't' :: rest => do
      let (_, rest) ← word ['r', 'u', 'e'] rest
      return (.leaf (.bool true), rest)
    | 'f' :: rest => do
      let (_, rest) ← word ['a', 'l', 's', 'e'] rest
      return (.leaf (.bool false), rest)
    | '"' :: rest => do
      let (content, rest) ← text ('"' :: rest)
      return (.leaf (.text content), rest)
    | '[' :: rest =>
      match skip rest with
      | ']' :: rest => some (.list .nil, rest)
      | rest => do
        let (items, rest) ← elements (documentWithin depth) ']' rest.length rest
        return (.list (.ofTrees items), rest)
    | '\x7b' :: rest =>
      match skip rest with
      | '\x7d' :: rest => some (.map .done, rest)
      | rest => do
        let (fields, rest) ← elements (field (documentWithin depth)) '\x7d' rest.length rest
        return (.map (.ofPairs fields), rest)
    | rest => do
      let (n, rest) ← number rest
      return (.leaf (.number n), rest)

/-- Reads a whole text as a document. -/
def parse? (t : List Char) : Option Json := do
  let (document, rest) ← documentWithin (t.length + 1) t
  if skip rest = [] then some document else none

end ExpiringCache.Json
