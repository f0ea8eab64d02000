/-!
# UTF-8

Text as bytes (`encode`) and bytes as text (`decode`). A text that is refused is refused with the
place and the length of its first ill-formed part, where a part is ill-formed as soon as no
character can continue it.
-/

namespace ExpiringCache.Utf8

/-- Why bytes are not the UTF-8 form of a text. -/
inductive Fault where
  /-- After `start` bytes of text come `length` bytes that begin no character. -/
  | invalid (length start : Nat)
  /-- After `start` bytes of text the bytes end within a character. -/
  | incomplete (start : Nat)
  deriving DecidableEq, Repr

/-- The wording of a fault. -/
def Fault.message : Fault → String
  | .invalid length start =>
    "invalid utf-8 sequence of " ++ toString length ++ " bytes from index " ++ toString start
  | .incomplete start => "incomplete utf-8 byte sequence from index " ++ toString start

/-- The bytes of a text. -/
def encode (text : String) : List UInt8 := text.toList.flatMap String.utf8EncodeChar

/-- A character of which the first bytes have been read. -/
structure Pending where
  /-- The number of bytes still to come. -/
  missing : Nat
  /-- The least byte that may come next. -/
  low : UInt8
  /-- The greatest byte that may come next. -/
  high : UInt8
  /-- The number that the bytes so far spell. -/
  code : Nat
  /-- The number of bytes so far. -/
  seen : Nat

/-- What a first byte from 0x80 on begins. The second byte is bounded so that no character has a
longer form than it needs, none is a surrogate and none lies above U+10FFFF. -/
def lead? (byte : UInt8) : Option Pending :=
  if byte < 0xC2 then none
  else if byte < 0xE0 then some ⟨1, 0x80, 0xBF, byte.toNat - 0xC0, 1⟩
  else if byte < 0xF0 then
    some ⟨2, if byte = 0xE0 then 0xA0 else 0x80, if byte = 0xED then 0x9F else 0xBF,
      byte.toNat - 0xE0, 1⟩
  else if byte < 0xF5 then
    some ⟨3, if byte = 0xF0 then 0x90 else 0x80, if byte = 0xF4 then 0x8F else 0xBF,
      byte.toNat - 0xF0, 1⟩
  else none

/-- Reads characters from bytes of which `start` have become text, within a character if one is
`pending`. -/
def decodeFrom (start : Nat) : Option Pending → List UInt8 → Except Fault (List Char)
  | none, [] => .ok []
  | some _, [] => .error (.incomplete start)
  | none, byte :: rest =>
    if byte < 0x80 then do
      let text ← decodeFrom (start + 1) none rest
      return Char.ofNat byte.toNat :: text
    else match lead? byte with
      | none => .error (.invalid 1 start)
      | some pending => decodeFrom start (some pending) rest
  | some pending, byte :: rest =>
    if byte < pending.low ∨ pending.high < byte then .error (.invalid pending.seen start)
    else
      let code := pending.code * 64 + (byte.toNat - 0x80)
      if pending.missing ≤ 1 then do
        let text ← decodeFrom (start + pending.seen + 1) none rest
        return Char.ofNat code :: text
      else
        decodeFrom start (some ⟨pending.missing - 1, 0x80, 0xBF, code, pending.seen + 1⟩) rest

/-- The text of bytes in UTF-8. -/
def decode (bytes : List UInt8) : Except Fault String :=
  (decodeFrom 0 none bytes).map String.ofList

end ExpiringCache.Utf8
