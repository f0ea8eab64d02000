import ExpiringCache.Number.Binary

/-!
# JSON numbers

A numeral without fraction and exponent that fits into 64 bits is an integer; every other numeral
is a float. The float is computed from at most 64 bits of digits by one conversion and then one
multiplication or division by a power of ten, so it may miss the nearest float by a little.
-/

namespace ExpiringCache

/-- A number in a JSON document. -/
inductive JsonNumber where
  /-- An integer of 64 bits, with or without a sign. -/
  | int (n : Int) (low : -0x8000000000000000 ≤ n) (high : n < 0x10000000000000000)
  /-- Any other number. -/
  | float (x : Binary64)
  deriving DecidableEq

namespace JsonNumber

/-- The parts of a numeral: its sign, its digits before and after the point, and its exponent. -/
structure Numeral where
  /-- There is a minus sign. -/
  negative : Bool
  /-- The digits before the point. -/
  whole : List Char
  /-- The digits after the point, if there is one. -/
  fraction : Option (List Char)
  /-- The exponent, if there is one. -/
  exponent : Option Int

/-- Digits that fit into 64 bits, and the power of ten that they are to be multiplied by. -/
structure Scaled where
  /-- The digits as a number. -/
  digits : Nat
  /-- The exponent of ten. -/
  exponent : Int

/-- One digit more of which the value does not exceed 64 bits. -/
def push? (digits : Nat) (c : Char) : Option Nat :=
  let digits := 10 * digits + (c.toNat - '0'.toNat)
  if digits < 0x10000000000000000 then some digits else none

/-- Digits before the point: from the first one that does not fit on, each counts as a zero. -/
def takeWhole (digits : Nat) : List Char → Scaled
  | [] => ⟨digits, 0⟩
  | c :: rest =>
    match push? digits c with
    | some digits => takeWhole digits rest
    | none => ⟨digits, (c :: rest).length⟩

/-- Digits after the point: from the first one that does not fit on, none counts. -/
def takeFraction (scaled : Scaled) : List Char → Scaled
  | [] => scaled
  | c :: rest =>
    match push? scaled.digits c with
    | some digits => takeFraction ⟨digits, scaled.exponent - 1⟩ rest
    | none => scaled

/-- A power of ten as a float. -/
def powerOfTen (n : Nat) : Float := Float.ofScientific 1 false n

/-- Divides by 10^308 as often as the exponent allows, at most `steps` times. -/
def scaleDown (x : Float) (exponent : Nat) : (steps : Nat) → Float
  | 0 => x / powerOfTen exponent
  | steps + 1 =>
    if exponent ≤ 308 then x / powerOfTen exponent
    else scaleDown (x / powerOfTen 308) (exponent - 308) steps

/-- Digits times a power of ten as a float, if it is finite. After three divisions by 10^308
nothing is left of 64 bits. -/
def scale? (scaled : Scaled) : Option Float :=
  let x := scaled.digits.toUInt64.toFloat
  if scaled.digits = 0 then some x
  else if 0 ≤ scaled.exponent then
    if scaled.exponent ≤ 308 then
      let y := x * powerOfTen scaled.exponent.toNat
      if y.isFinite then some y else none
    else none
  else if scaled.exponent < -1232 then some 0
  else some (scaleDown x scaled.exponent.natAbs 3)

/-- The number that a numeral denotes; a numeral beyond the greatest float denotes none. -/
def ofNumeral? (numeral : Numeral) : Option JsonNumber :=
  let scaled := takeWhole 0 numeral.whole
  let signed (x : Float) : JsonNumber := .float (.ofFloat (if numeral.negative then -x else x))
  match numeral.fraction, numeral.exponent with
  | none, none =>
    let n : Int := if numeral.negative then -scaled.digits else scaled.digits
    if h : scaled.exponent = 0 ∧ ¬ (numeral.negative ∧ scaled.digits = 0) ∧
        -0x8000000000000000 ≤ n ∧ n < 0x10000000000000000 then
      some (.int n h.2.2.1 h.2.2.2)
    else (scale? scaled).map signed
  | fraction, exponent =>
    let scaled := takeFraction scaled (fraction.getD [])
    (scale? ⟨scaled.digits, scaled.exponent + exponent.getD 0⟩).map signed

end JsonNumber

end ExpiringCache
