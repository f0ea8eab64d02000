/-!
# Binary floating point

Numbers of the binary interchange formats of 32 and 64 bits, held as their bits. A format is given
by the widths of its fields, and comparison by a rule on the fields that is the same in both formats:
a NaN equals nothing, the two zeros are equal, and otherwise the bits are compared.
-/

namespace ExpiringCache

/-- A binary format: below the bit of the sign come the exponent and then the fraction. -/
structure BinaryFormat where
  /-- The number of bits of the exponent. -/
  exponentWidth : Nat
  /-- The number of bits of the fraction. -/
  fractionWidth : Nat
  deriving DecidableEq, Repr

namespace BinaryFormat

/-- The format of 32 bits. -/
def binary32 : BinaryFormat := ⟨8, 23⟩

/-- The format of 64 bits. -/
def binary64 : BinaryFormat := ⟨11, 52⟩

variable (format : BinaryFormat)

/-- The exponent as it stands in the bits. -/
def exponent (bits : Nat) : Nat :=
  bits / Nat.pow 2 format.fractionWidth % Nat.pow 2 format.exponentWidth

/-- The fraction as it stands in the bits. -/
def fraction (bits : Nat) : Nat := bits % Nat.pow 2 format.fractionWidth

/-- The bits of negative zero, those of positive zero being 0. -/
def negativeZero : Nat := Nat.pow 2 (format.exponentWidth + format.fractionWidth)

/-- All exponent bits are set and some fraction bit: no number. -/
def isNaN (bits : Nat) : Bool :=
  format.exponent bits == Nat.pow 2 format.exponentWidth - 1 && format.fraction bits != 0

/-- The number is zero, with either sign. -/
def isZero (bits : Nat) : Bool := bits == 0 || bits == format.negativeZero

/-- The two numbers are equal. -/
def equals (bits bits' : Nat) : Bool :=
  !format.isNaN bits && !format.isNaN bits' &&
    (bits == bits' || (format.isZero bits && format.isZero bits'))

end BinaryFormat

/-- A number in the format of 64 bits. -/
structure Binary64 where
  /-- The sign, exponent and fraction bits. -/
  bits : UInt64
  deriving DecidableEq, Repr

/-- A number in the format of 32 bits. -/
structure Binary32 where
  /-- The sign, exponent and fraction bits. -/
  bits : UInt32
  deriving DecidableEq, Repr

namespace Binary64

/-- The number is none. -/
def isNaN (x : Binary64) : Bool := BinaryFormat.binary64.isNaN x.bits.toNat

/-- The two numbers are equal. -/
def equals (x y : Binary64) : Bool := BinaryFormat.binary64.equals x.bits.toNat y.bits.toNat

/-- The number that Lean computes with. -/
def toFloat (x : Binary64) : Float := Float.ofBits x.bits

/-- The format of a number that Lean computed. -/
def ofFloat (x : Float) : Binary64 := ⟨x.toBits⟩

/-- The nearest number to the sum. -/
def add (x y : Binary64) : Binary64 := ofFloat (x.toFloat + y.toFloat)

/-- The nearest number to the quotient of two counts. -/
def ratio (n m : Nat) : Binary64 := ofFloat (n.toUInt64.toFloat / m.toUInt64.toFloat)

/-- Positive zero. -/
def zero : Binary64 := ⟨0⟩

end Binary64

namespace Binary32

/-- The number is none. -/
def isNaN (x : Binary32) : Bool := BinaryFormat.binary32.isNaN x.bits.toNat

/-- The two numbers are equal. -/
def equals (x y : Binary32) : Bool := BinaryFormat.binary32.equals x.bits.toNat y.bits.toNat

/-- The same number in 64 bits. -/
def widen (x : Binary32) : Binary64 := .ofFloat (Float32.ofBits x.bits).toFloat

/-- The nearest number in 32 bits. -/
def narrow (x : Binary64) : Binary32 := ⟨x.toFloat.toFloat32.toBits⟩

/-- The nearest number to the sum. -/
def add (x y : Binary32) : Binary32 := ⟨(Float32.ofBits x.bits + Float32.ofBits y.bits).toBits⟩

end Binary32

end ExpiringCache
