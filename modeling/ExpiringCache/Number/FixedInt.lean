/-!
# Integers of fixed width

An integer that keeps its type: signed or unsigned, of 8, 16, 32 or 64 bits. Addition wraps at the
width (`FixedInt.increment`); subtraction stops at zero and at the greatest value
(`FixedInt.decrement`).
-/

namespace ExpiringCache

/-- The types of integers. -/
inductive IntType where
  | int8 | int16 | int32 | int64 | uint8 | uint16 | uint32 | uint64
  deriving DecidableEq, Repr

namespace IntType

/-- The number of bytes. -/
def byteCount : IntType → Nat
  | .int8 | .uint8 => 1
  | .int16 | .uint16 => 2
  | .int32 | .uint32 => 4
  | .int64 | .uint64 => 8

/-- The number of bits. -/
def bits (type : IntType) : Nat := 8 * type.byteCount

/-- The type has negative values. -/
def signed : IntType → Bool
  | .int8 | .int16 | .int32 | .int64 => true
  | .uint8 | .uint16 | .uint32 | .uint64 => false

/-- The number of values. -/
def modulus (type : IntType) : Nat := 1 <<< type.bits

/-- The least value. -/
def min (type : IntType) : Int := if type.signed then -(type.modulus / 2) else 0

/-- The greatest value. -/
def max (type : IntType) : Int :=
  if type.signed then type.modulus / 2 - 1 else type.modulus - 1

/-- The value of the type that differs from `n` by a multiple of the modulus. -/
def wrap (type : IntType) (n : Int) : Int :=
  if type.signed then n.bmod type.modulus else n % type.modulus

/-- The value of the type from 0 on that is nearest to `n`. -/
def clamp (type : IntType) (n : Int) : Int := Max.max 0 (Min.min n type.max)

theorem min_le_wrap (type : IntType) (n : Int) : type.min ≤ type.wrap n := by
  cases type <;> simp only [min, wrap, signed, modulus, bits, byteCount, Int.bmod_def] <;> grind

theorem wrap_le_max (type : IntType) (n : Int) : type.wrap n ≤ type.max := by
  cases type <;> simp only [max, wrap, signed, modulus, bits, byteCount, Int.bmod_def] <;> grind

theorem min_nonpos (type : IntType) : type.min ≤ 0 := by cases type <;> decide

theorem max_pos (type : IntType) : 0 < type.max := by cases type <;> decide

theorem min_le_clamp (type : IntType) (n : Int) : type.min ≤ type.clamp n := by
  have := type.min_nonpos
  simp only [clamp]
  omega

theorem clamp_le_max (type : IntType) (n : Int) : type.clamp n ≤ type.max := by
  have := type.max_pos
  simp only [clamp]
  omega

end IntType

/-- An integer of a fixed type, within the bounds of the type. -/
structure FixedInt where
  /-- The type. -/
  type : IntType
  /-- The number. -/
  val : Int
  /-- The number is not below the least value of the type. -/
  min_le : type.min ≤ val
  /-- The number is not above the greatest value of the type. -/
  le_max : val ≤ type.max
  deriving DecidableEq

namespace FixedInt

/-- The value of a type that is congruent to `n`. -/
def ofInt (type : IntType) (n : Int) : FixedInt :=
  ⟨type, type.wrap n, type.min_le_wrap n, type.wrap_le_max n⟩

/-- Adds, wrapping at the width. -/
def increment (n : FixedInt) (delta : Int64) : FixedInt := ofInt n.type (n.val + delta.toInt)

/-- Subtracts, stopping at zero and at the greatest value. -/
def decrement (n : FixedInt) (delta : Int64) : FixedInt :=
  ⟨n.type, n.type.clamp (n.val - delta.toInt), n.type.min_le_clamp _, n.type.clamp_le_max _⟩

/-- The number in 64 bits with a sign; from 2^63 on it wraps to a negative one. -/
def toInt64 (n : FixedInt) : Int64 := Int64.ofInt n.val

/-- The number in 64 bits with a sign, if it fits. -/
def toInt64? (n : FixedInt) : Option Int64 :=
  if n.val < 0x8000000000000000 then some n.toInt64 else none

/-- The number modulo the number of values of its type: what its bytes spell. -/
def code (n : FixedInt) : Nat := (n.val % n.type.modulus).toNat

end FixedInt

end ExpiringCache
