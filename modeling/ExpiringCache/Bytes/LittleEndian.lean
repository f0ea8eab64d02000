/-!
# Little-endian numbers

Natural numbers as a fixed number of bytes, the lowest first.
-/

namespace ExpiringCache.LittleEndian

/-- The lowest `width` bytes of `n`, the lowest first. -/
def toBytes : (width : Nat) → (n : Nat) → List UInt8
  | 0, _ => []
  | width + 1, n => UInt8.ofNat n :: toBytes width (n / 256)

/-- The number that bytes spell, the lowest first. -/
def ofBytes : List UInt8 → Nat
  | [] => 0
  | byte :: rest => byte.toNat + 256 * ofBytes rest

@[simp] theorem length_toBytes (width n : Nat) : (toBytes width n).length = width := by
  induction width generalizing n with
  | zero => rfl
  | succ width ih => simp [toBytes, ih]

end ExpiringCache.LittleEndian
