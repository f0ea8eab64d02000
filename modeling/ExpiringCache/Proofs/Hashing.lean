import ExpiringCache.Routing
import Mathlib.Data.LawfulXor.Basic
import Mathlib.Data.Nat.Bitwise
import Mathlib.Data.Nat.ModEq

/-!
# What the routing hash keeps of its bytes

A step of the hash can be taken back, as the prime has an inverse among words (`stepBack_step`,
`step_stepBack`), and so can a run over any bytes (`rewind_foldl`, `foldl_rewind`). A run is thus a
bijection of hashes: no bytes that follow bring two hashes together. Two strings of bytes that
differ in one byte part at that byte, so their hashes differ (`hash_eq_hash_iff`).

The last byte goes into the lowest bits of the hash unmixed. Among a power of two of shards, keys
that differ in their last byte alone share a shard just if those bytes agree in as many low bits
(`bucket_eq_bucket_iff`).
-/

namespace ExpiringCache.Routing

/-! ## Hashes as numbers -/

theorem toNat_step (hash : UInt32) (byte : UInt8) :
    (step hash byte).toNat = (hash.toNat * prime.toNat % 2 ^ 32) ^^^ byte.toNat := by
  rw [step, UInt32.toNat_xor, UInt32.toNat_mul, UInt8.toNat_toUInt32]

theorem toNat_hash (bytes : List UInt8) :
    (hash bytes).toNat =
      bytes.foldl (fun hash byte => (hash * prime.toNat % 2 ^ 32) ^^^ byte.toNat) basis.toNat :=
  (List.foldl_hom UInt32.toNat fun hash byte => (toNat_step hash byte).symm).symm

/-- A known value: the hash of a text of six letters. -/
example : hash (Utf8.encode "foobar") = 0x31F0B262 := by decide

/-! ## Steps taken back -/

/-- The inverse of the prime among words. -/
def primeInverse : UInt32 := 0x359C449B

theorem prime_mul_primeInverse : prime * primeInverse = 1 := by decide

/-- The hash before a byte, from the hash after it. -/
def stepBack (hash : UInt32) (byte : UInt8) : UInt32 := (hash ^^^ byte.toUInt32) * primeInverse

theorem stepBack_step (hash : UInt32) (byte : UInt8) : stepBack (step hash byte) byte = hash := by
  rw [stepBack, step, xor_cancel_right, UInt32.mul_assoc, prime_mul_primeInverse, UInt32.mul_one]

theorem step_stepBack (hash : UInt32) (byte : UInt8) : step (stepBack hash byte) byte = hash := by
  rw [step, stepBack, UInt32.mul_assoc, UInt32.mul_comm primeInverse, prime_mul_primeInverse,
    UInt32.mul_one, xor_cancel_right]

theorem step_bijective (byte : UInt8) : Function.Bijective fun hash => step hash byte := by
  have back : Function.LeftInverse (stepBack · byte) (step · byte) :=
    fun hash => stepBack_step hash byte
  have forth : Function.RightInverse (stepBack · byte) (step · byte) :=
    fun hash => step_stepBack hash byte
  exact ⟨back.injective, forth.surjective⟩

/-- Bytes that differ take a hash to hashes that differ. -/
theorem step_right_injective (hash : UInt32) : Function.Injective (step hash) :=
  fun _ _ same => UInt8.toUInt32_inj.1 ((UInt32.xor_right_inj _).1 same)

/-! ## Runs taken back -/

/-- The hash before bytes, from the hash after them: the last byte is taken back first. -/
def rewind (bytes : List UInt8) (hash : UInt32) : UInt32 :=
  bytes.foldr (fun byte hash => stepBack hash byte) hash

theorem rewind_foldl (bytes : List UInt8) (hash : UInt32) :
    rewind bytes (bytes.foldl step hash) = hash := by
  induction bytes generalizing hash with
  | nil => rfl
  | cons byte bytes ih =>
    calc rewind (byte :: bytes) ((byte :: bytes).foldl step hash)
        = stepBack (rewind bytes (bytes.foldl step (step hash byte))) byte := rfl
      _ = stepBack (step hash byte) byte := by rw [ih]
      _ = hash := stepBack_step hash byte

theorem foldl_rewind (bytes : List UInt8) (hash : UInt32) :
    bytes.foldl step (rewind bytes hash) = hash := by
  induction bytes with
  | nil => rfl
  | cons byte bytes ih =>
    calc (byte :: bytes).foldl step (rewind (byte :: bytes) hash)
        = bytes.foldl step (step (stepBack (rewind bytes hash) byte) byte) := rfl
      _ = bytes.foldl step (rewind bytes hash) := by rw [step_stepBack]
      _ = hash := ih

theorem foldl_step_bijective (bytes : List UInt8) :
    Function.Bijective fun hash => bytes.foldl step hash :=
  ⟨Function.LeftInverse.injective (rewind_foldl bytes),
    Function.RightInverse.surjective (foldl_rewind bytes)⟩

/-! ## One byte changed -/

variable {a b : UInt8}

theorem hash_append (before after : List UInt8) :
    hash (before ++ after) = after.foldl step (hash before) :=
  List.foldl_append

theorem hash_append_singleton (before : List UInt8) (byte : UInt8) :
    hash (before ++ [byte]) = step (hash before) byte :=
  hash_append before [byte]

/-- Bytes that are the same in all places but one have the same hash just if they are the same
there. -/
theorem hash_eq_hash_iff (before after : List UInt8) :
    hash (before ++ [a] ++ after) = hash (before ++ [b] ++ after) ↔ a = b := by
  -- What follows is taken back on both sides; the two steps from the same hash are left.
  rw [hash_append (before ++ [a]), hash_append (before ++ [b]),
    (foldl_step_bijective after).injective.eq_iff, hash_append_singleton, hash_append_singleton,
    (step_right_injective _).eq_iff]

/-! ## The last byte among a power of two of shards -/

/-- The lowest bits of a hash after a byte tell of the byte just its own lowest bits. -/
theorem hash_modEq_hash_iff (before : List UInt8) (k : Nat) :
    (hash (before ++ [a])).toNat ≡ (hash (before ++ [b])).toNat [MOD 2 ^ k] ↔
      a.toNat ≡ b.toNat [MOD 2 ^ k] := by
  rw [hash_append_singleton, hash_append_singleton, toNat_step, toNat_step, Nat.ModEq, Nat.ModEq,
    Nat.xor_mod_two_pow, Nat.xor_mod_two_pow, Nat.xor_right_inj]

theorem bucket_eq_bucket_iff {key other : String} {before : List UInt8}
    (hk : Utf8.encode key = before ++ [a]) (ho : Utf8.encode other = before ++ [b]) (k : Nat) :
    bucket key (2 ^ k) = bucket other (2 ^ k) ↔ a.toNat ≡ b.toNat [MOD 2 ^ k] := by
  rw [bucket, bucket, hk, ho]
  exact hash_modEq_hash_iff before k

/-- The hash starts from a basis, and each byte multiplies it by a prime, modulo 2³², and is then
mixed in by exclusive or. This is a bijection of hashes for each byte and for any bytes in a row, so
bytes that differ in one place alone have hashes that differ. Among a power of two of shards, bytes
that differ in the last place alone belong to one shard just if the last ones are congruent modulo
the number of shards, and so do the keys that are written with them. -/
theorem hash_separates_bytes :
    (∀ bytes : List UInt8, (hash bytes).toNat =
      bytes.foldl (fun h byte => (h * 0x01000193 % 2 ^ 32) ^^^ byte.toNat) 0x811C9DC5) ∧
    (∀ byte : UInt8,
      (∀ h : UInt32, (step h byte).toNat = (h.toNat * 0x01000193 % 2 ^ 32) ^^^ byte.toNat) ∧
      Function.Bijective fun h : UInt32 => step h byte) ∧
    (∀ after : List UInt8,
      (∀ before : List UInt8, hash (before ++ after) = after.foldl step (hash before)) ∧
      Function.Bijective fun h : UInt32 => after.foldl step h) ∧
    (∀ (before after : List UInt8) (a b : UInt8), a ≠ b →
      hash (before ++ [a] ++ after) ≠ hash (before ++ [b] ++ after)) ∧
    ∀ (k : Nat) (before : List UInt8) (a b : UInt8),
      ((hash (before ++ [a])).toNat % 2 ^ k = (hash (before ++ [b])).toNat % 2 ^ k ↔
        a.toNat ≡ b.toNat [MOD 2 ^ k]) ∧
      ∀ key other : String, Utf8.encode key = before ++ [a] → Utf8.encode other = before ++ [b] →
        (bucket key (2 ^ k) = bucket other (2 ^ k) ↔ a.toNat ≡ b.toNat [MOD 2 ^ k]) := by
  refine ⟨toNat_hash, fun byte => ⟨fun h => toNat_step h byte, step_bijective byte⟩,
    fun after => ⟨fun before => hash_append before after, foldl_step_bijective after⟩,
    fun before after a b hne => ?_, fun k before a b => ⟨?_, fun key other hk ho => ?_⟩⟩
  · exact (hash_eq_hash_iff before after).not.2 hne
  · exact hash_modEq_hash_iff before k
  · exact bucket_eq_bucket_iff hk ho k

/-- Two keys whose last characters are each written in two bytes, of which the second differ by
eight, have hashes that differ, whatever follows; they share a shard among eight, but not among
sixteen. -/
theorem hash_separates_bytes_accented :
    (0xA9 : UInt8) ≠ 0xA1 ∧
    hash ([0x63, 0x61, 0x66, 0xC3] ++ [0xA9] ++ [0x73]) ≠
      hash ([0x63, 0x61, 0x66, 0xC3] ++ [0xA1] ++ [0x73]) ∧
    Utf8.encode "café" = [0x63, 0x61, 0x66, 0xC3] ++ [0xA9] ∧
    Utf8.encode "cafá" = [0x63, 0x61, 0x66, 0xC3] ++ [0xA1] ∧
    bucket "café" 8 = bucket "cafá" 8 ∧ bucket "café" 16 ≠ bucket "cafá" 16 := by
  obtain ⟨-, -, -, separated, shared⟩ := hash_separates_bytes
  have hk : Utf8.encode "café" = [0x63, 0x61, 0x66, 0xC3] ++ [0xA9] := by decide
  have ho : Utf8.encode "cafá" = [0x63, 0x61, 0x66, 0xC3] ++ [0xA1] := by decide
  refine ⟨by decide, separated _ _ _ _ (by decide), hk, ho, ?_, ?_⟩
  · exact ((shared 3 _ _ _).2 _ _ hk ho).2 (by decide)
  · exact ((shared 4 _ _ _).2 _ _ hk ho).not.2 (by decide)

end ExpiringCache.Routing
