import ExpiringCache.Text.Utf8

/-!
# Routing

Each key belongs to one of a number of shards, by its 32-bit FNV-1 hash: from an offset basis on,
each byte multiplies the hash by a prime and is then mixed in by exclusive or.
-/

namespace ExpiringCache.Routing

/-- The hash of no bytes. -/
def basis : UInt32 := 0x811C9DC5

/-- The factor of each step. -/
def prime : UInt32 := 0x01000193

/-- The hash after one more byte. -/
def step (hash : UInt32) (byte : UInt8) : UInt32 := (hash * prime) ^^^ byte.toUInt32

/-- The hash of bytes. -/
def hash (bytes : List UInt8) : UInt32 := bytes.foldl step basis

/-- The shard of a key among `count` shards. -/
def bucket (key : String) (count : Nat) : Nat := (hash (Utf8.encode key)).toNat % count

/-- The shard of a key, if there are any shards. -/
def bucket? (key : String) (count : Nat) : Option Nat :=
  if count = 0 then none else some (bucket key count)

theorem bucket_lt (key : String) {count : Nat} (h : 0 < count) : bucket key count < count :=
  Nat.mod_lt _ h

end ExpiringCache.Routing
