import ExpiringCache.Proofs.Text.Decimal
import ExpiringCache.Proofs.Text.Utf8
import ExpiringCache.Settings
import Mathlib.Algebra.Group.Int.Defs

/-!
# Settings from the environment

Each of three variables decides about one field of the settings: it is set to a numeral that is in
range (`Gives`), or the field is as in the default configuration. Whatever the environment is, the
settings are valid, and no duration in them is zero: `ofEnvironment_exact`.
-/

namespace ExpiringCache

/-- The variables of an environment, each as bytes if it is set. -/
abbrev Environment := String → Option (List UInt8)

namespace Environment

/-- The environment with one variable set to a text. -/
def set (environment : Environment) (name : String) (text : List Char) : Environment := fun other =>
  if other = name then some (Utf8.encode (String.ofList text)) else environment other

/-- The characters that a variable is set to, if they are text. -/
def text? (environment : Environment) (name : String) : Option (List Char) :=
  (environment name).bind fun bytes => (Utf8.decode bytes).toOption.map String.toList

/-- The variable is set to a text that is a numeral of the number. -/
def Gives {α : Type} (numeral : List Char → α → Prop) (environment : Environment) (name : String)
    (n : α) : Prop :=
  ∃ text : String, environment name = some (Utf8.encode text) ∧ numeral text.toList n

section
variable {environment : Environment} {name : String}

theorem text?_eq_some_iff {characters : List Char} :
    text? environment name = some characters ↔
      ∃ text : String, environment name = some (Utf8.encode text) ∧ text.toList = characters := by
  rw [text?, Option.bind_eq_some_iff]
  constructor
  · rintro ⟨bytes, hb, h⟩
    obtain ⟨text, ht, rfl⟩ := Option.map_eq_some_iff.1 h
    cases hd : Utf8.decode bytes with
    | error fault => rw [hd] at ht; cases ht
    | ok text' =>
      rw [hd] at ht
      obtain rfl := Option.some.inj ht
      exact ⟨text', Utf8.decode_eq_ok_iff.1 hd ▸ hb, rfl⟩
  · rintro ⟨text, h, rfl⟩
    exact ⟨_, h, by rw [Utf8.decode_encode]; rfl⟩

theorem text?_set (name' : String) (text : List Char) :
    text? (environment.set name text) name' =
      if name' = name then some text else text? environment name' := by
  split
  · rename_i h
    exact text?_eq_some_iff.2 ⟨String.ofList text, if_pos h, String.toList_ofList⟩
  · rename_i h
    rw [text?, set, if_neg h]
    rfl

/-- What is read of a variable is what it gives. -/
theorem bind_text?_eq_some_iff {α : Type} {read? : List Char → Option α}
    {numeral : List Char → α → Prop} (h : ∀ {text n}, read? text = some n ↔ numeral text n)
    {n : α} :
    (text? environment name).bind read? = some n ↔ Gives numeral environment name n := by
  rw [Option.bind_eq_some_iff]
  constructor
  · rintro ⟨characters, ht, hr⟩
    obtain ⟨text, he, rfl⟩ := text?_eq_some_iff.1 ht
    exact ⟨text, he, h.1 hr⟩
  · rintro ⟨text, he, hn⟩
    exact ⟨text.toList, text?_eq_some_iff.2 ⟨text, he, rfl⟩, h.2 hn⟩

end

end Environment

theorem Duration.ofMillis_ne_zero {n : Nat} (h : 1 ≤ n) : ofMillis n ≠ .zero := by
  intro hz
  have hz : n * 1000000 = 0 := congrArg nanos hz
  omega

namespace Settings

open Environment (text? Gives text?_set bind_text?_eq_some_iff)

theorem millis?_eq_some_iff {most n : Int} {d : Duration} :
    millis? most n = some d ↔ 1 ≤ n ∧ n ≤ most ∧ d = .ofMillis n.toNat := by
  rw [millis?, Option.ite_none_right_eq_some, Option.some.injEq, and_assoc, eq_comm (a := d)]
  rfl

/-! ## Fields -/

/-- The number of shards that the environment asks for, if it is in range. -/
def shards? (environment : Environment) : Option Nat :=
  ((text? environment "CACHE_SHARD_COUNT").bind Decimal.natural?).filter fun n =>
    0 < n ∧ n < 0x10000000000000000

theorem ofEnvironment_eq (environment : Environment) :
    ofEnvironment environment = { default with
      lifetime := ((text? environment "CACHE_DEFAULT_EXPIRATION_MS").bind Decimal.integer?).bind
        (millis? 0x7FFFFFFFFFFFFFFF)
      interval := ((text? environment "CACHE_CLEANUP_INTERVAL_MS").bind Decimal.natural?).bind
        fun n => millis? 0xFFFFFFFFFFFFFFFF n
      shardCount := (shards? environment).getD defaultShardCount } := by
  -- A number that is out of range is refused as it is read there, and afterwards here.
  have hs : shards? environment = (text? environment "CACHE_SHARD_COUNT").bind fun text =>
      (Decimal.natural? text).filter fun n => 0 < n ∧ n < 0x10000000000000000 := by
    rw [shards?]
    cases text? environment "CACHE_SHARD_COUNT" <;> rfl
  rw [Option.bind_assoc, Option.bind_assoc, hs]
  rfl

variable {environment environment' : Environment}

theorem lifetime_eq_some_iff {d : Duration} :
    (ofEnvironment environment).lifetime = some d ↔
      ∃ m : Int, Gives Decimal.Signed environment "CACHE_DEFAULT_EXPIRATION_MS" m ∧ 1 ≤ m ∧
        m ≤ 2 ^ 63 - 1 ∧ d = .ofMillis m.toNat := by
  rw [ofEnvironment_eq, Option.bind_eq_some_iff]
  refine exists_congr fun m => ?_
  rw [bind_text?_eq_some_iff Decimal.integer?_eq_some_iff, millis?_eq_some_iff]
  rfl

theorem interval_eq_some_iff {d : Duration} :
    (ofEnvironment environment).interval = some d ↔
      ∃ m : Nat, Gives Decimal.Unsigned environment "CACHE_CLEANUP_INTERVAL_MS" m ∧ 1 ≤ m ∧
        m ≤ 2 ^ 64 - 1 ∧ d = .ofMillis m := by
  rw [ofEnvironment_eq, Option.bind_eq_some_iff]
  refine exists_congr fun m => ?_
  rw [bind_text?_eq_some_iff Decimal.natural?_eq_some_iff, millis?_eq_some_iff, Int.toNat_natCast]
  exact and_congr_right fun _ => and_congr (by omega) (and_congr_left' (by omega))

theorem shards?_eq_some_iff {n : Nat} :
    shards? environment = some n ↔
      Gives Decimal.Unsigned environment "CACHE_SHARD_COUNT" n ∧ 1 ≤ n ∧ n ≤ 2 ^ 64 - 1 := by
  rw [shards?, Option.filter_eq_some_iff, bind_text?_eq_some_iff Decimal.natural?_eq_some_iff,
    decide_eq_true_iff]
  exact and_congr_right fun _ => and_congr Iff.rfl (by omega)

theorem shardCount_eq_iff {n : Nat} :
    (ofEnvironment environment).shardCount = n ↔
      (Gives Decimal.Unsigned environment "CACHE_SHARD_COUNT" n ∧ 1 ≤ n ∧ n ≤ 2 ^ 64 - 1) ∨
      n = 16 ∧ ¬ ∃ m : Nat, Gives Decimal.Unsigned environment "CACHE_SHARD_COUNT" m ∧ 1 ≤ m ∧
        m ≤ 2 ^ 64 - 1 := by
  simp only [ofEnvironment_eq, ← shards?_eq_some_iff]
  cases shards? environment with
  | none => simp [defaultShardCount, eq_comm]
  | some m => simp

theorem one_le_shardCount : 1 ≤ (ofEnvironment environment).shardCount := by
  rcases shardCount_eq_iff.1 (Eq.refl (ofEnvironment environment).shardCount) with h | h
  · exact h.2.1
  · rw [h.1]
    decide

theorem validate_ofEnvironment : (ofEnvironment environment).validate = .ok () :=
  if_neg (Nat.ne_of_gt one_le_shardCount)

theorem nonzero_ofEnvironment {d : Duration} (h : (ofEnvironment environment).lifetime = some d ∨
    (ofEnvironment environment).interval = some d) : d ≠ .zero := by
  rcases h with h | h
  · obtain ⟨m, -, hm, -, rfl⟩ := lifetime_eq_some_iff.1 h
    exact Duration.ofMillis_ne_zero (by omega)
  · obtain ⟨m, -, hm, -, rfl⟩ := interval_eq_some_iff.1 h
    exact Duration.ofMillis_ne_zero hm

/-- Settings from environments in which numerals are read alike are the same. -/
theorem ofEnvironment_congr
    (h : ∀ name, (text? environment name).bind Decimal.integer? =
        (text? environment' name).bind Decimal.integer? ∧
      (text? environment name).bind Decimal.natural? =
        (text? environment' name).bind Decimal.natural?) :
    ofEnvironment environment = ofEnvironment environment' := by
  rw [ofEnvironment_eq, ofEnvironment_eq, shards?, shards?, (h _).1, (h _).2, (h _).2]

theorem ofEnvironment_zeros {sign digits : List Char} {n : Nat} (hs : sign ∈ Decimal.signs)
    (hne : digits ≠ []) (hd : Decimal.Spells digits n) (name : String) (k : Nat) :
    ofEnvironment (environment.set name (sign ++ (List.replicate k '0' ++ digits))) =
      ofEnvironment (environment.set name (sign ++ digits)) := by
  refine ofEnvironment_congr fun name' => ?_
  rw [text?_set, text?_set]
  split
  · exact ⟨Decimal.integer?_zeros hs hne hd k, Decimal.natural?_zeros hs hne hd k⟩
  · exact ⟨rfl, rfl⟩

/-- The settings from an environment are valid, have at least one shard and no duration of zero.
The lifetime is that of the number of milliseconds that its variable gives, with a sign or not, and
the time between sweeps and the number of shards are what theirs give, with a plus sign or not, if
that is from one up to the greatest number of the type; else there is no lifetime, no sweep, and
there are 16 shards. Nothing else depends on the environment, and no field on the variable of
another. Zeros before the digits of a numeral change nothing. -/
theorem ofEnvironment_exact (environment : Environment) :
    ((ofEnvironment environment).validate = .ok () ∧ 1 ≤ (ofEnvironment environment).shardCount ∧
      ∀ d, (ofEnvironment environment).lifetime = some d ∨
        (ofEnvironment environment).interval = some d → d ≠ .zero) ∧
    (∀ d, (ofEnvironment environment).lifetime = some d ↔
      ∃ m : Int, Gives Decimal.Signed environment "CACHE_DEFAULT_EXPIRATION_MS" m ∧ 1 ≤ m ∧
        m ≤ 2 ^ 63 - 1 ∧ d = .ofMillis m.toNat) ∧
    (∀ d, (ofEnvironment environment).interval = some d ↔
      ∃ m : Nat, Gives Decimal.Unsigned environment "CACHE_CLEANUP_INTERVAL_MS" m ∧ 1 ≤ m ∧
        m ≤ 2 ^ 64 - 1 ∧ d = .ofMillis m) ∧
    (∀ n, (ofEnvironment environment).shardCount = n ↔
      (Gives Decimal.Unsigned environment "CACHE_SHARD_COUNT" n ∧ 1 ≤ n ∧ n ≤ 2 ^ 64 - 1) ∨
      n = 16 ∧ ¬ ∃ m : Nat, Gives Decimal.Unsigned environment "CACHE_SHARD_COUNT" m ∧ 1 ≤ m ∧
        m ≤ 2 ^ 64 - 1) ∧
    (∀ environment' : Environment,
      ofEnvironment environment' = { ofEnvironment environment with
        lifetime := (ofEnvironment environment').lifetime
        interval := (ofEnvironment environment').interval
        shardCount := (ofEnvironment environment').shardCount } ∧
      (environment "CACHE_DEFAULT_EXPIRATION_MS" = environment' "CACHE_DEFAULT_EXPIRATION_MS" →
        (ofEnvironment environment).lifetime = (ofEnvironment environment').lifetime) ∧
      (environment "CACHE_CLEANUP_INTERVAL_MS" = environment' "CACHE_CLEANUP_INTERVAL_MS" →
        (ofEnvironment environment).interval = (ofEnvironment environment').interval) ∧
      (environment "CACHE_SHARD_COUNT" = environment' "CACHE_SHARD_COUNT" →
        (ofEnvironment environment).shardCount = (ofEnvironment environment').shardCount)) ∧
    ∀ (name : String) (sign digits : List Char) (n k : Nat), sign ∈ Decimal.signs → digits ≠ [] →
      Decimal.Spells digits n →
      ofEnvironment (environment.set name (sign ++ (List.replicate k '0' ++ digits))) =
        ofEnvironment (environment.set name (sign ++ digits)) := by
  refine ⟨⟨validate_ofEnvironment, one_le_shardCount, fun _ => nonzero_ofEnvironment⟩,
    fun _ => lifetime_eq_some_iff, fun _ => interval_eq_some_iff, fun _ => shardCount_eq_iff,
    fun environment' => ⟨rfl, fun h => ?_, fun h => ?_, fun h => ?_⟩,
    fun name _ _ _ k hs hne hd => ofEnvironment_zeros hs hne hd name k⟩
  · simp only [ofEnvironment_eq, text?, h]
  · simp only [ofEnvironment_eq, text?, h]
  · simp only [ofEnvironment_eq, shards?, text?, h]

/-- The greatest number of shards can be asked for, here with a sign and zeros. -/
example : (ofEnvironment (Environment.set (fun _ => none) "CACHE_SHARD_COUNT"
    "+0018446744073709551615".toList)).shardCount = 18446744073709551615 := by decide

end Settings

end ExpiringCache
