import ExpiringCache.Text.Utf8

/-!
# Characters in UTF-8

`CharForm` lists the bytes of each character by its number. They are what is written for the
character (`CharForm.encode`, `charForm_encode`), and at the front of bytes they are what is read
(`decodeFrom_charForm`).

Within a character the reader keeps what is pending of it. `Stands` is the invariant: the bytes so
far begin just those characters that the pending one can be completed to.
-/

namespace ExpiringCache.Utf8

open String (utf8EncodeChar)

/-- A byte that continues a character. -/
def Tail (byte : UInt8) : Prop := 0x80 ≤ byte.toNat ∧ byte.toNat ≤ 0xBF

/-- The bytes of the character with a number. A second byte is bounded further where the character
would otherwise have a shorter form, be a surrogate or lie above U+10FFFF. -/
inductive CharForm : List UInt8 → Nat → Prop where
  | one {a : UInt8} {n : Nat} (ha : a.toNat < 0x80) (hn : n = a.toNat) : CharForm [a] n
  | two {a b : UInt8} {n : Nat} (ha : 0xC2 ≤ a.toNat ∧ a.toNat ≤ 0xDF) (hb : Tail b)
      (hn : n = (a.toNat - 0xC0) * 64 + (b.toNat - 0x80)) : CharForm [a, b] n
  | three {a b c : UInt8} {n : Nat} (ha : 0xE0 ≤ a.toNat ∧ a.toNat ≤ 0xEF) (hb : Tail b)
      (hc : Tail c) (low : a.toNat = 0xE0 → 0xA0 ≤ b.toNat)
      (high : a.toNat = 0xED → b.toNat ≤ 0x9F)
      (hn : n = ((a.toNat - 0xE0) * 64 + (b.toNat - 0x80)) * 64 + (c.toNat - 0x80)) :
      CharForm [a, b, c] n
  | four {a b c d : UInt8} {n : Nat} (ha : 0xF0 ≤ a.toNat ∧ a.toNat ≤ 0xF4) (hb : Tail b)
      (hc : Tail c) (hd : Tail d) (low : a.toNat = 0xF0 → 0x90 ≤ b.toNat)
      (high : a.toNat = 0xF4 → b.toNat ≤ 0x8F)
      (hn : n = (((a.toNat - 0xF0) * 64 + (b.toNat - 0x80)) * 64 + (c.toNat - 0x80)) * 64 +
        (d.toNat - 0x80)) :
      CharForm [a, b, c, d] n

/-! ## The bytes that are written -/

theorem val_ofNat {n : Nat} (h : n.isValidChar) : (Char.ofNat n).val.toNat = n := by
  rw [Char.ofNat, dif_pos h]
  rfl

theorem ofNat_eq_of_eq_toNat {n : Nat} {b : UInt8} (h : n = b.toNat) :
    UInt8.ofNat n = b := by
  rw [h, UInt8.ofNat_toNat]

theorem exists_byte {n : Nat} (h : n < 256) : ∃ byte : UInt8, byte.toNat = n :=
  ⟨UInt8.ofNat n, by rw [UInt8.toNat_ofNat']; omega⟩

theorem CharForm.encode {bytes : List UInt8} {n : Nat} (h : CharForm bytes n) :
    utf8EncodeChar (Char.ofNat n) = bytes := by
  cases h with
  | @one a _ ha hn =>
    simp only [utf8EncodeChar, val_ofNat (show n.isValidChar from .inl (by omega))]
    rw [if_pos (by omega), ofNat_eq_of_eq_toNat hn]
  | @two a b _ ha hb hn =>
    obtain ⟨hb, hb'⟩ := hb
    simp only [utf8EncodeChar, val_ofNat (show n.isValidChar from .inl (by omega))]
    rw [if_neg (by omega), if_pos (by omega)]
    rw [ofNat_eq_of_eq_toNat (b := a) (by omega), ofNat_eq_of_eq_toNat (b := b) (by omega)]
  | @three a b c _ ha hb hc low high hn =>
    obtain ⟨hb, hb'⟩ := hb
    obtain ⟨hc, hc'⟩ := hc
    have hv : n.isValidChar := by
      by_cases h : a.toNat ≤ 0xED
      · exact .inl (by omega)
      · exact .inr ⟨by omega, by omega⟩
    simp only [utf8EncodeChar, val_ofNat hv]
    rw [if_neg (by omega), if_neg (by omega), if_pos (by omega)]
    rw [ofNat_eq_of_eq_toNat (b := a) (by omega), ofNat_eq_of_eq_toNat (b := b) (by omega),
      ofNat_eq_of_eq_toNat (b := c) (by omega)]
  | @four a b c d _ ha hb hc hd low high hn =>
    obtain ⟨hb, hb'⟩ := hb
    obtain ⟨hc, hc'⟩ := hc
    obtain ⟨hd, hd'⟩ := hd
    simp only [utf8EncodeChar, val_ofNat (show n.isValidChar from .inr ⟨by omega, by omega⟩)]
    rw [if_neg (by omega), if_neg (by omega), if_neg (by omega)]
    rw [ofNat_eq_of_eq_toNat (b := a) (by omega), ofNat_eq_of_eq_toNat (b := b) (by omega),
      ofNat_eq_of_eq_toNat (b := c) (by omega), ofNat_eq_of_eq_toNat (b := d) (by omega)]

theorem exists_charForm {n : Nat} (h : n.isValidChar) : ∃ bytes, CharForm bytes n := by
  have hlt : n < 0x110000 := by rcases h with h | h <;> omega
  obtain ⟨d, hd⟩ := exists_byte (show n % 64 + 0x80 < 256 by omega)
  by_cases h1 : n < 0x80
  · obtain ⟨a, ha⟩ := exists_byte (show n < 256 by omega)
    exact ⟨[a], .one (by omega) (by omega)⟩
  by_cases h2 : n < 0x800
  · obtain ⟨a, ha⟩ := exists_byte (show n / 64 + 0xC0 < 256 by omega)
    exact ⟨[a, d], .two (by omega) ⟨by omega, by omega⟩ (by omega)⟩
  obtain ⟨c, hc⟩ := exists_byte (show n / 64 % 64 + 0x80 < 256 by omega)
  by_cases h3 : n < 0x10000
  · obtain ⟨a, ha⟩ := exists_byte (show n / 4096 + 0xE0 < 256 by omega)
    -- Of the numbers in reach from 0xED only the surrogates lie above its bound.
    have high : a.toNat = 0xED → c.toNat ≤ 0x9F := by rcases h with h | h <;> omega
    exact ⟨[a, c, d], .three (by omega) ⟨by omega, by omega⟩ ⟨by omega, by omega⟩ (by omega) high
      (by omega)⟩
  · obtain ⟨a, ha⟩ := exists_byte (show n / 262144 + 0xF0 < 256 by omega)
    obtain ⟨b, hb⟩ := exists_byte (show n / 4096 % 64 + 0x80 < 256 by omega)
    exact ⟨[a, b, c, d], .four (by omega) ⟨by omega, by omega⟩ ⟨by omega, by omega⟩
      ⟨by omega, by omega⟩ (by omega) (by omega) (by omega)⟩

/-- What is written for a character is its form. -/
theorem charForm_encode (c : Char) : CharForm (utf8EncodeChar c) c.val.toNat := by
  obtain ⟨bytes, h⟩ := exists_charForm (show c.val.toNat.isValidChar from c.valid)
  have e := h.encode
  rw [show Char.ofNat c.val.toNat = c from Char.ofNat_toNat c] at e
  exact e ▸ h


/-! ## Pending characters -/

/-- The number that the bytes so far spell and the bytes `tail` continue. -/
def spelled (code : Nat) (tail : List UInt8) : Nat :=
  tail.foldl (fun code b => code * 64 + (b.toNat - 0x80)) code

theorem spelled_cons (code : Nat) (b : UInt8) (tail : List UInt8) :
    spelled code (b :: tail) = spelled (code * 64 + (b.toNat - 0x80)) tail := by
  rw [spelled, List.foldl_cons, spelled]

/-- The bytes `tail` complete the pending character to number `n`. -/
def Completes (p : Pending) (tail : List UInt8) (n : Nat) : Prop :=
  ∃ b rest, tail = b :: rest ∧ (p.low.toNat ≤ b.toNat ∧ b.toNat ≤ p.high.toNat) ∧
    (∀ c ∈ rest, Tail c) ∧ rest.length + 1 = p.missing ∧ n = spelled p.code tail

/-- The bytes `part` begin the pending character. -/
structure Stands (part : List UInt8) (p : Pending) : Prop where
  nonempty : part ≠ []
  seen : p.seen = part.length
  missing : 0 < p.missing
  bounds : p.low.toNat ≤ p.high.toNat
  completes : ∀ tail n, CharForm (part ++ tail) n ↔ Completes p tail n

theorem lead?_two {a : UInt8} (ha : 0xC2 ≤ a.toNat ∧ a.toNat ≤ 0xDF) :
    lead? a = some ⟨1, 0x80, 0xBF, a.toNat - 0xC0, 1⟩ := by
  simp only [lead?, UInt8.lt_iff_toNat_lt, UInt8.reduceToNat]
  rw [if_neg (by omega), if_pos (by omega)]

theorem lead?_three {a : UInt8} (ha : 0xE0 ≤ a.toNat ∧ a.toNat ≤ 0xEF) :
    ∃ l u : UInt8, lead? a = some ⟨2, l, u, a.toNat - 0xE0, 1⟩ ∧ l.toNat ≤ u.toNat ∧
      ∀ b : UInt8, l.toNat ≤ b.toNat ∧ b.toNat ≤ u.toNat ↔
        Tail b ∧ (a.toNat = 0xE0 → 0xA0 ≤ b.toNat) ∧ (a.toNat = 0xED → b.toNat ≤ 0x9F) := by
  simp only [lead?, UInt8.lt_iff_toNat_lt, ← UInt8.toNat_inj, UInt8.reduceToNat]
  rw [if_neg (by omega), if_neg (by omega), if_pos (by omega)]
  refine ⟨_, _, rfl, ?_, fun b => ?_⟩
  · split <;> split <;> simp only [UInt8.reduceToNat] <;> omega
  · rw [Tail]
    split <;> split <;> simp only [UInt8.reduceToNat] <;> omega

theorem lead?_four {a : UInt8} (ha : 0xF0 ≤ a.toNat ∧ a.toNat ≤ 0xF4) :
    ∃ l u : UInt8, lead? a = some ⟨3, l, u, a.toNat - 0xF0, 1⟩ ∧ l.toNat ≤ u.toNat ∧
      ∀ b : UInt8, l.toNat ≤ b.toNat ∧ b.toNat ≤ u.toNat ↔
        Tail b ∧ (a.toNat = 0xF0 → 0x90 ≤ b.toNat) ∧ (a.toNat = 0xF4 → b.toNat ≤ 0x8F) := by
  simp only [lead?, UInt8.lt_iff_toNat_lt, ← UInt8.toNat_inj, UInt8.reduceToNat]
  rw [if_neg (by omega), if_neg (by omega), if_neg (by omega), if_pos (by omega)]
  refine ⟨_, _, rfl, ?_, fun b => ?_⟩
  · split <;> split <;> simp only [UInt8.reduceToNat] <;> omega
  · rw [Tail]
    split <;> split <;> simp only [UInt8.reduceToNat] <;> omega

theorem lead?_eq_none_iff {a : UInt8} : lead? a = none ↔ a.toNat < 0xC2 ∨ 0xF4 < a.toNat := by
  constructor
  · intro h
    by_cases h2 : a.toNat < 0xC2 ∨ 0xF4 < a.toNat
    · exact h2
    by_cases h3 : a.toNat ≤ 0xDF
    · rw [lead?_two (by omega)] at h
      cases h
    by_cases h4 : a.toNat ≤ 0xEF
    · obtain ⟨l, u, he, _⟩ := lead?_three (a := a) (by omega)
      rw [he] at h
      cases h
    · obtain ⟨l, u, he, _⟩ := lead?_four (a := a) (by omega)
      rw [he] at h
      cases h
  · intro h
    simp only [lead?, UInt8.lt_iff_toNat_lt, UInt8.reduceToNat]
    by_cases hlow : a.toNat < 0xC2
    · rw [if_pos hlow]
    · rw [if_neg hlow, if_neg (by omega), if_neg (by omega), if_neg (by omega)]

/-- A first byte begins the characters that have it as their first byte. -/
theorem stands_lead {a : UInt8} {p : Pending} (h : lead? a = some p) : Stands [a] p := by
  have ha : ¬ (a.toNat < 0xC2 ∨ 0xF4 < a.toNat) := fun h' => by
    rw [lead?_eq_none_iff.2 h'] at h
    cases h
  by_cases h2 : a.toNat ≤ 0xDF
  · rw [lead?_two (by omega)] at h
    cases h
    refine ⟨List.cons_ne_nil _ _, rfl, Nat.zero_lt_succ _, show 0x80 ≤ 0xBF by decide,
      fun tail n => ⟨fun hf => ?_, ?_⟩⟩
    · cases hf with
      | one => omega
      | two _ hb hn => exact ⟨_, [], rfl, hb, by simp, rfl, hn⟩
      | three => omega
      | four => omega
    · rintro ⟨b, rest, rfl, hb, _, hl, rfl⟩
      cases rest with
      | nil => exact .two (by omega) hb rfl
      | cons => cases hl
  by_cases h3 : a.toNat ≤ 0xEF
  · obtain ⟨l, u, he, hlu, hbounds⟩ := lead?_three (a := a) (by omega)
    cases h.symm.trans he
    refine ⟨List.cons_ne_nil _ _, rfl, Nat.zero_lt_succ _, hlu, fun tail n => ⟨fun hf => ?_, ?_⟩⟩
    · cases hf with
      | one => omega
      | two => omega
      | three _ hb hc low high hn =>
        exact ⟨_, [_], rfl, (hbounds _).2 ⟨hb, low, high⟩, by simpa using hc, rfl, hn⟩
      | four => omega
    · rintro ⟨b, rest, rfl, hb, ht, hl, rfl⟩
      obtain ⟨hb, low, high⟩ := (hbounds b).1 hb
      obtain ⟨c, rfl⟩ := List.length_eq_one_iff.1 (Nat.succ.inj hl)
      exact .three (by omega) hb (ht c (by simp)) low high rfl
  · obtain ⟨l, u, he, hlu, hbounds⟩ := lead?_four (a := a) (by omega)
    cases h.symm.trans he
    refine ⟨List.cons_ne_nil _ _, rfl, Nat.zero_lt_succ _, hlu, fun tail n => ⟨fun hf => ?_, ?_⟩⟩
    · cases hf with
      | one => omega
      | two => omega
      | three => omega
      | four _ hb hc hd low high hn =>
        exact ⟨_, [_, _], rfl, (hbounds _).2 ⟨hb, low, high⟩, by simpa using ⟨hc, hd⟩, rfl, hn⟩
    · rintro ⟨b, rest, rfl, hb, ht, hl, rfl⟩
      obtain ⟨hb, low, high⟩ := (hbounds b).1 hb
      obtain ⟨c, rest, rfl⟩ := List.exists_cons_of_length_eq_add_one (Nat.succ.inj hl)
      obtain ⟨d, rfl⟩ := List.length_eq_one_iff.1 (Nat.succ.inj (Nat.succ.inj hl))
      exact .four (by omega) hb (ht c (by simp)) (ht d (by simp)) low high rfl

theorem decodeFrom_single {start : Nat} {a : UInt8} {rest : List UInt8} (ha : a.toNat < 0x80) :
    decodeFrom start none (a :: rest) =
      (decodeFrom (start + 1) none rest).map (Char.ofNat a.toNat :: ·) := by
  simp only [decodeFrom, UInt8.lt_iff_toNat_lt, UInt8.reduceToNat]
  rw [if_pos ha]
  rfl

theorem decodeFrom_lead {start : Nat} {a : UInt8} {rest : List UInt8} {p : Pending}
    (h : lead? a = some p) :
    decodeFrom start none (a :: rest) = decodeFrom start (some p) rest := by
  have ha : ¬ a.toNat < 0x80 := fun ha => by
    rw [lead?_eq_none_iff.2 (by omega)] at h
    cases h
  simp only [decodeFrom, UInt8.lt_iff_toNat_lt, UInt8.reduceToNat, h]
  rw [if_neg ha]

/-- The character that is pending after another byte of it. -/
def Pending.next (p : Pending) (b : UInt8) : Pending :=
  ⟨p.missing - 1, 0x80, 0xBF, p.code * 64 + (b.toNat - 0x80), p.seen + 1⟩

@[simp] theorem Pending.seen_next (p : Pending) (b : UInt8) : (p.next b).seen = p.seen + 1 := rfl

theorem decodeFrom_inner {start : Nat} {p : Pending} {b : UInt8} {rest : List UInt8}
    (hb : p.low.toNat ≤ b.toNat ∧ b.toNat ≤ p.high.toNat) (hm : 1 < p.missing) :
    decodeFrom start (some p) (b :: rest) = decodeFrom start (some (p.next b)) rest := by
  simp only [decodeFrom, UInt8.lt_iff_toNat_lt]
  rw [if_neg (by omega), if_neg (by omega)]
  rfl

theorem decodeFrom_last {start : Nat} {p : Pending} {b : UInt8} {rest : List UInt8}
    (hb : p.low.toNat ≤ b.toNat ∧ b.toNat ≤ p.high.toNat) (hm : p.missing ≤ 1) :
    decodeFrom start (some p) (b :: rest) =
      (decodeFrom (start + p.seen + 1) none rest).map
        (Char.ofNat (p.code * 64 + (b.toNat - 0x80)) :: ·) := by
  simp only [decodeFrom, UInt8.lt_iff_toNat_lt]
  rw [if_neg (by omega), if_pos hm]
  rfl

theorem decodeFrom_refused {start : Nat} {p : Pending} {b : UInt8} {rest : List UInt8}
    (hb : ¬ (p.low.toNat ≤ b.toNat ∧ b.toNat ≤ p.high.toNat)) :
    decodeFrom start (some p) (b :: rest) = .error (.invalid p.seen start) := by
  simp only [decodeFrom, UInt8.lt_iff_toNat_lt]
  rw [if_pos (by omega)]

theorem completes_cons_iff {p : Pending} {b : UInt8} {tail : List UInt8} {n : Nat}
    (hm : 1 < p.missing) :
    Completes p (b :: tail) n ↔
      (p.low.toNat ≤ b.toNat ∧ b.toNat ≤ p.high.toNat) ∧ Completes (p.next b) tail n := by
  constructor
  · rintro ⟨_, _, e, hb, ht, hl, hn⟩
    obtain ⟨rfl, rfl⟩ := List.cons.inj e
    rw [spelled_cons] at hn
    cases tail with
    | nil =>
      rw [List.length_nil] at hl
      omega
    | cons c tail =>
      rw [List.length_cons] at hl
      exact ⟨hb, c, tail, rfl, ht c List.mem_cons_self,
        fun d hd => ht d (List.mem_cons_of_mem _ hd),
        show tail.length + 1 = p.missing - 1 by omega, hn⟩
  · rintro ⟨hb, c, rest, rfl, hc, ht, hl, hn⟩
    have hl : rest.length + 1 = p.missing - 1 := hl
    refine ⟨b, c :: rest, rfl, hb, fun d hd => ?_, ?_, ?_⟩
    · rcases List.mem_cons.1 hd with rfl | hd
      · exact hc
      · exact ht d hd
    · rw [List.length_cons]
      omega
    · rw [spelled_cons]
      exact hn

theorem Stands.next {part : List UInt8} {p : Pending} (h : Stands part p) {b : UInt8}
    (hb : p.low.toNat ≤ b.toNat ∧ b.toNat ≤ p.high.toNat) (hm : 1 < p.missing) :
    Stands (part ++ [b]) (p.next b) := by
  refine ⟨by simp, ?_, Nat.sub_pos_of_lt hm, show 0x80 ≤ 0xBF by decide, fun tail n => ?_⟩
  · rw [List.length_append, ← h.seen]
    rfl
  · rw [List.append_assoc, List.singleton_append, h.completes, completes_cons_iff hm]
    exact ⟨fun h => h.2, fun h => ⟨hb, h⟩⟩

/-- The character that is pending is read when it is complete. -/
theorem decodeFrom_completes {p : Pending} {tail : List UInt8} {n : Nat} (h : Completes p tail n)
    (start : Nat) (rest : List UInt8) :
    decodeFrom start (some p) (tail ++ rest) =
      (decodeFrom (start + p.seen + tail.length) none rest).map (Char.ofNat n :: ·) := by
  induction tail generalizing p with
  | nil =>
    obtain ⟨_, _, e, _⟩ := h
    cases e
  | cons b tail ih =>
    by_cases hm : 1 < p.missing
    · obtain ⟨hb, h⟩ := (completes_cons_iff hm).1 h
      rw [List.cons_append, decodeFrom_inner hb hm, ih h, List.length_cons,
        Pending.seen_next, show start + (p.seen + 1) + tail.length =
          start + p.seen + (tail.length + 1) by omega]
    · obtain ⟨_, _, e, hb, _, hl, hn⟩ := h
      obtain ⟨rfl, rfl⟩ := List.cons.inj e
      obtain rfl := List.eq_nil_of_length_eq_zero (show tail.length = 0 by omega)
      rw [hn, List.singleton_append, decodeFrom_last hb (by omega)]
      rfl

theorem CharForm.nonempty {front : List UInt8} {n : Nat} (h : CharForm front n) : front ≠ [] := by
  cases h <;> exact List.cons_ne_nil _ _

/-- The first byte of a character is the character or begins it. -/
theorem CharForm.lead {a : UInt8} {tail : List UInt8} {n : Nat} (h : CharForm (a :: tail) n) :
    (a.toNat < 0x80 ∧ tail = [] ∧ n = a.toNat) ∨
      ∃ p, lead? a = some p ∧ Completes p tail n := by
  by_cases ha : a.toNat < 0x80
  · cases h with
    | one _ hn => exact .inl ⟨ha, rfl, hn⟩
    | _ => omega
  · cases hp : lead? a with
    | none =>
      have := lead?_eq_none_iff.1 hp
      cases h <;> omega
    | some p => exact .inr ⟨p, rfl, ((stands_lead hp).completes tail n).1 h⟩

/-- A character at the front is read. -/
theorem decodeFrom_charForm {front : List UInt8} {n : Nat} (h : CharForm front n) (start : Nat)
    (rest : List UInt8) :
    decodeFrom start none (front ++ rest) =
      (decodeFrom (start + front.length) none rest).map (Char.ofNat n :: ·) := by
  cases front with
  | nil => exact absurd rfl h.nonempty
  | cons a tail =>
    rcases h.lead with ⟨ha, rfl, rfl⟩ | ⟨p, hp, hc⟩
    · exact decodeFrom_single ha
    · rw [List.cons_append, decodeFrom_lead hp, decodeFrom_completes hc, (stands_lead hp).seen,
        List.length_singleton, List.length_cons, show start + 1 + tail.length =
          start + (tail.length + 1) by omega]

end ExpiringCache.Utf8
