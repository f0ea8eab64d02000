import ExpiringCache.Proofs.Text.CharForm

/-!
# Texts in UTF-8

Bytes are read as a text exactly if they are its UTF-8 form (`decode_eq_ok_iff`), and they are
refused with the fault that names the first thing wrong with them (`decode_eq_error_iff`): after
the longest form of a text that they begin with, they end within a character or go on with a byte
that can neither begin nor continue one (`IllFormed`).
-/

namespace ExpiringCache.Utf8

open String (utf8EncodeChar)

/-! ## Ill-formed bytes -/

/-- A character begins with the bytes, or consists of them. -/
def Begins (part : List UInt8) : Prop := ∃ more n, CharForm (part ++ more) n

/-- The bytes are those of a character. -/
def Whole (part : List UInt8) : Prop := ∃ n, CharForm part n

/-- What is wrong at the front of bytes that come after `start` others: they end within a
character, or after a beginning of one comes a byte that cannot continue it. -/
inductive Broken (start : Nat) : List UInt8 → Fault → Prop where
  | incomplete {part : List UInt8} (hne : part ≠ []) (h : Begins part) (hw : ¬ Whole part) :
      Broken start part (.incomplete start)
  | invalid {part rest : List UInt8} {b : UInt8} (h : Begins part) (hw : ¬ Whole part)
      (hb : ¬ Begins (part ++ [b])) :
      Broken start (part ++ b :: rest) (.invalid (max 1 part.length) start)

theorem Begins.front {part more : List UInt8} (h : Begins (part ++ more)) : Begins part := by
  obtain ⟨tail, n, h⟩ := h
  rw [List.append_assoc] at h
  exact ⟨more ++ tail, n, h⟩

theorem Stands.begins {part : List UInt8} {p : Pending} (h : Stands part p) : Begins part := by
  refine ⟨p.low :: List.replicate (p.missing - 1) 0x80, _, (h.completes _ _).2
    ⟨p.low, _, rfl, ⟨Nat.le_refl _, h.bounds⟩, fun c hc => ?_, ?_, rfl⟩⟩
  · rw [List.eq_of_mem_replicate hc]
    exact ⟨show 0x80 ≤ 0x80 by decide, show 0x80 ≤ 0xBF by decide⟩
  · have := h.missing
    rw [List.length_replicate]
    omega

theorem Stands.not_whole {part : List UInt8} {p : Pending} (h : Stands part p) : ¬ Whole part := by
  rintro ⟨n, hf⟩
  rw [← List.append_nil part] at hf
  obtain ⟨_, _, e, _⟩ := (h.completes [] n).1 hf
  cases e

theorem Stands.not_begins {part : List UInt8} {p : Pending} (h : Stands part p) {b : UInt8}
    (hb : ¬ (p.low.toNat ≤ b.toNat ∧ b.toNat ≤ p.high.toNat)) : ¬ Begins (part ++ [b]) := by
  rintro ⟨more, n, hf⟩
  rw [List.append_assoc, List.singleton_append] at hf
  obtain ⟨_, _, e, hb', _⟩ := (h.completes _ n).1 hf
  obtain ⟨rfl, _⟩ := List.cons.inj e
  exact hb hb'

/-- Within a character: its end is at the front, or something is wrong there. -/
theorem Stands.reads {part : List UInt8} {p : Pending} (h : Stands part p) (start : Nat)
    (bytes : List UInt8) :
    (∃ tail n rest, bytes = tail ++ rest ∧ CharForm (part ++ tail) n) ∨
      ∃ fault, decodeFrom start (some p) bytes = .error fault ∧
        Broken start (part ++ bytes) fault := by
  induction bytes generalizing part p with
  | nil =>
    rw [List.append_nil]
    exact .inr ⟨_, rfl, .incomplete h.nonempty h.begins h.not_whole⟩
  | cons b bytes ih =>
    by_cases hb : p.low.toNat ≤ b.toNat ∧ b.toNat ≤ p.high.toNat
    · by_cases hm : 1 < p.missing
      · rw [decodeFrom_inner hb hm]
        rcases ih (h.next hb hm) with ⟨tail, n, rest, rfl, hf⟩ | hbroken
        · exact .inl ⟨b :: tail, n, rest, rfl, by rwa [List.append_assoc] at hf⟩
        · rw [List.append_assoc] at hbroken
          exact .inr hbroken
      · have := h.missing
        exact .inl ⟨[b], _, bytes, rfl, (h.completes _ _).2
          ⟨b, [], rfl, hb, by simp, show 0 + 1 = p.missing by omega, rfl⟩⟩
    · have hlen : max 1 part.length = p.seen := by
        rw [h.seen]
        exact Nat.max_eq_right (List.length_pos_iff.2 h.nonempty)
      refine .inr ⟨_, decodeFrom_refused hb, ?_⟩
      rw [← hlen]
      exact .invalid h.begins h.not_whole (h.not_begins hb)

/-- A character is at the front of bytes, or something is wrong there. -/
theorem reads_front (start : Nat) (a : UInt8) (bytes : List UInt8) :
    (∃ front n rest, a :: bytes = front ++ rest ∧ CharForm front n) ∨
      ∃ fault, decodeFrom start none (a :: bytes) = .error fault ∧
        Broken start (a :: bytes) fault := by
  by_cases ha : a.toNat < 0x80
  · exact .inl ⟨[a], _, bytes, rfl, .one ha rfl⟩
  cases hp : lead? a with
  | some p =>
    rw [decodeFrom_lead hp]
    rcases (stands_lead hp).reads start bytes with ⟨tail, n, rest, rfl, hf⟩ | hbroken
    · exact .inl ⟨a :: tail, n, rest, rfl, hf⟩
    · exact .inr hbroken
  | none =>
    have hno : ¬ Begins ([] ++ [a]) := by
      rintro ⟨more, n, hf⟩
      rcases CharForm.lead hf with ⟨ha', _⟩ | ⟨p, hp', _⟩
      · exact ha ha'
      · rw [hp] at hp'
        cases hp'
    have hbegins : Begins [] := ⟨[0], _, .one (by decide) rfl⟩
    refine .inr ⟨.invalid 1 start, ?_, .invalid hbegins (fun ⟨_, h⟩ => h.nonempty rfl) hno⟩
    simp only [decodeFrom, UInt8.lt_iff_toNat_lt, UInt8.reduceToNat, hp]
    rw [if_neg ha]

/-- No character continues another. -/
theorem CharForm.more_eq_nil {front more : List UInt8} {n m : Nat} (h : CharForm front n)
    (h' : CharForm (front ++ more) m) : more = [] := by
  cases front with
  | nil => exact absurd rfl h.nonempty
  | cons a tail =>
    rcases h.lead with ⟨ha, rfl, _⟩ | ⟨p, hp, hc⟩
    · rcases h'.lead with ⟨_, e, _⟩ | ⟨p, hp, _⟩
      · exact e
      · rw [lead?_eq_none_iff.2 (by omega)] at hp
        cases hp
    · obtain ⟨_, _, rfl, _, _, hl, _⟩ := hc
      obtain ⟨_, _, e, _, _, hl', _⟩ := ((stands_lead hp).completes _ m).1 h'
      obtain ⟨_, rfl⟩ := List.cons.inj e
      simp only [List.append_eq, List.length_append] at hl'
      exact List.eq_nil_of_length_eq_zero (by omega)

theorem Begins.front_cons {part more : List UInt8} {b : UInt8} (h : Begins (part ++ b :: more)) :
    Begins (part ++ [b]) := Begins.front (by rwa [List.append_assoc])

theorem Broken.not_charForm {start : Nat} {front rest : List UInt8} {fault : Fault} {n : Nat}
    (h : Broken start (front ++ rest) fault) : ¬ CharForm front n := by
  intro hf
  generalize e : front ++ rest = bytes at h
  cases h with
  | incomplete hne h hw =>
    obtain ⟨more, m, h⟩ := h
    rw [← e, List.append_assoc] at h
    obtain ⟨rfl, _⟩ := List.append_eq_nil_iff.1 (hf.more_eq_nil h)
    rw [List.append_nil] at e
    exact hw ⟨n, e ▸ hf⟩
  | @invalid part rest' b h hw hb =>
    rcases List.append_eq_append_iff.1 e with ⟨x, rfl, _⟩ | ⟨x, rfl, hx⟩
    · obtain ⟨more, m, h⟩ := h
      rw [List.append_assoc] at h
      obtain ⟨rfl, _⟩ := List.append_eq_nil_iff.1 (hf.more_eq_nil h)
      exact hw ⟨n, by rwa [List.append_nil]⟩
    · cases x with
      | nil => exact hw ⟨n, by rwa [List.append_nil] at hf⟩
      | cons c x =>
        obtain ⟨rfl, _⟩ := List.cons.inj hx
        exact hb ⟨x, n, by rwa [List.append_assoc]⟩

/-- Where bytes go wrong there is one beginning of a character that is not continued. -/
theorem part_eq_of_not_begins {part part' rest rest' : List UInt8} {b b' : UInt8}
    (h : Begins part) (h' : Begins part') (hb : ¬ Begins (part ++ [b]))
    (hb' : ¬ Begins (part' ++ [b'])) (e : part ++ b :: rest = part' ++ b' :: rest') :
    part = part' := by
  rcases List.append_eq_append_iff.1 e with ⟨x, rfl, hx⟩ | ⟨x, rfl, hx⟩
  · cases x with
    | nil => exact (List.append_nil part).symm
    | cons c x =>
      obtain ⟨rfl, _⟩ := List.cons.inj hx
      exact absurd h'.front_cons hb
  · cases x with
    | nil => exact List.append_nil part'
    | cons c x =>
      obtain ⟨rfl, _⟩ := List.cons.inj hx
      exact absurd h.front_cons hb'

theorem Broken.unique {start : Nat} {bytes : List UInt8} {fault fault' : Fault}
    (h : Broken start bytes fault) (h' : Broken start bytes fault') : fault = fault' := by
  cases h with
  | incomplete hne h hw =>
    generalize e : bytes = bytes' at h'
    cases h' with
    | incomplete => rfl
    | @invalid part rest b _ _ hb =>
      rw [e] at h
      exact absurd h.front_cons hb
  | @invalid part rest b h hw hb =>
    generalize e : part ++ b :: rest = bytes' at h'
    cases h' with
    | incomplete _ h' =>
      rw [← e] at h'
      exact absurd h'.front_cons hb
    | invalid h' _ hb' => rw [part_eq_of_not_begins h h' hb hb' e]

/-! ## Texts -/

/-- What is wrong with bytes: after the form of a text something is wrong at the front. -/
def IllFormed (bytes : List UInt8) (fault : Fault) : Prop :=
  ∃ text rest, bytes = encode text ++ rest ∧ Broken (encode text).length rest fault

theorem decodeFrom_encode (start : Nat) (chars : List Char) (rest : List UInt8) :
    decodeFrom start none (chars.flatMap utf8EncodeChar ++ rest) =
      (decodeFrom (start + (chars.flatMap utf8EncodeChar).length) none rest).map
        (chars ++ ·) := by
  induction chars generalizing start with
  | nil =>
    show decodeFrom start none rest = (decodeFrom start none rest).map id
    cases decodeFrom start none rest <;> rfl
  | cons c chars ih =>
    rw [List.flatMap_cons, List.append_assoc, decodeFrom_charForm (charForm_encode c), ih,
      List.length_append, Nat.add_assoc, show Char.ofNat c.val.toNat = c from Char.ofNat_toNat c]
    cases decodeFrom _ none rest <;> rfl

/-- Bytes are the form of a text, or something is wrong with them. -/
theorem reads_text (start : Nat) (bytes : List UInt8) :
    (∃ chars : List Char, bytes = chars.flatMap utf8EncodeChar) ∨
      ∃ (chars : List Char) (rest : List UInt8) (fault : Fault),
        bytes = chars.flatMap utf8EncodeChar ++ rest ∧
        Broken (start + (chars.flatMap utf8EncodeChar).length) rest fault := by
  induction hl : bytes.length using Nat.strongRecOn generalizing start bytes with
  | ind l ih =>
    cases bytes with
    | nil => exact .inl ⟨[], rfl⟩
    | cons a bytes =>
      rcases reads_front start a bytes with ⟨front, n, rest, e, hf⟩ | ⟨fault, _, hbroken⟩
      · have hlt : rest.length < l := by
          have := List.length_pos_iff.2 hf.nonempty
          rw [← hl, e, List.length_append]
          omega
        have hc : front = utf8EncodeChar (Char.ofNat n) := hf.encode.symm
        rcases ih _ hlt (start + front.length) rest rfl with
          ⟨chars, hr⟩ | ⟨chars, rest', fault, hr, hb⟩
        · exact .inl ⟨Char.ofNat n :: chars, by rw [e, hr, List.flatMap_cons, ← hc]⟩
        · refine .inr ⟨Char.ofNat n :: chars, rest', fault, ?_, ?_⟩
          · rw [e, hr, List.flatMap_cons, ← hc, List.append_assoc]
          · rw [List.flatMap_cons, ← hc, List.length_append, ← Nat.add_assoc]
            exact hb
      · exact .inr ⟨[], _, fault, rfl, hbroken⟩

theorem decodeFrom_broken {start : Nat} {bytes : List UInt8} {fault : Fault}
    (h : Broken start bytes fault) : decodeFrom start none bytes = .error fault := by
  cases bytes with
  | nil =>
    generalize e : ([] : List UInt8) = bytes at h
    cases h with
    | incomplete hne => exact absurd e.symm hne
    | invalid => exact absurd e.symm (List.append_ne_nil_of_right_ne_nil _ (List.cons_ne_nil _ _))
  | cons a bytes =>
    rcases reads_front start a bytes with ⟨front, n, rest, e, hf⟩ | ⟨fault', hd, hbroken⟩
    · rw [e] at h
      exact absurd hf h.not_charForm
    · rw [hd, hbroken.unique h]

theorem decode_encode (text : String) : decode (encode text) = .ok text := by
  have h := decodeFrom_encode 0 text.toList []
  rw [List.append_nil] at h
  rw [decode, encode, h]
  show Except.ok (String.ofList (text.toList ++ [])) = _
  rw [List.append_nil, String.ofList_toList]

theorem decode_of_illFormed {bytes : List UInt8} {fault : Fault} (h : IllFormed bytes fault) :
    decode bytes = .error fault := by
  obtain ⟨text, rest, rfl, h⟩ := h
  have hb := decodeFrom_broken h
  rw [encode] at hb
  rw [decode, encode, decodeFrom_encode, Nat.zero_add, hb]
  rfl

theorem encode_or_illFormed (bytes : List UInt8) :
    (∃ text, bytes = encode text) ∨ ∃ fault, IllFormed bytes fault := by
  rcases reads_text 0 bytes with ⟨chars, h⟩ | ⟨chars, rest, fault, h, hb⟩
  · exact .inl ⟨String.ofList chars, by rw [encode, String.toList_ofList, h]⟩
  · refine .inr ⟨fault, String.ofList chars, rest, ?_, ?_⟩
    · rw [encode, String.toList_ofList, h]
    · rw [encode, String.toList_ofList]
      rwa [Nat.zero_add] at hb

/-- Bytes are read as a text exactly if they are its UTF-8 form. -/
theorem decode_eq_ok_iff {bytes : List UInt8} {text : String} :
    decode bytes = .ok text ↔ bytes = encode text := by
  constructor
  · intro h
    rcases encode_or_illFormed bytes with ⟨text', rfl⟩ | ⟨fault, hf⟩
    · rw [decode_encode] at h
      rw [Except.ok.inj h]
    · rw [decode_of_illFormed hf] at h
      cases h
  · rintro rfl
    exact decode_encode text

/-- Bytes are refused with the fault that is the first thing wrong with them. -/
theorem decode_eq_error_iff {bytes : List UInt8} {fault : Fault} :
    decode bytes = .error fault ↔ IllFormed bytes fault := by
  refine ⟨fun h => ?_, decode_of_illFormed⟩
  rcases encode_or_illFormed bytes with ⟨text, rfl⟩ | ⟨fault', hf⟩
  · rw [decode_encode] at h
    cases h
  · rw [decode_of_illFormed hf] at h
    rwa [← Except.error.inj h]

end ExpiringCache.Utf8
