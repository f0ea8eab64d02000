import ExpiringCache.Proofs.Except
import ExpiringCache.Proofs.Snapshot.Grammar

/-!
# Reading by the grammar

A reader goes by the grammar where it takes just what has the form from the front of the bytes
and, where nothing there has the form, gives the fault that the grammar gives (`Follows`). This
holds of texts (`readText_follows`) and scalars (`readScalar_follows`), and of things that are
read one after the other if it holds of each (`counted_eq_ok_iff`, `counted_eq_error_iff`).
-/

namespace ExpiringCache

/-! ## Numbers -/

theorem LittleEndian.ofBytes_toBytes {width n : Nat} (h : n < 256 ^ width) :
    ofBytes (toBytes width n) = n := by
  induction width generalizing n with
  | zero => simp only [Nat.pow_zero, Nat.lt_one_iff] at h; simp [toBytes, ofBytes, h]
  | succ width ih =>
    have : n / 256 < 256 ^ width := by
      rw [Nat.pow_succ] at h
      omega
    simp only [toBytes, ofBytes, ih this, UInt8.toNat_ofNat']
    omega

theorem LittleEndian.toBytes_ofBytes (bytes : List UInt8) :
    toBytes bytes.length (ofBytes bytes) = bytes := by
  induction bytes with
  | nil => rfl
  | cons b bytes ih =>
    have hb : b.toNat < 256 := b.toNat_lt
    have hq : (b.toNat + 256 * ofBytes bytes) / 256 = ofBytes bytes := by omega
    rw [List.length_cons, toBytes, ofBytes, hq, ih]
    congr 1
    rw [← UInt8.toNat_inj, UInt8.toNat_ofNat']
    omega

theorem LittleEndian.ofBytes_lt (bytes : List UInt8) : ofBytes bytes < 256 ^ bytes.length := by
  induction bytes with
  | nil => exact Nat.zero_lt_one
  | cons b bytes ih =>
    have hb : b.toNat < 256 := b.toNat_lt
    rw [List.length_cons, ofBytes, Nat.pow_succ]
    omega

namespace Snapshot

variable {α : Type}

/-- At the given bytes a reader takes just what has the form from the front, and it stops with
just the faults that the grammar gives. -/
structure Follows (read : Reader α) (form : List UInt8 → α → Prop)
    (stops : List UInt8 → ReadFault → Prop) (bytes : List UInt8) : Prop where
  ok_iff : ∀ a rest, read bytes = .ok (a, rest) ↔ ∃ front, bytes = front ++ rest ∧ form front a
  error_iff : ∀ fault, read bytes = .error fault ↔ stops bytes fault

/-- A reader goes by the grammar if what it takes is in form, it takes what is in form, and the
same holds of the faults that it stops with. -/
theorem Follows.of {read : Reader α} {form : List UInt8 → α → Prop}
    {stops : List UInt8 → ReadFault → Prop} {bytes : List UInt8}
    (sound : ∀ {a rest}, read bytes = .ok (a, rest) → ∃ front, bytes = front ++ rest ∧ form front a)
    (of_form : ∀ {front a}, form front a → ∀ rest, read (front ++ rest) = .ok (a, rest))
    (stopped : ∀ {fault}, read bytes = .error fault → stops bytes fault)
    (of_stops : ∀ {fault}, stops bytes fault → read bytes = .error fault) :
    Follows read form stops bytes := by
  refine ⟨fun a rest => ⟨sound, ?_⟩, fun fault => ⟨stopped, of_stops⟩⟩
  rintro ⟨front, rfl, h⟩
  exact of_form h rest

theorem splitExactly_eq_none_iff {n : Nat} {list : List α} :
    splitExactly n list = none ↔ list.length < n := by
  constructor
  · intro h
    refine Nat.lt_of_not_le fun hn => ?_
    have := splitExactly_eq_some_iff.2 ⟨(List.take_append_drop n list).symm,
      List.length_take_of_le hn⟩
    rw [h] at this
    cases this
  · intro h
    cases hs : splitExactly n list with
    | none => rfl
    | some p =>
      obtain ⟨e, hl⟩ := splitExactly_eq_some_iff.1 hs
      rw [e, List.length_append] at h
      omega

theorem readBytes_eq_ok_iff {n : Nat} {bytes front rest : List UInt8} :
    readBytes n bytes = .ok (front, rest) ↔ bytes = front ++ rest ∧ front.length = n := by
  rw [← splitExactly_eq_some_iff, readBytes]
  cases splitExactly n bytes <;> simp

theorem readBytes_eq_error_iff {n : Nat} {bytes : List UInt8} {fault : ReadFault} :
    readBytes n bytes = .error fault ↔ bytes.length < n ∧ fault = .outOfBytes := by
  rw [← splitExactly_eq_none_iff, readBytes]
  cases splitExactly n bytes <;> simp [eq_comm]

theorem readNat_eq_ok_iff {width n : Nat} {bytes rest : List UInt8} :
    readNat width bytes = .ok (n, rest) ↔
      ∃ front, bytes = front ++ rest ∧ front.length = width ∧ LittleEndian.ofBytes front = n := by
  rw [readNat, bind_eq_ok_iff]
  constructor
  · rintro ⟨⟨front, rest'⟩, hr, h⟩
    cases h
    obtain ⟨h, hl⟩ := readBytes_eq_ok_iff.1 hr
    exact ⟨front, h, hl, rfl⟩
  · rintro ⟨front, h, hl, rfl⟩
    exact ⟨(front, rest), readBytes_eq_ok_iff.2 ⟨h, hl⟩, rfl⟩

theorem readNat_eq_error_iff {width : Nat} {bytes : List UInt8} {fault : ReadFault} :
    readNat width bytes = .error fault ↔ bytes.length < width ∧ fault = .outOfBytes := by
  rw [readNat, bind_eq_error_iff, readBytes_eq_error_iff]
  refine ⟨fun h => h.resolve_right ?_, .inl⟩
  rintro ⟨_, _, h⟩
  cases h

/-- A number that fits its width is read back. -/
theorem readNat_toBytes {width n : Nat} (h : n < 256 ^ width) (rest : List UInt8) :
    readNat width (LittleEndian.toBytes width n ++ rest) = .ok (n, rest) :=
  readNat_eq_ok_iff.2
    ⟨_, rfl, LittleEndian.length_toBytes width n, LittleEndian.ofBytes_toBytes h⟩

theorem exists_of_readNat {width n : Nat} {bytes rest : List UInt8}
    (h : readNat width bytes = .ok (n, rest)) :
    n < 256 ^ width ∧ bytes = LittleEndian.toBytes width n ++ rest := by
  obtain ⟨front, rfl, rfl, rfl⟩ := readNat_eq_ok_iff.1 h
  exact ⟨LittleEndian.ofBytes_lt front, by rw [LittleEndian.toBytes_ofBytes]⟩

theorem readCount_writeCount {n : Nat} (h : n < 2 ^ 64) (rest : List UInt8) :
    readNat 8 (writeCount n ++ rest) = .ok (n, rest) := readNat_toBytes h rest

theorem exists_of_readCount {n : Nat} {bytes rest : List UInt8}
    (h : readNat 8 bytes = .ok (n, rest)) : n < 2 ^ 64 ∧ bytes = writeCount n ++ rest :=
  exists_of_readNat h

theorem exists_of_readVariant {index : Nat} {bytes rest : List UInt8}
    (h : readNat 4 bytes = .ok (index, rest)) :
    index < 2 ^ 32 ∧ bytes = writeVariant index ++ rest :=
  exists_of_readNat h

theorem readVariant_writeVariant {index : Nat} (h : index < 2 ^ 32) (rest : List UInt8) :
    readNat 4 (writeVariant index ++ rest) = .ok (index, rest) := readNat_toBytes h rest

/-! ## Texts -/

theorem readText_sound {bytes rest : List UInt8} {text : String}
    (h : readText bytes = .ok (text, rest)) :
    ∃ front, bytes = front ++ rest ∧ TextForm front text := by
  simp only [readText, bind_eq_ok_iff, Prod.exists] at h
  obtain ⟨n, r, hn, content, r', hc, h⟩ := h
  obtain ⟨hlt, rfl⟩ := exists_of_readCount hn
  obtain ⟨rfl, rfl⟩ := readBytes_eq_ok_iff.1 hc
  split at h
  · rename_i hd
    cases h
    rw [Utf8.decode_eq_ok_iff] at hd
    rw [hd] at hlt ⊢
    exact ⟨_, (List.append_assoc _ _ _).symm, .intro text hlt⟩
  · cases h

theorem readText_of_form {front : List UInt8} {text : String} (h : TextForm front text)
    (rest : List UInt8) : readText (front ++ rest) = .ok (text, rest) := by
  cases h with
  | intro _ hl =>
    rw [List.append_assoc, readText, readCount_writeCount hl, ok_bind]
    simp only
    rw [readBytes_eq_ok_iff.2 ⟨rfl, rfl⟩, ok_bind]
    simp only
    rw [Utf8.decode_encode]
    rfl

theorem readText_stopped {bytes : List UInt8} {fault : ReadFault}
    (h : readText bytes = .error fault) : TextStops bytes fault := by
  simp only [readText, bind_eq_error_iff, Prod.exists] at h
  rcases h with h | ⟨n, r, hn, h⟩
  · obtain ⟨hl, rfl⟩ := readNat_eq_error_iff.1 h
    exact .noLength hl
  obtain ⟨hlt, rfl⟩ := exists_of_readCount hn
  rcases h with h | ⟨content, r', hc, h⟩
  · obtain ⟨hl, rfl⟩ := readBytes_eq_error_iff.1 h
    exact .short hlt hl
  obtain ⟨rfl, rfl⟩ := readBytes_eq_ok_iff.1 hc
  split at h
  · cases h
  · rename_i hd
    cases h
    rw [← List.append_assoc]
    exact .illFormed hlt (Utf8.decode_eq_error_iff.1 hd)

theorem readText_of_stops {bytes : List UInt8} {fault : ReadFault} (h : TextStops bytes fault) :
    readText bytes = .error fault := by
  rw [readText]
  cases h with
  | noLength hl => rw [readNat_eq_error_iff.2 ⟨hl, rfl⟩, error_bind]
  | short hn hl =>
    rw [readCount_writeCount hn, ok_bind]
    simp only
    rw [readBytes_eq_error_iff.2 ⟨hl, rfl⟩, error_bind]
  | illFormed hn hi =>
    rw [List.append_assoc, readCount_writeCount hn, ok_bind]
    simp only
    rw [readBytes_eq_ok_iff.2 ⟨rfl, rfl⟩, ok_bind]
    simp only
    rw [Utf8.decode_of_illFormed hi]
    rfl

theorem readText_follows (bytes : List UInt8) : Follows readText TextForm TextStops bytes :=
  .of readText_sound readText_of_form readText_stopped readText_of_stops

/-! ## Scalars -/

theorem readScalar_int (type : IntType) (bytes : List UInt8) :
    readScalar (intVariant type) bytes = readInt type bytes := by
  cases type <;> rfl

theorem readBool_cons (b : UInt8) (rest : List UInt8) :
    readBool (b :: rest) =
      if b = 0 then .ok (.bool false, rest) else if b = 1 then .ok (.bool true, rest)
      else .error (.malformed (.bool b)) := rfl

theorem readScalar_unknown {index : Nat} (h : 16 < index) (bytes : List UInt8) :
    readScalar index bytes = .error (.malformed (.variant index)) := by
  obtain ⟨k, rfl⟩ := Nat.le.dest h
  rw [Nat.add_comm]
  rfl

theorem ScalarForm.index_lt {index : Nat} {content : List UInt8} {scalar : Scalar}
    (h : ScalarForm index content scalar) : index < 14 := by
  cases h with
  | int type => cases type <;> decide
  | _ => decide

theorem readScalar_of_form {index : Nat} {content : List UInt8} {scalar : Scalar}
    (h : ScalarForm index content scalar) (rest : List UInt8) :
    readScalar index (content ++ rest) = .ok (scalar, rest) := by
  cases h with
  | null => rfl
  | bool b => cases b <;> rfl
  | int type hl =>
    rw [readScalar_int, readInt, readNat_eq_ok_iff.2 ⟨_, rfl, hl, rfl⟩]
    rfl
  | float32 hl =>
    rw [readScalar, readNat_eq_ok_iff.2 ⟨_, rfl, hl, rfl⟩]
    rfl
  | float64 hl =>
    rw [readScalar, readNat_eq_ok_iff.2 ⟨_, rfl, hl, rfl⟩]
    rfl
  | text ht =>
    rw [readScalar, ((readText_follows _).ok_iff _ _).2 ⟨_, rfl, ht⟩]
    rfl
  | bytes hn =>
    rw [List.append_assoc, readScalar, readCount_writeCount hn, ok_bind]
    simp only
    rw [readBytes_eq_ok_iff.2 ⟨rfl, rfl⟩]
    rfl

theorem readBool_sound {bytes rest : List UInt8} {scalar : Scalar}
    (h : readBool bytes = .ok (scalar, rest)) :
    ∃ content, bytes = content ++ rest ∧ ScalarForm 1 content scalar := by
  cases bytes with
  | nil => cases h
  | cons b bytes =>
    rw [readBool_cons] at h
    split at h
    · rename_i hb
      cases h
      exact ⟨[0], by rw [hb]; rfl, .bool false⟩
    · split at h
      · rename_i hb
        cases h
        exact ⟨[1], by rw [hb]; rfl, .bool true⟩
      · cases h

theorem readInt_sound {type : IntType} {bytes rest : List UInt8} {scalar : Scalar}
    (h : readInt type bytes = .ok (scalar, rest)) :
    ∃ content, bytes = content ++ rest ∧ ScalarForm (intVariant type) content scalar := by
  simp only [readInt, bind_eq_ok_iff, Prod.exists] at h
  obtain ⟨n, r, hn, h⟩ := h
  cases h
  obtain ⟨content, rfl, hl, rfl⟩ := readNat_eq_ok_iff.1 hn
  exact ⟨content, rfl, .int type hl⟩

theorem readScalar_sound {index : Nat} {bytes rest : List UInt8} {scalar : Scalar}
    (h : readScalar index bytes = .ok (scalar, rest)) :
    ∃ content, bytes = content ++ rest ∧ ScalarForm index content scalar := by
  unfold readScalar at h
  split at h
  · cases h
    exact ⟨[], rfl, .null⟩
  · exact readBool_sound h
  · exact readInt_sound h
  · exact readInt_sound h
  · exact readInt_sound h
  · exact readInt_sound h
  · exact readInt_sound h
  · exact readInt_sound h
  · exact readInt_sound h
  · exact readInt_sound h
  · simp only [bind_eq_ok_iff, Prod.exists] at h
    obtain ⟨n, r, hn, h⟩ := h
    cases h
    obtain ⟨content, rfl, hl, rfl⟩ := readNat_eq_ok_iff.1 hn
    exact ⟨content, rfl, .float32 hl⟩
  · simp only [bind_eq_ok_iff, Prod.exists] at h
    obtain ⟨n, r, hn, h⟩ := h
    cases h
    obtain ⟨content, rfl, hl, rfl⟩ := readNat_eq_ok_iff.1 hn
    exact ⟨content, rfl, .float64 hl⟩
  · simp only [bind_eq_ok_iff, Prod.exists] at h
    obtain ⟨text, r, ht, h⟩ := h
    cases h
    obtain ⟨content, rfl, hf⟩ := ((readText_follows _).ok_iff _ _).1 ht
    exact ⟨content, rfl, .text hf⟩
  · simp only [bind_eq_ok_iff, Prod.exists] at h
    obtain ⟨n, r, hn, content, r', hc, h⟩ := h
    cases h
    obtain ⟨hlt, rfl⟩ := exists_of_readCount hn
    obtain ⟨rfl, rfl⟩ := readBytes_eq_ok_iff.1 hc
    exact ⟨_, (List.append_assoc _ _ _).symm, .bytes hlt⟩
  · cases h
  · cases h

theorem ScalarStops.index_ne {index : Nat} {bytes : List UInt8} {fault : ReadFault}
    (h : ScalarStops index bytes fault) : index ≠ 14 ∧ index ≠ 15 := by
  cases h with
  | int type => cases type <;> decide
  | unknown h => omega
  | _ => decide

theorem readScalar_of_stops {index : Nat} {bytes : List UInt8} {fault : ReadFault}
    (h : ScalarStops index bytes fault) : readScalar index bytes = .error fault := by
  cases h with
  | noBool => rfl
  | bool h0 h1 =>
    rw [readScalar, readBool_cons, if_neg h0, if_neg h1]
  | int type hl => rw [readScalar_int, readInt, readNat_eq_error_iff.2 ⟨hl, rfl⟩, error_bind]
  | float32 hl => rw [readScalar, readNat_eq_error_iff.2 ⟨hl, rfl⟩, error_bind]
  | float64 hl => rw [readScalar, readNat_eq_error_iff.2 ⟨hl, rfl⟩, error_bind]
  | text ht => rw [readScalar, ((readText_follows _).error_iff _).2 ht, error_bind]
  | noLength hl => rw [readScalar, readNat_eq_error_iff.2 ⟨hl, rfl⟩, error_bind]
  | bytes hn hl =>
    rw [readScalar, readCount_writeCount hn, ok_bind]
    simp only
    rw [readBytes_eq_error_iff.2 ⟨hl, rfl⟩, error_bind]
  | handle => rfl
  | unknown hi => exact readScalar_unknown hi bytes

theorem readBool_stopped {bytes : List UInt8} {fault : ReadFault}
    (h : readBool bytes = .error fault) : ScalarStops 1 bytes fault := by
  cases bytes with
  | nil =>
    cases h
    exact .noBool
  | cons b bytes =>
    rw [readBool_cons] at h
    split at h
    · cases h
    · split at h
      · cases h
      · rename_i h0 h1
        cases h
        exact .bool h0 h1

theorem readInt_stopped {type : IntType} {bytes : List UInt8} {fault : ReadFault}
    (h : readInt type bytes = .error fault) : ScalarStops (intVariant type) bytes fault := by
  simp only [readInt, bind_eq_error_iff, Prod.exists] at h
  rcases h with h | ⟨_, _, _, h⟩
  · obtain ⟨hl, rfl⟩ := readNat_eq_error_iff.1 h
    exact .int type hl
  · cases h

theorem readScalar_stopped {index : Nat} {bytes : List UInt8} {fault : ReadFault}
    (hi : index ≠ 14 ∧ index ≠ 15) (h : readScalar index bytes = .error fault) :
    ScalarStops index bytes fault := by
  unfold readScalar at h
  split at h
  · cases h
  · exact readBool_stopped h
  · exact readInt_stopped h
  · exact readInt_stopped h
  · exact readInt_stopped h
  · exact readInt_stopped h
  · exact readInt_stopped h
  · exact readInt_stopped h
  · exact readInt_stopped h
  · exact readInt_stopped h
  · simp only [bind_eq_error_iff, Prod.exists] at h
    rcases h with h | ⟨_, _, _, h⟩
    · obtain ⟨hl, rfl⟩ := readNat_eq_error_iff.1 h
      exact .float32 hl
    · cases h
  · simp only [bind_eq_error_iff, Prod.exists] at h
    rcases h with h | ⟨_, _, _, h⟩
    · obtain ⟨hl, rfl⟩ := readNat_eq_error_iff.1 h
      exact .float64 hl
    · cases h
  · simp only [bind_eq_error_iff, Prod.exists] at h
    rcases h with h | ⟨_, _, _, h⟩
    · exact .text (((readText_follows _).error_iff _).1 h)
    · cases h
  · simp only [bind_eq_error_iff, Prod.exists] at h
    rcases h with h | ⟨n, r, hn, h | ⟨_, _, _, h⟩⟩
    · obtain ⟨hl, rfl⟩ := readNat_eq_error_iff.1 h
      exact .noLength hl
    · obtain ⟨hlt, rfl⟩ := exists_of_readCount hn
      obtain ⟨hl, rfl⟩ := readBytes_eq_error_iff.1 h
      exact .bytes hlt hl
    · cases h
  · cases h
    exact .handle
  · have hlt : 16 < index := by grind
    cases h
    exact .unknown hlt

theorem readScalar_follows {index : Nat} (hi : index ≠ 14 ∧ index ≠ 15) (bytes : List UInt8) :
    Follows (readScalar index) (ScalarForm index) (ScalarStops index) bytes :=
  .of readScalar_sound readScalar_of_form (readScalar_stopped hi) readScalar_of_stops

/-! ## Sequences -/

section
variable {read : Reader α} {form : List UInt8 → α → Prop} {stops : List UInt8 → ReadFault → Prop}
  {bound : Nat}

/-- Things that are read one after the other are parts in form, one after the other. -/
theorem readMany_eq_ok_iff
    (hread : ∀ bytes : List UInt8, bytes.length < bound → Follows read form stops bytes)
    {n : Nat} {bytes rest : List UInt8} {items : List α} (hb : bytes.length < bound) :
    readMany read n bytes = .ok (items, rest) ↔
      ∃ parts : List (List UInt8 × α), parts.length = n ∧ items = parts.map Prod.snd ∧
        bytes = parts.flatMap Prod.fst ++ rest ∧ ∀ part ∈ parts, form part.1 part.2 := by
  induction n generalizing bytes items with
  | zero =>
    rw [readMany]
    constructor
    · intro h
      cases h
      exact ⟨[], rfl, rfl, rfl, by simp⟩
    · rintro ⟨parts, hl, rfl, rfl, _⟩
      rw [List.eq_nil_of_length_eq_zero hl]
      rfl
  | succ n ih =>
    simp only [readMany, bind_eq_ok_iff, Prod.exists]
    constructor
    · rintro ⟨head, r, hhead, tail, r', htail, h⟩
      cases h
      obtain ⟨front, rfl, hf⟩ := ((hread _ hb).ok_iff _ _).1 hhead
      rw [List.length_append] at hb
      obtain ⟨parts, hl, rfl, rfl, hp⟩ := (ih (by omega)).1 htail
      refine ⟨(front, head) :: parts, by rw [List.length_cons, hl], rfl, ?_, fun part h => ?_⟩
      · rw [List.flatMap_cons, List.append_assoc]
      · rcases List.mem_cons.1 h with rfl | h
        · exact hf
        · exact hp part h
    · rintro ⟨parts, hl, rfl, rfl, hp⟩
      cases parts with
      | nil => cases hl
      | cons part parts =>
        rw [List.flatMap_cons, List.append_assoc] at hb ⊢
        refine ⟨part.2, _, ((hread _ hb).ok_iff _ _).2 ⟨part.1, rfl, hp part List.mem_cons_self⟩,
          parts.map Prod.snd, rest, (ih ?_).2 ⟨parts, Nat.succ.inj hl, rfl, rfl, fun part h =>
            hp part (List.mem_cons_of_mem _ h)⟩, rfl⟩
        rw [List.length_append] at hb
        omega

/-- Where things cannot all be read, some parts are in form and no further one follows. -/
theorem readMany_eq_error_iff
    (hread : ∀ bytes : List UInt8, bytes.length < bound → Follows read form stops bytes)
    {n : Nat} {bytes : List UInt8} {fault : ReadFault} (hb : bytes.length < bound) :
    readMany read n bytes = .error fault ↔
      ∃ (parts : List (List UInt8 × α)) (rest : List UInt8), parts.length < n ∧
        bytes = parts.flatMap Prod.fst ++ rest ∧ (∀ part ∈ parts, form part.1 part.2) ∧
        stops rest fault := by
  induction n generalizing bytes with
  | zero =>
    rw [readMany]
    exact ⟨(nomatch ·), fun ⟨_, _, h, _⟩ => absurd h (Nat.not_lt_zero _)⟩
  | succ n ih =>
    simp only [readMany, bind_eq_error_iff, Prod.exists]
    constructor
    · rintro (h | ⟨head, r, hhead, h | ⟨_, _, _, h⟩⟩)
      · exact ⟨[], bytes, Nat.zero_lt_succ _, rfl, by simp, ((hread _ hb).error_iff _).1 h⟩
      · obtain ⟨front, rfl, hf⟩ := ((hread _ hb).ok_iff _ _).1 hhead
        rw [List.length_append] at hb
        obtain ⟨parts, rest, hl, rfl, hp, hs⟩ := (ih (by omega)).1 h
        refine ⟨(front, head) :: parts, rest, Nat.succ_lt_succ hl, ?_, fun part h => ?_, hs⟩
        · rw [List.flatMap_cons, List.append_assoc]
        · rcases List.mem_cons.1 h with rfl | h
          · exact hf
          · exact hp part h
      · cases h
    · rintro ⟨parts, rest, hl, rfl, hp, hs⟩
      cases parts with
      | nil => exact .inl (((hread _ hb).error_iff _).2 hs)
      | cons part parts =>
        rw [List.flatMap_cons, List.append_assoc] at hb ⊢
        refine .inr ⟨part.2, _, ((hread _ hb).ok_iff _ _).2
          ⟨part.1, rfl, hp part List.mem_cons_self⟩, .inl ((ih ?_).2
            ⟨parts, rest, Nat.lt_of_succ_lt_succ hl, rfl, fun part h =>
              hp part (List.mem_cons_of_mem _ h), hs⟩)⟩
        rw [List.length_append] at hb
        omega

/-- Things that are read after their number. -/
theorem counted_eq_ok_iff
    (hread : ∀ bytes : List UInt8, bytes.length < bound → Follows read form stops bytes)
    {bytes rest : List UInt8} {items : List α} (hb : bytes.length < bound) :
    (∃ n r, readNat 8 bytes = .ok (n, r) ∧ readMany read n r = .ok (items, rest)) ↔
      ∃ parts : List (List UInt8 × α), parts.length < 2 ^ 64 ∧ items = parts.map Prod.snd ∧
        bytes = writeCount parts.length ++ parts.flatMap Prod.fst ++ rest ∧
        ∀ part ∈ parts, form part.1 part.2 := by
  constructor
  · rintro ⟨n, r, hn, hmany⟩
    obtain ⟨hlt, rfl⟩ := exists_of_readCount hn
    rw [List.length_append] at hb
    obtain ⟨parts, rfl, rfl, rfl, hp⟩ := (readMany_eq_ok_iff hread (by omega)).1 hmany
    exact ⟨parts, hlt, rfl, (List.append_assoc _ _ _).symm, hp⟩
  · rintro ⟨parts, hlt, rfl, rfl, hp⟩
    rw [List.append_assoc, List.length_append] at hb
    rw [List.append_assoc]
    exact ⟨_, _, readCount_writeCount hlt _,
      (readMany_eq_ok_iff hread (by omega)).2 ⟨parts, rfl, rfl, rfl, hp⟩⟩

/-- Where things cannot all be read after their number, the number is not there, or some parts are
in form and no further one follows. -/
theorem counted_eq_error_iff
    (hread : ∀ bytes : List UInt8, bytes.length < bound → Follows read form stops bytes)
    {bytes : List UInt8} {fault : ReadFault} (hb : bytes.length < bound) :
    (readNat 8 bytes = .error fault ∨
        ∃ n r, readNat 8 bytes = .ok (n, r) ∧ readMany read n r = .error fault) ↔
      (bytes.length < 8 ∧ fault = .outOfBytes) ∨
        ∃ (n : Nat) (parts : List (List UInt8 × α)) (rest : List UInt8), n < 2 ^ 64 ∧
          parts.length < n ∧ bytes = writeCount n ++ parts.flatMap Prod.fst ++ rest ∧
          (∀ part ∈ parts, form part.1 part.2) ∧ stops rest fault := by
  rw [readNat_eq_error_iff]
  refine or_congr_right ⟨?_, ?_⟩
  · rintro ⟨n, r, hn, hmany⟩
    obtain ⟨hlt, rfl⟩ := exists_of_readCount hn
    rw [List.length_append] at hb
    obtain ⟨parts, rest, hl, rfl, hp, hs⟩ := (readMany_eq_error_iff hread (by omega)).1 hmany
    exact ⟨n, parts, rest, hlt, hl, (List.append_assoc _ _ _).symm, hp, hs⟩
  · rintro ⟨n, parts, rest, hlt, hl, rfl, hp, hs⟩
    rw [List.append_assoc, List.length_append] at hb
    rw [List.append_assoc]
    exact ⟨n, _, readCount_writeCount hlt _,
      (readMany_eq_error_iff hread (by omega)).2 ⟨parts, rest, hl, rfl, hp, hs⟩⟩

end

end Snapshot

end ExpiringCache
