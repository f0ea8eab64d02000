import ExpiringCache.Proofs.Saving

/-!
# Snapshots cut short

When bytes are missing at the end of a snapshot, what is left is not a snapshot of fewer entries:
to decode it fails because the bytes run out, in the header or after it (`decode_cut_short`).

Each part of a snapshot tells its extent before it comes to what can be malformed in it. So a part
in form that is cut short stops with `outOfBytes` and no other fault: texts (`TextForm.cut_short`),
scalars (`ScalarForm.cut_short`), values by induction on their length (`ValueForm.cut_short`), and
from them entries and bodies. Where parts stand in a row, the cut falls into one of them, and those
before it are whole (`CutShort.parts_cases`).
-/

namespace ExpiringCache.Snapshot

variable {α : Type}

/-! ## Cuts -/

/-- What is left of bytes of which some are missing at the end. -/
def CutShort (part whole : List UInt8) : Prop := part <+: whole ∧ part ≠ whole

namespace CutShort

variable {part whole front bytes : List UInt8}

theorem length_lt (h : CutShort part whole) : part.length < whole.length :=
  Nat.lt_of_le_of_ne h.1.length_le fun e => h.2 (h.1.eq_of_length e)

theorem length_lt_of {n : Nat} (h : CutShort part whole) (hl : whole.length = n) :
    part.length < n :=
  hl ▸ h.length_lt

theorem eq_nil_of_singleton {b : UInt8} (h : CutShort part [b]) : part = [] :=
  List.eq_nil_of_length_eq_zero (Nat.lt_one_iff.1 h.length_lt)

/-- A cut falls into the first or into the second of two parts. -/
theorem append_cases (h : CutShort part (front ++ bytes)) :
    CutShort part front ∨ ∃ rest, part = front ++ rest ∧ CutShort rest bytes := by
  obtain ⟨⟨missing, e⟩, hne⟩ := h
  by_cases hp : part.length < front.length
  · have hf : part <+: front :=
      List.prefix_of_prefix_length_le ⟨missing, e⟩ (List.prefix_append _ _) hp.le
    exact .inl ⟨hf, fun e => hp.ne (congrArg List.length e)⟩
  · obtain ⟨rest, rfl⟩ : front <+: part :=
      List.prefix_of_prefix_length_le (List.prefix_append _ _) ⟨missing, e⟩ (Nat.le_of_not_lt hp)
    rw [List.append_assoc] at e
    exact .inr ⟨rest, rfl, ⟨missing, List.append_cancel_left e⟩, fun e => hne (congrArg _ e)⟩

/-- A cut through parts in a row falls into one of them. -/
theorem parts_cases {parts : List (List UInt8 × α)} (h : CutShort part (parts.flatMap Prod.fst)) :
    ∃ before next after rest, parts = before ++ next :: after ∧
      part = before.flatMap Prod.fst ++ rest ∧ CutShort rest next.1 := by
  induction parts generalizing part with
  | nil => exact absurd (List.prefix_nil.1 h.1) h.2
  | cons first parts ih =>
    rw [List.flatMap_cons] at h
    rcases h.append_cases with h | ⟨rest, rfl, hr⟩
    · exact ⟨[], first, parts, part, rfl, rfl, h⟩
    · obtain ⟨before, next, after, rest, rfl, rfl, hn⟩ := ih hr
      refine ⟨first :: before, next, after, rest, rfl, ?_, hn⟩
      rw [List.flatMap_cons, List.append_assoc]

/-- A cut through a number of parts and the parts: within the number, or after fewer parts than it
tells. -/
theorem counted_cases {parts : List (List UInt8 × α)}
    (h : CutShort part (writeCount parts.length ++ parts.flatMap Prod.fst)) :
    part.length < 8 ∨
      ∃ (before : List (List UInt8 × α)) (next : List UInt8 × α) (rest : List UInt8),
        before.length < parts.length ∧ (∀ part ∈ before, part ∈ parts) ∧
        next ∈ parts ∧ part = writeCount parts.length ++ before.flatMap Prod.fst ++ rest ∧
        CutShort rest next.1 := by
  rcases h.append_cases with h | ⟨rest, rfl, hr⟩
  · exact .inl (h.length_lt_of (LittleEndian.length_toBytes _ _))
  · obtain ⟨before, next, after, rest, rfl, rfl, hn⟩ := hr.parts_cases
    refine .inr ⟨before, next, rest, ?_, fun part hp => List.mem_append_left _ hp,
      List.mem_append_right _ List.mem_cons_self, (List.append_assoc _ _ _).symm, hn⟩
    rw [List.length_append, List.length_cons]
    omega

end CutShort

/-! ## Texts and scalars -/

variable {part bytes : List UInt8}

theorem TextForm.cut_short {text : String} (h : TextForm bytes text) (hc : CutShort part bytes) :
    TextStops part .outOfBytes := by
  cases h with
  | intro _ hl =>
    rcases hc.append_cases with hc | ⟨rest, rfl, hr⟩
    · exact .noLength (hc.length_lt_of (LittleEndian.length_toBytes _ _))
    · exact .short hl hr.length_lt

theorem ScalarForm.cut_short {index : Nat} {scalar : Scalar} (h : ScalarForm index bytes scalar)
    (hc : CutShort part bytes) : ScalarStops index part .outOfBytes := by
  have hlt := hc.length_lt
  cases h with
  | null => exact absurd hlt (Nat.not_lt_zero _)
  | bool b =>
    rw [hc.eq_nil_of_singleton]
    exact .noBool
  | int type hl => exact .int type (by rwa [hl] at hlt)
  | float32 hl => exact .float32 (by rwa [hl] at hlt)
  | float64 hl => exact .float64 (by rwa [hl] at hlt)
  | text h => exact .text (h.cut_short hc)
  | bytes hn =>
    rcases hc.append_cases with hc | ⟨rest, rfl, hr⟩
    · exact .noLength (hc.length_lt_of (LittleEndian.length_toBytes _ _))
    · exact .bytes hn hr.length_lt

/-! ## Values -/

/-- A field stops where its key or its value does. -/
theorem FieldForm.cut_short {field : String × Value} (h : FieldForm bytes field)
    (hc : CutShort part bytes)
    (values : ∀ {v rest : List UInt8} {value : Value}, ValueForm v value →
      v.length ≤ bytes.length → CutShort rest v → ValueStops rest .outOfBytes) :
    FieldStops part .outOfBytes := by
  cases h with
  | intro hk hv =>
    rcases hc.append_cases with hc | ⟨rest, rfl, hr⟩
    · exact .key (hk.cut_short hc)
    · refine .value hk (values hv ?_ hr)
      rw [List.length_append]
      exact Nat.le_add_left _ _

/-- The bytes of a value that is cut short have run out, wherever within it the cut is. -/
theorem ValueForm.cut_short {value : Value} (h : ValueForm bytes value)
    (hc : CutShort part bytes) : ValueStops part .outOfBytes := by
  -- The induction is on the length: items and values of fields lie in fewer bytes than the whole.
  induction hl : bytes.length using Nat.strongRecOn generalizing bytes value part with
  | ind l ih =>
    cases h with
    | @leaf index content scalar h =>
      rcases hc.append_cases with hc | ⟨rest, rfl, hr⟩
      · exact .noVariant (hc.length_lt_of (length_writeVariant _))
      · have hi := h.index_lt
        exact .scalar (by omega) (h.cut_short hr)
    | @list parts hn h =>
      rw [List.append_assoc] at hc hl
      rcases hc.append_cases with hc | ⟨rest, rfl, hr⟩
      · exact .noVariant (hc.length_lt_of (length_writeVariant _))
      · rcases hr.counted_cases with hn | ⟨before, next, rest, hb, hsub, hm, rfl, hn'⟩
        · exact .noCount (.inl rfl) hn
        · have hle := length_le_length_flatMap hm
          have hlt : next.1.length < l := by
            rw [← hl, List.length_append, List.length_append, length_writeVariant]
            omega
          rw [← List.append_assoc, ← List.append_assoc]
          exact .item hn hb (fun part hp => h part (hsub part hp)) (ih _ hlt (h next hm) hn' rfl)
    | @map parts fields hn h hf =>
      rw [List.append_assoc] at hc hl
      rcases hc.append_cases with hc | ⟨rest, rfl, hr⟩
      · exact .noVariant (hc.length_lt_of (length_writeVariant _))
      · rcases hr.counted_cases with hn | ⟨before, next, rest, hb, hsub, hm, rfl, hn'⟩
        · exact .noCount (.inr rfl) hn
        · have hle := length_le_length_flatMap hm
          have hs : FieldStops rest .outOfBytes := by
            refine (h next hm).cut_short hn' fun hv hlen hc => ih _ ?_ hv hc rfl
            rw [← hl, List.length_append, List.length_append, length_writeVariant]
            omega
          rw [← List.append_assoc, ← List.append_assoc]
          exact .field hn hb (fun part hp => h part (hsub part hp)) hs

/-! ## Entries -/

theorem DeadlineForm.cut_short {deadline : Option Deadline} (h : DeadlineForm bytes deadline)
    (hc : CutShort part bytes) : DeadlineStops part .outOfBytes := by
  cases h with
  | none =>
    rw [hc.eq_nil_of_singleton]
    exact .noMark
  | some h =>
    rw [← List.singleton_append] at hc
    rcases hc.append_cases with hc | ⟨rest, rfl, hr⟩
    · rw [hc.eq_nil_of_singleton]
      exact .noMark
    · exact .text (h.cut_short hr)

theorem EntryForm.cut_short {entry : String × Item} (h : EntryForm bytes entry)
    (hc : CutShort part bytes) : EntryStops part .outOfBytes := by
  cases h with
  | intro hk hv hd =>
    rcases hc.append_cases with hc | ⟨rest, rfl, hr⟩
    · rcases hc.append_cases with hc | ⟨rest, rfl, hr⟩
      · exact .key (hk.cut_short hc)
      · exact .value hk (hv.cut_short hr)
    · exact .deadline hk hv (hd.cut_short hr)

theorem BodyForm.cut_short {entries : List (String × Item)} (h : BodyForm bytes entries)
    (hc : CutShort part bytes) : BodyStops part .outOfBytes := by
  cases h with
  | intro hn h =>
    rcases hc.counted_cases with hn | ⟨before, next, rest, hb, hsub, hm, rfl, hr⟩
    · exact .noCount hn
    · exact .entry hn hb (fun part hp => h part (hsub part hp)) ((h next hm).cut_short hr)

/-! ## Snapshots -/

variable {items : Table Item}

/-- Of a table that can be written there is a snapshot with its entries in any given order. -/
theorem spells_writeBody (writable : Writable items) {order : List (String × Item)}
    (ho : order.Perm items.entries) :
    ∃ body, writeBody order = .ok body ∧ Spells (header ++ body) items := by
  obtain ⟨body, hw, -⟩ := decode_writeBody writable.1 writable.2 ho
  exact ⟨body, hw, order, body, ho, hw, rfl⟩

theorem Spells.exists_body (writable : Writable items) (h : Spells bytes items) :
    ∃ body entries, bytes = header ++ body ∧ BodyForm body entries := by
  obtain ⟨order, body, ho, hb, rfl⟩ := h
  obtain ⟨body', hb', hf⟩ := writeBody_form (ho.length_eq ▸ writable.1) fun entry he =>
    writable.2 entry (ho.subset he)
  obtain rfl : body' = body := Except.ok.inj (hb'.symm.trans hb)
  exact ⟨body', order, rfl, hf⟩

/-- A table that can be written has a snapshot with its entries in any order. When one of them is
cut short, it is decoded neither to a table nor to a malformed part: the header is too short, or
the bytes after it run out. -/
theorem decode_cut_short (writable : Writable items) :
    (∃ bytes, encode items = .ok bytes ∧ Spells bytes items) ∧
    (∀ order : List (String × Item), order.Perm items.entries →
      ∃ body, writeBody order = .ok body ∧ Spells (header ++ body) items) ∧
    (∀ bytes, Spells bytes items → ∀ part, CutShort part bytes →
      (part.length < 6 → decode part = .error (.invalidSnapshot .noHeader)) ∧
      (6 ≤ part.length → decode part = .error (.invalidSnapshot .truncatedBody))) ∧
    SnapshotFault.noHeader.message = "missing or truncated header" ∧
    SnapshotFault.truncatedBody.message = "truncated or corrupted body" := by
  refine ⟨?_, fun order ho => spells_writeBody writable ho, fun bytes hs part hc => ?_, rfl, rfl⟩
  · obtain ⟨body, hw, hs⟩ := spells_writeBody writable (.refl _)
    exact ⟨_, encode_of_body (unencodable?_eq_none writable.2) hw, hs⟩
  · refine ⟨fun hl => decode_of_verdict (.noHeader hl), fun hl => ?_⟩
    obtain ⟨body, entries, rfl, hf⟩ := hs.exists_body writable
    rcases hc.append_cases with hc | ⟨rest, rfl, hr⟩
    · have hlt : part.length < 6 := hc.length_lt
      omega
    · exact decode_of_verdict (.truncated (hf.cut_short hr))

/-- An entry under a key of one character that takes two bytes. -/
def accented : Table Item := .ofList [("é", ⟨.null, none⟩)]

/-- The snapshot of `accented` up to the first byte of the character. -/
def halfCharacter : List UInt8 := header ++ writeCount 1 ++ writeCount 2 ++ [0xC3]

theorem decode_cut_short_accented :
    Writable accented ∧ (∃ bytes, Spells bytes accented ∧ CutShort halfCharacter bytes) ∧
      decode halfCharacter = .error (.invalidSnapshot .truncatedBody) := by
  have writable : Writable accented := by decide
  obtain ⟨⟨bytes, he, hs⟩, -, cuts, -⟩ := decode_cut_short writable
  have whole : encode accented = .ok (halfCharacter ++ [0xA9, 0, 0, 0, 0, 0]) := by
    decide +kernel
  obtain rfl : bytes = halfCharacter ++ [0xA9, 0, 0, 0, 0, 0] := Except.ok.inj (he.symm.trans whole)
  have hc : CutShort halfCharacter (halfCharacter ++ [0xA9, 0, 0, 0, 0, 0]) :=
    ⟨List.prefix_append _ _, by decide⟩
  exact ⟨writable, ⟨_, hs, hc⟩, (cuts _ hs _ hc).2 (by decide)⟩

end ExpiringCache.Snapshot
