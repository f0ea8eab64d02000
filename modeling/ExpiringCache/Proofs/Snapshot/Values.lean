import ExpiringCache.Proofs.Snapshot.Parts
import ExpiringCache.Proofs.Trees

/-!
# Reading values

The reader of values takes values just as the grammar has them (`readValue_follows`). The
recursion of the reader is bounded by a depth, and so is the induction: on bytes fewer than the
depth the reader goes by the grammar (`readValueWithin_follows`), since the parts of a list or map
lie in fewer bytes than the whole.
-/

namespace ExpiringCache.Snapshot

theorem readField_follows {read : Reader Value} {bound : Nat}
    (hread : ∀ bytes : List UInt8, bytes.length < bound → Follows read ValueForm ValueStops bytes)
    {bytes : List UInt8} (hb : bytes.length < bound) :
    Follows (readField read) FieldForm FieldStops bytes := by
  have htext := readText_follows
  constructor
  · rintro ⟨key, value⟩ rest
    simp only [readField, bind_eq_ok_iff, Prod.exists]
    constructor
    · rintro ⟨_, r, hkey, _, r', hvalue, h⟩
      cases h
      obtain ⟨k, rfl, hk⟩ := ((htext _).ok_iff _ _).1 hkey
      rw [List.length_append] at hb
      obtain ⟨v, rfl, hv⟩ := ((hread _ (by omega)).ok_iff _ _).1 hvalue
      exact ⟨k ++ v, (List.append_assoc _ _ _).symm, .intro hk hv⟩
    · rintro ⟨front, rfl, h⟩
      cases h with
      | @intro k v _ _ hk hv =>
        rw [List.append_assoc, List.length_append] at hb
        rw [List.append_assoc]
        exact ⟨key, _, ((htext _).ok_iff _ _).2 ⟨k, rfl, hk⟩, value, rest,
          ((hread _ (by omega)).ok_iff _ _).2 ⟨v, rfl, hv⟩, rfl⟩
  · intro fault
    simp only [readField, bind_eq_error_iff, Prod.exists]
    constructor
    · rintro (h | ⟨_, r, hkey, h | ⟨_, _, _, h⟩⟩)
      · exact .key (((htext _).error_iff _).1 h)
      · obtain ⟨k, rfl, hk⟩ := ((htext _).ok_iff _ _).1 hkey
        rw [List.length_append] at hb
        exact .value hk (((hread _ (by omega)).error_iff _).1 h)
      · cases h
    · intro h
      cases h with
      | key h => exact .inl (((htext _).error_iff _).2 h)
      | @value k rest key _ hk hs =>
        rw [List.length_append] at hb
        exact .inr ⟨key, rest, ((htext _).ok_iff _ _).2 ⟨k, rfl, hk⟩,
          .inl (((hread _ (by omega)).error_iff _).2 hs)⟩

theorem readValueWithin_variant {index : Nat} (hi : index < 2 ^ 32) (depth : Nat)
    (content : List UInt8) :
    readValueWithin (depth + 1) (writeVariant index ++ content) =
      if index = 14 then do
        let (count, rest) ← readNat 8 content
        let (items, rest) ← readMany (readValueWithin depth) count rest
        return (.list (.ofTrees items), rest)
      else if index = 15 then do
        let (count, rest) ← readNat 8 content
        let (fields, rest) ← readMany (readField (readValueWithin depth)) count rest
        return (.map (.ofPairs fields), rest)
      else do
        let (scalar, rest) ← readScalar index content
        return (.leaf scalar, rest) := by
  rw [readValueWithin, readVariant_writeVariant hi, ok_bind]

theorem length_writeVariant (index : Nat) : (writeVariant index).length = 4 :=
  LittleEndian.length_toBytes 4 index

section
variable {depth : Nat} {bytes rest : List UInt8} {value : Value} {fault : ReadFault}
  (hitem : ∀ bytes : List UInt8, bytes.length < depth →
    Follows (readValueWithin depth) ValueForm ValueStops bytes)
  (hfield : ∀ bytes : List UInt8, bytes.length < depth →
    Follows (readField (readValueWithin depth)) FieldForm FieldStops bytes)
include hitem hfield

theorem valueForm_of_read (hb : bytes.length < depth + 1)
    (h : readValueWithin (depth + 1) bytes = .ok (value, rest)) :
    ∃ front, bytes = front ++ rest ∧ ValueForm front value := by
  obtain ⟨⟨index, content⟩, hv, _⟩ := bind_eq_ok_iff.1 h
  obtain ⟨hi, rfl⟩ := exists_of_readVariant hv
  rw [List.length_append, length_writeVariant] at hb
  rw [readValueWithin_variant hi] at h
  split at h
  · rename_i h14
    simp only [bind_eq_ok_iff, Prod.exists] at h
    obtain ⟨n, r, hn, items, r', hmany, h⟩ := h
    cases h
    obtain ⟨parts, hlt, rfl, rfl, hp⟩ :=
      (counted_eq_ok_iff hitem (by omega)).1 ⟨n, r, hn, hmany⟩
    rw [h14]
    exact ⟨_, by simp only [List.append_assoc], .list hlt hp⟩
  · split at h
    · rename_i h15
      simp only [bind_eq_ok_iff, Prod.exists] at h
      obtain ⟨n, r, hn, fields, r', hmany, h⟩ := h
      cases h
      obtain ⟨parts, hlt, rfl, rfl, hp⟩ :=
        (counted_eq_ok_iff hfield (by omega)).1 ⟨n, r, hn, hmany⟩
      rw [h15]
      exact ⟨_, by simp only [List.append_assoc], .map hlt hp (Node.find?_ofPairs _)⟩
    · rename_i h14 h15
      simp only [bind_eq_ok_iff, Prod.exists] at h
      obtain ⟨scalar, r, hs, h⟩ := h
      cases h
      obtain ⟨front, rfl, hf⟩ := ((readScalar_follows ⟨h14, h15⟩ _).ok_iff _ _).1 hs
      exact ⟨_, (List.append_assoc _ _ _).symm, .leaf hf⟩

theorem read_of_valueForm {front : List UInt8} (hb : (front ++ rest).length < depth + 1)
    (h : ValueForm front value) :
    readValueWithin (depth + 1) (front ++ rest) = .ok (value, rest) := by
  cases h with
  | @leaf index content scalar h =>
    have hi : index < 14 := h.index_lt
    have hs := ((readScalar_follows (by omega) (content ++ rest)).ok_iff scalar rest).2
      ⟨content, rfl, h⟩
    rw [List.append_assoc, readValueWithin_variant (by omega), if_neg (by omega),
      if_neg (by omega), hs, ok_bind]
    rfl
  | @list parts hn h =>
    rw [List.append_assoc, List.append_assoc, List.length_append, length_writeVariant] at hb
    obtain ⟨n, r, hcount, hmany⟩ := (counted_eq_ok_iff hitem (show _ < depth by omega)).2
      ⟨parts, hn, rfl, (List.append_assoc _ _ rest).symm, h⟩
    rw [List.append_assoc, List.append_assoc, readValueWithin_variant (by decide), if_pos rfl,
      hcount, ok_bind]
    simp only
    rw [hmany]
    rfl
  | @map parts fields hn h hf =>
    rw [List.append_assoc, List.append_assoc, List.length_append, length_writeVariant] at hb
    obtain ⟨n, r, hcount, hmany⟩ := (counted_eq_ok_iff hfield (show _ < depth by omega)).2
      ⟨parts, hn, rfl, (List.append_assoc _ _ rest).symm, h⟩
    rw [List.append_assoc, List.append_assoc, readValueWithin_variant (by decide),
      if_neg (by decide), if_pos rfl, hcount, ok_bind]
    simp only
    rw [hmany, ← Node.ofPairs_eq_iff.2 hf]
    rfl

theorem valueStops_of_read (hb : bytes.length < depth + 1)
    (h : readValueWithin (depth + 1) bytes = .error fault) : ValueStops bytes fault := by
  rcases bind_eq_error_iff.1 h with hv | ⟨⟨index, content⟩, hv, _⟩
  · obtain ⟨hl, rfl⟩ := readNat_eq_error_iff.1 hv
    exact .noVariant hl
  obtain ⟨hi, rfl⟩ := exists_of_readVariant hv
  rw [List.length_append, length_writeVariant] at hb
  rw [readValueWithin_variant hi] at h
  split at h
  · rename_i h14
    simp only [bind_eq_error_iff, Prod.exists, pure, Except.pure, reduceCtorEq, and_false,
      exists_false, or_false] at h
    rw [h14]
    rcases (counted_eq_error_iff hitem (by omega)).1 h with
      ⟨hl, rfl⟩ | ⟨n, parts, rest, hn, hp, rfl, hparts, hs⟩
    · exact .noCount (.inl rfl) hl
    · rw [← List.append_assoc, ← List.append_assoc]
      exact .item hn hp hparts hs
  · split at h
    · rename_i h15
      simp only [bind_eq_error_iff, Prod.exists, pure, Except.pure, reduceCtorEq, and_false,
        exists_false, or_false] at h
      rw [h15]
      rcases (counted_eq_error_iff hfield (by omega)).1 h with
        ⟨hl, rfl⟩ | ⟨n, parts, rest, hn, hp, rfl, hparts, hs⟩
      · exact .noCount (.inr rfl) hl
      · rw [← List.append_assoc, ← List.append_assoc]
        exact .field hn hp hparts hs
    · rename_i h14 h15
      simp only [bind_eq_error_iff, pure, Except.pure, reduceCtorEq, and_false, exists_false,
        or_false] at h
      exact .scalar hi (((readScalar_follows ⟨h14, h15⟩ _).error_iff _).1 h)

theorem read_of_valueStops (hb : bytes.length < depth + 1) (h : ValueStops bytes fault) :
    readValueWithin (depth + 1) bytes = .error fault := by
  cases h with
  | noVariant hl => rw [readValueWithin, readNat_eq_error_iff.2 ⟨hl, rfl⟩, error_bind]
  | scalar hi h =>
    obtain ⟨h14, h15⟩ := h.index_ne
    have hs := ((readScalar_follows ⟨h14, h15⟩ _).error_iff _).2 h
    rw [readValueWithin_variant hi, if_neg h14, if_neg h15, hs, error_bind]
  | noCount hi hl =>
    have hcount := readNat_eq_error_iff.2 ⟨hl, rfl⟩
    rcases hi with rfl | rfl
    · rw [readValueWithin_variant (by decide), if_pos rfl, hcount, error_bind]
    · rw [readValueWithin_variant (by decide), if_neg (by decide), if_pos rfl, hcount, error_bind]
  | @item n parts rest _ hn hp h hs =>
    rw [List.append_assoc, List.append_assoc, List.length_append, length_writeVariant] at hb
    rw [List.append_assoc, List.append_assoc, readValueWithin_variant (by decide), if_pos rfl]
    rcases (counted_eq_error_iff hitem (show _ < depth by omega)).2
      (.inr ⟨n, parts, rest, hn, hp, (List.append_assoc _ _ rest).symm, h, hs⟩) with
      hcount | ⟨_, _, hcount, hmany⟩
    · rw [hcount, error_bind]
    · rw [hcount, ok_bind]
      simp only
      rw [hmany, error_bind]
  | @field n parts rest _ hn hp h hs =>
    rw [List.append_assoc, List.append_assoc, List.length_append, length_writeVariant] at hb
    rw [List.append_assoc, List.append_assoc, readValueWithin_variant (by decide),
      if_neg (by decide), if_pos rfl]
    rcases (counted_eq_error_iff hfield (show _ < depth by omega)).2
      (.inr ⟨n, parts, rest, hn, hp, (List.append_assoc _ _ rest).symm, h, hs⟩) with
      hcount | ⟨_, _, hcount, hmany⟩
    · rw [hcount, error_bind]
    · rw [hcount, ok_bind]
      simp only
      rw [hmany, error_bind]

end

/-- As far as the reader looks into nested lists and maps, it takes values. -/
theorem readValueWithin_follows (depth : Nat) {bytes : List UInt8} (hb : bytes.length < depth) :
    Follows (readValueWithin depth) ValueForm ValueStops bytes := by
  induction depth generalizing bytes with
  | zero => exact absurd hb (Nat.not_lt_zero _)
  | succ depth ih =>
    have hitem : ∀ bytes : List UInt8, bytes.length < depth →
        Follows (readValueWithin depth) ValueForm ValueStops bytes := fun _ h => ih h
    have hfield : ∀ bytes : List UInt8, bytes.length < depth →
        Follows (readField (readValueWithin depth)) FieldForm FieldStops bytes :=
      fun _ h => readField_follows hitem h
    refine ⟨fun value rest => ⟨valueForm_of_read hitem hfield hb, ?_⟩,
      fun fault => ⟨valueStops_of_read hitem hfield hb, read_of_valueStops hitem hfield hb⟩⟩
    rintro ⟨front, rfl, h⟩
    exact read_of_valueForm hitem hfield hb h

theorem readValue_follows (bytes : List UInt8) :
    Follows readValue ValueForm ValueStops bytes :=
  have h := readValueWithin_follows (bytes.length + 1) (Nat.lt_succ_self bytes.length)
  ⟨h.ok_iff, h.error_iff⟩

end ExpiringCache.Snapshot
