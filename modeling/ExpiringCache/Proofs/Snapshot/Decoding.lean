import ExpiringCache.Proofs.Snapshot.Entries

/-!
# What a snapshot is

Bytes are decoded as the grammar says: to the table that they are a snapshot of, or to the first
thing wrong with them (`decode_classified`). A table that is decoded holds no handles.
-/

namespace ExpiringCache

/-! ## Values without handles -/

theorem Value.unencodable?_eq_none_iff {value : Value} :
    value.unencodable? = none ↔ ∀ scalar ∈ value.leaves, scalar.handleType? = none :=
  List.findSome?_eq_none_iff

theorem Value.unencodable?_list (items : Items Scalar) :
    Value.unencodable? (.list items) = items.trees.findSome? Value.unencodable? := by
  rw [unencodable?, Node.leaves, Node.leaves_items, Node.findSome?_flatMap]
  rfl

theorem Value.unencodable?_map (fields : Fields Scalar none) :
    Value.unencodable? (.map fields) = fields.pairs.findSome? fun p => Value.unencodable? p.2 := by
  rw [unencodable?, Node.leaves, Node.leaves_fields, Node.findSome?_flatMap]
  rfl

namespace Snapshot

variable {α : Type}

theorem length_le_length_flatMap {parts : List (List UInt8 × α)} {part : List UInt8 × α}
    (h : part ∈ parts) : part.1.length ≤ (parts.flatMap Prod.fst).length := by
  obtain ⟨before, after, rfl⟩ := List.append_of_mem h
  simp only [List.flatMap_append, List.flatMap_cons, List.length_append]
  omega

theorem ScalarForm.handleType? {index : Nat} {content : List UInt8} {scalar : Scalar}
    (h : ScalarForm index content scalar) : scalar.handleType? = none := by
  cases h <;> rfl

/-- A written value holds no handle. -/
theorem ValueForm.unencodable? {bytes : List UInt8} {value : Value} (h : ValueForm bytes value) :
    value.unencodable? = none := by
  induction hl : bytes.length using Nat.strongRecOn generalizing bytes value with
  | ind l ih =>
    cases h with
    | leaf h =>
      rw [Value.unencodable?_eq_none_iff]
      intro scalar hs
      rw [List.mem_singleton.1 hs]
      exact h.handleType?
    | @list parts _ h =>
      rw [Value.unencodable?_list, List.findSome?_eq_none_iff, Node.trees_ofTrees]
      intro item hi
      obtain ⟨part, hp, rfl⟩ := List.mem_map.1 hi
      have := length_le_length_flatMap hp
      refine ih part.1.length ?_ (h part hp) rfl
      rw [← hl, List.length_append, List.length_append, length_writeVariant]
      omega
    | @map parts fields _ h hf =>
      rw [Value.unencodable?_map, List.findSome?_eq_none_iff]
      rintro ⟨key, value⟩ hm
      have hfind := (Table.find?_eq_some_iff (Node.ascending_pairs fields).distinct).2 hm
      rw [hf] at hfind
      obtain ⟨part, hp, e⟩ := List.mem_map.1 (List.mem_reverse.1 (Table.mem_of_find? hfind))
      have := length_le_length_flatMap hp
      have hpart := h part hp
      rw [e] at hpart
      generalize hb : part.1 = front at hpart this
      cases hpart with
      | @intro k v _ _ hk hv =>
        refine ih v.length ?_ hv rfl
        rw [List.length_append] at this
        rw [← hl, List.length_append, List.length_append, length_writeVariant]
        omega

/-! ## Whole snapshots -/

theorem decode_header (body : List UInt8) :
    decode (header ++ body) =
      match readBody body with
      | .ok (entries, _) => .ok (.ofList entries)
      | .error .outOfBytes => .error (.invalidSnapshot .truncatedBody)
      | .error (.malformed fault) => .error (.codec fault) := rfl

theorem verdict_header (body : List UInt8) :
    Verdict (header ++ body) (decode (header ++ body)) := by
  rw [decode_header]
  split
  · rename_i entries rest h
    obtain ⟨front, rfl, hf⟩ := ((readBody_follows _).ok_iff _ _).1 h
    rw [← List.append_assoc]
    exact .accepted hf (Table.get?_ofList entries)
  · rename_i h
    exact .truncated (((readBody_follows _).error_iff _).1 h)
  · rename_i h
    exact .malformed (((readBody_follows _).error_iff _).1 h)

/-- Bytes are decoded to what they are as a snapshot. -/
theorem verdict_decode (bytes : List UInt8) : Verdict bytes (decode bytes) := by
  cases hs : splitExactly 6 bytes with
  | none =>
    rw [decode, hs]
    exact .noHeader (splitExactly_eq_none_iff.1 hs)
  | some p =>
    obtain ⟨front, rest⟩ := p
    obtain ⟨rfl, hl⟩ := splitExactly_eq_some_iff.1 hs
    have htake : (front.take 4).length = 4 := by rw [List.length_take]; omega
    have hdrop : (front.drop 4).length = 2 := by rw [List.length_drop]; omega
    have hlt := LittleEndian.ofBytes_lt (front.drop 4)
    have hbytes := LittleEndian.toBytes_ofBytes (front.drop 4)
    rw [hdrop] at hlt hbytes
    by_cases hm : front.take 4 = magic
    · have hfront : front = magic ++ front.drop 4 := by rw [← hm, List.take_append_drop]
      by_cases hv : LittleEndian.ofBytes (front.drop 4) = version
      · rw [hv] at hbytes
        rw [← hbytes] at hfront
        rw [hfront]
        exact verdict_header rest
      · have : Verdict (magic ++ _ ++ rest) _ := .version hlt hv
        rw [hbytes, ← hfront] at this
        rw [decode, hs]
        simp only
        rw [if_neg (not_not_intro hm), if_pos hv]
        exact this
    · have : Verdict (front.take 4 ++ (front.drop 4 ++ rest)) _ :=
        .magic htake (by rw [List.length_append]; omega) hm
      rw [← List.append_assoc, List.take_append_drop] at this
      rw [decode, hs]
      simp only
      rw [if_pos hm]
      exact this

theorem decode_of_verdict {bytes : List UInt8} {result : Except Failure (Table Item)}
    (h : Verdict bytes result) : decode bytes = result := by
  cases h with
  | @accepted body rest entries items h hm =>
    rw [List.append_assoc, decode_header, ((readBody_follows _).ok_iff _ _).2 ⟨body, rfl, h⟩]
    simp only
    rw [Table.ext fun key => (Table.get?_ofList entries key).trans (hm key).symm]
  | noHeader h => rw [decode, splitExactly_eq_none_iff.2 h]
  | @magic found rest h h' hm =>
    have hs : splitExactly 6 (found ++ rest) = some (found ++ rest.take 2, rest.drop 2) :=
      splitExactly_eq_some_iff.2 ⟨by rw [List.append_assoc, List.take_append_drop],
        by rw [List.length_append, List.length_take]; omega⟩
    rw [decode, hs]
    simp only
    rw [List.take_left' h, if_pos hm]
  | @version n rest hn h =>
    have hs : splitExactly 6 (magic ++ LittleEndian.toBytes 2 n ++ rest) =
        some (magic ++ LittleEndian.toBytes 2 n, rest) :=
      splitExactly_eq_some_iff.2
        ⟨rfl, by rw [List.length_append, LittleEndian.length_toBytes]; rfl⟩
    have htake : (magic ++ LittleEndian.toBytes 2 n).take 4 = magic := List.take_left' rfl
    have hdrop : (magic ++ LittleEndian.toBytes 2 n).drop 4 = LittleEndian.toBytes 2 n :=
      List.drop_left' rfl
    rw [decode, hs]
    simp only
    rw [htake, hdrop, LittleEndian.ofBytes_toBytes hn, if_neg (not_not_intro rfl), if_pos h]
  | truncated h => rw [decode_header, ((readBody_follows _).error_iff _).2 h]
  | malformed h => rw [decode_header, ((readBody_follows _).error_iff _).2 h]

theorem decode_unencodable? {bytes : List UInt8} {items : Table Item}
    (h : decode bytes = .ok items) {key : String} {item : Item} (hi : items.get? key = some item) :
    item.value.unencodable? = none := by
  have hv := verdict_decode bytes
  rw [h] at hv
  generalize hr : Except.ok items = result at hv
  cases hv with
  | accepted hb hm =>
    cases hr
    cases hb with
    | @intro parts _ hp =>
      rw [hm] at hi
      obtain ⟨part, hpart, e⟩ := List.mem_map.1 (List.mem_reverse.1 (Table.mem_of_find? hi))
      have hf := hp part hpart
      rw [e] at hf
      generalize part.1 = front at hf
      cases hf with
      | intro _ hv _ => exact hv.unencodable?
  | _ => cases hr

/-! ## Numbers that exceed what is there -/

theorem ValueStops.of_few_items {n : Nat} {parts : List (List UInt8 × Value)} (hn : n < 2 ^ 64)
    (hp : parts.length < n) (h : ∀ part ∈ parts, ValueForm part.1 part.2) :
    ValueStops (writeVariant 14 ++ writeCount n ++ parts.flatMap Prod.fst) .outOfBytes := by
  have hs := ValueStops.item hn hp h (.noVariant (show [].length < 4 by decide))
  rwa [List.append_nil] at hs

theorem ValueStops.of_few_fields {n : Nat} {parts : List (List UInt8 × String × Value)}
    (hn : n < 2 ^ 64) (hp : parts.length < n) (h : ∀ part ∈ parts, FieldForm part.1 part.2) :
    ValueStops (writeVariant 15 ++ writeCount n ++ parts.flatMap Prod.fst) .outOfBytes := by
  have hs := ValueStops.field hn hp h (.key (.noLength (show [].length < 8 by decide)))
  rwa [List.append_nil] at hs

theorem BodyStops.of_few_entries {n : Nat} {parts : List (List UInt8 × String × Item)}
    (hn : n < 2 ^ 64) (hp : parts.length < n) (h : ∀ part ∈ parts, EntryForm part.1 part.2) :
    BodyStops (writeCount n ++ parts.flatMap Prod.fst) .outOfBytes := by
  have hs := BodyStops.entry hn hp h (.key (.noLength (show [].length < 8 by decide)))
  rwa [List.append_nil] at hs

/-- Bytes are decoded to the table they are a snapshot of, which holds no handles, or to the first
thing wrong with them. They have run out, in particular, where a text is said to be longer than
the bytes that are left, or a list, a map or the whole snapshot to have more parts than there
are. -/
theorem decode_classified :
    (∀ bytes result, decode bytes = result ↔ Verdict bytes result) ∧
    (∀ bytes items, decode bytes = .ok items →
      ∀ key item, items.get? key = some item → item.value.unencodable? = none) ∧
    (∀ n content, n < 2 ^ 64 → content.length < n →
      TextStops (writeCount n ++ content) .outOfBytes) ∧
    (∀ n (parts : List (List UInt8 × Value)), n < 2 ^ 64 → parts.length < n →
      (∀ part ∈ parts, ValueForm part.1 part.2) →
      ValueStops (writeVariant 14 ++ writeCount n ++ parts.flatMap Prod.fst) .outOfBytes) ∧
    (∀ n (parts : List (List UInt8 × String × Value)), n < 2 ^ 64 → parts.length < n →
      (∀ part ∈ parts, FieldForm part.1 part.2) →
      ValueStops (writeVariant 15 ++ writeCount n ++ parts.flatMap Prod.fst) .outOfBytes) ∧
    (∀ n (parts : List (List UInt8 × String × Item)), n < 2 ^ 64 → parts.length < n →
      (∀ part ∈ parts, EntryForm part.1 part.2) →
      decode (header ++ (writeCount n ++ parts.flatMap Prod.fst)) =
        .error (.invalidSnapshot .truncatedBody)) := by
  refine ⟨fun bytes result => ⟨?_, decode_of_verdict⟩, ?_, ?_, ?_, ?_, ?_⟩
  · rintro rfl
    exact verdict_decode bytes
  · exact fun _ _ h _ _ hi => decode_unencodable? h hi
  · exact fun _ _ hn h => .short hn h
  · exact fun _ _ hn hp h => .of_few_items hn hp h
  · exact fun _ _ hn hp h => .of_few_fields hn hp h
  · exact fun _ _ hn hp h => decode_of_verdict (.truncated (.of_few_entries hn hp h))

end Snapshot

end ExpiringCache
