import ExpiringCache.Proofs.Number.Wrapping
import ExpiringCache.Proofs.Snapshot.Handles
import ExpiringCache.Proofs.Text.Order
import Mathlib.Algebra.Order.BigOperators.Group.List
import Mathlib.Data.List.Flatten
import Mathlib.Data.List.Perm.Subperm

/-!
# Values written anew

A value that has been read is written again in a normal form: no longer than the bytes that it was
read from, read as the same value, and the same bytes just if in these the keys of every map ascend
(`normal_form_of_read`).

* `ValueForm.parts_induction` is the induction that the grammar of values gives: over the items of
  a list and the fields of a map, as they stand in the bytes.
* `written` is what is written for a value, by its parts (`written_leaf`, `written_list`,
  `written_map`). Of the fields in the bytes of a map it has some, each under a key of its own, so
  it is no longer (`length_written_le`).
* `MapWithin` finds the maps in the bytes of a value. Where their keys ascend no field is left out
  or moved (`written_eq`). Where the bytes are what is written, each part of them is, since no bytes
  have two parts at their front (`Follows.unique`, `ascending_of_written`).
-/

namespace ExpiringCache

theorem FixedInt.code_ofInt {type : IntType} {n : Nat} (h : n < 256 ^ type.byteCount) :
    (ofInt type n).code = n := by
  have hpow : type.modulus = 256 ^ type.byteCount := by cases type <;> rfl
  have hmod : type.wrap n % type.modulus = n := by
    rw [type.wrap_modEq n]
    exact Int.emod_eq_of_lt (Int.natCast_nonneg n) (by exact_mod_cast hpow ▸ h)
  rw [code, ofInt]
  simp only [hmod, Int.toNat_natCast]

namespace Snapshot

variable {α : Type}

/-! ## Written values by their parts -/

theorem textForm_iff {bytes : List UInt8} {text : String} :
    TextForm bytes text ↔ bytes = writeText text ∧ TextFits text := by
  constructor
  · rintro ⟨_, hl⟩
    exact ⟨rfl, hl⟩
  · rintro ⟨rfl, hl⟩
    exact .intro text hl

theorem fieldForm_iff {bytes : List UInt8} {field : String × Value} :
    FieldForm bytes field ↔
      TextFits field.1 ∧ ∃ content, bytes = writeText field.1 ++ content ∧
        ValueForm content field.2 := by
  constructor
  · rintro ⟨hk, hv⟩
    obtain ⟨rfl, hl⟩ := textForm_iff.1 hk
    exact ⟨hl, _, rfl, hv⟩
  · rintro ⟨hl, content, rfl, hv⟩
    exact .intro (textForm_iff.2 ⟨rfl, hl⟩) hv

/-- What holds of scalars, of a list if it holds of its items and of a map if it holds of the values
of its fields as they stand in the bytes, holds of every written value. -/
@[elab_as_elim]
theorem ValueForm.parts_induction
    {motive : (bytes : List UInt8) → (value : Value) → ValueForm bytes value → Prop}
    (leaf : ∀ {index : Nat} {content : List UInt8} {scalar : Scalar}
      (h : ScalarForm index content scalar),
      motive (writeVariant index ++ content) (.leaf scalar) (.leaf h))
    (list : ∀ {parts : List (List UInt8 × Value)} (hn : parts.length < 2 ^ 64)
      (h : ∀ part ∈ parts, ValueForm part.1 part.2),
      (∀ part (hp : part ∈ parts), motive part.1 part.2 (h part hp)) →
      motive (writeVariant 14 ++ writeCount parts.length ++ parts.flatMap Prod.fst)
        (.list (.ofTrees (parts.map Prod.snd))) (.list hn h))
    (map : ∀ {parts : List (List UInt8 × String × Value)} {fields : Fields Scalar none}
      (hn : parts.length < 2 ^ 64) (h : ∀ part ∈ parts, FieldForm part.1 part.2)
      (hf : ∀ key, Table.find? key fields.pairs = Table.find? key (parts.map Prod.snd).reverse),
      (∀ part ∈ parts, ∃ (content : List UInt8) (hv : ValueForm content part.2.2),
        part.1 = writeText part.2.1 ++ content ∧ motive content part.2.2 hv) →
      motive (writeVariant 15 ++ writeCount parts.length ++ parts.flatMap Prod.fst) (.map fields)
        (.map hn h hf))
    {bytes : List UInt8} {value : Value} (h : ValueForm bytes value) : motive bytes value h := by
  -- A part of a list or map stands within a list of parts, where the induction of the grammar
  -- does not reach. It is shorter than the whole.
  induction hl : bytes.length using Nat.strongRecOn generalizing bytes value with
  | ind l ih =>
    cases h with
    | leaf h => exact leaf h
    | list hn h =>
      refine list hn h fun part hp => ih part.1.length ?_ (h part hp) rfl
      have := length_le_length_flatMap hp
      rw [← hl, List.length_append, List.length_append, length_writeVariant]
      omega
    | map hn h hf =>
      refine map hn h hf fun part hp => ?_
      obtain ⟨-, content, hc, hv⟩ := fieldForm_iff.1 (h part hp)
      refine ⟨content, hv, hc, ih content.length ?_ hv rfl⟩
      have := length_le_length_flatMap hp
      rw [hc, List.length_append] at this
      rw [← hl, List.length_append, List.length_append, length_writeVariant]
      omega

/-- A field of a map is one of those that stand in the bytes. -/
theorem mem_parts {parts : List (List UInt8 × String × Value)} {fields : Fields Scalar none}
    (hf : ∀ key, Table.find? key fields.pairs = Table.find? key (parts.map Prod.snd).reverse) :
    fields.pairs ⊆ parts.map Prod.snd := by
  intro field hm
  have hfind := (Table.find?_eq_some_iff (Node.ascending_pairs fields).distinct).2 hm
  rw [hf] at hfind
  exact List.mem_reverse.1 (Table.mem_of_find? hfind)

/-! ## What is written -/

/-- The bytes of a value without handles. -/
def written (value : Value) : List UInt8 := (writeValue value).toOption.getD []

/-- The bytes of a field whose value is without handles. -/
def writtenField (field : String × Value) : List UInt8 := writeText field.1 ++ written field.2

theorem writeValue_written {value : Value} (h : value.unencodable? = none) :
    writeValue value = .ok (written value) := by
  have hf : fault? (writeValue value) = none := by
    rw [writeValue, writeNode_fault?]
    exact Option.map_eq_none_iff.2 h
  obtain ⟨bytes, hw⟩ := fault?_eq_none_iff.1 hf
  rw [written, hw]
  rfl

theorem writeItems_written : (items : Items Scalar) →
    (∀ item ∈ items.trees, Value.unencodable? item = none) →
    writeNode items = .ok (items.trees.flatMap written)
  | .nil, _ => rfl
  | .cons head tail, h => by
    obtain ⟨hh, ht⟩ := List.forall_mem_cons.1 h
    have hw : writeNode head = .ok (written head) := writeValue_written hh
    rw [writeNode, hw, ok_bind, writeItems_written tail ht, ok_bind]
    rfl

theorem writeFields_written : {bound : Option String} → (fields : Fields Scalar bound) →
    (∀ field ∈ fields.pairs, Value.unencodable? field.2 = none) →
    writeNode fields = .ok (fields.pairs.flatMap writtenField)
  | _, .done, _ => rfl
  | _, .field key _ value rest, h => by
    obtain ⟨hv, hr⟩ := List.forall_mem_cons.1 h
    have hw : writeNode value = .ok (written value) := writeValue_written hv
    rw [writeNode, hw, ok_bind, writeFields_written rest hr, ok_bind]
    rfl

theorem written_of_ok {value : Value} {bytes : List UInt8} (h : writeValue value = .ok bytes) :
    written value = bytes := by
  rw [written, h]
  rfl

theorem written_list {items : Items Scalar}
    (h : ∀ item ∈ items.trees, Value.unencodable? item = none) :
    written (.list items) =
      writeVariant 14 ++ writeCount items.trees.length ++ items.trees.flatMap written := by
  refine written_of_ok ?_
  rw [writeValue, writeNode, writeItems_written items h, ok_bind]
  rfl

theorem written_map {fields : Fields Scalar none}
    (h : ∀ field ∈ fields.pairs, Value.unencodable? field.2 = none) :
    written (.map fields) =
      writeVariant 15 ++ writeCount fields.pairs.length ++ fields.pairs.flatMap writtenField := by
  refine written_of_ok ?_
  rw [writeValue, writeNode, writeFields_written fields h, ok_bind]
  rfl

/-- A scalar has one form. -/
theorem written_leaf {index : Nat} {content : List UInt8} {scalar : Scalar}
    (h : ScalarForm index content scalar) :
    written (.leaf scalar) = writeVariant index ++ content := by
  refine written_of_ok ?_
  show writeScalar scalar = _
  cases h with
  | null => rfl
  | bool b => rfl
  | int type hl =>
    have hc := FixedInt.code_ofInt (hl ▸ LittleEndian.ofBytes_lt content)
    have hb := LittleEndian.toBytes_ofBytes content
    rw [hl] at hb
    rw [writeScalar, hc]
    exact congrArg (fun bytes => Except.ok (writeVariant (intVariant type) ++ bytes)) hb
  | float32 hl =>
    have hlt := LittleEndian.ofBytes_lt content
    have hb := LittleEndian.toBytes_ofBytes content
    rw [hl] at hlt hb
    simp only [writeScalar, Nat.toUInt32, UInt32.toNat_ofNat_of_lt' hlt, hb]
  | float64 hl =>
    have hlt := LittleEndian.ofBytes_lt content
    have hb := LittleEndian.toBytes_ofBytes content
    rw [hl] at hlt hb
    simp only [writeScalar, Nat.toUInt64, UInt64.toNat_ofNat_of_lt' hlt, hb]
  | text ht =>
    obtain ⟨rfl, -⟩ := textForm_iff.1 ht
    rfl
  | bytes _ => rw [writeScalar, List.append_assoc]

section
variable {items : List (List UInt8 × Value)} {fields : List (List UInt8 × String × Value)}
  {map : Fields Scalar none}

theorem written_items (h : ∀ part ∈ items, ValueForm part.1 part.2) :
    written (.list (.ofTrees (items.map Prod.snd))) =
      writeVariant 14 ++ writeCount items.length ++ items.flatMap fun part => written part.2 := by
  have he : ∀ item ∈ (Node.ofTrees (items.map Prod.snd)).trees, Value.unencodable? item = none := by
    rw [Node.trees_ofTrees]
    exact List.forall_mem_map.2 fun part hp => (h part hp).unencodable?
  rw [written_list he, Node.trees_ofTrees, List.length_map, List.flatMap_map]

theorem written_fields (h : ∀ part ∈ fields, FieldForm part.1 part.2)
    (hf : map.pairs ⊆ fields.map Prod.snd) :
    written (.map map) =
      writeVariant 15 ++ writeCount map.pairs.length ++ map.pairs.flatMap writtenField := by
  refine written_map fun field hm => ?_
  obtain ⟨part, hp, rfl⟩ := List.mem_map.1 (hf hm)
  obtain ⟨-, content, -, hv⟩ := fieldForm_iff.1 (h part hp)
  exact hv.unencodable?

/-- The fields of a map are under different keys, so there are no more of them than in the bytes. -/
theorem subperm_parts (hf : map.pairs ⊆ fields.map Prod.snd) :
    map.pairs.Subperm (fields.map Prod.snd) :=
  List.Nodup.subperm (Node.ascending_pairs map).distinct.nodup hf

end

theorem length_flatMap_le {l : List α} {f g : α → List UInt8}
    (h : ∀ a ∈ l, (f a).length ≤ (g a).length) : (l.flatMap f).length ≤ (l.flatMap g).length := by
  rw [List.length_flatMap, List.length_flatMap]
  exact List.sum_le_sum h

theorem length_flatMap_le_of_subperm {l l' : List α} (h : l.Subperm l') (f : α → List UInt8) :
    (l.flatMap f).length ≤ (l'.flatMap f).length := by
  obtain ⟨ordered, hp, hs⟩ := h
  rw [← (hp.flatMap_right f).length_eq]
  exact (hs.flatMap f).length_le

theorem length_writeCount (n : Nat) : (writeCount n).length = 8 := LittleEndian.length_toBytes 8 n

/-- What is written is no longer than what was read. -/
theorem length_written_le {bytes : List UInt8} {value : Value} (h : ValueForm bytes value) :
    (written value).length ≤ bytes.length := by
  induction h using ValueForm.parts_induction with
  | leaf h => rw [written_leaf h]
  | list hn h ih =>
    simp only [written_items h, List.length_append]
    exact Nat.add_le_add_left (length_flatMap_le ih) _
  | @map parts fields hn h hf ih =>
    have hsub := mem_parts hf
    -- There are no more fields than in the bytes, and each is no longer than it was there.
    have hle := length_flatMap_le_of_subperm (subperm_parts hsub) writtenField
    have hparts : ((parts.map Prod.snd).flatMap writtenField).length ≤
        (parts.flatMap Prod.fst).length := by
      rw [List.flatMap_map]
      refine length_flatMap_le fun part hp => ?_
      obtain ⟨content, -, hc, hl⟩ := ih part hp
      rw [hc, writtenField, List.length_append, List.length_append]
      exact Nat.add_le_add_left hl _
    rw [written_fields h hsub]
    simp only [List.length_append, length_writeVariant, length_writeCount]
    omega

/-- What is written has the form of a value, and it is the value that was read. -/
theorem written_form {bytes : List UInt8} {value : Value} (h : ValueForm bytes value) :
    ValueForm (written value) value := by
  induction h using ValueForm.parts_induction with
  | leaf h =>
    rw [written_leaf h]
    exact .leaf h
  | @list parts hn h ih =>
    have hw : ∀ part ∈ parts.map fun part => (written part.2, part.2), ValueForm part.1 part.2 :=
      List.forall_mem_map.2 ih
    have hform := ValueForm.list (by rwa [List.length_map]) hw
    rw [List.length_map, List.map_map, List.flatMap_map] at hform
    rw [written_items h]
    exact hform
  | @map parts fields hn h hf ih =>
    have hsub := mem_parts hf
    have hw : ∀ part ∈ fields.pairs.map fun field => (writtenField field, field),
        FieldForm part.1 part.2 := by
      refine List.forall_mem_map.2 fun field hm => ?_
      obtain ⟨part, hp, rfl⟩ := List.mem_map.1 (hsub hm)
      obtain ⟨content, -, -, hv⟩ := ih part hp
      exact fieldForm_iff.2 ⟨(fieldForm_iff.1 (h part hp)).1, _, rfl, hv⟩
    have hl := (subperm_parts hsub).length_le
    rw [List.length_map] at hl
    have hid : (fields.pairs.map fun field => (writtenField field, field)).map Prod.snd =
        fields.pairs := by rw [List.map_map]; exact List.map_id _
    have hlast : ∀ key, Table.find? key fields.pairs = Table.find? key
        ((fields.pairs.map fun field => (writtenField field, field)).map Prod.snd).reverse := by
      intro key
      rw [hid, Table.find?_reverse (Node.ascending_pairs fields).distinct]
    have hform := ValueForm.map (by rw [List.length_map]; omega) hw hlast
    rw [List.length_map, List.flatMap_map] at hform
    rw [written_fields h hsub]
    exact hform

/-! ## One value in the bytes -/

/-- No bytes have two parts at their front. -/
theorem Follows.unique {read : Reader α} {form : List UInt8 → α → Prop}
    {stops : List UInt8 → ReadFault → Prop} (h : ∀ bytes, Follows read form stops bytes)
    {front front' rest rest' : List UInt8} {a a' : α} (hf : form front a) (hf' : form front' a')
    (e : front ++ rest = front' ++ rest') : front = front' ∧ a = a' ∧ rest = rest' := by
  have ha := ((h _).ok_iff a rest).2 ⟨front, rfl, hf⟩
  have ha' := ((h _).ok_iff a' rest').2 ⟨front', rfl, hf'⟩
  rw [e, ha'] at ha
  obtain ⟨rfl, rfl⟩ := Prod.mk.inj (Except.ok.inj ha)
  exact ⟨List.append_cancel_right e, rfl, rfl⟩

/-- Nor do they fall into a number of parts in two ways. -/
theorem Follows.parts_unique {read : Reader α} {form : List UInt8 → α → Prop}
    {stops : List UInt8 → ReadFault → Prop} (h : ∀ bytes, Follows read form stops bytes)
    {parts parts' : List (List UInt8 × α)} (hl : parts.length = parts'.length)
    (hp : ∀ part ∈ parts, form part.1 part.2) (hp' : ∀ part ∈ parts', form part.1 part.2)
    (e : parts.flatMap Prod.fst = parts'.flatMap Prod.fst) : parts = parts' := by
  induction parts generalizing parts' with
  | nil => exact (List.eq_nil_of_length_eq_zero hl.symm).symm
  | cons part parts ih =>
    cases parts' with
    | nil => cases hl
    | cons part' parts' =>
      obtain ⟨hf, hp⟩ := List.forall_mem_cons.1 hp
      obtain ⟨hf', hp'⟩ := List.forall_mem_cons.1 hp'
      obtain ⟨hfront, ha, hrest⟩ := Follows.unique h hf hf' e
      rw [Prod.ext hfront ha, ih (Nat.succ.inj hl) hp hp' hrest]

theorem readField_follows_all (bytes : List UInt8) :
    Follows (readField readValue) FieldForm FieldStops bytes :=
  readField_follows (fun bytes _ => readValue_follows bytes) (Nat.lt_succ_self bytes.length)

theorem ValueForm.value_unique {bytes : List UInt8} {value value' : Value}
    (h : ValueForm bytes value) (h' : ValueForm bytes value') : value = value' :=
  (Follows.unique readValue_follows h h' (Eq.refl (bytes ++ []))).2.1

theorem counted_inj {index n n' : Nat} {bytes bytes' : List UInt8} (hn : n < 2 ^ 64)
    (hn' : n' < 2 ^ 64)
    (e : writeVariant index ++ writeCount n ++ bytes =
      writeVariant index ++ writeCount n' ++ bytes') : n = n' ∧ bytes = bytes' := by
  rw [List.append_assoc, List.append_assoc] at e
  obtain ⟨hc, hb⟩ := List.append_inj (List.append_cancel_left e)
    (by rw [length_writeCount, length_writeCount])
  have h := congrArg LittleEndian.ofBytes hc
  rw [writeCount, writeCount, LittleEndian.ofBytes_toBytes hn,
    LittleEndian.ofBytes_toBytes hn'] at h
  exact ⟨h, hb⟩

/-! ## Maps whose keys ascend -/

/-- Within the bytes of a value, at whatever depth, stands a map. Its keys, as bytes, are given in
the order in which they stand. -/
inductive MapWithin : List UInt8 → List (List UInt8) → Prop where
  | here {parts : List (List UInt8 × String × Value)} (hn : parts.length < 2 ^ 64)
      (h : ∀ part ∈ parts, FieldForm part.1 part.2) :
      MapWithin (writeVariant 15 ++ writeCount parts.length ++ parts.flatMap Prod.fst)
        (parts.map fun part => Utf8.encode part.2.1)
  | item {parts : List (List UInt8 × Value)} {part : List UInt8 × Value}
      {keys : List (List UInt8)} (hn : parts.length < 2 ^ 64)
      (h : ∀ part ∈ parts, ValueForm part.1 part.2) (hp : part ∈ parts)
      (hm : MapWithin part.1 keys) :
      MapWithin (writeVariant 14 ++ writeCount parts.length ++ parts.flatMap Prod.fst) keys
  | field {parts : List (List UInt8 × String × Value)} {part : List UInt8 × String × Value}
      {content : List UInt8} {keys : List (List UInt8)} (hn : parts.length < 2 ^ 64)
      (h : ∀ part ∈ parts, FieldForm part.1 part.2) (hp : part ∈ parts)
      (hc : part.1 = writeText part.2.1 ++ content) (hm : MapWithin content keys) :
      MapWithin (writeVariant 15 ++ writeCount parts.length ++ parts.flatMap Prod.fst) keys

theorem pairwise_encode_iff {parts : List (List UInt8 × String × Value)} :
    (parts.map fun part => Utf8.encode part.2.1).Pairwise (· < ·) ↔
      Table.Ascending (parts.map Prod.snd) := by
  rw [Table.Ascending, List.pairwise_map, List.pairwise_map]
  simp only [Utf8.encode_lt_encode_iff]

/-- Where the keys of every map ascend, the bytes are what is written. -/
theorem written_eq {bytes : List UInt8} {value : Value} (h : ValueForm bytes value) :
    (∀ keys, MapWithin bytes keys → keys.Pairwise (· < ·)) → written value = bytes := by
  induction h using ValueForm.parts_induction with
  | leaf h => exact fun _ => written_leaf h
  | list hn h ih =>
    intro asc
    rw [written_items h]
    refine congrArg _ (List.flatMap_congr fun part hp => ?_)
    exact ih part hp fun keys hm => asc keys (.item hn h hp hm)
  | @map parts fields hn h hf ih =>
    intro asc
    have hasc : Table.Ascending (parts.map Prod.snd) := pairwise_encode_iff.1 (asc _ (.here hn h))
    have e : fields.pairs = parts.map Prod.snd :=
      Table.eq_of_find?_eq (Node.ascending_pairs fields) hasc fun key => by
        rw [hf, Table.find?_reverse hasc.distinct]
    rw [written_fields h (mem_parts hf), e, List.length_map, List.flatMap_map]
    refine congrArg _ (List.flatMap_congr fun part hp => ?_)
    obtain ⟨content, -, hc, ihv⟩ := ih part hp
    rw [writtenField, ihv fun keys hm => asc keys (.field hn h hp hc hm), hc]

/-- The items in the bytes are what is written for them, if the bytes of the list are. -/
theorem written_item {parts : List (List UInt8 × Value)} (hn : parts.length < 2 ^ 64)
    (h : ∀ part ∈ parts, ValueForm part.1 part.2)
    (hw : written (.list (.ofTrees (parts.map Prod.snd))) =
      writeVariant 14 ++ writeCount parts.length ++ parts.flatMap Prod.fst) :
    ∀ part ∈ parts, written part.2 = part.1 := by
  rw [written_items h] at hw
  have e : (parts.map fun part => (written part.2, part.2)) = parts := by
    refine Follows.parts_unique readValue_follows (List.length_map _) ?_ h ?_
    · exact List.forall_mem_map.2 fun part hp => written_form (h part hp)
    · rw [List.flatMap_map]
      exact (counted_inj hn hn hw).2
  have same := List.map_inj_left.1 (e.trans (List.map_id parts).symm)
  exact fun part hp => congrArg Prod.fst (same part hp)

/-- The fields in the bytes are the fields of the map, and they are what is written for these, if
the bytes of the map are. -/
theorem written_field {parts : List (List UInt8 × String × Value)} {fields : Fields Scalar none}
    (hn : parts.length < 2 ^ 64) (h : ∀ part ∈ parts, FieldForm part.1 part.2)
    (hf : fields.pairs ⊆ parts.map Prod.snd)
    (hw : written (.map fields) =
      writeVariant 15 ++ writeCount parts.length ++ parts.flatMap Prod.fst) :
    (fields.pairs.map fun field => (writtenField field, field)) = parts := by
  have hl := (subperm_parts hf).length_le
  rw [List.length_map] at hl
  rw [written_fields h hf] at hw
  obtain ⟨hcount, hbytes⟩ := counted_inj (by omega) hn hw
  refine Follows.parts_unique readField_follows_all ?_ ?_ h ?_
  · rw [List.length_map, hcount]
  · refine List.forall_mem_map.2 fun field hm => ?_
    obtain ⟨part, hp, rfl⟩ := List.mem_map.1 (hf hm)
    obtain ⟨hk, content, -, hv⟩ := fieldForm_iff.1 (h part hp)
    exact fieldForm_iff.2 ⟨hk, _, rfl, written_form hv⟩
  · rw [List.flatMap_map]
    exact hbytes

/-- In what is written the keys of every map ascend. -/
theorem ascending_of_written {bytes : List UInt8} {keys : List (List UInt8)}
    (hm : MapWithin bytes keys) {value : Value} (h : ValueForm bytes value)
    (hw : written value = bytes) : keys.Pairwise (· < ·) := by
  induction hm generalizing value with
  | @here parts hn hp =>
    have hlast := Node.find?_ofPairs (parts.map Prod.snd)
    obtain rfl := h.value_unique (.map hn hp hlast)
    have e := congrArg (List.map Prod.snd) (written_field hn hp (mem_parts hlast) hw)
    rw [List.map_map] at e
    rw [pairwise_encode_iff, ← e]
    exact (List.map_id _).symm ▸ Node.ascending_pairs _
  | item hn hp hmem _ ih =>
    obtain rfl := h.value_unique (.list hn hp)
    exact ih (hp _ hmem) (written_item hn hp hw _ hmem)
  | @field parts part content keys hn hp hmem hc _ ih =>
    -- The field in the bytes is one of the map, so its content is what is written for its value.
    have hlast := Node.find?_ofPairs (parts.map Prod.snd)
    obtain rfl := h.value_unique (.map hn hp hlast)
    have e := written_field hn hp (mem_parts hlast) hw
    rw [← e] at hmem
    obtain ⟨field, -, rfl⟩ := List.mem_map.1 hmem
    have hcontent : written field.2 = content := List.append_cancel_left hc
    obtain ⟨-, content', hc', hv⟩ := fieldForm_iff.1 (hp _ (e ▸ hmem))
    obtain rfl : content' = content := List.append_cancel_left (hc'.symm.trans hc)
    exact ih hv hcontent

/-- Bytes from whose front a value is read: it holds no handle, and it is written again in no more
bytes than were taken, from which it is read, whatever follows them. They are the bytes that were
taken, byte for byte, just if in these the keys of every map ascend strictly. -/
theorem normal_form_of_read {bytes rest : List UInt8} {value : Value}
    (h : readValue bytes = .ok (value, rest)) :
    ¬ value.HoldsHandle ∧
      ∃ front normal, bytes = front ++ rest ∧ writeValue value = .ok normal ∧
        normal.length ≤ front.length ∧
        (∀ rest, readValue (normal ++ rest) = .ok (value, rest)) ∧
        (normal = front ↔ ∀ keys, MapWithin front keys → keys.Pairwise (· < ·)) := by
  obtain ⟨front, rfl, hf⟩ := ((readValue_follows bytes).ok_iff value rest).1 h
  refine ⟨Value.not_holdsHandle hf.unencodable?, front, written value, rfl,
    writeValue_written hf.unencodable?, length_written_le hf, fun rest => ?_, fun e keys hm => ?_,
    written_eq hf⟩
  · exact ((readValue_follows _).ok_iff value rest).2 ⟨_, rfl, written_form hf⟩
  · exact ascending_of_written hm hf e

/-- A map in a list. Of its fields two are under one key and the last is under a lesser one. A byte
follows that is not taken. -/
def unsortedMap : List UInt8 :=
  writeVariant 14 ++ writeCount 1 ++
    (writeVariant 15 ++ writeCount 3 ++
      (writeText "b" ++ (writeVariant 13 ++ writeCount 2 ++ [7, 7])) ++
      (writeText "b" ++ writeVariant 0) ++
      (writeText "a" ++ (writeVariant 1 ++ [1]))) ++ [255]

/-- The map of `unsortedMap`. -/
def sortedMap : Value :=
  .list (.ofTrees [.map (.ofPairs [("a", .leaf (.bool true)), ("b", .leaf .null)])])

theorem normal_form_of_read_unsorted :
    readValue unsortedMap = .ok (sortedMap, [255]) ∧ ¬ sortedMap.HoldsHandle ∧
      ∃ front normal, unsortedMap = front ++ [255] ∧ writeValue sortedMap = .ok normal ∧
        normal.length < front.length ∧
        (∀ rest, readValue (normal ++ rest) = .ok (sortedMap, rest)) ∧
        ¬ ∀ keys, MapWithin front keys → keys.Pairwise (· < ·) := by
  have h : readValue unsortedMap = .ok (sortedMap, [255]) := by rfl
  obtain ⟨handles, front, normal, e, hw, hl, hr, iff⟩ := normal_form_of_read h
  have whole : unsortedMap = unsortedMap.dropLast ++ [255] := by decide +kernel
  obtain rfl : front = unsortedMap.dropLast := List.append_cancel_right (e.symm.trans whole)
  have hn : (writeValue sortedMap).map List.length = .ok 51 := by decide +kernel
  rw [hw] at hn
  have hlt : normal.length < unsortedMap.dropLast.length := by
    rw [show normal.length = 51 from Except.ok.inj hn]
    decide +kernel
  exact ⟨h, handles, _, normal, e, hw, hlt, hr, fun asc => by simp [iff.2 asc] at hlt⟩

end Snapshot

end ExpiringCache
