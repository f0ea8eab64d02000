import ExpiringCache.Proofs.Snapshot.Decoding
import ExpiringCache.Proofs.Time.Timestamp

/-!
# Snapshots, written and read

A table in which every entry is `Storable` is what its snapshot is read as, whatever bytes follow
and in whatever order its entries are written (`round_trip`).

* `Written` says of a value, and of the items or fields of one, that bytes have the form that the
  grammar gives. The writer recurses over these, and what it writes is `Written`
  (`writeNode_written`).
* Entries come one after the other as items do (`Sequence`, `writeBody_form`).
-/

namespace ExpiringCache

/-! ## Lengths that can be written -/

/-- The length of a text fits eight bytes. -/
def Snapshot.TextFits (text : String) : Prop := (Utf8.encode text).length < 2 ^ 64

/-- The length of the scalar, if it has one, fits eight bytes. -/
def Scalar.Fits : Scalar → Prop
  | .text content => Snapshot.TextFits content
  | .bytes content => content.length < 2 ^ 64
  | _ => True

/-- All lengths and numbers of parts within a value fit eight bytes. -/
def Node.Fits : {layer : Layer} → Node Scalar layer → Prop
  | _, .leaf scalar => scalar.Fits
  | _, .list items => items.trees.length < 2 ^ 64 ∧ items.Fits
  | _, .map fields => fields.pairs.length < 2 ^ 64 ∧ fields.Fits
  | _, .nil => True
  | _, .cons head tail => head.Fits ∧ tail.Fits
  | _, .done => True
  | _, .field key _ value rest => Snapshot.TextFits key ∧ value.Fits ∧ rest.Fits

instance (text : String) : Decidable (Snapshot.TextFits text) := inferInstanceAs (Decidable (_ < _))

instance : (scalar : Scalar) → Decidable scalar.Fits
  | .text content => inferInstanceAs (Decidable (Snapshot.TextFits content))
  | .bytes content => inferInstanceAs (Decidable (content.length < 2 ^ 64))
  | .null | .bool _ | .int _ | .float32 _ | .float64 _ | .handle _ => .isTrue trivial

/-- Whether all lengths in a value fit can be computed. -/
def Node.decidableFits : {layer : Layer} → (node : Node Scalar layer) → Decidable node.Fits
  | _, .leaf scalar => inferInstanceAs (Decidable scalar.Fits)
  | _, .list items => @instDecidableAnd _ _ _ items.decidableFits
  | _, .map fields => @instDecidableAnd _ _ _ fields.decidableFits
  | _, .nil => .isTrue trivial
  | _, .cons head tail => @instDecidableAnd _ _ head.decidableFits tail.decidableFits
  | _, .done => .isTrue trivial
  | _, .field _ _ value rest =>
    @instDecidableAnd _ _ _ (@instDecidableAnd _ _ value.decidableFits rest.decidableFits)

instance {layer : Layer} (node : Node Scalar layer) : Decidable node.Fits := node.decidableFits

namespace FixedInt

theorem modulus_pos (type : IntType) : (0 : Int) < type.modulus := by cases type <;> decide

theorem code_lt (n : FixedInt) : n.code < 256 ^ n.type.byteCount := by
  have hpos := modulus_pos n.type
  have hpow : n.type.modulus = 256 ^ n.type.byteCount := by cases n.type <;> rfl
  rw [← hpow, code, Int.toNat_lt (Int.emod_nonneg _ (Int.ne_of_gt hpos))]
  exact Int.emod_lt_of_pos _ hpos

/-- An integer is the value of its type that is congruent to what its bytes spell. -/
theorem ofInt_code (n : FixedInt) : ofInt n.type n.code = n := by
  obtain ⟨type, val, hmin, hmax⟩ := n
  have hcode : ((val % type.modulus).toNat : Int) = val % type.modulus :=
    Int.toNat_of_nonneg (Int.emod_nonneg _ (Int.ne_of_gt (modulus_pos type)))
  have hwrap : type.wrap (val % type.modulus) = val := by
    cases type <;>
      simp only [IntType.wrap, IntType.signed, IntType.modulus, IntType.bits, IntType.byteCount,
        IntType.min, IntType.max, Int.bmod_def] at hmin hmax ⊢ <;> grind
  simp only [ofInt, code, hcode, hwrap]

end FixedInt

/-! ## Values -/

namespace Snapshot

variable {α : Type}

theorem writeScalar_form {scalar : Scalar} (hf : scalar.Fits) (hh : scalar.handleType? = none) :
    ∃ bytes, writeScalar scalar = .ok bytes ∧ ValueForm bytes (.leaf scalar) := by
  cases scalar with
  | null => exact ⟨_, rfl, .leaf .null⟩
  | bool b => exact ⟨_, rfl, .leaf (.bool b)⟩
  | int n =>
    have h := ScalarForm.int n.type (LittleEndian.length_toBytes n.type.byteCount n.code)
    rw [LittleEndian.ofBytes_toBytes n.code_lt, n.ofInt_code] at h
    exact ⟨_, rfl, .leaf h⟩
  | float32 x =>
    have h := ScalarForm.float32 (LittleEndian.length_toBytes 4 x.bits.toNat)
    rw [LittleEndian.ofBytes_toBytes x.bits.toNat_lt, Nat.toUInt32, UInt32.ofNat_toNat] at h
    exact ⟨_, rfl, .leaf h⟩
  | float64 x =>
    have h := ScalarForm.float64 (LittleEndian.length_toBytes 8 x.bits.toNat)
    rw [LittleEndian.ofBytes_toBytes x.bits.toNat_lt, Nat.toUInt64, UInt64.ofNat_toNat] at h
    exact ⟨_, rfl, .leaf h⟩
  | text content => exact ⟨_, rfl, .leaf (.text (.intro content hf))⟩
  | bytes content =>
    refine ⟨_, rfl, ?_⟩
    rw [List.append_assoc]
    exact .leaf (.bytes hf)
  | handle h => cases hh

/-- Things are written one after the other, each in its form. -/
def Sequence (form : List UInt8 → α → Prop) (bytes : List UInt8) (things : List α) : Prop :=
  ∃ parts : List (List UInt8 × α), bytes = parts.flatMap Prod.fst ∧
    parts.map Prod.snd = things ∧ ∀ part ∈ parts, form part.1 part.2

theorem Sequence.nil (form : List UInt8 → α → Prop) : Sequence form [] [] :=
  ⟨[], rfl, rfl, fun _ h => absurd h List.not_mem_nil⟩

theorem Sequence.cons {form : List UInt8 → α → Prop} {front bytes : List UInt8} {thing : α}
    {things : List α} (h : form front thing) (ht : Sequence form bytes things) :
    Sequence form (front ++ bytes) (thing :: things) := by
  obtain ⟨parts, rfl, rfl, hp⟩ := ht
  exact ⟨(front, thing) :: parts, rfl, rfl, List.forall_mem_cons.2 ⟨h, hp⟩⟩

/-- Bytes are a written value, or the items or fields of one. -/
def Written : {layer : Layer} → List UInt8 → Node Scalar layer → Prop
  | .tree, bytes, value => ValueForm bytes value
  | .items, bytes, items => Sequence ValueForm bytes items.trees
  | .fields _, bytes, fields => Sequence FieldForm bytes fields.pairs

/-- Where all lengths fit and there is no handle, a value is written in its form. -/
theorem writeNode_written {layer : Layer} (node : Node Scalar layer) (hf : node.Fits)
    (hh : ∀ scalar ∈ node.leaves, scalar.handleType? = none) :
    ∃ bytes, writeNode node = .ok bytes ∧ Written bytes node := by
  induction node with
  | leaf scalar => exact writeScalar_form hf (hh scalar List.mem_cons_self)
  | list items ih =>
    obtain ⟨hn, hf⟩ := hf
    obtain ⟨content, hw, parts, rfl, ht, hp⟩ := ih hf hh
    refine ⟨_, by rw [writeNode, hw, ok_bind]; rfl, ?_⟩
    have hl : parts.length = items.trees.length := by rw [← ht, List.length_map]
    have h := ValueForm.list (hl ▸ hn) hp
    rw [ht, Node.ofTrees_trees, hl] at h
    exact h
  | map fields ih =>
    obtain ⟨hn, hf⟩ := hf
    obtain ⟨content, hw, parts, rfl, ht, hp⟩ := ih hf hh
    refine ⟨_, by rw [writeNode, hw, ok_bind]; rfl, ?_⟩
    have hl : parts.length = fields.pairs.length := by rw [← ht, List.length_map]
    have hlast : ∀ key,
        Table.find? key fields.pairs = Table.find? key (parts.map Prod.snd).reverse := by
      intro key
      rw [ht, Table.find?_reverse (Node.ascending_pairs fields).distinct]
    have h := ValueForm.map (hl ▸ hn) hp hlast
    rw [hl] at h
    exact h
  | nil => exact ⟨[], rfl, .nil _⟩
  | cons head tail ihh iht =>
    obtain ⟨h, hw, hv⟩ := ihh hf.1 fun s hs => hh s (List.mem_append_left _ hs)
    obtain ⟨t, tw, tv⟩ := iht hf.2 fun s hs => hh s (List.mem_append_right _ hs)
    exact ⟨h ++ t, by rw [writeNode, hw, ok_bind, tw, ok_bind]; rfl, .cons hv tv⟩
  | done => exact ⟨[], rfl, .nil _⟩
  | field key _ value rest ihv ihr =>
    obtain ⟨hk, hfv, hfr⟩ := hf
    obtain ⟨v, hw, hv⟩ := ihv hfv fun s hs => hh s (List.mem_append_left _ hs)
    obtain ⟨r, rw', hr⟩ := ihr hfr fun s hs => hh s (List.mem_append_right _ hs)
    exact ⟨writeText key ++ v ++ r, by rw [writeNode, hw, ok_bind, rw', ok_bind]; rfl,
      .cons (.intro (.intro key hk) hv) hr⟩

/-! ## Entries -/

/-- An entry has no handle in it, and its lengths fit eight bytes. -/
structure Storable (key : String) (item : Item) : Prop where
  key : TextFits key
  value : item.value.Fits
  encodable : item.value.unencodable? = none

instance (key : String) (item : Item) : Decidable (Storable key item) :=
  decidable_of_iff (TextFits key ∧ item.value.Fits ∧ item.value.unencodable? = none)
    ⟨fun ⟨key, value, encodable⟩ => ⟨key, value, encodable⟩,
      fun ⟨key, value, encodable⟩ => ⟨key, value, encodable⟩⟩

theorem length_flatMap_utf8EncodeChar_le (text : List Char) :
    (text.flatMap String.utf8EncodeChar).length ≤ 4 * text.length := by
  induction text with
  | nil => exact Nat.le_refl 0
  | cons c text ih =>
    have hc := c.utf8Size_le_four
    rw [List.flatMap_cons, List.length_append, String.length_utf8EncodeChar, List.length_cons]
    omega

theorem textFits_print (d : Deadline) : TextFits (String.ofList (Timestamp.print d)) := by
  have hl := Timestamp.length_print_le d
  have he := length_flatMap_utf8EncodeChar_le (Timestamp.print d)
  rw [TextFits, Utf8.encode, String.toList_ofList]
  omega

theorem writeDeadline_form (deadline : Option Deadline) :
    DeadlineForm (writeDeadline deadline) deadline := by
  cases deadline with
  | none => exact .none
  | some d =>
    refine .some (.intro _ (textFits_print d)) ?_
    rw [String.toList_ofList, Timestamp.parse_print]

theorem writeEntry_form {key : String} {item : Item} (h : Storable key item) :
    ∃ bytes, writeEntry key item = .ok bytes ∧ EntryForm bytes (key, item) := by
  obtain ⟨v, hw, hv⟩ :=
    writeNode_written item.value h.value (Value.unencodable?_eq_none_iff.1 h.encodable)
  exact ⟨writeText key ++ v ++ writeDeadline item.deadline,
    by rw [writeEntry, writeValue, hw, ok_bind]; rfl,
    .intro (.intro key h.key) hv (writeDeadline_form item.deadline)⟩

theorem writeEntries_sequence {entries : List (String × Item)}
    (h : ∀ entry ∈ entries, Storable entry.1 entry.2) :
    ∃ bytes, writeEntries entries = .ok bytes ∧ Sequence EntryForm bytes entries := by
  induction entries with
  | nil => exact ⟨[], rfl, .nil _⟩
  | cons entry entries ih =>
    obtain ⟨he, hr⟩ := List.forall_mem_cons.1 h
    obtain ⟨e, hew, hef⟩ := writeEntry_form he
    obtain ⟨r, hrw, hrf⟩ := ih hr
    exact ⟨e ++ r, by rw [writeEntries, hew, ok_bind, hrw, ok_bind]; rfl, .cons hef hrf⟩

theorem writeBody_form {entries : List (String × Item)} (hn : entries.length < 2 ^ 64)
    (h : ∀ entry ∈ entries, Storable entry.1 entry.2) :
    ∃ bytes, writeBody entries = .ok bytes ∧ BodyForm bytes entries := by
  obtain ⟨content, hw, parts, rfl, rfl, hp⟩ := writeEntries_sequence h
  rw [List.length_map] at hn
  refine ⟨_, by rw [writeBody, hw, ok_bind, List.length_map]; rfl, .intro hn hp⟩

/-! ## Snapshots -/

theorem unencodable?_eq_none_iff {entries : List (String × Item)} :
    Snapshot.unencodable? entries = none ↔
      ∀ entry ∈ entries, entry.2.value.unencodable? = none := by
  rw [Snapshot.unencodable?, List.findSome?_eq_none_iff]
  exact forall₂_congr fun entry _ => Option.map_eq_none_iff

theorem unencodable?_eq_none {entries : List (String × Item)}
    (h : ∀ entry ∈ entries, Storable entry.1 entry.2) : Snapshot.unencodable? entries = none :=
  unencodable?_eq_none_iff.2 fun entry he => (h entry he).encodable

/-- Entries of a table that are written in any order are read as the table. -/
theorem decode_writeBody {items : Table Item} (hn : items.size < 2 ^ 64)
    (h : ∀ entry ∈ items.entries, Storable entry.1 entry.2) {order : List (String × Item)}
    (ho : order.Perm items.entries) :
    ∃ body, writeBody order = .ok body ∧
      ∀ rest, decode (header ++ body ++ rest) = .ok items := by
  obtain ⟨body, hw, hb⟩ := writeBody_form (ho.length_eq ▸ hn) fun entry he =>
    h entry (ho.subset he)
  refine ⟨body, hw, fun rest => decode_of_verdict (.accepted hb fun key => ?_)⟩
  rw [← Table.get?_ofList, Table.ofList_eq_of_perm ho]

/-- A table without handles whose lengths fit is what its snapshot is read as, whatever bytes
follow, and so it is if the entries are written in any other order. -/
theorem round_trip {items : Table Item} (hn : items.size < 2 ^ 64)
    (h : ∀ entry ∈ items.entries, Storable entry.1 entry.2) :
    (∃ bytes, encode items = .ok bytes ∧ ∀ rest, decode (bytes ++ rest) = .ok items) ∧
      ∀ order : List (String × Item), order.Perm items.entries →
        ∃ body, writeBody order = .ok body ∧
          ∀ rest, decode (header ++ body ++ rest) = .ok items := by
  refine ⟨?_, fun order ho => decode_writeBody hn h ho⟩
  obtain ⟨body, hw, hd⟩ := decode_writeBody hn h (.refl _)
  refine ⟨header ++ body, ?_, hd⟩
  rw [encode, unencodable?_eq_none h]
  simp only
  rw [hw]

/-- A number, a list and a map within a list, up to the last nanosecond there is. -/
def nestedItem : Item where
  value := .list (.ofTrees [
    .leaf (.int (.ofInt .int16 (-5))),
    .list (.ofTrees [.leaf (.bytes [7])]),
    .map (.ofPairs [("b", .leaf (.text "ü")), ("a", .leaf (.float32 ⟨0x7fc00000⟩))])])
  deadline := some ⟨8210266876799, 999999999, by decide, by decide, by decide, by decide⟩

/-- Two entries: `nestedItem` under a key of two bytes, and one without a deadline. -/
def nestedTable : Table Item := .ofList [("é", nestedItem), ("", ⟨.null, none⟩)]

theorem round_trip_nested :
    (nestedTable.size < 2 ^ 64 ∧ ∀ entry ∈ nestedTable.entries, Storable entry.1 entry.2) ∧
      (∃ bytes, encode nestedTable = .ok bytes ∧
        ∀ rest, decode (bytes ++ rest) = .ok nestedTable) ∧
      ∀ order : List (String × Item), order.Perm nestedTable.entries →
        ∃ body, writeBody order = .ok body ∧
          ∀ rest, decode (header ++ body ++ rest) = .ok nestedTable :=
  ⟨⟨by decide, by decide⟩, round_trip (by decide) (by decide)⟩

end Snapshot

end ExpiringCache
