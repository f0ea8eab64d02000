import ExpiringCache.Json.Document
import ExpiringCache.Proofs.Snapshot.RoundTrip

/-!
# Values of JSON documents

`Keeps` says of a value and a document that nothing is lost between them: texts, truth values and
floats are the same, an integer is the same number in the type that has room for it, lists are as
long and maps have the same keys. Just one value keeps a document (`Value.keeps_iff`), and no
value keeps two (`Value.ofJson_injective`).

The scalars in such a value are of kinds that a snapshot can hold (`Value.isDocument_of_occurs`),
so a table of such values is what its snapshot is read as.
-/

namespace ExpiringCache

/-! ## Scalars -/

theorem FixedInt.ext {n n' : FixedInt} (ht : n.type = n'.type) (hv : n.val = n'.val) : n = n' := by
  obtain ⟨type, val, _, _⟩ := n
  obtain ⟨type', val', _, _⟩ := n'
  obtain rfl : type = type' := ht
  obtain rfl : val = val' := hv
  rfl

namespace Scalar

/-- The scalar is the JSON scalar: an integer has 64 bits, with a sign if it is below 2^63. -/
inductive Keeps : Scalar → JsonScalar → Prop where
  | null : Keeps .null .null
  | bool (b : Bool) : Keeps (.bool b) (.bool b)
  | signed {n : FixedInt} {v : Int} {low high} (ht : n.type = .int64) (hv : n.val = v)
      (h : v < 2 ^ 63) : Keeps (.int n) (.number (.int v low high))
  | unsigned {n : FixedInt} {v : Int} {low high} (ht : n.type = .uint64) (hv : n.val = v)
      (h : 2 ^ 63 ≤ v) : Keeps (.int n) (.number (.int v low high))
  | float (x : Binary64) : Keeps (.float64 x) (.number (.float x))
  | text (content : String) : Keeps (.text content) (.text content)

theorem keeps_ofJson (s : JsonScalar) : Keeps (ofJson s) s := by
  cases s with
  | null => exact .null
  | bool b => exact .bool b
  | number n =>
    cases n with
    | int v low high =>
      rw [ofJson, ofJsonNumber]
      split
      · rename_i below
        exact .signed rfl rfl below
      · rename_i beyond
        exact .unsigned rfl rfl (Int.not_lt.1 beyond)
    | float x => exact .float x
  | text content => exact .text content

/-- One scalar keeps a JSON scalar. -/
theorem Keeps.unique {s : JsonScalar} {t t' : Scalar} (h : Keeps t s) (h' : Keeps t' s) :
    t = t' := by
  cases h with
  | signed ht hv hlt =>
    cases h' with
    | signed ht' hv' _ => rw [FixedInt.ext (ht.trans ht'.symm) (hv.trans hv'.symm)]
    | unsigned _ _ hle => exact absurd hlt (Int.not_lt.2 hle)
  | unsigned ht hv hle =>
    cases h' with
    | signed _ _ hlt => exact absurd hlt (Int.not_lt.2 hle)
    | unsigned ht' hv' _ => rw [FixedInt.ext (ht.trans ht'.symm) (hv.trans hv'.symm)]
  | _ => cases h'; rfl

/-- No scalar keeps two JSON scalars: the type of an integer tells on which side of 2^63 it is. -/
theorem Keeps.injective {s s' : JsonScalar} {t : Scalar} (h : Keeps t s) (h' : Keeps t s') :
    s = s' := by
  cases h with
  | signed ht hv _ =>
    cases h' with
    | signed _ hv' _ => cases hv; cases hv'; rfl
    | unsigned ht' _ _ => cases ht.symm.trans ht'
  | unsigned ht hv _ =>
    cases h' with
    | signed ht' _ _ => cases ht.symm.trans ht'
    | unsigned _ hv' _ => cases hv; cases hv'; rfl
  | _ => cases h'; rfl

theorem keeps_iff {s : JsonScalar} {t : Scalar} : Keeps t s ↔ ofJson s = t := by
  constructor
  · exact (keeps_ofJson s).unique
  · rintro rfl
    exact keeps_ofJson s

theorem ofJson_injective : Function.Injective ofJson := fun s s' h =>
  (keeps_ofJson s).injective (h ▸ keeps_ofJson s')

/-- The scalar is of a kind that JSON has: no float of 32 bits, no bytes and no handle. -/
def IsDocument : Scalar → Prop
  | .float32 _ | .bytes _ | .handle _ => False
  | _ => True

theorem Keeps.isDocument {s : JsonScalar} {t : Scalar} (h : Keeps t s) : t.IsDocument := by
  cases h <;> trivial

theorem IsDocument.handleType?_eq {t : Scalar} (h : t.IsDocument) : t.handleType? = none := by
  cases t with
  | handle _ => cases h
  | _ => rfl

end Scalar

/-! ## Values -/

namespace Value

/-- The value is the document: lists are as long, maps have the same keys, and what stands in the
same place of a list or under the same key of a map is kept in turn. -/
inductive Keeps : Value → Json → Prop where
  | leaf {t : Scalar} {s : JsonScalar} (h : t.Keeps s) : Keeps (.leaf t) (.leaf s)
  | list {items : Items Scalar} {items' : Items JsonScalar}
      (hl : items.trees.length = items'.trees.length)
      (h : ∀ (i : Nat) (value : Value) (document : Json), items.trees[i]? = some value →
        items'.trees[i]? = some document → Keeps value document) :
      Keeps (.list items) (.list items')
  | map {fields : Fields Scalar none} {fields' : Fields JsonScalar none}
      (hk : ∀ key, (Table.find? key fields.pairs).isSome = (Table.find? key fields'.pairs).isSome)
      (h : ∀ (key : String) (value : Value) (document : Json),
        Table.find? key fields.pairs = some value →
        Table.find? key fields'.pairs = some document → Keeps value document) :
      Keeps (.map fields) (.map fields')

/-- What stands in a place of a list is the value of what stands there in the document. -/
theorem getElem?_ofJson (items : Items JsonScalar) (i : Nat) :
    (items.mapLeaves Scalar.ofJson).trees[i]? = items.trees[i]?.map ofJson := by
  rw [Node.trees_mapLeaves, List.getElem?_map]
  rfl

/-- What stands under a key of a map is the value of what stands there in the document. -/
theorem find?_ofJson (fields : Fields JsonScalar none) (key : String) :
    Table.find? key (fields.mapLeaves Scalar.ofJson).pairs =
      (Table.find? key fields.pairs).map ofJson := by
  rw [Node.pairs_mapLeaves, Table.find?_map]
  rfl

theorem keeps_ofJson (document : Json) : Keeps (ofJson document) document := by
  induction document using Node.tree_induction with
  | leaf s => exact .leaf (Scalar.keeps_ofJson s)
  | list items ih =>
    refine .list (by rw [Node.trees_mapLeaves, List.length_map]) fun i value document hv hd => ?_
    rw [getElem?_ofJson, hd] at hv
    cases hv
    exact ih document (List.mem_of_getElem? hd)
  | map fields ih =>
    refine .map (fun key => by rw [find?_ofJson, Option.isSome_map])
      fun key value document hv hd => ?_
    rw [find?_ofJson, hd] at hv
    cases hv
    exact ih (key, document) (Table.mem_of_find? hd)

theorem Keeps.eq_ofJson {value : Value} {document : Json} (h : Keeps value document) :
    ofJson document = value := by
  induction h with
  | leaf h => exact congrArg Node.leaf (Scalar.keeps_iff.1 h)
  | @list items items' hl _ ih =>
    refine congrArg Node.list (Node.eq_of_trees_eq (List.ext_getElem? fun i => ?_))
    rw [getElem?_ofJson]
    -- The lists are as long, so either both have something in this place or neither has.
    cases hd : items'.trees[i]? with
    | none =>
      rw [List.getElem?_eq_none_iff, ← hl] at hd
      exact (List.getElem?_eq_none hd).symm
    | some document =>
      obtain ⟨hi, -⟩ := List.getElem?_eq_some_iff.1 hd
      have hv := List.getElem?_eq_getElem (l := items.trees) (hl ▸ hi)
      rw [hv]
      exact congrArg some (ih i _ document hv hd)
  | @map fields fields' hk _ ih =>
    refine congrArg Node.map (Node.eq_of_pairs_eq
      (Table.eq_of_find?_eq (Node.ascending_pairs _) (Node.ascending_pairs _) fun key => ?_))
    rw [find?_ofJson]
    have hk := hk key
    cases hd : Table.find? key fields'.pairs with
    | none =>
      rw [hd] at hk
      exact (Option.not_isSome_iff_eq_none.1 (Bool.eq_false_iff.1 hk)).symm
    | some document =>
      rw [hd] at hk
      obtain ⟨value, hv⟩ := Option.isSome_iff_exists.1 hk
      rw [hv]
      exact congrArg some (ih key value document hv hd)

theorem keeps_iff {value : Value} {document : Json} :
    Keeps value document ↔ ofJson document = value := by
  refine ⟨Keeps.eq_ofJson, ?_⟩
  rintro rfl
  exact keeps_ofJson document

theorem ofJson_injective : Function.Injective ofJson :=
  Node.mapLeaves_injective Scalar.ofJson_injective

theorem isDocument_of_occurs {document : Json} {t : Scalar}
    (h : Node.Occurs t (ofJson document)) : t.IsDocument := by
  rw [Node.occurs_iff, ofJson, Node.leaves_mapLeaves] at h
  obtain ⟨s, -, rfl⟩ := List.mem_map.1 h
  exact (Scalar.keeps_ofJson s).isDocument

theorem unencodable?_ofJson (document : Json) : (ofJson document).unencodable? = none :=
  unencodable?_eq_none_iff.2 fun _ h =>
    (isDocument_of_occurs (Node.occurs_iff.2 h)).handleType?_eq

/-- The value of a document is the one value that keeps it, and different documents have different
values. There is nothing in it that a snapshot cannot hold: a table of such values, the lengths
within them and their number below 2^64, is what its snapshot is read as. -/
theorem ofJson_faithful :
    (∀ (value : Value) (document : Json), Keeps value document ↔ ofJson document = value) ∧
    Function.Injective ofJson ∧
    (∀ document, (ofJson document).unencodable? = none ∧
      ∀ t : Scalar, Node.Occurs t (ofJson document) → t.IsDocument) ∧
    ∀ items : Table Item, items.size < 2 ^ 64 →
      (∀ entry ∈ items.entries, Snapshot.TextFits entry.1 ∧ entry.2.value.Fits ∧
        ∃ document, ofJson document = entry.2.value) →
      ∃ bytes, Snapshot.encode items = .ok bytes ∧
        ∀ rest, Snapshot.decode (bytes ++ rest) = .ok items := by
  refine ⟨fun _ _ => keeps_iff, ofJson_injective,
    fun document => ⟨unencodable?_ofJson document, fun _ => isDocument_of_occurs⟩,
    fun items hn h => (Snapshot.round_trip hn fun entry he => ?_).1⟩
  obtain ⟨hk, hf, document, hv⟩ := h entry he
  exact ⟨hk, hf, hv ▸ unencodable?_ofJson document⟩

/-- Integers at the bounds of both types and a zero with a sign, in a list within a map. -/
def nestedDocument : Json :=
  .map (.ofPairs [("b", .list (.ofTrees [
      .leaf (.number (.int (2 ^ 64 - 1) (by decide) (by decide))),
      .leaf (.number (.int (-2 ^ 63) (by decide) (by decide))),
      .leaf (.number (.float ⟨0x8000000000000000⟩))])),
    ("a", .leaf .null)])

/-- A table with the value of `nestedDocument`. -/
def nestedDocumentTable : Table Item := .ofList [("é", ⟨ofJson nestedDocument, none⟩)]

theorem ofJson_faithful_nested :
    (nestedDocumentTable.size < 2 ^ 64 ∧
      ∀ entry ∈ nestedDocumentTable.entries, Snapshot.TextFits entry.1 ∧ entry.2.value.Fits ∧
        ∃ document, ofJson document = entry.2.value) ∧
      ∃ bytes, Snapshot.encode nestedDocumentTable = .ok bytes ∧
        ∀ rest, Snapshot.decode (bytes ++ rest) = .ok nestedDocumentTable := by
  have hn : nestedDocumentTable.size < 2 ^ 64 := by decide
  have h : ∀ entry ∈ nestedDocumentTable.entries, Snapshot.TextFits entry.1 ∧
      entry.2.value.Fits ∧ ∃ document, ofJson document = entry.2.value := by
    intro entry he
    obtain rfl := List.mem_singleton.1 he
    exact ⟨by decide, by decide, nestedDocument, rfl⟩
  exact ⟨⟨hn, h⟩, ofJson_faithful.2.2.2 nestedDocumentTable hn h⟩

end Value

end ExpiringCache
