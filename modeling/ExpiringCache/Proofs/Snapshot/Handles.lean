import ExpiringCache.Proofs.Saving

/-!
# Handles and snapshots

A value with a handle in it, at whatever depth, cannot be written, and the check before a save
(`Value.unencodable?`) finds the same handle that the writer stops at: the first one
(`Value.FirstHandle`). Each is described apart from the other. What the check finds is shown by
induction over values (`Value.unencodable?_eq_some_iff`), where the writer stops by recursion over
their parts (`writeNode_fault?`), then for entries (`writeBody_fault?`).

So a save refuses a table that holds a handle before anything is written, and no writer stops half
way: `check_agrees_with_writing`.
-/

namespace ExpiringCache

/-! ## Handles in values -/

namespace Value

/-- There is a handle in the value, at whatever depth. -/
inductive HoldsHandle : Value → Prop where
  | here (handle : Handle) : HoldsHandle (.leaf (.handle handle))
  | item {items : Items Scalar} {value : Value} (hm : value ∈ items.trees)
      (h : HoldsHandle value) : HoldsHandle (.list items)
  | field {fields : Fields Scalar none} {key : String} {value : Value}
      (hm : (key, value) ∈ fields.pairs) (h : HoldsHandle value) : HoldsHandle (.map fields)

/-- The first handle in the value, depth first, is to an object of the type. In a list no item
before it has a handle in it, in a map no field under a lesser key. -/
inductive FirstHandle : Value → String → Prop where
  | here (handle : Handle) : FirstHandle (.leaf (.handle handle)) handle.typeName
  | item {items : Items Scalar} {before after : List Value} {value : Value} {typeName : String}
      (hs : items.trees = before ++ value :: after) (hb : ∀ item ∈ before, ¬ HoldsHandle item)
      (h : FirstHandle value typeName) : FirstHandle (.list items) typeName
  | field {fields : Fields Scalar none} {key : String} {value : Value} {typeName : String}
      (hm : (key, value) ∈ fields.pairs)
      (hb : ∀ field ∈ fields.pairs, field.1 < key → ¬ HoldsHandle field.2)
      (h : FirstHandle value typeName) : FirstHandle (.map fields) typeName

variable {value : Value} {typeName : String}

theorem FirstHandle.holdsHandle (h : FirstHandle value typeName) : HoldsHandle value := by
  induction h with
  | here handle => exact .here handle
  | item hs _ _ ih => exact .item (hs ▸ List.mem_append_right _ List.mem_cons_self) ih
  | field hm _ _ ih => exact .field hm ih

theorem HoldsHandle.unencodable?_ne_none (h : HoldsHandle value) : value.unencodable? ≠ none := by
  induction h with
  | here handle => exact Option.some_ne_none handle.typeName
  | item hm _ ih =>
    rw [unencodable?_list, ne_eq, List.findSome?_eq_none_iff]
    exact fun h => ih (h _ hm)
  | field hm _ ih =>
    rw [unencodable?_map, ne_eq, List.findSome?_eq_none_iff]
    exact fun h => ih (h _ hm)

theorem not_holdsHandle (h : value.unencodable? = none) : ¬ HoldsHandle value :=
  fun hh => hh.unencodable?_ne_none h

theorem firstHandle_of_unencodable? (h : value.unencodable? = some typeName) :
    FirstHandle value typeName := by
  induction value using Node.tree_induction with
  | leaf scalar =>
    cases scalar with
    | handle handle =>
      obtain rfl : handle.typeName = typeName := Option.some.inj h
      exact .here handle
    | _ => cases h
  | list items ih =>
    rw [unencodable?_list, List.findSome?_eq_some_iff] at h
    obtain ⟨before, value, after, hs, hv, hb⟩ := h
    have hm : value ∈ items.trees := hs ▸ List.mem_append_right _ List.mem_cons_self
    exact .item hs (fun item hi => not_holdsHandle (hb item hi)) (ih value hm hv)
  | map fields ih =>
    rw [unencodable?_map, List.findSome?_eq_some_iff] at h
    obtain ⟨before, ⟨key, value⟩, after, hs, hv, hb⟩ := h
    have hm : (key, value) ∈ fields.pairs := hs ▸ List.mem_append_right _ List.mem_cons_self
    refine .field hm (fun field hf hlt => not_holdsHandle (hb field ?_)) (ih _ hm hv)
    -- Fields under lesser keys stand before the field, those after it have greater keys.
    have hp := Node.ascending_pairs fields
    rw [hs] at hf hp
    rcases List.mem_append.1 hf with hf | hf
    · exact hf
    · rcases List.mem_cons.1 hf with rfl | hf
      · exact absurd hlt (String.lt_irrefl _)
      · have hgt := (List.pairwise_cons.1 (List.pairwise_append.1 hp).2.1).1 field hf
        exact absurd (String.lt_trans hlt hgt) (String.lt_irrefl _)

theorem unencodable?_eq_none_of_not (h : ¬ HoldsHandle value) : value.unencodable? = none := by
  cases hu : value.unencodable? with
  | none => rfl
  | some typeName => exact absurd (firstHandle_of_unencodable? hu).holdsHandle h

theorem holdsHandle_iff : HoldsHandle value ↔ ∃ typeName, value.unencodable? = some typeName :=
  ⟨fun h => Option.ne_none_iff_exists'.1 h.unencodable?_ne_none,
    fun ⟨_, h⟩ => (firstHandle_of_unencodable? h).holdsHandle⟩

theorem FirstHandle.unencodable? (h : FirstHandle value typeName) :
    value.unencodable? = some typeName := by
  induction h with
  | here handle => rfl
  | @item items before after value typeName hs hb _ ih =>
    rw [unencodable?_list, List.findSome?_eq_some_iff]
    exact ⟨before, value, after, hs, ih, fun item hi => unencodable?_eq_none_of_not (hb item hi)⟩
  | @field fields key value typeName hm hb _ ih =>
    rw [unencodable?_map, List.findSome?_eq_some_iff]
    obtain ⟨before, after, hs⟩ := List.append_of_mem hm
    refine ⟨before, (key, value), after, hs, ih, fun field hf => ?_⟩
    have hp := Node.ascending_pairs fields
    rw [hs] at hb hp
    have hlt : field.1 < key := (List.pairwise_append.1 hp).2.2 field hf _ List.mem_cons_self
    exact unencodable?_eq_none_of_not (hb field (List.mem_append_left _ hf) hlt)

theorem unencodable?_eq_some_iff :
    value.unencodable? = some typeName ↔ FirstHandle value typeName :=
  ⟨firstHandle_of_unencodable?, FirstHandle.unencodable?⟩

end Value

namespace Snapshot

/-! ## Where the writer stops -/

theorem writeNode_fault? {layer : Layer} (node : Node Scalar layer) :
    fault? (writeNode node) = (node.leaves.findSome? Scalar.handleType?).map .handle := by
  induction node with
  | leaf scalar => cases scalar <;> rfl
  | list items ih => rw [writeNode, fault?_map, ih, Node.leaves]
  | map fields ih => rw [writeNode, fault?_map, ih, Node.leaves]
  | nil => rfl
  | cons head tail ihh iht =>
    rw [Node.leaves, List.findSome?_append, Option.map_or, ← ihh, ← iht]
    exact fault?_bind fun h => fault?_map _ fun t => h ++ t
  | done => rfl
  | field key _ value rest ihv ihr =>
    rw [Node.leaves, List.findSome?_append, Option.map_or, ← ihv, ← ihr]
    exact fault?_bind fun v => fault?_map _ fun r => writeText key ++ v ++ r

theorem writeValue_eq_error_iff {value : Value} {fault : CodecFault} :
    writeValue value = .error fault ↔
      ∃ typeName, value.unencodable? = some typeName ∧ fault = .handle typeName := by
  rw [← fault?_eq_some_iff, writeValue, writeNode_fault?, Option.map_eq_some_iff]
  exact exists_congr fun _ => and_congr_right fun _ => eq_comm

theorem unencodable?_cons (key : String) (item : Item) (entries : List (String × Item)) :
    unencodable? ((key, item) :: entries) =
      (item.value.unencodable?.map fun name => (key, name)).or (unencodable? entries) := by
  rw [unencodable?, ← List.singleton_append, List.findSome?_append, List.findSome?_singleton]
  rfl

theorem writeEntries_fault? (entries : List (String × Item)) :
    fault? (writeEntries entries) = (unencodable? entries).map fun p => .handle p.2 := by
  induction entries with
  | nil => rfl
  | cons entry entries ih =>
    obtain ⟨key, item⟩ := entry
    have he : fault? (writeEntry key item) = item.value.unencodable?.map .handle := by
      rw [writeEntry, fault?_map]
      exact writeNode_fault? item.value
    rw [unencodable?_cons, Option.map_or, Option.map_map, ← ih]
    exact (fault?_bind fun e => fault?_map _ fun r => e ++ r).trans (congrArg (Option.or · _) he)

/-- The writer stops at the handle that the check finds. -/
theorem writeBody_fault? (entries : List (String × Item)) :
    fault? (writeBody entries) = (unencodable? entries).map fun p => .handle p.2 := by
  rw [writeBody, fault?_map, writeEntries_fault?]

theorem exists_writeBody {entries : List (String × Item)} (h : unencodable? entries = none) :
    ∃ body, writeBody entries = .ok body := by
  rw [← fault?_eq_none_iff, writeBody_fault?, h, Option.map_none]

/-! ## Saves -/

/-- The check tells a key, and the first handle in the value under it. -/
theorem firstHandle_of_unencodable? {entries : List (String × Item)} {key typeName : String}
    (h : unencodable? entries = some (key, typeName)) :
    ∃ item, (key, item) ∈ entries ∧ item.value.FirstHandle typeName := by
  obtain ⟨⟨key', item⟩, hm, he⟩ := List.exists_of_findSome?_eq_some h
  obtain ⟨_, hu, e⟩ := Option.map_eq_some_iff.1 he
  obtain ⟨rfl, rfl⟩ := Prod.mk.inj e
  exact ⟨item, hm, Value.unencodable?_eq_some_iff.1 hu⟩

/-- To write a value fails if the check finds a handle in it, by an error that tells the same type,
and the check finds the first handle of those there are. So a table with a handle in it, its entries
being in any order, is refused before anything is written, and any other table is saved unless the
sink fails. -/
theorem check_agrees_with_writing :
    (∀ (value : Value) (fault : CodecFault), writeValue value = .error fault ↔
      ∃ typeName, value.unencodable? = some typeName ∧ fault = .handle typeName) ∧
    (∀ typeName,
      (CodecFault.handle typeName).message = "cannot encode value of type " ++ typeName) ∧
    (∀ (value : Value) typeName,
      value.unencodable? = some typeName ↔ value.FirstHandle typeName) ∧
    (∀ value : Value, (∃ typeName, value.unencodable? = some typeName) ↔ value.HoldsHandle) ∧
    (∀ (items : Table Item) (order : List (String × Item)), order.Perm items.entries →
      ∀ sink : Sink,
        ((∃ key item, items.get? key = some item ∧ item.value.HoldsHandle) →
          ∃ key item typeName, items.get? key = some item ∧ item.value.FirstHandle typeName ∧
            saveInOrder order sink = (.error (.unencodable key typeName), sink)) ∧
        ((∀ key item, items.get? key = some item → ¬ item.value.HoldsHandle) →
          sink.Unfailing → (saveInOrder order sink).1 = .ok ()) ∧
        ∀ fault, (saveInOrder order sink).1 ≠ .error (.codec fault)) ∧
    ∀ (items : Table Item) (sink : Sink), save items sink = saveInOrder items.entries sink := by
  refine ⟨fun _ _ => writeValue_eq_error_iff, fun _ => rfl,
    fun _ _ => Value.unencodable?_eq_some_iff, fun _ => Value.holdsHandle_iff.symm,
    fun items order ho sink => ?_, save_eq_saveInOrder⟩
  have mem {key : String} {item : Item} :
      items.get? key = some item ↔ (key, item) ∈ order := by
    rw [Table.get?_eq_some_iff, ho.mem_iff]
  cases hu : unencodable? order with
  | some found =>
    obtain ⟨key, typeName⟩ := found
    obtain ⟨item, hm, hf⟩ := firstHandle_of_unencodable? hu
    rw [saveInOrder_of_handle hu]
    refine ⟨fun _ => ⟨key, item, typeName, mem.2 hm, hf, rfl⟩, fun none => ?_, nofun⟩
    exact absurd hf.holdsHandle (none key item (mem.2 hm))
  | none =>
    obtain ⟨body, hb⟩ := exists_writeBody hu
    rw [saveInOrder_of_body hu hb]
    refine ⟨fun ⟨key, item, hi, hh⟩ => ?_, fun _ unfailing => ?_, fun fault h => ?_⟩
    · exact absurd hh (Value.not_holdsHandle (unencodable?_eq_none_iff.1 hu _ (mem.1 hi)))
    · rw [unfailing]
      rfl
    · cases hw : (sink.writePieces [header, body]).1 <;> rw [hw] at h <;> cases h

example : Value.unencodable? (.map (.ofPairs [
    ("b", .leaf (.handle ⟨"one", .number 1⟩)),
    ("a", .list (.ofTrees [.leaf .null, .leaf (.handle ⟨"two", .object "Socket"⟩)]))])) =
      some "Socket" := by
  decide

end Snapshot

end ExpiringCache
