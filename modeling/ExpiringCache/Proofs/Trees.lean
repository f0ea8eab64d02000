import ExpiringCache.Proofs.Tables
import ExpiringCache.Tree

/-!
# Trees by their parts

A list is determined by its trees, and a map by what is found under each key. The map of given
fields is therefore the one that has the last of them under every key (`ofPairs_eq_iff`).
`tree_induction` is induction over a tree that sees a list as its trees and a map as its fields.

What is asked of two trees leaf by leaf behaves as it does at the leaves: to agree is symmetric and
transitive if it is so for leaves, and a tree agrees with itself if each of its leaves does.
-/

namespace ExpiringCache.Node

variable {α : Type}

theorem ofTrees_trees : (items : Items α) → ofTrees items.trees = items
  | .nil => rfl
  | .cons head tail => congrArg (Node.cons head) (ofTrees_trees tail)

theorem eq_of_trees_eq {items items' : Items α} (h : items.trees = items'.trees) :
    items = items' := by rw [← ofTrees_trees items, h, ofTrees_trees]

/-! ## The fields of a map -/

theorem admits_of_mem_pairs {layer : Layer} {node : Node α layer} {p : String × Tree α}
    (h : p ∈ node.pairs) : layer.Admits p.1 := by
  induction node with
  | @field bound key admitted value rest _ ih =>
    rw [pairs, List.mem_cons] at h
    rcases h with rfl | h
    · exact admitted
    · cases bound with
      | none => trivial
      | some bound => exact String.lt_trans admitted (ih h)
  | _ => cases h

theorem ascending_pairs {layer : Layer} (node : Node α layer) : Table.Ascending node.pairs := by
  induction node with
  | field key admitted value rest _ ih =>
    exact List.pairwise_cons.2 ⟨fun p hp => admits_of_mem_pairs hp, ih⟩
  | _ => exact List.Pairwise.nil

theorem eq_of_pairs_eq : {bound : Option String} → {fields fields' : Fields α bound} →
    fields.pairs = fields'.pairs → fields = fields'
  | _, .done, .done, _ => rfl
  | _, .field key admitted value rest, .field key' admitted' value' rest', h => by
    rw [pairs, pairs, List.cons.injEq, Prod.mk.injEq] at h
    obtain ⟨⟨rfl, rfl⟩, h⟩ := h
    rw [eq_of_pairs_eq h]

theorem pairs_insert : {bound : Option String} → (fields : Fields α bound) → (key : String) →
    (admitted : (Layer.fields bound).Admits key) → (value : Tree α) →
    (fields.insert key admitted value).pairs = Table.place key value fields.pairs
  | _, .done, _, _, _ => rfl
  | _, .field key' admitted' value' rest, key, admitted, value => by
    simp only [insert, pairs, Table.place]
    by_cases below : key < key'
    · rw [dif_pos below, if_pos below]
      rfl
    · by_cases beyond : key' < key
      · rw [dif_neg below, dif_pos beyond, if_neg below, if_pos beyond, pairs,
          pairs_insert rest key beyond value]
      · rw [dif_neg below, dif_neg beyond, if_neg below, if_neg beyond, pairs,
          Table.eq_of_not_lt below beyond]

theorem pairs_ofPairs (ps : List (String × Tree α)) :
    (ofPairs ps).pairs = ps.foldl (fun entries p => Table.place p.1 p.2 entries) [] := by
  suffices h : ∀ fields : Fields α none,
      (ps.foldl (fun fields p => fields.insert p.1 trivial p.2) fields).pairs =
        ps.foldl (fun entries p => Table.place p.1 p.2 entries) fields.pairs from h .done
  induction ps with
  | nil => exact fun _ => rfl
  | cons p ps ih =>
    intro fields
    have e : (fields.insert p.1 trivial p.2).pairs = Table.place p.1 p.2 fields.pairs :=
      pairs_insert fields p.1 trivial p.2
    rw [List.foldl_cons, List.foldl_cons, ← e]
    exact ih _

theorem find?_ofPairs (ps : List (String × Tree α)) (key : String) :
    Table.find? key (ofPairs ps).pairs = Table.find? key ps.reverse := by
  rw [pairs_ofPairs, Table.find?_foldl_place key ps List.Pairwise.nil]
  exact Option.or_none

/-- The map of given fields has the last of them under every key. -/
theorem ofPairs_eq_iff {ps : List (String × Tree α)} {fields : Fields α none} :
    ofPairs ps = fields ↔
      ∀ key, Table.find? key fields.pairs = Table.find? key ps.reverse := by
  constructor
  · rintro rfl key
    exact find?_ofPairs ps key
  · intro h
    refine eq_of_pairs_eq (Table.eq_of_find?_eq (ascending_pairs _) (ascending_pairs _) ?_)
    intro key
    rw [find?_ofPairs, h]

/-! ## Induction over trees -/

/-- Something holds of the tree, or of all trees of the list or fields of the map. -/
def All (motive : Tree α → Prop) : {layer : Layer} → Node α layer → Prop
  | .tree, tree => motive tree
  | .items, items => ∀ tree ∈ items.trees, motive tree
  | .fields _, fields => ∀ p ∈ fields.pairs, motive p.2

/-- What holds of a list if it holds of its trees, and of a map if it holds of its fields, holds of
every tree. -/
@[elab_as_elim]
theorem tree_induction {motive : Tree α → Prop} (leaf : ∀ value, motive (.leaf value))
    (list : ∀ items : Items α, (∀ tree ∈ items.trees, motive tree) → motive (.list items))
    (map : ∀ fields : Fields α none, (∀ p ∈ fields.pairs, motive p.2) → motive (.map fields))
    (tree : Tree α) : motive tree := by
  have all : ∀ {layer : Layer} (node : Node α layer), All motive node := by
    intro layer node
    induction node with
    | leaf value => exact leaf value
    | list items ih => exact list items ih
    | map fields ih => exact map fields ih
    | nil => exact fun _ h => absurd h List.not_mem_nil
    | cons head tail ihh iht => exact List.forall_mem_cons.2 ⟨ihh, iht⟩
    | done => exact fun _ h => absurd h List.not_mem_nil
    | field key _ value rest ihv ihr => exact List.forall_mem_cons.2 ⟨ihv, ihr⟩
  exact all tree

/-! ## Leaves -/

theorem leaves_items : (items : Items α) → items.leaves = items.trees.flatMap leaves
  | .nil => rfl
  | .cons head tail => by
    rw [leaves, trees, List.flatMap_cons, leaves_items tail]

theorem leaves_fields : {bound : Option String} → (fields : Fields α bound) →
    fields.leaves = fields.pairs.flatMap fun p => p.2.leaves
  | _, .done => rfl
  | _, .field key admitted value rest => by
    rw [leaves, pairs, List.flatMap_cons, leaves_fields rest]

theorem findSome?_flatMap {β γ δ : Type} (find : γ → Option δ) (f : β → List γ) (l : List β) :
    (l.flatMap f).findSome? find = l.findSome? fun b => (f b).findSome? find := by
  induction l with
  | nil => rfl
  | cons b l ih =>
    rw [List.flatMap_cons, List.findSome?_append, ih, List.findSome?_cons]
    cases (f b).findSome? find <;> rfl

/-- The leaf is in the tree, at whatever depth. -/
inductive Occurs (value : α) : Tree α → Prop where
  | here : Occurs value (.leaf value)
  | item {items : Items α} {tree : Tree α} (hm : tree ∈ items.trees) (h : Occurs value tree) :
      Occurs value (.list items)
  | field {fields : Fields α none} {key : String} {tree : Tree α}
      (hm : (key, tree) ∈ fields.pairs) (h : Occurs value tree) : Occurs value (.map fields)

theorem occurs_iff {value : α} {tree : Tree α} : Occurs value tree ↔ value ∈ tree.leaves := by
  constructor
  · intro h
    induction h with
    | here => exact List.mem_singleton_self value
    | item hm _ ih =>
      rw [leaves, leaves_items]
      exact List.mem_flatMap.2 ⟨_, hm, ih⟩
    | field hm _ ih =>
      rw [leaves, leaves_fields]
      exact List.mem_flatMap.2 ⟨_, hm, ih⟩
  · intro h
    induction tree using tree_induction with
    | leaf value' =>
      obtain rfl := List.mem_singleton.1 h
      exact .here
    | list items ih =>
      rw [leaves, leaves_items] at h
      obtain ⟨tree, hm, h⟩ := List.mem_flatMap.1 h
      exact .item hm (ih tree hm h)
    | map fields ih =>
      rw [leaves, leaves_fields] at h
      obtain ⟨p, hm, h⟩ := List.mem_flatMap.1 h
      exact .field hm (ih p hm h)

theorem leaves_mapLeaves {β : Type} (f : α → β) {layer : Layer} (node : Node α layer) :
    (node.mapLeaves f).leaves = node.leaves.map f := by
  induction node with
  | leaf value => rfl
  | list items ih => exact ih
  | map fields ih => exact ih
  | nil => rfl
  | cons head tail ihh iht => rw [mapLeaves, leaves, leaves, List.map_append, ihh, iht]
  | done => rfl
  | field key _ value rest ihv ihr => rw [mapLeaves, leaves, leaves, List.map_append, ihv, ihr]

theorem trees_mapLeaves {β : Type} (f : α → β) : (items : Items α) →
    (items.mapLeaves f).trees = items.trees.map (mapLeaves f)
  | .nil => rfl
  | .cons head tail => congrArg (List.cons _) (trees_mapLeaves f tail)

theorem pairs_mapLeaves {β : Type} (f : α → β) : {bound : Option String} →
    (fields : Fields α bound) →
    (fields.mapLeaves f).pairs = fields.pairs.map fun p => (p.1, p.2.mapLeaves f)
  | _, .done => rfl
  | _, .field _ _ _ rest => congrArg (List.cons _) (pairs_mapLeaves f rest)

/-- Trees in which the leaves are changed by an injective function stay apart. -/
theorem mapLeaves_injective {β : Type} {f : α → β} (hf : Function.Injective f) {layer : Layer} :
    Function.Injective (mapLeaves f : Node α layer → Node β layer) := by
  intro a b h
  induction a with
  | leaf value =>
    cases b with
    | leaf value' =>
      rw [mapLeaves, mapLeaves, leaf.injEq] at h
      rw [hf h]
    | _ => cases h
  | list items ih =>
    cases b with
    | list items' =>
      rw [mapLeaves, mapLeaves, list.injEq] at h
      rw [ih h]
    | _ => cases h
  | map fields ih =>
    cases b with
    | map fields' =>
      rw [mapLeaves, mapLeaves, map.injEq] at h
      rw [ih h]
    | _ => cases h
  | nil =>
    cases b with
    | nil => rfl
    | _ => cases h
  | cons head tail ihh iht =>
    cases b with
    | cons head' tail' =>
      rw [mapLeaves, mapLeaves, cons.injEq] at h
      rw [ihh h.1, iht h.2]
    | _ => cases h
  | done =>
    cases b with
    | done => rfl
    | _ => cases h
  | field key admitted value rest ihv ihr =>
    cases b with
    | field key' admitted' value' rest' =>
      rw [mapLeaves, mapLeaves, field.injEq] at h
      obtain ⟨rfl, hv, hr⟩ := h
      rw [ihv hv, ihr (eq_of_heq hr)]
    | _ => cases h

/-! ## Trees that agree -/

/-- Two trees, or the rest of two lists or maps, have the same shape and keys, and `same` holds of
each two leaves in one place. -/
inductive Agree (same : α → α → Prop) :
    {layer layer' : Layer} → Node α layer → Node α layer' → Prop where
  | leaf {value value' : α} (h : same value value') : Agree same (.leaf value) (.leaf value')
  | list {items items' : Items α} (h : Agree same items items') :
      Agree same (.list items) (.list items')
  | map {fields fields' : Fields α none} (h : Agree same fields fields') :
      Agree same (.map fields) (.map fields')
  | nil : Agree same .nil .nil
  | cons {head head' : Tree α} {tail tail' : Items α} (hh : Agree same head head')
      (ht : Agree same tail tail') : Agree same (.cons head tail) (.cons head' tail')
  | done {bound bound' : Option String} : Agree same (@done α bound) (@done α bound')
  | field {bound bound' : Option String} {key : String}
      {admitted : (Layer.fields bound).Admits key} {admitted' : (Layer.fields bound').Admits key}
      {value value' : Tree α} {rest rest' : Fields α (some key)} (hv : Agree same value value')
      (hr : Agree same rest rest') :
      Agree same (.field key admitted value rest) (.field key admitted' value' rest')

section
variable {same : α → α → Prop} {layer layer' layer'' : Layer}

theorem agrees_iff {same : α → α → Bool} {a : Node α layer} {b : Node α layer'} :
    a.agrees same b = true ↔ Agree (fun a b => same a b = true) a b := by
  constructor
  · intro h
    induction a generalizing layer' with
    | leaf value =>
      cases b with
      | leaf => exact .leaf h
      | _ => cases h
    | list items ih =>
      cases b with
      | list => exact .list (ih h)
      | _ => cases h
    | map fields ih =>
      cases b with
      | map => exact .map (ih h)
      | _ => cases h
    | nil =>
      cases b with
      | nil => exact .nil
      | _ => cases h
    | cons head tail ihh iht =>
      cases b with
      | cons head' tail' =>
        rw [agrees, Bool.and_eq_true] at h
        exact .cons (ihh h.1) (iht h.2)
      | _ => cases h
    | done =>
      cases b with
      | done => exact .done
      | _ => cases h
    | field key admitted value rest ihv ihr =>
      cases b with
      | field key' admitted' value' rest' =>
        rw [agrees, Bool.and_eq_true, Bool.and_eq_true, beq_iff_eq] at h
        obtain ⟨⟨rfl, hv⟩, hr⟩ := h
        exact .field (ihv hv) (ihr hr)
      | _ => cases h
  · intro h
    induction h with
    | leaf h => exact h
    | list _ ih => exact ih
    | map _ ih => exact ih
    | nil => rfl
    | cons _ _ ihh iht => rw [agrees, ihh, iht, Bool.and_self]
    | done => rfl
    | field _ _ ihv ihr => rw [agrees, ihv, ihr, beq_self_eq_true, Bool.and_self, Bool.and_self]

theorem Agree.symm (h : ∀ a b, same a b → same b a) {a : Node α layer} {b : Node α layer'}
    (hab : Agree same a b) : Agree same b a := by
  induction hab with
  | leaf hs => exact .leaf (h _ _ hs)
  | list _ ih => exact .list ih
  | map _ ih => exact .map ih
  | nil => exact .nil
  | cons _ _ ihh iht => exact .cons ihh iht
  | done => exact .done
  | field _ _ ihv ihr => exact .field ihv ihr

theorem Agree.trans (h : ∀ a b c, same a b → same b c → same a c) {a : Node α layer}
    {b : Node α layer'} {c : Node α layer''} (hab : Agree same a b) (hbc : Agree same b c) :
    Agree same a c := by
  induction hab generalizing layer'' with
  | leaf hs =>
    cases hbc with
    | leaf hs' => exact .leaf (h _ _ _ hs hs')
  | list _ ih =>
    cases hbc with
    | list h' => exact .list (ih h')
  | map _ ih =>
    cases hbc with
    | map h' => exact .map (ih h')
  | nil => exact hbc
  | cons _ _ ihh iht =>
    cases hbc with
    | cons hh ht => exact .cons (ihh hh) (iht ht)
  | done =>
    cases hbc with
    | done => exact .done
  | field _ _ ihv ihr =>
    cases hbc with
    | field hv hr => exact .field (ihv hv) (ihr hr)

theorem Agree.leaves {a : Node α layer} {b : Node α layer'} (h : Agree same a b) :
    List.Forall₂ same a.leaves b.leaves := by
  induction h with
  | leaf h => exact .cons h .nil
  | list _ ih => exact ih
  | map _ ih => exact ih
  | nil => exact .nil
  | cons _ _ ihh iht => exact List.rel_append ihh iht
  | done => exact .nil
  | field _ _ ihv ihr => exact List.rel_append ihv ihr

/-- A tree agrees with itself if its leaves do. -/
theorem agree_self_iff (node : Node α layer) :
    Agree same node node ↔ ∀ a ∈ node.leaves, same a a := by
  refine ⟨fun h => List.forall₂_same.1 h.leaves, fun h => ?_⟩
  induction node with
  | leaf value => exact .leaf (h value List.mem_cons_self)
  | list items ih => exact .list (ih h)
  | map fields ih => exact .map (ih h)
  | nil => exact .nil
  | cons head tail ihh iht =>
    obtain ⟨hh, ht⟩ := List.forall_mem_append.1 h
    exact .cons (ihh hh) (iht ht)
  | done => exact .done
  | field key _ value rest ihv ihr =>
    obtain ⟨hv, hr⟩ := List.forall_mem_append.1 h
    exact .field (ihv hv) (ihr hr)

/-- Lists that agree have equally many trees. -/
theorem Agree.length_trees {a : Node α layer} {b : Node α layer'} (h : Agree same a b) :
    a.trees.length = b.trees.length := by
  induction h with
  | cons _ _ _ iht => exact congrArg (· + 1) iht
  | _ => rfl

/-- Maps that agree have equally many fields. -/
theorem Agree.length_pairs {a : Node α layer} {b : Node α layer'} (h : Agree same a b) :
    a.pairs.length = b.pairs.length := by
  induction h with
  | field _ _ _ ihr => exact congrArg (· + 1) ihr
  | _ => rfl

end

end ExpiringCache.Node
