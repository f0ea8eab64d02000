/-!
# Trees of lists and maps

A `Tree α` nests lists and maps over leaves of type `α`. A map is a chain of fields whose keys
ascend strictly; the order is part of the type, so two maps with the same fields are the same
tree and no key occurs twice.

One indexed family, `Node`, holds the trees together with the tails of their lists and maps.
Recursion and induction over a tree are therefore over a single type.
-/

namespace ExpiringCache

/-- What a `Node` stands for. -/
inductive Layer where
  /-- A whole tree. -/
  | tree
  /-- The rest of a list. -/
  | items
  /-- The rest of a map, each key of which lies above `bound`. -/
  | fields (bound : Option String)

/-- A field named `key` may stand at the front of this layer: in the rest of a map only above its
bound. -/
def Layer.Admits : Layer → String → Prop
  | .fields (some bound), key => bound < key
  | _, _ => True

/-- Trees, and the tails of the lists and maps within them. -/
inductive Node (α : Type) : Layer → Type where
  /-- A single value. -/
  | leaf (value : α) : Node α .tree
  /-- A list of trees. -/
  | list (items : Node α .items) : Node α .tree
  /-- A map from keys to trees. -/
  | map (fields : Node α (.fields none)) : Node α .tree
  /-- The end of a list. -/
  | nil : Node α .items
  /-- A tree and the rest of its list. -/
  | cons (head : Node α .tree) (tail : Node α .items) : Node α .items
  /-- The end of a map. -/
  | done {bound : Option String} : Node α (.fields bound)
  /-- A field and the rest of its map, whose keys all lie above `key`. -/
  | field {bound : Option String} (key : String) (admitted : (Layer.fields bound).Admits key)
      (value : Node α .tree) (rest : Node α (.fields (some key))) : Node α (.fields bound)

/-- A tree of lists and maps over leaves of type `α`. -/
abbrev Tree (α : Type) := Node α .tree

/-- A list of trees. -/
abbrev Items (α : Type) := Node α .items

/-- The fields of a map, with keys above `bound` and strictly ascending. -/
abbrev Fields (α : Type) (bound : Option String) := Node α (.fields bound)

namespace Node

variable {α β : Type}

/-- The values at the leaves, depth first: lists in order, maps in key order. -/
def leaves : {layer : Layer} → Node α layer → List α
  | _, .leaf value => [value]
  | _, .list items => items.leaves
  | _, .map fields => fields.leaves
  | _, .nil => []
  | _, .cons head tail => head.leaves ++ tail.leaves
  | _, .done => []
  | _, .field _ _ value rest => value.leaves ++ rest.leaves

/-- Changes every leaf and keeps the shape. -/
def mapLeaves (f : α → β) : {layer : Layer} → Node α layer → Node β layer
  | _, .leaf value => .leaf (f value)
  | _, .list items => .list (items.mapLeaves f)
  | _, .map fields => .map (fields.mapLeaves f)
  | _, .nil => .nil
  | _, .cons head tail => .cons (head.mapLeaves f) (tail.mapLeaves f)
  | _, .done => .done
  | _, .field key admitted value rest => .field key admitted (value.mapLeaves f) (rest.mapLeaves f)

/-- Two trees have the same shape and keys, and `same` holds of each two leaves in one place. -/
def agrees (same : α → α → Bool) : {layer layer' : Layer} → Node α layer → Node α layer' → Bool
  | _, _, .leaf value, .leaf value' => same value value'
  | _, _, .list items, .list items' => items.agrees same items'
  | _, _, .map fields, .map fields' => fields.agrees same fields'
  | _, _, .nil, .nil => true
  | _, _, .cons head tail, .cons head' tail' => head.agrees same head' && tail.agrees same tail'
  | _, _, .done, .done => true
  | _, _, .field key _ value rest, .field key' _ value' rest' =>
    key == key' && value.agrees same value' && rest.agrees same rest'
  | _, _, _, _ => false

/-- The trees of a list, in order. Only the layer of lists has any. -/
def trees : {layer : Layer} → Node α layer → List (Tree α)
  | _, .cons head tail => head :: tail.trees
  | _, _ => []

/-- The list that holds the given trees, in order. -/
def ofTrees : List (Tree α) → Items α
  | [] => .nil
  | head :: tail => .cons head (ofTrees tail)

@[simp] theorem trees_ofTrees (ts : List (Tree α)) : (ofTrees ts).trees = ts := by
  induction ts with
  | nil => rfl
  | cons t ts ih => simp [ofTrees, trees, ih]

/-- The fields of a map, in key order. Only the layer of maps has any. -/
def pairs : {layer : Layer} → Node α layer → List (String × Tree α)
  | _, .field key _ value rest => (key, value) :: rest.pairs
  | _, _ => []

/-- Sets the field `key` of a map, in place of the one it may have had. -/
def insert : {layer : Layer} → Node α layer → (key : String) → layer.Admits key → Tree α →
    Node α layer
  | _, .done, key, admitted, value => .field key admitted value .done
  | _, .field key' admitted' value' rest, key, admitted, value =>
    if below : key < key' then .field key admitted value (.field key' below value' rest)
    else if beyond : key' < key then .field key' admitted' value' (rest.insert key beyond value)
    else .field key' admitted' value rest
  | _, other, _, _, _ => other

/-- The map that holds the given fields; of two with one key the later stands. -/
def ofPairs (pairs : List (String × Tree α)) : Fields α none :=
  pairs.foldl (fun fields (key, value) => fields.insert key trivial value) .done

end Node

end ExpiringCache
