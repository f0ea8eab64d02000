/-!
# Tables

A `Table α` holds entries under string keys, in ascending key order. The order is part of the
type, so a table is determined by what `get?` finds in it (`Table.ext`), and each operation is
described by what `get?` finds afterwards (`get?_insert`, `get?_erase`, `get?_filter`).
-/

namespace ExpiringCache

/-- Entries under string keys, the keys strictly ascending. -/
structure Table (α : Type) where
  /-- The entries, in key order. -/
  entries : List (String × α)
  /-- The keys ascend strictly. -/
  ascending : entries.Pairwise (fun entry entry' => entry.1 < entry'.1)

namespace Table

variable {α : Type}

/-! ## Lists of entries -/

/-- The entry under `key`. -/
def find? (key : String) : List (String × α) → Option α
  | [] => none
  | (key', entry) :: rest => if key' = key then some entry else find? key rest

/-- Puts an entry at its place in key order, instead of the one its key may have had. -/
def place (key : String) (entry : α) : List (String × α) → List (String × α)
  | [] => [(key, entry)]
  | (key', entry') :: rest =>
    if key < key' then (key, entry) :: (key', entry') :: rest
    else if key' < key then (key', entry') :: place key entry rest
    else (key, entry) :: rest

/-- Of two different keys one lies below the other. -/
theorem eq_of_not_lt {key key' : String} (h : ¬ key < key') (h' : ¬ key' < key) : key = key' :=
  String.le_antisymm (String.not_lt.1 h') (String.not_lt.1 h)

theorem mem_place {key : String} {entry : α} {entries : List (String × α)} {p : String × α}
    (h : p ∈ place key entry entries) : p = (key, entry) ∨ p ∈ entries := by
  induction entries with
  | nil => simpa [place] using h
  | cons head rest ih =>
    obtain ⟨key', entry'⟩ := head
    simp only [place] at h
    split at h
    · simpa using h
    · split at h
      · rcases List.mem_cons.1 h with rfl | h
        · simp
        · rcases ih h with h | h <;> simp [h]
      · rcases List.mem_cons.1 h with rfl | h
        · simp
        · simp [h]

theorem ascending_place {key : String} {entry : α} {entries : List (String × α)}
    (h : entries.Pairwise (fun p q => p.1 < q.1)) :
    (place key entry entries).Pairwise (fun p q => p.1 < q.1) := by
  induction entries with
  | nil => simp [place]
  | cons head rest ih =>
    obtain ⟨key', entry'⟩ := head
    obtain ⟨low, asc⟩ := List.pairwise_cons.1 h
    simp only [place]
    split
    · rename_i below
      refine List.pairwise_cons.2 ⟨fun q hq => ?_, h⟩
      rcases List.mem_cons.1 hq with rfl | hq
      · exact below
      · exact String.lt_trans below (low q hq)
    · split
      · rename_i beyond
        refine List.pairwise_cons.2 ⟨fun q hq => ?_, ih asc⟩
        rcases mem_place hq with rfl | hq
        · exact beyond
        · exact low q hq
      · rename_i below beyond
        obtain rfl := eq_of_not_lt below beyond
        exact List.pairwise_cons.2 ⟨low, asc⟩

theorem find?_place (key key' : String) (entry : α) {entries : List (String × α)}
    (h : entries.Pairwise (fun p q => p.1 < q.1)) :
    find? key' (place key entry entries) =
      if key = key' then some entry else find? key' entries := by
  induction entries with
  | nil => simp [place, find?]
  | cons head rest ih =>
    obtain ⟨head, entry'⟩ := head
    obtain ⟨low, asc⟩ := List.pairwise_cons.1 h
    simp only [place]
    split
    · simp [find?]
    · split
      · rename_i beyond
        simp only [find?, ih asc]
        by_cases hk : head = key'
        · have : key ≠ key' := fun e => String.ne_of_lt beyond (hk.trans e.symm)
          simp [hk, this]
        · simp [hk]
      · rename_i below beyond
        obtain rfl := eq_of_not_lt below beyond
        simp only [find?]
        split <;> rfl

theorem find?_eq_none_of_forall_ne {key : String} {entries : List (String × α)}
    (h : ∀ p ∈ entries, p.1 ≠ key) : find? key entries = none := by
  induction entries with
  | nil => rfl
  | cons head rest ih =>
    simp only [find?, h head (by simp), if_false]
    exact ih fun p hp => h p (by simp [hp])

/-! ## Tables -/

/-- The table without entries. -/
def empty : Table α := ⟨[], List.Pairwise.nil⟩

instance : Inhabited (Table α) := ⟨empty⟩

/-- The entry under `key`. -/
def get? (table : Table α) (key : String) : Option α := find? key table.entries

/-- The number of entries. -/
def size (table : Table α) : Nat := table.entries.length

/-- Puts an entry under `key`, instead of the one it may have had. -/
def insert (table : Table α) (key : String) (entry : α) : Table α :=
  ⟨place key entry table.entries, ascending_place table.ascending⟩

/-- Keeps the entries that pass a test. -/
def filter (keep : String → α → Bool) (table : Table α) : Table α :=
  ⟨table.entries.filter fun p => keep p.1 p.2, table.ascending.filter _⟩

/-- Removes the entry under `key`. -/
def erase (table : Table α) (key : String) : Table α :=
  table.filter fun key' _ => key' != key

/-- Puts all of `pairs` into the table, in order. -/
def insertMany (table : Table α) (pairs : List (String × α)) : Table α :=
  pairs.foldl (fun table (key, entry) => table.insert key entry) table

/-- The table of the given entries; of two under one key the later stands. -/
def ofList (pairs : List (String × α)) : Table α := empty.insertMany pairs

/-- Puts all entries of `other` into the table. -/
def extend (table other : Table α) : Table α := table.insertMany other.entries

@[simp] theorem get?_empty (key : String) : (empty : Table α).get? key = none := rfl

theorem get?_insert (table : Table α) (key key' : String) (entry : α) :
    (table.insert key entry).get? key' = if key = key' then some entry else table.get? key' :=
  find?_place key key' entry table.ascending

theorem get?_filter (keep : String → α → Bool) (table : Table α) (key : String) :
    (table.filter keep).get? key = (table.get? key).filter (keep key) := by
  obtain ⟨entries, asc⟩ := table
  simp only [get?, filter]
  induction entries with
  | nil => rfl
  | cons head rest ih =>
    obtain ⟨key', entry⟩ := head
    obtain ⟨low, asc⟩ := List.pairwise_cons.1 asc
    simp only [List.filter_cons, find?]
    by_cases hk : key' = key
    · subst hk
      by_cases kept : keep key' entry
      · simp [kept, find?, Option.filter]
      · have : find? key' (rest.filter fun p => keep p.1 p.2) = none :=
          find?_eq_none_of_forall_ne fun p hp =>
            (String.ne_of_lt (low p (List.mem_filter.1 hp).1)).symm
        simp [kept, this, Option.filter]
    · by_cases kept : keep key' entry
      · simp [kept, find?, hk, ih asc]
      · simp [kept, hk, ih asc]

theorem get?_erase (table : Table α) (key key' : String) :
    (table.erase key).get? key' = if key = key' then none else table.get? key' := by
  rw [erase, get?_filter]
  by_cases h : key = key'
  · subst h
    cases table.get? key <;> simp [Option.filter]
  · cases table.get? key' <;> simp [Option.filter, h, Ne.symm h]

end Table

end ExpiringCache
