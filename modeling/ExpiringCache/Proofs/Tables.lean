import ExpiringCache.Table
import Mathlib.Data.List.Nodup
import Mathlib.Data.List.Perm.Basic

/-!
# Tables by what is found in them

A list of entries whose keys differ is read through `find?`: what is found under a key is the one
entry with that key (`find?_eq_some_iff`), in whatever order the entries are (`find?_perm`). In
ascending order the list is determined by what is found in it (`eq_of_find?_eq`), and so is a
table (`Table.ext`).

`get?_insertMany` and `get?_extend` say what is found after many entries are put in; of two under
one key the later stands. How the size changes depends on whether there was an entry under the key
(`size_insert`, `size_erase`).
-/

namespace ExpiringCache.Table

variable {α : Type}

/-! ## Lists of entries -/

/-- No two entries have the same key. -/
def Distinct (entries : List (String × α)) : Prop := entries.Pairwise fun p q => p.1 ≠ q.1

/-- The keys ascend strictly. -/
def Ascending (entries : List (String × α)) : Prop := entries.Pairwise fun p q => p.1 < q.1

theorem Ascending.distinct {entries : List (String × α)} (h : Ascending entries) :
    Distinct entries := h.imp String.ne_of_lt

theorem Distinct.perm {l l' : List (String × α)} (h : Distinct l) (p : l.Perm l') : Distinct l' :=
  p.pairwise h fun h => Ne.symm h

theorem Distinct.nodup {entries : List (String × α)} (h : Distinct entries) : entries.Nodup :=
  h.imp fun hk e => hk (congrArg Prod.fst e)

theorem find?_append (key : String) (l l' : List (String × α)) :
    find? key (l ++ l') = (find? key l).or (find? key l') := by
  induction l with
  | nil => rfl
  | cons p l ih =>
    simp only [List.cons_append, find?, ih]
    split <;> rfl

theorem find?_map {β : Type} (f : α → β) (key : String) (entries : List (String × α)) :
    find? key (entries.map fun p => (p.1, f p.2)) = (find? key entries).map f := by
  induction entries with
  | nil => rfl
  | cons p rest ih =>
    rw [List.map_cons, find?, find?, ih]
    split <;> rfl

theorem mem_of_find? {key : String} {entry : α} {entries : List (String × α)}
    (h : find? key entries = some entry) : (key, entry) ∈ entries := by
  induction entries with
  | nil => cases h
  | cons p rest ih =>
    simp only [find?] at h
    split at h
    · rename_i e
      rw [← e, ← Option.some.inj h]
      exact List.mem_cons_self
    · exact List.mem_cons_of_mem _ (ih h)

theorem find?_eq_some_iff {key : String} {entry : α} {entries : List (String × α)}
    (h : Distinct entries) : find? key entries = some entry ↔ (key, entry) ∈ entries := by
  refine ⟨mem_of_find?, fun hm => ?_⟩
  induction entries with
  | nil => cases hm
  | cons p rest ih =>
    obtain ⟨hp, hr⟩ := List.pairwise_cons.1 h
    rcases List.mem_cons.1 hm with rfl | hm
    · simp only [find?, if_true]
    · rw [find?, if_neg (hp _ hm), ih hr hm]

theorem find?_perm {l l' : List (String × α)} (h : Distinct l) (p : l.Perm l') (key : String) :
    find? key l = find? key l' := by
  apply Option.ext
  intro entry
  rw [find?_eq_some_iff h, find?_eq_some_iff (h.perm p)]
  exact p.mem_iff

theorem find?_reverse {entries : List (String × α)} (h : Distinct entries) (key : String) :
    find? key entries.reverse = find? key entries :=
  (find?_perm h (List.reverse_perm _).symm key).symm

/-- Ascending entries are determined by what is found under each key. -/
theorem eq_of_find?_eq {l l' : List (String × α)} (h : Ascending l) (h' : Ascending l')
    (e : ∀ key, find? key l = find? key l') : l = l' := by
  have p : l.Perm l' :=
    (List.perm_ext_iff_of_nodup h.distinct.nodup h'.distinct.nodup).2 fun q => by
      rw [← find?_eq_some_iff h.distinct, e, find?_eq_some_iff h'.distinct]
  exact p.eq_of_pairwise (fun _ _ _ _ hlt hgt =>
    absurd (String.lt_trans hlt hgt) (String.lt_irrefl _)) h h'

/-- Of the entries put under one key the last is found. -/
theorem find?_foldl_place (key : String) (pairs : List (String × α)) {entries : List (String × α)}
    (h : Ascending entries) :
    find? key (pairs.foldl (fun entries p => place p.1 p.2 entries) entries) =
      (find? key pairs.reverse).or (find? key entries) := by
  induction pairs generalizing entries with
  | nil => rfl
  | cons p pairs ih =>
    rw [List.foldl_cons, ih (ascending_place h), find?_place _ _ _ h, List.reverse_cons,
      find?_append, Option.or_assoc]
    simp only [find?]
    split <;> rfl

theorem length_place (key : String) (entry : α) {entries : List (String × α)}
    (h : Ascending entries) :
    (place key entry entries).length + (find? key entries).isSome.toNat = entries.length + 1 := by
  induction entries with
  | nil => rfl
  | cons p rest ih =>
    obtain ⟨hp, hr⟩ := List.pairwise_cons.1 h
    simp only [place, find?]
    split
    · rename_i below
      have hn : find? key rest = none :=
        find?_eq_none_of_forall_ne fun q hq =>
          (String.ne_of_lt (String.lt_trans below (hp q hq))).symm
      rw [if_neg (String.ne_of_lt below).symm, hn]
      rfl
    · split
      · rename_i beyond
        rw [if_neg (String.ne_of_lt beyond), List.length_cons, List.length_cons, ← ih hr]
        omega
      · rename_i below beyond
        rw [if_pos (eq_of_not_lt below beyond).symm]
        rfl

/-! ## Tables -/

/-- A table is determined by what is found in it. -/
theorem ext {table table' : Table α} (h : ∀ key, table.get? key = table'.get? key) :
    table = table' := by
  have e : table.entries = table'.entries := eq_of_find?_eq table.ascending table'.ascending h
  cases table
  cases table'
  simp only [mk.injEq]
  exact e

theorem get?_eq_some_iff {table : Table α} {key : String} {entry : α} :
    table.get? key = some entry ↔ (key, entry) ∈ table.entries :=
  find?_eq_some_iff (Ascending.distinct table.ascending)

theorem entries_insertMany (table : Table α) (pairs : List (String × α)) :
    (table.insertMany pairs).entries =
      pairs.foldl (fun entries p => place p.1 p.2 entries) table.entries := by
  rw [insertMany]
  induction pairs generalizing table with
  | nil => rfl
  | cons p pairs ih => exact ih (table.insert p.1 p.2)

theorem get?_insertMany (table : Table α) (pairs : List (String × α)) (key : String) :
    (table.insertMany pairs).get? key = (find? key pairs.reverse).or (table.get? key) := by
  rw [get?, entries_insertMany, find?_foldl_place key pairs table.ascending]
  rfl

theorem get?_ofList (pairs : List (String × α)) (key : String) :
    (ofList pairs).get? key = find? key pairs.reverse := by
  rw [ofList, get?_insertMany, get?_empty, Option.or_none]

theorem get?_extend (table other : Table α) (key : String) :
    (table.extend other).get? key = (other.get? key).or (table.get? key) := by
  rw [extend, get?_insertMany, find?_reverse (Ascending.distinct other.ascending)]
  rfl

/-- Entries with different keys make up the table that has them in order. -/
theorem ofList_eq_of_perm {table : Table α} {pairs : List (String × α)}
    (h : pairs.Perm table.entries) : ofList pairs = table := by
  have d : Distinct table.entries := Ascending.distinct table.ascending
  refine ext fun key => ?_
  rw [get?_ofList, find?_reverse (d.perm h.symm), ← find?_perm d h.symm]
  rfl

theorem insertMany_append (table : Table α) (pairs pairs' : List (String × α)) :
    table.insertMany (pairs ++ pairs') = (table.insertMany pairs).insertMany pairs' :=
  List.foldl_append

/-- Entries with different keys are all in the table that they make up, and nothing else is. -/
theorem perm_ofList {pairs : List (String × α)} (h : Distinct pairs) :
    (ofList pairs).entries.Perm pairs := by
  have ascending : Ascending (ofList pairs).entries := (ofList pairs).ascending
  refine (List.perm_ext_iff_of_nodup ascending.distinct.nodup h.nodup).2 fun p => ?_
  rw [← get?_eq_some_iff, get?_ofList, find?_reverse h, find?_eq_some_iff h]

/-! ## Sizes -/

theorem size_insert (table : Table α) (key : String) (entry : α) :
    (table.insert key entry).size + (table.get? key).isSome.toNat = table.size + 1 :=
  length_place key entry table.ascending

theorem size_erase (table : Table α) (key : String) :
    (table.erase key).size + (table.get? key).isSome.toNat = table.size := by
  cases hf : table.get? key with
  | none =>
    have : table.erase key = table := ext fun key' => by
      rw [get?_erase]
      split
      · rename_i e
        rw [← e, hf]
      · rfl
    rw [this]
    rfl
  | some entry =>
    -- What is removed can be put back.
    have : (table.erase key).insert key entry = table := ext fun key' => by
      rw [get?_insert, get?_erase]
      split
      · rename_i e
        rw [← e, hf]
      · rfl
    have hs := size_insert (table.erase key) key entry
    rw [this, get?_erase, if_pos rfl] at hs
    exact hs.symm

/-- A table with something under every key under which another has something is not smaller. -/
theorem size_le_size {table table' : Table α}
    (h : ∀ key, (table.get? key).isSome → (table'.get? key).isSome) :
    table.size ≤ table'.size := by
  have mem_keys (t : Table α) (key : String) :
      key ∈ t.entries.map Prod.fst ↔ (t.get? key).isSome := by
    rw [Option.isSome_iff_exists, List.mem_map]
    constructor
    · rintro ⟨⟨_, entry⟩, hm, rfl⟩
      exact ⟨entry, get?_eq_some_iff.2 hm⟩
    · rintro ⟨entry, hf⟩
      exact ⟨(key, entry), mem_of_find? hf, rfl⟩
  have nodup : (table.entries.map Prod.fst).Nodup :=
    List.pairwise_map.2 (Ascending.distinct table.ascending)
  have subset : table.entries.map Prod.fst ⊆ table'.entries.map Prod.fst := fun key hk =>
    (mem_keys table' key).2 (h key ((mem_keys table key).1 hk))
  have := (List.subperm_of_subset nodup subset).length_le
  rwa [List.length_map, List.length_map] at this

end ExpiringCache.Table
