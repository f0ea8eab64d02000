import ExpiringCache.Proofs.Visits

/-!
# Operations on different keys in any order

An operation on one key answers by what is under its key and by the default lifetime, and changes
only what is under its key and the counts, to which it adds. So of two operations on different keys
neither has a part in the other's answer (`KeySpace.outcome_perform_on_other`), and they leave the
same items and counts in either order (`KeySpace.perform_on_comm`), also where both keys are routed
to the same store.

An operation can then be moved past a sequence of operations on other keys (`Cache.callAll_past`).
Two sequences of operations on different keys, in whatever order they take turns, have the answers
that each has alone and leave the cache that the one leaves after the other
(`Cache.interleave_disjoint`).
-/

namespace ExpiringCache

/-! ## Two operations on a store -/

theorem Table.put_comm {α : Type} (table : Table α) {key key' : String} (h : key ≠ key')
    (entry entry' : Option α) :
    (table.put key entry).put key' entry' = (table.put key' entry').put key entry := by
  refine ext fun sought => ?_
  simp only [get?_put]
  by_cases first : key = sought
  · rw [if_neg fun second => h (first.trans second.symm), if_pos first, if_pos first]
  · rw [if_neg first, if_neg first]

namespace Store

theorem apply_comm (store : Store) {key key' : String} (h : key ≠ key') (effect effect' : Effect) :
    ((store.apply key effect).2.apply key' effect').2 =
      ((store.apply key' effect').2.apply key effect).2 := by
  have counts := add_right_comm store.counts effect.counted effect'.counted
  simp only [Tally.add_def] at counts
  simp only [apply, Table.put_comm store.items h, counts]

variable (store : Store) (now : Instant) {key key' : String}

/-- An operation on another key makes no difference to the effect of an operation. -/
theorem perform_on_after (h : key' ≠ key) (operation operation' : KeyOperation) :
    (store.perform now (operation'.on key')).2.perform now (operation.on key) =
      (store.perform now (operation'.on key')).2.apply key
        (operation.effect now store.lifetime key (store.items.get? key)) := by
  rw [perform_on _ now key operation, lifetime_perform_on, get?_perform_on, if_neg h]

theorem outcome_perform_on_other (h : key' ≠ key) (operation operation' : KeyOperation) :
    ((store.perform now (operation'.on key')).2.perform now (operation.on key)).1 =
      (store.perform now (operation.on key)).1 := by
  rw [perform_on_after store now h, perform_on store now key operation]
  rfl

theorem perform_on_comm (h : key ≠ key') (operation operation' : KeyOperation) :
    ((store.perform now (operation.on key)).2.perform now (operation'.on key')).2 =
      ((store.perform now (operation'.on key')).2.perform now (operation.on key)).2 := by
  rw [perform_on_after store now h, perform_on_after store now (Ne.symm h),
    perform_on store now key operation, perform_on store now key' operation']
  exact store.apply_comm h _ _

end Store

/-! ## Two operations on a key space -/

namespace KeySpace

variable (space : KeySpace) (now : Instant) {key key' : String}

theorem outcome_perform_on_other (h : key' ≠ key) (operation operation' : KeyOperation) :
    ((space.perform now (operation'.on key')).2.perform now (operation.on key)).1 =
      (space.perform now (operation.on key)).1 := by
  rw [outcome_perform_on, outcome_perform_on, home_perform_on]
  split
  · exact Store.outcome_perform_on_other _ now h operation operation'
  · rfl

theorem perform_on_comm (h : key ≠ key') (operation operation' : KeyOperation) :
    ((space.perform now (operation.on key)).2.perform now (operation'.on key')).2 =
      ((space.perform now (operation'.on key')).2.perform now (operation.on key)).2 := by
  have routed (f : Nat → Store → Store) (key : String) :
      (space.mapStores f).bucket key = space.bucket key := by
    rw [bucket, bucket, stores_mapStores, List.length_mapIdx]
  simp only [perform_on_eq_mapStores, mapStores_mapStores, routed]
  refine mapStores_congr fun i store _ => ?_
  split
  · split
    · exact store.perform_on_comm now h operation operation'
    · rfl
  · rfl

end KeySpace

/-! ## Sequences -/

/-- An operation, with the key that it is on. -/
structure Call where
  /-- The key. -/
  key : String
  /-- The operation. -/
  operation : KeyOperation

/-- What comes back from a call: the outcome and the reports on it. -/
abbrev Answer := Outcome × List Event

namespace Cache

/-- Carries out a call. -/
def call (cache : Cache) (now : Instant) (call : Call) : Answer × Cache :=
  let (outcome, events, cache) := cache.perform now (call.operation.on call.key)
  ((outcome, events), cache)

/-- Carries out calls one after the other. -/
def callAll (cache : Cache) (now : Instant) : List Call → List Answer × Cache
  | [] => ([], cache)
  | call :: calls =>
    let (answer, cache) := cache.call now call
    let (answers, cache) := cache.callAll now calls
    (answer :: answers, cache)

/-- Carries out the calls of two sequences that take turns; gives the answers to each sequence. -/
def interleave (cache : Cache) (now : Instant) :
    List (Call ⊕ Call) → List Answer × List Answer × Cache
  | [] => ([], [], cache)
  | .inl call :: run =>
    let (answer, cache) := cache.call now call
    let (first, second, cache) := cache.interleave now run
    (answer :: first, second, cache)
  | .inr call :: run =>
    let (answer, cache) := cache.call now call
    let (first, second, cache) := cache.interleave now run
    (first, answer :: second, cache)

variable (cache : Cache) (now : Instant)

/-- Of calls on different keys neither has a part in the other's answer. -/
theorem answer_call_other {call call' : Call} (h : call'.key ≠ call.key) :
    ((cache.call now call').2.call now call).1 = (cache.call now call).1 := by
  have outcome := cache.space.outcome_perform_on_other now h call.operation call'.operation
  exact congrArg (fun outcome => (outcome, cache.reporter.report
    (call.operation.on call.key) outcome.result)) outcome

/-- Calls on different keys leave the same cache in either order. -/
theorem call_comm {call call' : Call} (h : call.key ≠ call'.key) :
    ((cache.call now call).2.call now call').2 = ((cache.call now call').2.call now call).2 := by
  have space := cache.space.perform_on_comm now h call.operation call'.operation
  exact congrArg (fun space => ({ cache with space := space } : Cache)) space

/-- Calls have the same answers after a call on another key, which can as well come after them. -/
theorem callAll_past {call : Call} {calls : List Call} (h : ∀ other ∈ calls, call.key ≠ other.key) :
    (cache.call now call).2.callAll now calls =
      ((cache.callAll now calls).1, ((cache.callAll now calls).2.call now call).2) := by
  induction calls generalizing cache with
  | nil => rfl
  | cons other calls ih =>
    obtain ⟨apart, later⟩ := List.forall_mem_cons.1 h
    simp only [callAll, cache.answer_call_other now apart, cache.call_comm now apart,
      ih _ later]

theorem callAll_append (calls later : List Call) :
    (cache.callAll now (calls ++ later)).2 =
      ((cache.callAll now calls).2.callAll now later).2 := by
  induction calls generalizing cache with
  | nil => rfl
  | cons call calls ih => exact ih _

/-- The order in which two sequences of operations on different keys take turns makes no difference:
each operation has the answer that it has if its sequence is alone, and the cache, with its items and
its statistics, is in the end as if the one sequence had come after the other. -/
theorem interleave_disjoint {first second : List Call}
    (disjoint : ∀ call ∈ first, ∀ call' ∈ second, call.key ≠ call'.key) {run : List (Call ⊕ Call)}
    (lefts : run.filterMap Sum.getLeft? = first) (rights : run.filterMap Sum.getRight? = second) :
    cache.interleave now run = ((cache.callAll now first).1, (cache.callAll now second).1,
      (cache.callAll now (first ++ second)).2) := by
  subst lefts rights
  induction run generalizing cache with
  | nil => rfl
  | cons turn run ih =>
    cases turn with
    | inl call =>
      simp only [List.filterMap_cons, Sum.getLeft?_inl, Sum.getRight?_inl] at disjoint ⊢
      obtain ⟨apart, later⟩ := List.forall_mem_cons.1 disjoint
      have answers := congrArg Prod.fst (cache.callAll_past now apart)
      simp only [interleave, ih (cache.call now call).2 later, answers, callAll, List.cons_append]
    | inr call =>
      simp only [List.filterMap_cons, Sum.getLeft?_inr, Sum.getRight?_inr] at disjoint ⊢
      have apart : ∀ other ∈ run.filterMap Sum.getLeft?, call.key ≠ other.key := fun other hm =>
        Ne.symm (disjoint other hm call List.mem_cons_self)
      have later : ∀ call ∈ run.filterMap Sum.getLeft?, ∀ call' ∈ run.filterMap Sum.getRight?,
          call.key ≠ call'.key := fun other hm call' hm' =>
        disjoint other hm call' (List.mem_cons_of_mem _ hm')
      -- What is left of the first sequence can as well be carried out before the call.
      simp only [interleave, ih (cache.call now call).2 later, callAll_append,
        cache.callAll_past now apart, callAll]

/-- A cache with a single store. -/
def emptyStore : Cache := ⟨.single (.create none), ⟨none, none, []⟩, none⟩

/-- An integer is stored and increased, and is then not a text. -/
def countingCalls : List Call :=
  [⟨"a", .set (.leaf (.int (.ofInt .uint8 255))) .never⟩, ⟨"a", .increment 2⟩, ⟨"a", .getText⟩]

/-- What is not there is looked up and cannot be removed. -/
def missingCalls : List Call := [⟨"b", .get⟩, ⟨"b", .delete⟩]

/-- The two sequences take turns. -/
def callsInTurn : List (Call ⊕ Call) :=
  [.inr ⟨"b", .get⟩, .inl ⟨"a", .set (.leaf (.int (.ofInt .uint8 255))) .never⟩,
    .inl ⟨"a", .increment 2⟩, .inr ⟨"b", .delete⟩, .inl ⟨"a", .getText⟩]

theorem interleave_disjoint_once :
    (∀ call ∈ countingCalls, ∀ call' ∈ missingCalls, call.key ≠ call'.key) ∧
      callsInTurn.filterMap Sum.getLeft? = countingCalls ∧
      callsInTurn.filterMap Sum.getRight? = missingCalls ∧
      emptyStore.interleave (.nearest 0) callsInTurn =
        ((emptyStore.callAll (.nearest 0) countingCalls).1,
          (emptyStore.callAll (.nearest 0) missingCalls).1,
          (emptyStore.callAll (.nearest 0) (countingCalls ++ missingCalls)).2) := by
  have disjoint : ∀ call ∈ countingCalls, ∀ call' ∈ missingCalls, call.key ≠ call'.key := by decide
  exact ⟨disjoint, rfl, rfl, interleave_disjoint emptyStore (.nearest 0) disjoint rfl rfl⟩

end Cache

end ExpiringCache
