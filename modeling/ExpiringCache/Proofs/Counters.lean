import ExpiringCache.Proofs.Number.Widths
import ExpiringCache.Proofs.Placement
import ExpiringCache.Proofs.Residents

/-!
# Counters that are shared

Several clients add to an integer under one key, in turns that come in any order, and between them
anything happens that spares the key (`Operation.Spares`): it is read, other keys are operated on,
expired items are removed and snapshots loaded, in whole or store by store.

An increment adds to what the ones before it have left (`KeySpace.increment_counter`), and whatever
else happens in a store leaves a live item alone if it spares its key (`StoreAction.spared_part`). So
the answers are the totals up to each increment (`Cache.serve_counter`), whatever the order of the
turns, and what the clients add makes up what is added in all (`sum_turns`).
-/

namespace ExpiringCache

/-! ## What spares a key -/

/-- The operation leaves alone a live item under a key: it reads it or is on another key, removes
expired items, or saves or loads a snapshot. -/
def Operation.Spares (key : String) : Operation → Prop
  | .get _ | .getText _ | .contains _ | .deleteExpired | .save _ | .load _ => True
  | .set key' _ _ | .delete key' | .increment key' _ | .incrementFloat key' _
  | .decrement key' _ => key' ≠ key
  | .flush => False

/-- The action leaves alone a live item under a key. -/
def StoreAction.Spares (key : String) : StoreAction → Prop
  | .perform operation => operation.Spares key
  | .merge _ => True

theorem KeyOperation.left_of_spares {operation : KeyOperation} {key : String}
    (spares : (operation.on key).Spares key) {now : Instant} {lifetime : Option Duration}
    {item : Item} (live : item.visibleAt now = true) :
    (operation.effect now lifetime key (some item)).left = some item := by
  have found := Item.live?_of_visibleAt live
  cases operation with
  | get => exact found
  | getText => exact found
  | contains => exact found
  | _ => exact absurd rfl spares

/-- What spares a key leaves a live item under it as it is in every store. -/
theorem StoreAction.spared_part {count index : Nat} {action part : StoreAction}
    (hp : action.part? count index = some part) {key : String} (spares : action.Spares key)
    {store : Store} {now : Instant} {item : Item} (found : store.items.get? key = some item)
    (live : item.visibleAt now = true) :
    (store.act now part).2.items.get? key = some item := by
  -- A live item stays, whatever comes in for its key.
  have merged (incoming : Table Item) :
      (store.act now (.merge incoming)).2.items.get? key = some item := by
    rw [Store.get?_act_merge, found, Item.merged, Item.live?_of_visibleAt live, Option.some_or]
  refine part?_cases (motive := fun action part => action.Spares key →
    (store.act now part).2.items.get? key = some item) ?on ?deleteExpired ?flush ?load ?merge hp
    spares
  case on =>
    intro operation key' _ spares
    rw [Store.get?_act_on]
    split
    · rename_i same
      subst same
      rw [found]
      exact KeyOperation.left_of_spares spares live
    · exact found
  case deleteExpired =>
    intro _
    rw [Store.get?_act_deleteExpired, found, Item.live?_of_visibleAt live]
  case flush => exact fun spares => spares.elim
  case load => exact fun source incoming _ _ => merged _
  case merge => exact fun incoming _ => merged _

namespace KeySpace

variable {space : KeySpace} {now : Instant} {key : String}

theorem spared_visit {item : Item} (found : (space.home key).items.get? key = some item)
    (live : item.visibleAt now = true) {action : StoreAction} (spares : action.Spares key)
    (index : Nat) : ((space.visit now action index).home key).items.get? key = some item := by
  rw [visit, home_mapStores]
  split
  · cases hp : action.part? space.stores.length (space.bucket key) with
    | none => exact found
    | some part => exact StoreAction.spared_part hp spares found live
  · exact found

/-- An increment of a live integer answers with the total and leaves it under the key. -/
theorem increment_counter {n : FixedInt} {deadline : Option Deadline}
    (found : (space.home key).items.get? key = some ⟨.leaf (.int n), deadline⟩)
    (live : (Item.mk (.leaf (.int n)) deadline).visibleAt now = true) (delta : Int64) :
    (space.perform now (.increment key delta)).1.result =
        .ok (.integer (n.increment delta).toInt64) ∧
      ((space.perform now (.increment key delta)).2.home key).items.get? key =
        some ⟨.leaf (.int (n.increment delta)), deadline⟩ := by
  rw [Item.visibleAt_eq, Bool.not_eq_true'] at live
  have performed := Store.increment_integer found live delta
  have answered := space.outcome_perform_on now key (.increment delta)
  have left := space.home_perform_on now key key (.increment delta)
  rw [if_pos rfl] at left
  rw [KeyOperation.on, performed] at answered left
  rw [answered, left]
  exact ⟨rfl, Table.get?_put_self _ _ (some _)⟩

end KeySpace

/-! ## Runs -/

/-- A step of a run that clients share: one of them increments the counter, or something else
happens. -/
inductive SharedStep (clients : Nat) where
  | increment (client : Fin clients) (delta : Int64)
  | other (step : CacheStep)

namespace SharedStep

variable {clients : Nat}

/-- The client and its delta, if the step is an increment. -/
def call? : SharedStep clients → Option (Fin clients × Int64)
  | increment client delta => some (client, delta)
  | other _ => none

/-- The step, on a counter under a key. -/
def on (key : String) : SharedStep clients → CacheStep
  | increment _ delta => .perform (.increment key delta)
  | other step => step

/-- What happens besides the increments is allowed. -/
def Within (allowed : StoreAction → Prop) : SharedStep clients → Prop
  | increment _ _ => True
  | other step => step.Within allowed

end SharedStep

/-- The increments of a run, in the order in which they come. -/
def calls {clients : Nat} (run : List (Instant × SharedStep clients)) :
    List (Fin clients × Int64) :=
  run.filterMap fun p => p.2.call?

/-- What the increments of each client come to is what all of them come to. -/
theorem sum_calls {M : Type} [AddCommMonoid M] {clients : Nat} (f : Int64 → M)
    (calls : List (Fin clients × Int64)) :
    ∑ client, (((calls.filter fun call => call.1 = client).map Prod.snd).map f).sum =
      (calls.map fun call => f call.2).sum := by
  induction calls with
  | nil => exact Finset.sum_const_zero
  | cons call calls ih =>
    have each (client : Fin clients) :
        ((((call :: calls).filter fun call => call.1 = client).map Prod.snd).map f).sum =
          (if call.1 = client then f call.2 else 0) +
            (((calls.filter fun call => call.1 = client).map Prod.snd).map f).sum := by
      rw [List.filter_cons]
      by_cases own : call.1 = client
      · simp only [own, decide_true, if_true, List.map_cons, List.sum_cons]
      · simp only [own, decide_false, Bool.false_eq_true, if_false, zero_add]
    simp only [each, Finset.sum_add_distrib, ih, Finset.sum_ite_eq, Finset.mem_univ, if_true,
      List.map_cons, List.sum_cons]

section Turns

variable {clients : Nat} {run : List (Instant × SharedStep clients)}
  {deltas : Fin clients → List Int64}
  (turns : ∀ client, ((calls run).filter fun call => call.1 = client).map Prod.snd = deltas client)

include turns

theorem sum_turns {M : Type} [AddCommMonoid M] (f : Int64 → M) :
    (((calls run).map Prod.snd).map f).sum = ∑ client, ((deltas client).map f).sum := by
  rw [List.map_map]
  refine (sum_calls f (calls run)).symm.trans (Finset.sum_congr rfl fun client _ => ?_)
  rw [turns]

theorem length_turns : ((calls run).map Prod.snd).length = ∑ client, (deltas client).length := by
  have h := sum_turns turns fun _ => (1 : Nat)
  simpa only [List.map_const', List.sum_replicate, smul_eq_mul, Nat.mul_one] using h

theorem turns_by_ones (ones : ∀ client, ∀ delta ∈ deltas client, delta = 1) :
    (calls run).map Prod.snd = .replicate (∑ client, (deltas client).length) 1 := by
  refine List.eq_replicate_iff.2 ⟨length_turns turns, fun delta hd => ?_⟩
  obtain ⟨⟨client, _⟩, hc, rfl⟩ := List.mem_map.1 hd
  refine ones client _ (turns client ▸ List.mem_map_of_mem ?_)
  exact List.mem_filter.2 ⟨hc, decide_eq_true rfl⟩

end Turns

namespace Cache

variable {clients : Nat}

/-- The answers to the increments of a counter in a run, and the cache after the run. -/
def serve (cache : Cache) (key : String) :
    List (Instant × SharedStep clients) → List (Except Failure Reply) × Cache
  | [] => ([], cache)
  | (now, .increment _ delta) :: rest =>
    let (outcome, _, cache) := cache.perform now (.increment key delta)
    let (answers, cache) := cache.serve key rest
    (outcome.result :: answers, cache)
  | (now, .other step) :: rest => (cache.step now step).serve key rest

theorem serve_through (cache : Cache) (key : String) (run : List (Instant × SharedStep clients)) :
    (cache.serve key run).2 = cache.through (run.map fun p => (p.1, p.2.on key)) := by
  induction run generalizing cache with
  | nil => rfl
  | cons p run ih =>
    obtain ⟨now, step⟩ := p
    cases step with
    | increment client delta => exact ih (cache.step now (.perform (.increment key delta)))
    | other step => exact ih (cache.step now step)

/-- Each increment answers with the total that stands after it, and the last total remains. -/
theorem serve_counter (cache : Cache) {key : String} {n : FixedInt} {deadline : Option Deadline}
    (found : (cache.space.home key).items.get? key = some ⟨.leaf (.int n), deadline⟩)
    {run : List (Instant × SharedStep clients)}
    (spared : ∀ p ∈ run, p.2.Within (StoreAction.Spares key))
    (live : ∀ p ∈ run, ∀ value : Value, (Item.mk value deadline).visibleAt p.1 = true) :
    (cache.serve key run).1 = (n.totals ((calls run).map Prod.snd)).map
        (fun total => .ok (.integer total.toInt64)) ∧
      ((cache.serve key run).2.space.home key).items.get? key =
        some ⟨.leaf (.int (((calls run).map Prod.snd).foldl FixedInt.increment n)), deadline⟩ := by
  induction run generalizing cache n with
  | nil => exact ⟨rfl, found⟩
  | cons p run ih =>
    obtain ⟨now, step⟩ := p
    obtain ⟨spares, spared_later⟩ := List.forall_mem_cons.1 spared
    obtain ⟨now_live, live_later⟩ := List.forall_mem_cons.1 live
    cases step with
    | increment client delta =>
      obtain ⟨answer, left⟩ := KeySpace.increment_counter found (now_live _) delta
      obtain ⟨answers, last⟩ :=
        ih (cache.perform now (.increment key delta)).2.2 left spared_later live_later
      exact ⟨List.cons_eq_cons.2 ⟨answer, answers⟩, last⟩
    | other step =>
      refine ih (cache.step now step) ?_ spared_later live_later
      exact step_keeps (P := fun space => (space.home key).items.get? key = _)
        (fun _ _ index spares found => KeySpace.spared_visit found (now_live _) spares index)
        spares found

/-- No increment is lost or counted twice. Clients increment an integer under one key, each by its
own deltas in their order, and in whatever order their turns come and whatever else that spares the
key happens between them: every increment succeeds, and in the end the integer has its type and its
deadline, and is what it was and the sum of all deltas, modulo the width. If all deltas are one and
there are no more of them than the width has values, no two answers are the same. -/
theorem increments_add_up {cache : Cache} (fresh : cache.space.Fresh)
    (before : List (Instant × CacheStep)) {key : String} {start : FixedInt}
    {deadline : Option Deadline}
    (holds : (cache.through before).space.items.get? key = some ⟨.leaf (.int start), deadline⟩)
    (deltas : Fin clients → List Int64) {run : List (Instant × SharedStep clients)}
    (turns : ∀ client, ((calls run).filter fun call => call.1 = client).map Prod.snd =
      deltas client)
    (spared : ∀ p ∈ run, p.2.Within (StoreAction.Spares key))
    (live : ∀ p ∈ run, (Item.mk (.leaf (.int start)) deadline).expired p.1 = false) :
    let sum := ∑ client, ((deltas client).map Int64.toInt).sum
    let total := FixedInt.ofInt start.type (start.val + sum)
    let served := (cache.through before).serve key run
    served.2.space.items.get? key = some ⟨.leaf (.int total), deadline⟩ ∧
      total.val ≡ start.val + sum [ZMOD 2 ^ start.type.bits] ∧
      ∃ values : List Int64, served.1 = values.map (fun value => .ok (.integer value)) ∧
        values.length = ∑ client, (deltas client).length ∧
        ((∀ client, ∀ delta ∈ deltas client, delta = 1) →
          ∑ client, (deltas client).length ≤ 2 ^ start.type.bits → values.Nodup) := by
  intro sum total served
  have placed := placed_through fresh.placed before
  have placed_after : served.2.space.Placed := by
    show ((cache.through before).serve key run).2.space.Placed
    rw [serve_through]
    exact placed_through placed _
  rw [placed.get?_items] at holds
  obtain ⟨answers, last⟩ := serve_counter _ holds spared fun p hp value => by
    have visible := live p hp
    rw [Item.visibleAt_eq, Bool.not_eq_true']
    exact visible
  refine ⟨?_, ?_, (start.totals ((calls run).map Prod.snd)).map FixedInt.toInt64, ?_, ?_,
    fun ones few => ?_⟩
  · rw [placed_after.get?_items, last, FixedInt.foldl_increment, sum_turns turns]
  · rw [← IntType.modulus_eq]
    exact start.type.wrap_modEq _
  · rw [List.map_map]
    exact answers
  · rw [List.length_map, FixedInt.length_totals, length_turns turns]
  · rw [turns_by_ones turns ones]
    exact start.nodup_totals (few.trans_eq (Nat.one_shiftLeft _).symm)

/-- A cache with two shards. -/
def sharedShards : Cache := ⟨.sharded (.create 2 Nat.two_pos none), ⟨none, none, []⟩, none⟩

/-- An integer of eight bits at its greatest value. -/
def storedOnce : List (Instant × CacheStep) :=
  [(.nearest 0, .perform (.set "k" (.leaf (.int (.ofInt .uint8 255))) .never))]

/-- Two clients count by ones; between their turns a sweep visits a shard and another integer for the
key comes in. -/
def countedOnce : List (Instant × SharedStep 2) :=
  [(.nearest 0, .increment 0 1), (.nearest 0, .other (.visit (.perform .deleteExpired) 0)),
    (.nearest 0, .increment 1 1),
    (.nearest 0, .other (.merge (.ofList [("k", ⟨.leaf (.int (.ofInt .uint8 7)), none⟩)]))),
    (.nearest 0, .increment 0 1)]

theorem increments_add_up_once :
    (sharedShards.through storedOnce).space.items.get? "k" =
        some ⟨.leaf (.int (.ofInt .uint8 255)), none⟩ ∧
      ((sharedShards.through storedOnce).serve "k" countedOnce).2.space.items.get? "k" =
        some ⟨.leaf (.int (.ofInt .uint8 2)), none⟩ ∧
      ∃ values : List Int64, ((sharedShards.through storedOnce).serve "k" countedOnce).1 =
          values.map (fun value => .ok (.integer value)) ∧
        values.length = 3 ∧ values.Nodup := by
  have fresh : sharedShards.space.Fresh := .sharded (by decide) none
  have holds : (sharedShards.through storedOnce).space.items.get? "k" =
      some ⟨.leaf (.int (.ofInt .uint8 255)), none⟩ := rfl
  have turns : ∀ client : Fin 2,
      ((calls countedOnce).filter fun call => call.1 = client).map Prod.snd =
        List.replicate (2 - client) 1 := by decide
  have spared : ∀ p ∈ countedOnce, p.2.Within (StoreAction.Spares "k") :=
    List.forall_iff_forall_mem.1 ⟨trivial, trivial, trivial, trivial, trivial⟩
  have live : ∀ p ∈ countedOnce,
      (Item.mk (.leaf (.int (.ofInt .uint8 255))) none).expired p.1 = false := by decide
  obtain ⟨last, -, values, answers, count, distinct⟩ :=
    increments_add_up fresh storedOnce holds _ turns spared live
  have sum : ∑ client : Fin 2, ((List.replicate (2 - client) (1 : Int64)).map Int64.toInt).sum =
      3 := by decide
  have total : FixedInt.ofInt (FixedInt.ofInt .uint8 255).type
      ((FixedInt.ofInt .uint8 255).val + 3) = .ofInt .uint8 2 := by decide
  rw [sum, total] at last
  have three : ∑ client : Fin 2, (List.replicate (2 - client) (1 : Int64)).length = 3 := by decide
  rw [three] at count distinct
  exact ⟨holds, last, values, answers, count,
    distinct (fun client delta hd => List.eq_of_mem_replicate hd) (by decide)⟩

end Cache

end ExpiringCache
