import ExpiringCache.Proofs.Visits

/-!
# Runs of a cache

What can happen to a cache is listed in `CacheStep`: operations are carried out on it, tables are
merged and files loaded, its sweeper sweeps, is told to stop and ends. A step may be a single visit
to a store as well, so that the visits of actions that are under way at the same time come in any
order, with other steps between them.

What holds of the key space and is kept by every visit of the actions that occur is kept by a run
(`Cache.step_keeps`, `Cache.through_keeps`).
-/

namespace ExpiringCache

/-- Something that happens to a cache. -/
inductive CacheStep where
  /-- An operation is carried out. -/
  | perform (operation : Operation)
  /-- The items of a table are taken in. -/
  | merge (incoming : Table Item)
  /-- One store does its part in an action. -/
  | visit (action : StoreAction) (index : Nat)
  /-- The snapshot in a file is loaded. -/
  | loadFile (files : FileSystem) (path : String)
  /-- The sweeper deals with the ticks that are due at a reading of its clock. -/
  | ticks (reading : Nat)
  /-- The sweeper is told to stop. -/
  | close
  /-- The task of a stopped sweeper ends. -/
  | settle

/-- The actions that the step carries out, in whole or in part, are allowed. -/
def CacheStep.Within (allowed : StoreAction → Prop) : CacheStep → Prop
  | .perform operation => allowed (.perform operation)
  | .merge incoming => allowed (.merge incoming)
  | .visit action _ => allowed action
  | .loadFile _ _ => ∀ source, allowed (.perform (.load source))
  | .ticks _ => allowed (.perform .deleteExpired)
  | .close | .settle => True

theorem CacheStep.within_of_forall {allowed : StoreAction → Prop} (h : ∀ action, allowed action)
    (step : CacheStep) : step.Within allowed := by
  cases step with
  | loadFile files path => exact fun source => h _
  | close => trivial
  | settle => trivial
  | _ => exact h _

namespace Cache

/-- The cache after a step. -/
def step (cache : Cache) (now : Instant) : CacheStep → Cache
  | .perform operation => (cache.perform now operation).2.2
  | .merge incoming => { cache with space := (cache.space.merge now incoming).2 }
  | .visit action index => { cache with space := cache.space.visit now action index }
  | .loadFile files path => (cache.loadFile now files path).2.2
  | .ticks reading => (cache.sweepDue now reading).2
  | .close => cache.close
  | .settle => cache.settle.2

/-- The cache after a run. -/
def through (cache : Cache) : List (Instant × CacheStep) → Cache
  | [] => cache
  | (now, step) :: rest => (cache.step now step).through rest

theorem through_append (cache : Cache) (steps later : List (Instant × CacheStep)) :
    cache.through (steps ++ later) = (cache.through steps).through later := by
  induction steps generalizing cache with
  | nil => rfl
  | cons step steps ih => exact ih (cache.step step.1 step.2)

variable {P : KeySpace → Prop} {cache : Cache}

theorem step_keeps {now : Instant} {allowed : StoreAction → Prop} {step : CacheStep}
    (visit : ∀ space action index, allowed action → P space → P (space.visit now action index))
    (within : step.Within allowed) (h : P cache.space) : P (cache.step now step).space := by
  have act {action : StoreAction} (ha : allowed action) {space : KeySpace} (h : P space) :
      P (space.act now action).2 :=
    KeySpace.act_keeps (fun space index => visit space action index ha) h
  have sweep (ha : allowed (.perform .deleteExpired)) (space : KeySpace) (h : P space) :
      P (space.sweep now).2 := by
    rw [KeySpace.sweep_eq]
    exact act ha h
  cases step with
  | perform operation => exact act within h
  | merge incoming => exact act within h
  | visit action index => exact visit cache.space action index within h
  | loadFile files path =>
    show P (cache.loadFile now files path).2.2.space
    rw [loadFile]
    split
    · exact h
    · exact act (within _) h
  | ticks reading =>
    show P (cache.sweepDue now reading).2.space
    rw [sweepDue]
    split
    · exact h
    · exact sweepTicks_keeps (sweep within) _ _ _ h
  | close => exact h
  | settle =>
    show P cache.settle.2.space
    rw [settle]
    split <;> exact h

theorem through_keeps (allowed : Instant → StoreAction → Prop)
    {steps : List (Instant × CacheStep)}
    (visit : ∀ p ∈ steps, ∀ space action index, allowed p.1 action → P space →
      P (space.visit p.1 action index))
    (within : ∀ p ∈ steps, p.2.Within (allowed p.1)) (h : P cache.space) :
    P (cache.through steps).space := by
  induction steps generalizing cache with
  | nil => exact h
  | cons step steps ih =>
    obtain ⟨visit, later⟩ := List.forall_mem_cons.1 visit
    obtain ⟨now, rest⟩ := List.forall_mem_cons.1 within
    exact ih later rest (step_keeps visit now h)

/-- What all visits keep is kept by every run. -/
theorem through_keeps_all
    (visit : ∀ space now action index, P space → P (space.visit now action index))
    (steps : List (Instant × CacheStep)) (h : P cache.space) : P (cache.through steps).space :=
  through_keeps (fun _ _ => True) (fun p _ space action index _ => visit space p.1 action index)
    (fun p _ => CacheStep.within_of_forall (fun _ => trivial) p.2) h

end Cache

end ExpiringCache
