import ExpiringCache.Proofs.KeySpaces
import ExpiringCache.Proofs.Snapshot.Decoding

/-!
# Loading, all or nothing

A source that fails makes a load fail with its fault, whatever it gave before (`load_of_fault`).
From any other source a load depends on the bytes that its pieces make up together, and not on
where the pieces end (`load_of_pieces`). The first thing wrong in the bytes, be it in the header or
within the last entry, is what the load fails with; in no case has it changed anything by then
(`KeySpace.load_all_or_nothing`).
-/

namespace ExpiringCache

namespace Snapshot

theorem load_ofBytes (bytes : List UInt8) : load (.ofBytes bytes) = decode bytes := by
  cases bytes with
  | nil => rfl
  | cons byte bytes =>
    have hr : (Source.ofBytes (byte :: bytes)).readAll = .ok (byte :: bytes) := by
      have hj : Source.join none [byte :: bytes] = .ok [byte :: bytes].flatten :=
        Source.join_none fun piece hp => List.mem_singleton.1 hp ▸ List.cons_ne_nil byte bytes
      rwa [List.flatten_cons, List.flatten_nil, List.append_nil] at hj
    rw [load, hr]

variable {source : Source}

theorem load_of_fault (full : ∀ piece ∈ source.pieces, piece ≠ []) {fault : IoFault}
    (h : source.fault = some fault) : load source = .error (.io fault) := by
  rw [load, Source.readAll, h, Source.join_some fault full]

theorem load_of_pieces (full : ∀ piece ∈ source.pieces, piece ≠ []) (h : source.fault = none) :
    load source = decode source.pieces.flatten := by
  rw [load, Source.readAll, h, Source.join_none full]

end Snapshot

namespace KeySpace

theorem load_result_eq_error_iff (space : KeySpace) (now : Instant) (source : Source)
    (failure : Failure) :
    (space.perform now (.load source)).1.result = .error failure ↔
      Snapshot.load source = .error failure := by
  rw [perform_load]
  cases Snapshot.load source with
  | ok incoming => exact ⟨fun h => (nomatch h), fun h => (nomatch h)⟩
  | error failure' => exact ⟨fun h => congrArg _ (Except.error.inj h), fun h => by cases h; rfl⟩

/-- Whatever a load fails with, it leaves all items and counts in every store as they are. -/
theorem load_unchanged {space : KeySpace} {now : Instant} {source : Source} {failure : Failure}
    (h : (space.perform now (.load source)).1.result = .error failure) :
    (space.perform now (.load source)).2 = space := by
  rw [load_result_eq_error_iff] at h
  rw [perform_load, h]

/-- A load that fails changes nothing, in a key space or in a cache. If the source fails, so does
the load, with the source's fault. If the source does not fail, the load is that of the bytes in
its pieces, and fails exactly with the first thing wrong in them. -/
theorem load_all_or_nothing (space : KeySpace) (now : Instant) {source : Source}
    (full : ∀ piece ∈ source.pieces, piece ≠ []) :
    (∀ failure, (space.perform now (.load source)).1.result = .error failure →
      (space.perform now (.load source)).2 = space ∧
      ∀ reporter sweeper, ((Cache.mk space reporter sweeper).perform now (.load source)).2.2 =
        ⟨space, reporter, sweeper⟩) ∧
    (∀ fault, source.fault = some fault →
      (space.perform now (.load source)).1.result = .error (.io fault)) ∧
    (source.fault = none →
      space.perform now (.load source) =
        space.perform now (.load (.ofBytes source.pieces.flatten)) ∧
      ∀ failure, (space.perform now (.load source)).1.result = .error failure ↔
        Snapshot.Verdict source.pieces.flatten (.error failure)) := by
  refine ⟨fun failure h => ⟨load_unchanged h, fun reporter sweeper => ?_⟩, fun fault h => ?_,
    fun h => ⟨?_, fun failure => ?_⟩⟩
  · show Cache.mk (space.perform now (.load source)).2 reporter sweeper = _
    rw [load_unchanged h]
  · rw [load_result_eq_error_iff]
    exact Snapshot.load_of_fault full h
  · rw [perform_load, perform_load, Snapshot.load_of_pieces full h, Snapshot.load_ofBytes]
  · rw [load_result_eq_error_iff, Snapshot.load_of_pieces full h]
    exact ⟨fun h => h ▸ Snapshot.verdict_decode _, Snapshot.decode_of_verdict⟩

/-- Three bytes in two pieces, where a header has six. -/
def dribble : Source := ⟨[[0x4D], [0x54, 0x54]], none⟩

theorem load_all_or_nothing_dribble :
    let space := KeySpace.sharded (.create 2 (by decide) none)
    (∀ piece ∈ dribble.pieces, piece ≠ []) ∧
      (space.perform (.nearest 0) (.load dribble)).1.result =
        .error (.invalidSnapshot .noHeader) ∧
      (space.perform (.nearest 0) (.load dribble)).2 = space := by
  intro space
  have full : ∀ piece ∈ dribble.pieces, piece ≠ [] := by decide
  obtain ⟨unchanged, -, whole⟩ := load_all_or_nothing space (.nearest 0) full
  have failed := ((whole rfl).2 _).2 (.noHeader (by decide))
  exact ⟨full, failed, (unchanged _ failed).1⟩

end KeySpace

end ExpiringCache
