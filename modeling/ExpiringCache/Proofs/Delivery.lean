import ExpiringCache.Proofs.KeySpaces
import ExpiringCache.Proofs.Snapshot.Handles

/-!
# What a save hands over

A save hands a sink the first bytes of one snapshot, as many as the sink takes before it fails, and
succeeds if these are all of them and can be flushed (`Outcome.Delivers`). How the bytes are cut
into pieces and calls makes no difference (`Sink.writePieces_eq`, `Sink.Hands.flushed`), nor does it
matter in which order the entries stand: `save_delivers`.
-/

namespace ExpiringCache

/-- The bytes were handed to the sink. It has taken the first of them, as many as it takes before it
fails. The save succeeds if these are all and can be flushed, and otherwise fails as the sink
does. -/
structure Outcome.Delivers (outcome : Outcome) (bytes : List UInt8) (sink : Sink) : Prop where
  written : outcome.written =
    sink.taken ++ bytes.take (min (sink.room.getD bytes.length) bytes.length)
  done_iff : outcome.result = .ok .done ↔
    (∀ room ∈ sink.room, bytes.length ≤ room) ∧ sink.flushFails = false
  failed : outcome.result ≠ .ok .done → outcome.result = .error (.io .brokenPipe)

/-- There are no handles in the table. -/
def Snapshot.Encodable (items : Table Item) : Prop :=
  ∀ entry ∈ items.entries, entry.2.value.unencodable? = none

instance (items : Table Item) : Decidable (Snapshot.Encodable items) :=
  inferInstanceAs (Decidable (∀ _ ∈ _, _))

variable {sink : Sink}

theorem Sink.fitting_eq_take (bytes : List UInt8) :
    sink.fitting bytes = bytes.take (min (sink.room.getD bytes.length) bytes.length) := by
  rw [fitting, ← List.take_take, List.take_length]

theorem delivers_writePieces (progress : sink.perCall ≠ some 0) (pieces : List (List UInt8)) :
    (Outcome.ofSave ((sink.writePieces pieces).1.mapError .io,
      (sink.writePieces pieces).2)).Delivers pieces.flatten sink := by
  have hw : (sink.writePieces pieces).2.taken = sink.taken ++ sink.fitting pieces.flatten := by
    rw [Sink.writePieces_eq progress]
    rfl
  rw [Sink.fitting_eq_take] at hw
  have hr := Sink.writePieces_result progress pieces
  by_cases h : sink.HasRoom pieces.flatten.length ∧ sink.flushFails = false
  · rw [if_pos h] at hr
    exact ⟨hw, iff_of_true (by rw [Outcome.ofSave, hr]; rfl) h,
      fun failed => absurd (by rw [Outcome.ofSave, hr]; rfl) failed⟩
  · rw [if_neg h] at hr
    exact ⟨hw, iff_of_false (by rw [Outcome.ofSave, hr]; exact nofun) h,
      fun _ => by rw [Outcome.ofSave, hr]; rfl⟩

namespace Snapshot

theorem Encodable.unencodable? {items : Table Item} (h : Encodable items)
    {order : List (String × Item)} (ho : order.Perm items.entries) :
    Snapshot.unencodable? order = none :=
  unencodable?_eq_none_iff.2 fun entry he => h entry (ho.subset he)

theorem delivers_saveInOrder (progress : sink.perCall ≠ some 0) {order : List (String × Item)}
    {body : List UInt8} (h : Snapshot.unencodable? order = none) (hb : writeBody order = .ok body) :
    (Outcome.ofSave (saveInOrder order sink)).Delivers (header ++ body) sink := by
  have hd := delivers_writePieces progress [header, body]
  rw [flatten_pieces] at hd
  rw [saveInOrder_of_body h hb]
  exact hd

end Snapshot

/-- A save of a table without handles hands the sink the first bytes of the snapshot of the table,
whatever the sink takes in one call, and leaves the store, or the cache with one store or several,
as it is. That is so for each order of the entries, wherever the writer cuts the bytes, and if some
calls take fewer bytes than they could. -/
theorem save_delivers (progress : sink.perCall ≠ some 0) :
    (∀ store : Store, Snapshot.Encodable store.items →
      ∃ bytes, Snapshot.encode store.items = .ok bytes ∧ ∀ now,
        (store.perform now (.save sink)).1.Delivers bytes sink ∧
        (store.perform now (.save sink)).2 = store) ∧
    (∀ cache : Cache, Snapshot.Encodable cache.space.items →
      ∃ bytes, Snapshot.encode cache.space.items = .ok bytes ∧ ∀ now,
        (cache.perform now (.save sink)).1.Delivers bytes sink ∧
        (cache.perform now (.save sink)).2.2 = cache) ∧
    ∀ items : Table Item, Snapshot.Encodable items →
      ∀ order : List (String × Item), order.Perm items.entries →
        ∃ body, Snapshot.writeBody order = .ok body ∧
          (Outcome.ofSave (Snapshot.saveInOrder order sink)).Delivers
            (Snapshot.header ++ body) sink ∧
          (∀ pieces, pieces.flatten = Snapshot.header ++ body →
            sink.writePieces pieces = sink.writePieces [Snapshot.header, body]) ∧
          ∀ result, sink.Hands (Snapshot.header ++ body) result →
            (result.1 >>= fun _ => sink.flush, result.2) =
              sink.writePieces [Snapshot.header, body] := by
  have inOrder {items : Table Item} (h : Snapshot.Encodable items) :
      ∃ bytes, Snapshot.encode items = .ok bytes ∧
        (Outcome.ofSave (Snapshot.save items sink)).Delivers bytes sink := by
    have hu := h.unencodable? (.refl _)
    obtain ⟨body, hb⟩ := Snapshot.exists_writeBody hu
    exact ⟨_, Snapshot.encode_of_body hu hb, Snapshot.delivers_saveInOrder progress hu hb⟩
  refine ⟨fun store h => ?_, fun cache h => ?_, fun items h order ho => ?_⟩
  · obtain ⟨bytes, he, hd⟩ := inOrder h
    exact ⟨bytes, he, fun now => ⟨hd, rfl⟩⟩
  · obtain ⟨bytes, he, hd⟩ := inOrder h
    refine ⟨bytes, he, fun now => ?_⟩
    rw [Cache.perform, KeySpace.perform_save]
    exact ⟨hd, rfl⟩
  · have hu := h.unencodable? ho
    obtain ⟨body, hb⟩ := Snapshot.exists_writeBody hu
    refine ⟨body, hb, Snapshot.delivers_saveInOrder progress hu hb, fun pieces hp => ?_,
      fun result handed => ?_⟩
    · rw [Sink.writePieces_eq progress, Sink.writePieces_eq progress, hp,
        Snapshot.flatten_pieces]
    · rw [← Snapshot.flatten_pieces] at handed
      exact handed.flushed progress

/-- Four bytes in a call and ten in all. -/
def tenBytes : Sink := ⟨some 4, some 10, false, []⟩

theorem save_delivers_ten : tenBytes.perCall ≠ some 0 ∧
    Snapshot.Encodable Snapshot.nestedTable ∧
    ∃ bytes, Snapshot.encode Snapshot.nestedTable = .ok bytes ∧
      (Outcome.ofSave (Snapshot.save Snapshot.nestedTable tenBytes)).Delivers bytes tenBytes := by
  have progress : tenBytes.perCall ≠ some 0 := by decide
  have encodable : Snapshot.Encodable Snapshot.nestedTable := by decide
  obtain ⟨bytes, he, hd⟩ := (save_delivers progress).1 ⟨Snapshot.nestedTable, none, .zero⟩ encodable
  exact ⟨progress, encodable, bytes, he, (hd (.nearest 0)).1⟩

end ExpiringCache
