import ExpiringCache.Proofs.Sinks
import ExpiringCache.Proofs.Snapshot.RoundTrip

/-!
# Saving a table

A save that succeeds has handed a snapshot of the table to the sink (`Snapshot.spells_of_save`),
and into a sink without bounds it succeeds if the table has no handles in it
(`Snapshot.save_unlimited`). The order of the entries is left open in `Snapshot.Spells`; in
whatever order they are, the table is what the bytes are decoded to (`Snapshot.decode_spelled`).
`Snapshot.saveInOrder` visits the entries in the order given.
-/

namespace ExpiringCache.Snapshot

/-- The bytes are a snapshot of the table and nothing more, its entries being in any order. -/
def Spells (bytes : List UInt8) (items : Table Item) : Prop :=
  ∃ order body, order.Perm items.entries ∧ writeBody order = .ok body ∧ bytes = header ++ body

/-- No entry of the table has a handle in it. Lengths and numbers of parts are below 2^64, as are
those of all that fits in memory. -/
def Writable (items : Table Item) : Prop :=
  items.size < 2 ^ 64 ∧ ∀ entry ∈ items.entries, Storable entry.1 entry.2

instance (items : Table Item) : Decidable (Writable items) := inferInstanceAs (Decidable (_ ∧ _))

variable {items : Table Item}

theorem decode_spelled (h : Writable items) {bytes : List UInt8} (hs : Spells bytes items) :
    decode bytes = .ok items := by
  obtain ⟨order, body, ho, hb, rfl⟩ := hs
  obtain ⟨body', hb', hd⟩ := decode_writeBody h.1 h.2 ho
  obtain rfl : body' = body := Except.ok.inj (hb'.symm.trans hb)
  have := hd []
  rwa [List.append_nil] at this

theorem flatten_pieces (body : List UInt8) : [header, body].flatten = header ++ body := by
  rw [List.flatten_cons, List.flatten_cons, List.flatten_nil, List.append_nil]

/-! ## The order of the entries -/

theorem save_eq_saveInOrder (items : Table Item) (sink : Sink) :
    save items sink = saveInOrder items.entries sink := rfl

theorem saveInOrder_of_handle {order : List (String × Item)} {key typeName : String}
    (h : unencodable? order = some (key, typeName)) (sink : Sink) :
    saveInOrder order sink = (.error (.unencodable key typeName), sink) := by
  rw [saveInOrder, h]

theorem saveInOrder_of_body {order : List (String × Item)} {body : List UInt8}
    (h : unencodable? order = none) (hb : writeBody order = .ok body) (sink : Sink) :
    saveInOrder order sink =
      ((sink.writePieces [header, body]).1.mapError .io, (sink.writePieces [header, body]).2) := by
  rw [saveInOrder, h]
  simp only [hb]
  rcases sink.writePieces [header, body] with ⟨_ | _, _⟩ <;> rfl

/-- What a save that succeeds has written is a snapshot of the table. -/
theorem spells_of_saveInOrder {order : List (String × Item)} (ho : order.Perm items.entries)
    {sink : Sink} (empty : sink.taken = []) (h : (saveInOrder order sink).1 = .ok ()) :
    Spells (saveInOrder order sink).2.taken items := by
  rw [saveInOrder] at h ⊢
  split at h
  · cases h
  · split at h
    · rename_i body hb
      cases hw : sink.writePieces [header, body] with
      | mk written after =>
        rw [hw] at h
        cases written with
        | error fault => cases h
        | ok done =>
          refine ⟨order, body, ho, hb, ?_⟩
          rw [Sink.taken_of_writePieces hw, empty, List.nil_append, flatten_pieces]
    · split at h <;> cases h

theorem spells_of_save {sink : Sink} (empty : sink.taken = [])
    (h : (save items sink).1 = .ok ()) : Spells (save items sink).2.taken items :=
  spells_of_saveInOrder (.refl _) empty h

theorem encode_of_body {items : Table Item} {body : List UInt8}
    (h : unencodable? items.entries = none) (hb : writeBody items.entries = .ok body) :
    encode items = .ok (header ++ body) := by
  rw [encode, h]
  simp only [hb]

theorem save_unlimited (h : Writable items) : (save items .unlimited).1 = .ok () := by
  obtain ⟨body, hb, -⟩ := writeBody_form h.1 h.2
  have hw : Sink.unlimited.Unfailing := Sink.unfailing_of_unbounded (by decide) rfl rfl
  rw [save_eq_saveInOrder, saveInOrder_of_body (unencodable?_eq_none h.2) hb, hw]
  rfl

end ExpiringCache.Snapshot
