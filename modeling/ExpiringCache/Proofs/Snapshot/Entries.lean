import ExpiringCache.Proofs.Snapshot.Values

/-!
# Reading entries

The readers of deadlines, entries and whole bodies of snapshots go by the grammar
(`readDeadline_follows`, `readEntry_follows`, `readBody_follows`).
-/

namespace ExpiringCache.Snapshot

theorem readDeadline_cons (b : UInt8) (rest : List UInt8) :
    readDeadline (b :: rest) =
      if b = 0 then .ok (none, rest)
      else if b = 1 then do
        let (text, rest) ← readText rest
        match Timestamp.parse text.toList with
        | .ok deadline => return (some deadline, rest)
        | .error fault => throw (.malformed (.deadline fault))
      else .error (.malformed (.deadlineMark b)) := rfl

theorem readDeadline_sound {bytes rest : List UInt8} {deadline : Option Deadline}
    (h : readDeadline bytes = .ok (deadline, rest)) :
    ∃ front, bytes = front ++ rest ∧ DeadlineForm front deadline := by
  cases bytes with
  | nil => cases h
  | cons b bytes =>
    rw [readDeadline_cons] at h
    split at h
    · rename_i hb
      cases h
      exact ⟨[0], by rw [hb]; rfl, .none⟩
    · split at h
      · rename_i hb
        simp only [bind_eq_ok_iff, Prod.exists] at h
        obtain ⟨text, r, ht, h⟩ := h
        obtain ⟨content, rfl, hf⟩ := ((readText_follows _).ok_iff _ _).1 ht
        split at h
        · rename_i hd
          cases h
          exact ⟨1 :: content, by rw [hb]; rfl, .some hf hd⟩
        · cases h
      · cases h

theorem readDeadline_of_form {front : List UInt8} {deadline : Option Deadline}
    (h : DeadlineForm front deadline) (rest : List UInt8) :
    readDeadline (front ++ rest) = .ok (deadline, rest) := by
  cases h with
  | none => rfl
  | @some content text _ hf hd =>
    rw [List.cons_append, readDeadline_cons, if_neg (by decide), if_pos rfl,
      ((readText_follows _).ok_iff _ _).2 ⟨content, rfl, hf⟩, ok_bind]
    simp only [hd]
    rfl

theorem readDeadline_stopped {bytes : List UInt8} {fault : ReadFault}
    (h : readDeadline bytes = .error fault) : DeadlineStops bytes fault := by
  cases bytes with
  | nil =>
    cases h
    exact .noMark
  | cons b bytes =>
    rw [readDeadline_cons] at h
    split at h
    · cases h
    · split at h
      · rename_i hb
        simp only [bind_eq_error_iff, Prod.exists] at h
        rw [hb]
        rcases h with h | ⟨text, r, ht, h⟩
        · exact .text (((readText_follows _).error_iff _).1 h)
        · obtain ⟨content, rfl, hf⟩ := ((readText_follows _).ok_iff _ _).1 ht
          split at h
          · cases h
          · rename_i hd
            cases h
            exact .timestamp hf hd
      · rename_i h0 h1
        cases h
        exact .mark h0 h1

theorem readDeadline_of_stops {bytes : List UInt8} {fault : ReadFault}
    (h : DeadlineStops bytes fault) : readDeadline bytes = .error fault := by
  cases h with
  | noMark => rfl
  | mark h0 h1 => rw [readDeadline_cons, if_neg h0, if_neg h1]
  | text ht =>
    rw [readDeadline_cons, if_neg (by decide), if_pos rfl,
      ((readText_follows _).error_iff _).2 ht, error_bind]
  | @timestamp content rest text _ hf hd =>
    rw [readDeadline_cons, if_neg (by decide), if_pos rfl,
      ((readText_follows _).ok_iff _ _).2 ⟨content, rfl, hf⟩, ok_bind]
    simp only [hd]
    rfl

theorem readDeadline_follows (bytes : List UInt8) :
    Follows readDeadline DeadlineForm DeadlineStops bytes :=
  .of readDeadline_sound readDeadline_of_form readDeadline_stopped readDeadline_of_stops

theorem readEntry_follows (bytes : List UInt8) : Follows readEntry EntryForm EntryStops bytes := by
  have htext := readText_follows
  have hvalue := readValue_follows
  have hdead := readDeadline_follows
  constructor
  · rintro ⟨key, item⟩ rest
    simp only [readEntry, bind_eq_ok_iff, Prod.exists]
    constructor
    · rintro ⟨_, r, hk, value, r', hv, deadline, r'', hd, h⟩
      cases h
      obtain ⟨k, rfl, hkf⟩ := ((htext _).ok_iff _ _).1 hk
      obtain ⟨v, rfl, hvf⟩ := ((hvalue _).ok_iff _ _).1 hv
      obtain ⟨d, rfl, hdf⟩ := ((hdead _).ok_iff _ _).1 hd
      exact ⟨k ++ v ++ d, by simp only [List.append_assoc], .intro hkf hvf hdf⟩
    · rintro ⟨front, rfl, h⟩
      cases h with
      | @intro k v d _ _ hk hv hd =>
        simp only [List.append_assoc]
        exact ⟨key, _, ((htext _).ok_iff _ _).2 ⟨k, rfl, hk⟩,
          item.value, _, ((hvalue _).ok_iff _ _).2 ⟨v, rfl, hv⟩,
          item.deadline, rest, ((hdead _).ok_iff _ _).2 ⟨d, rfl, hd⟩, rfl⟩
  · intro fault
    simp only [readEntry, bind_eq_error_iff, Prod.exists, pure, Except.pure, reduceCtorEq,
      and_false, exists_false, or_false]
    constructor
    · rintro (h | ⟨_, r, hk, h | ⟨_, r', hv, h⟩⟩)
      · exact .key (((htext _).error_iff _).1 h)
      · obtain ⟨k, rfl, hkf⟩ := ((htext _).ok_iff _ _).1 hk
        exact .value hkf (((hvalue _).error_iff _).1 h)
      · obtain ⟨k, rfl, hkf⟩ := ((htext _).ok_iff _ _).1 hk
        obtain ⟨v, rfl, hvf⟩ := ((hvalue _).ok_iff _ _).1 hv
        rw [← List.append_assoc]
        exact .deadline hkf hvf (((hdead _).error_iff _).1 h)
    · intro h
      cases h with
      | key h => exact .inl (((htext _).error_iff _).2 h)
      | @value k rest key _ hk h =>
        exact .inr ⟨key, rest, ((htext _).ok_iff _ _).2 ⟨k, rfl, hk⟩,
          .inl (((hvalue _).error_iff _).2 h)⟩
      | @deadline k v rest key value _ hk hv h =>
        rw [List.append_assoc]
        exact .inr ⟨key, _, ((htext _).ok_iff _ _).2 ⟨k, rfl, hk⟩,
          .inr ⟨value, rest, ((hvalue _).ok_iff _ _).2 ⟨v, rfl, hv⟩,
            ((hdead _).error_iff _).2 h⟩⟩

theorem readBody_follows (bytes : List UInt8) : Follows readBody BodyForm BodyStops bytes := by
  have hentry : ∀ bytes' : List UInt8, bytes'.length < bytes.length + 1 →
      Follows readEntry EntryForm EntryStops bytes' := fun bytes' _ => readEntry_follows bytes'
  constructor
  · intro entries rest
    simp only [readBody, bind_eq_ok_iff, Prod.exists]
    rw [counted_eq_ok_iff hentry (Nat.lt_succ_self _)]
    constructor
    · rintro ⟨parts, hn, rfl, rfl, h⟩
      exact ⟨_, rfl, .intro hn h⟩
    · rintro ⟨front, rfl, h⟩
      cases h with
      | @intro parts hn h => exact ⟨parts, hn, rfl, rfl, h⟩
  · intro fault
    simp only [readBody, bind_eq_error_iff, Prod.exists]
    rw [counted_eq_error_iff hentry (Nat.lt_succ_self _)]
    constructor
    · rintro (⟨hl, rfl⟩ | ⟨n, parts, rest, hn, hp, rfl, h, hs⟩)
      · exact .noCount hl
      · exact .entry hn hp h hs
    · intro h
      cases h with
      | noCount hl => exact .inl ⟨hl, rfl⟩
      | @entry n parts rest _ hn hp h hs => exact .inr ⟨n, parts, rest, hn, hp, rfl, h, hs⟩

end ExpiringCache.Snapshot
