import ExpiringCache.Stream

/-!
# Sinks

What a sink has taken when everything was written (`taken_of_writePieces`), and in general what it
has taken when it is full: the first of the bytes, as many as it has room for, however many of them
each call takes (`Hands.eq`) and wherever they are cut into pieces (`writePieces_eq`). The room is
shared out along the bytes (`hasRoom_append`, `fitting_append`).
-/

namespace ExpiringCache.Sink

variable {sink : Sink} {bytes front : List UInt8} {n m : Nat}

theorem taken_of_writeAll {sink sink' : Sink} {bytes : List UInt8}
    (h : sink.writeAll bytes = (.ok (), sink')) : sink'.taken = sink.taken ++ bytes := by
  fun_induction Sink.writeAll sink bytes with
  | case1 sink =>
    cases h
    exact (List.append_nil _).symm
  | case2 => cases h
  | case3 sink byte rest n _ ih =>
    rw [ih h, take, List.append_assoc, List.cons_append, List.take_append_drop]

theorem taken_of_writePieces {sink sink' : Sink} {pieces : List (List UInt8)}
    (h : sink.writePieces pieces = (.ok (), sink')) :
    sink'.taken = sink.taken ++ pieces.flatten := by
  induction pieces generalizing sink with
  | nil =>
    obtain ⟨-, rfl⟩ := Prod.mk.inj h
    exact (List.append_nil _).symm
  | cons piece pieces ih =>
    rw [writePieces] at h
    split at h
    · rename_i between hw
      rw [ih h, taken_of_writeAll hw, List.append_assoc, List.flatten_cons]
    · cases h

/-! ## Room -/

/-- The sink takes as many bytes before it fails. -/
def HasRoom (sink : Sink) (n : Nat) : Prop := ∀ room ∈ sink.room, n ≤ room

instance (sink : Sink) (n : Nat) : Decidable (sink.HasRoom n) :=
  inferInstanceAs (Decidable (∀ _ ∈ _, _))

/-- As many of the bytes as the sink takes before it fails. -/
def fitting (sink : Sink) (bytes : List UInt8) : List UInt8 :=
  bytes.take (sink.room.getD bytes.length)

/-- Whatever is written to the sink, it does not fail. -/
def Unfailing (sink : Sink) : Prop := ∀ pieces, (sink.writePieces pieces).1 = .ok ()

theorem take_nil : sink.take [] = sink := by
  obtain ⟨perCall, room, flushFails, taken⟩ := sink
  cases room <;> simp [take]

theorem take_take : (sink.take front).take bytes = sink.take (front ++ bytes) := by
  obtain ⟨perCall, room, flushFails, taken⟩ := sink
  cases room <;> simp [take, Nat.sub_sub]

theorem hasRoom_zero : sink.HasRoom 0 := fun _ _ => Nat.zero_le _

theorem hasRoom_append :
    sink.HasRoom (front ++ bytes).length ↔
      sink.HasRoom front.length ∧ (sink.take front).HasRoom bytes.length := by
  obtain ⟨perCall, room, flushFails, taken⟩ := sink
  cases room with
  | none => simp [HasRoom, take]
  | some room =>
    simp [HasRoom, take]
    omega

theorem fitting_eq_self (h : sink.HasRoom bytes.length) : sink.fitting bytes = bytes := by
  obtain ⟨perCall, room, flushFails, taken⟩ := sink
  cases room with
  | none => exact List.take_length
  | some room => exact List.take_of_length_le (h room rfl)

theorem fitting_append (h : sink.HasRoom front.length) :
    sink.fitting (front ++ bytes) = front ++ (sink.take front).fitting bytes := by
  obtain ⟨perCall, room, flushFails, taken⟩ := sink
  cases room with
  | none => simp only [fitting, take, Option.map_none, Option.getD_none, List.take_length]
  | some room =>
    have hr : front.length ≤ room := h room rfl
    simp [fitting, take, List.take_append, List.take_of_length_le hr]

theorem fitting_append_of_not (h : ¬ sink.HasRoom front.length) :
    sink.fitting (front ++ bytes) = sink.fitting front := by
  obtain ⟨perCall, room, flushFails, taken⟩ := sink
  cases room with
  | none => exact absurd (fun _ hr => nomatch hr) h
  | some room =>
    have hr : room < front.length := by simpa [HasRoom] using h
    simp [fitting, List.take_append, Nat.le_of_lt hr]

/-! ## Calls -/

/-- Bytes are handed over call by call. A call takes some of them, at most as many as the sink takes
in one call and has room for; one of which it can take nothing fails. -/
inductive Hands : Sink → List UInt8 → Except IoFault Unit × Sink → Prop where
  | done (sink : Sink) : Hands sink [] (.ok (), sink)
  | full {sink : Sink} {bytes : List UInt8} (hb : bytes ≠ []) (hs : sink.share bytes.length = 0) :
      Hands sink bytes (.error .brokenPipe, sink)
  | call {sink : Sink} {front bytes : List UInt8} {result : Except IoFault Unit × Sink}
      (hf : front ≠ []) (hs : front.length ≤ sink.share (front ++ bytes).length)
      (h : Hands (sink.take front) bytes result) : Hands sink (front ++ bytes) result

theorem hasRoom_of_share (h : n ≤ sink.share m) : sink.HasRoom n := by
  intro room hr
  rw [share, Option.mem_def.1 hr] at h
  exact Nat.le_trans (Nat.le_trans h (Nat.min_le_right _ _)) (Nat.min_le_right _ _)

/-- A sink that takes something in each call is full when it takes nothing. -/
theorem room_of_share_eq_zero (progress : sink.perCall ≠ some 0) (hn : 0 < n)
    (h : sink.share n = 0) : sink.room = some 0 := by
  obtain ⟨perCall, room, flushFails, taken⟩ := sink
  cases perCall <;> cases room <;> simp_all [share] <;> omega

/-- However many bytes the calls take, the sink has in the end what it has room for. -/
theorem Hands.eq {result : Except IoFault Unit × Sink} (h : sink.Hands bytes result)
    (progress : sink.perCall ≠ some 0) :
    result =
      (if sink.HasRoom bytes.length then .ok () else .error .brokenPipe,
        sink.take (sink.fitting bytes)) := by
  induction h with
  | done sink => rw [fitting_eq_self hasRoom_zero, take_nil, List.length_nil, if_pos hasRoom_zero]
  | @full sink bytes hb hs =>
    have hl := List.length_pos_iff.2 hb
    have hr := room_of_share_eq_zero progress hl hs
    have hn : ¬ sink.HasRoom bytes.length := fun h => Nat.not_le_of_lt hl (h 0 hr)
    rw [if_neg hn, fitting, hr, Option.getD_some, List.take_zero, take_nil]
  | call _ hs _ ih =>
    have hr := hasRoom_of_share hs
    rw [ih progress, take_take, ← fitting_append hr]
    simp only [hasRoom_append, hr, true_and]

theorem hands_writeAll (sink : Sink) (bytes : List UInt8) :
    sink.Hands bytes (sink.writeAll bytes) := by
  fun_induction Sink.writeAll sink bytes with
  | case1 sink => exact .done sink
  | case2 sink byte rest hs => exact .full (List.cons_ne_nil _ _) hs
  | case3 sink byte rest n hs ih =>
    have hsplit : byte :: rest = (byte :: rest.take n) ++ rest.drop n := by
      rw [List.cons_append, List.take_append_drop]
    rw [hsplit]
    refine .call (List.cons_ne_nil _ _) ?_ ih
    rw [← hsplit, hs, List.length_cons, List.length_take]
    omega

/-! ## Pieces -/

/-- Wherever the bytes are cut into pieces, the sink has in the end taken what it has room for. -/
theorem writePieces_eq (progress : sink.perCall ≠ some 0) (pieces : List (List UInt8)) :
    sink.writePieces pieces =
      (if sink.HasRoom pieces.flatten.length then sink.flush else .error .brokenPipe,
        sink.take (sink.fitting pieces.flatten)) := by
  induction pieces generalizing sink with
  | nil =>
    rw [writePieces, List.flatten_nil, fitting_eq_self hasRoom_zero, take_nil, List.length_nil,
      if_pos hasRoom_zero]
  | cons piece pieces ih =>
    rw [writePieces, (hands_writeAll sink piece).eq progress, List.flatten_cons]
    by_cases h : sink.HasRoom piece.length
    · rw [if_pos h, fitting_eq_self h]
      simp only
      rw [@ih (sink.take piece) progress, take_take, ← fitting_append h]
      simp only [hasRoom_append, h, true_and]
      rfl
    · have hn : ¬ sink.HasRoom (piece ++ pieces.flatten).length := fun hr =>
        h (hasRoom_append.1 hr).1
      rw [if_neg h, if_neg hn, fitting_append_of_not h]

/-- With the flush, calls that take as many bytes as they like come to what the pieces come to. -/
theorem Hands.flushed {result : Except IoFault Unit × Sink} {pieces : List (List UInt8)}
    (h : sink.Hands pieces.flatten result) (progress : sink.perCall ≠ some 0) :
    (result.1 >>= fun _ => sink.flush, result.2) = sink.writePieces pieces := by
  rw [h.eq progress, writePieces_eq progress]
  by_cases hr : sink.HasRoom pieces.flatten.length
  · rw [if_pos hr, if_pos hr]
    rfl
  · rw [if_neg hr, if_neg hr]
    rfl

/-- Writing ends well if there is room for all and the flush does not fail. -/
theorem writePieces_result (progress : sink.perCall ≠ some 0) (pieces : List (List UInt8)) :
    (sink.writePieces pieces).1 =
      if sink.HasRoom pieces.flatten.length ∧ sink.flushFails = false then .ok ()
      else .error .brokenPipe := by
  rw [writePieces_eq progress, flush]
  cases sink.flushFails <;> simp

theorem unfailing_of_unbounded (progress : sink.perCall ≠ some 0) (room : sink.room = none)
    (flushes : sink.flushFails = false) : sink.Unfailing := by
  intro pieces
  have h : sink.HasRoom pieces.flatten.length := by rw [HasRoom, room]; exact fun _ h => nomatch h
  rw [writePieces_result progress, if_pos ⟨h, flushes⟩]

end ExpiringCache.Sink
