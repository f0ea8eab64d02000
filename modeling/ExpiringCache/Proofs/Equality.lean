import ExpiringCache.Proofs.Snapshot.Handles

/-!
# Equal values

Values are equal if they have the same shape and keys and their scalars are equal. So much of the
laws of equality is that of scalars (`Scalar.equals_iff`): a NaN is equal to nothing, zeros of
either sign are equal, handles are if they refer to the same object, and otherwise equal scalars
are the same.

What is written for values that are equal is therefore made of the same pieces, but for zeros of
opposite sign (`pieces_alike`), and the bytes differ only where such zeros are (`differ_at`).
-/

namespace ExpiringCache

/-! ## Floats -/

namespace BinaryFormat

variable {format : BinaryFormat} {bits bits' bits'' : Nat}

/-- All bits of the exponent are set and some bit of the fraction. -/
def NaN (format : BinaryFormat) (bits : Nat) : Prop :=
  format.exponent bits = Nat.pow 2 format.exponentWidth - 1 ∧ format.fraction bits ≠ 0

/-- One is positive zero and the other negative zero. -/
def OppositeZeros (format : BinaryFormat) (bits bits' : Nat) : Prop :=
  bits = 0 ∧ bits' = format.negativeZero ∨ bits = format.negativeZero ∧ bits' = 0

theorem isNaN_iff : format.isNaN bits = true ↔ format.NaN bits := by
  rw [isNaN, Bool.and_eq_true, beq_iff_eq, bne_iff_ne, NaN]

theorem fraction_negativeZero : format.fraction format.negativeZero = 0 :=
  Nat.mod_eq_zero_of_dvd (Nat.pow_dvd_pow 2 (Nat.le_add_left _ _))

theorem isZero_iff : format.isZero bits = true ↔ bits = 0 ∨ bits = format.negativeZero := by
  rw [isZero, Bool.or_eq_true, beq_iff_eq, beq_iff_eq]

namespace OppositeZeros

theorem symm (h : format.OppositeZeros bits bits') : format.OppositeZeros bits' bits :=
  (Or.symm h).imp And.symm And.symm

theorem not_nan (h : format.OppositeZeros bits bits') : ¬ format.NaN bits := by
  rintro ⟨-, some⟩
  rcases h with ⟨rfl, -⟩ | ⟨rfl, -⟩
  · exact some (Nat.zero_mod _)
  · exact some fraction_negativeZero

theorem eq (h : format.OppositeZeros bits bits') (h' : format.OppositeZeros bits' bits'') :
    bits = bits'' := by
  obtain ⟨rfl, rfl⟩ | ⟨rfl, rfl⟩ := h
  · obtain ⟨zero, rfl⟩ | ⟨-, rfl⟩ := h'
    · exact zero.symm
    · rfl
  · obtain ⟨-, rfl⟩ | ⟨zero, rfl⟩ := h'
    · rfl
    · exact zero.symm

end OppositeZeros

theorem equals_iff : format.equals bits bits' = true ↔
    ¬ format.NaN bits ∧ (bits = bits' ∨ format.OppositeZeros bits bits') := by
  simp only [equals, Bool.and_eq_true, Bool.not_eq_true', Bool.or_eq_true, beq_iff_eq, isZero_iff,
    ← Bool.not_eq_true, isNaN_iff]
  constructor
  · rintro ⟨⟨number, -⟩, same | ⟨rfl | rfl, rfl | rfl⟩⟩
    · exact ⟨number, .inl same⟩
    · exact ⟨number, .inl rfl⟩
    · exact ⟨number, .inr (.inl ⟨rfl, rfl⟩)⟩
    · exact ⟨number, .inr (.inr ⟨rfl, rfl⟩)⟩
    · exact ⟨number, .inl rfl⟩
  · rintro ⟨number, rfl | zeros⟩
    · exact ⟨⟨number, number⟩, .inl rfl⟩
    · refine ⟨⟨number, zeros.symm.not_nan⟩, .inr ?_⟩
      exact zeros.elim (fun h => ⟨.inl h.1, .inr h.2⟩) fun h => ⟨.inr h.1, .inl h.2⟩

end BinaryFormat

/-! ## Scalars -/

namespace Scalar

open BinaryFormat (binary32 binary64)

/-- The scalar is a float with all bits of the exponent set and some bit of the fraction. -/
def NaN : Scalar → Prop
  | .float32 x => binary32.NaN x.bits.toNat
  | .float64 x => binary64.NaN x.bits.toNat
  | _ => False

/-- One scalar is positive zero and the other negative zero of the same format. -/
inductive OppositeZeros : Scalar → Scalar → Prop where
  | float32 {x y : Binary32} (h : binary32.OppositeZeros x.bits.toNat y.bits.toNat) :
      OppositeZeros (.float32 x) (.float32 y)
  | float64 {x y : Binary64} (h : binary64.OppositeZeros x.bits.toNat y.bits.toNat) :
      OppositeZeros (.float64 x) (.float64 y)

variable {s t u : Scalar}

theorem float32_inj {x y : Binary32} : x.bits.toNat = y.bits.toNat ↔ float32 x = float32 y := by
  rw [UInt32.toNat_inj, float32.injEq, Binary32.mk.injEq]

theorem float64_inj {x y : Binary64} : x.bits.toNat = y.bits.toNat ↔ float64 x = float64 y := by
  rw [UInt64.toNat_inj, float64.injEq, Binary64.mk.injEq]

theorem OppositeZeros.symm (h : s.OppositeZeros t) : t.OppositeZeros s := by
  cases h with
  | float32 h => exact .float32 h.symm
  | float64 h => exact .float64 h.symm

theorem OppositeZeros.not_nan (h : s.OppositeZeros t) : ¬ s.NaN := by
  cases h with
  | float32 h => exact h.not_nan
  | float64 h => exact h.not_nan

theorem OppositeZeros.eq (h : s.OppositeZeros t) (h' : t.OppositeZeros u) : s = u := by
  cases h with
  | float32 h =>
    cases h' with
    | float32 h' => exact float32_inj.1 (h.eq h')
  | float64 h =>
    cases h' with
    | float64 h' => exact float64_inj.1 (h.eq h')

theorem oppositeZeros_float32 {x y : Binary32} :
    (float32 x).OppositeZeros (float32 y) ↔
      binary32.OppositeZeros x.bits.toNat y.bits.toNat :=
  ⟨fun | .float32 h => h, .float32⟩

theorem oppositeZeros_float64 {x y : Binary64} :
    (float64 x).OppositeZeros (float64 y) ↔
      binary64.OppositeZeros x.bits.toNat y.bits.toNat :=
  ⟨fun | .float64 h => h, .float64⟩

/-- Scalars are equal if they are the same and no NaN, zeros of opposite sign, or handles to the
same object. -/
theorem equals_iff :
    s.equals t = true ↔
      ¬ s.NaN ∧ (s = t ∨ s.OppositeZeros t ∨
        ∃ a b, s = .handle a ∧ t = .handle b ∧ a.id = b.id) := by
  cases s with
  | float32 x =>
    cases t with
    | float32 y =>
      have rule : (float32 x).equals (float32 y) = true ↔ _ := BinaryFormat.equals_iff
      rw [rule, float32_inj, ← oppositeZeros_float32]
      simp [NaN]
    | _ => simpa [equals] using fun _ => nofun
  | float64 x =>
    cases t with
    | float64 y =>
      have rule : (float64 x).equals (float64 y) = true ↔ _ := BinaryFormat.equals_iff
      rw [rule, float64_inj, ← oppositeZeros_float64]
      simp [NaN]
    | _ => simpa [equals] using fun _ => nofun
  | handle a =>
    cases t with
    | handle b =>
      have zeros : ¬ (handle a).OppositeZeros (handle b) := nofun
      have same : a = b → a.id = b.id := congrArg Handle.id
      simpa [equals, NaN, zeros] using same
    | _ => simpa [equals] using fun _ => nofun
  | _ => cases t <;> simp [equals, NaN] <;> exact nofun

theorem equals_symm (h : s.equals t = true) : t.equals s = true := by
  rw [equals_iff] at h ⊢
  obtain ⟨hn, rfl | h | ⟨a, b, rfl, rfl, h⟩⟩ := h
  · exact ⟨hn, .inl rfl⟩
  · exact ⟨h.symm.not_nan, .inr (.inl h.symm)⟩
  · exact ⟨id, .inr (.inr ⟨b, a, rfl, rfl, h.symm⟩)⟩

theorem equals_trans (h : s.equals t = true) (h' : t.equals u = true) : s.equals u = true := by
  rw [equals_iff] at h h' ⊢
  obtain ⟨hn, rfl | h | ⟨a, b, rfl, rfl, h⟩⟩ := h
  · exact h'
  · obtain ⟨-, rfl | h' | ⟨a, b, rfl, rfl, -⟩⟩ := h'
    · exact ⟨hn, .inr (.inl h)⟩
    · exact ⟨hn, .inl (h.eq h')⟩
    · cases h
  · obtain ⟨-, rfl | h' | ⟨c, d, e, rfl, h'⟩⟩ := h'
    · exact ⟨hn, .inr (.inr ⟨a, b, rfl, rfl, h⟩)⟩
    · cases h'
    · cases e
      exact ⟨hn, .inr (.inr ⟨a, d, rfl, rfl, h.trans h'⟩)⟩

theorem equals_self_iff : s.equals s = true ↔ ¬ s.NaN :=
  equals_iff.trans ⟨And.left, fun h => ⟨h, .inl rfl⟩⟩

/-- The index of the kind of scalar, which tells integers of different types apart. -/
def variant : Scalar → Nat
  | .null => 0
  | .bool _ => 1
  | .int n => Snapshot.intVariant n.type
  | .float32 _ => 10
  | .float64 _ => 11
  | .text _ => 12
  | .bytes _ => 13
  | .handle _ => 16

theorem variant_eq (h : s.equals t = true) : s.variant = t.variant := by
  obtain ⟨-, rfl | h | ⟨a, b, rfl, rfl, -⟩⟩ := equals_iff.1 h
  · rfl
  · cases h <;> rfl
  · rfl

end Scalar

/-! ## Values -/

namespace Value

open Node (Agree)

variable {a b c : Value}

theorem equals_iff : a.equals b = true ↔ Agree (fun s t => s.equals t = true) a b :=
  Node.agrees_iff

theorem equals_symm (h : a.equals b = true) : b.equals a = true :=
  equals_iff.2 ((equals_iff.1 h).symm fun _ _ => Scalar.equals_symm)

theorem equals_trans (h : a.equals b = true) (h' : b.equals c = true) : a.equals c = true :=
  have leaf (s t u : Scalar) : s.equals t = true → t.equals u = true → s.equals u = true :=
    Scalar.equals_trans
  equals_iff.2 ((equals_iff.1 h).trans leaf (equals_iff.1 h'))

/-- A value is equal to itself if no NaN is in it. -/
theorem equals_self_iff : a.equals a = true ↔ ¬ ∃ s : Scalar, s.NaN ∧ Node.Occurs s a := by
  rw [equals_iff, Node.agree_self_iff]
  simp only [Scalar.equals_self_iff, Node.occurs_iff, not_exists, not_and']

/-- The index of the kind of value, which tells integers of different types apart. -/
def variant : Value → Nat
  | .leaf s => s.variant
  | .list _ => 14
  | .map _ => 15

theorem variant_eq (h : a.equals b = true) : a.variant = b.variant := by
  rw [equals_iff] at h
  cases h with
  | leaf h => exact Scalar.variant_eq h
  | list _ => rfl
  | map _ => rfl

end Value

/-! ## What is written for equal values -/

namespace Snapshot

/-- A piece of a written value: bytes that tell the shape of a list or map or a key, or a scalar. -/
inductive Piece where
  | frame (bytes : List UInt8)
  | scalar (s : Scalar)

/-- The bytes of a piece, which a handle has none of. -/
def Piece.bytes : Piece → List UInt8
  | .frame bytes => bytes
  | .scalar s => (writeScalar s).toOption.getD []

/-- The bytes of pieces, one after the other. -/
def joined (ps : List Piece) : List UInt8 := ps.flatMap Piece.bytes

theorem joined_cons (p : Piece) (ps : List Piece) : joined (p :: ps) = p.bytes ++ joined ps :=
  List.flatMap_cons

theorem joined_append (ps qs : List Piece) : joined (ps ++ qs) = joined ps ++ joined qs :=
  List.flatMap_append

/-- The pieces of a written value, or of the rest of a list or map, in the order in which they are
written. -/
def pieces : {layer : Layer} → Node Scalar layer → List Piece
  | _, .leaf s => [.scalar s]
  | _, .list items =>
    .frame (writeVariant 14 ++ writeCount items.trees.length) :: pieces items
  | _, .map fields =>
    .frame (writeVariant 15 ++ writeCount fields.pairs.length) :: pieces fields
  | _, .nil => []
  | _, .cons head tail => pieces head ++ pieces tail
  | _, .done => []
  | _, .field key _ value rest => .frame (writeText key) :: (pieces value ++ pieces rest)

/-- In what is written for the value, the byte at a position belongs to a scalar. -/
def HoldsAt (value : Value) (position : Nat) (s : Scalar) : Prop :=
  ∃ before after, pieces value = before ++ .scalar s :: after ∧
    (joined before).length ≤ position ∧
    position < (joined before).length + (Piece.scalar s).bytes.length

theorem writeScalar_bytes {s : Scalar} (h : s.handleType? = none) :
    writeScalar s = .ok (Piece.scalar s).bytes := by
  cases s with
  | handle a => cases h
  | _ => rfl

/-- A value without handles is written piece by piece. -/
theorem writeNode_pieces {layer : Layer} (node : Node Scalar layer)
    (h : ∀ s ∈ node.leaves, s.handleType? = none) :
    writeNode node = .ok (joined (pieces node)) := by
  induction node with
  | leaf s =>
    rw [writeNode, writeScalar_bytes (h s List.mem_cons_self), pieces, joined_cons]
    exact congrArg Except.ok (List.append_nil _).symm
  | list items ih =>
    rw [writeNode, ih h, ok_bind]
    rfl
  | map fields ih =>
    rw [writeNode, ih h, ok_bind]
    rfl
  | nil => rfl
  | cons head tail ihh iht =>
    obtain ⟨hh, ht⟩ := List.forall_mem_append.1 h
    rw [writeNode, ihh hh, ok_bind, iht ht, ok_bind, pieces, joined_append]
    rfl
  | done => rfl
  | field key _ value rest ihv ihr =>
    obtain ⟨hv, hr⟩ := List.forall_mem_append.1 h
    rw [writeNode, ihv hv, ok_bind, ihr hr, ok_bind, pieces, joined_cons, joined_append,
      ← List.append_assoc]
    rfl

/-- Pieces are the same, or they are zeros of opposite sign. -/
inductive Piece.Alike : Piece → Piece → Prop where
  | same (piece : Piece) : Alike piece piece
  | zeros {s t : Scalar} (h : s.OppositeZeros t) : Alike (.scalar s) (.scalar t)

theorem Piece.Alike.length_eq {p q : Piece} (h : p.Alike q) : p.bytes.length = q.bytes.length := by
  cases h with
  | same => rfl
  | zeros h => cases h <;> rfl

theorem scalar_alike {s t : Scalar} (h : s.equals t = true) (hh : s.handleType? = none) :
    (Piece.scalar s).Alike (.scalar t) := by
  obtain ⟨-, rfl | h | ⟨a, b, rfl, -, -⟩⟩ := Scalar.equals_iff.1 h
  · exact .same _
  · exact .zeros h
  · cases hh

open Node (Agree)

/-- Values that are equal are made of the same pieces, but for the signs of zeros. -/
theorem pieces_alike {layer layer' : Layer} {a : Node Scalar layer} {b : Node Scalar layer'}
    (h : Agree (fun s t => s.equals t = true) a b) (hh : ∀ s ∈ a.leaves, s.handleType? = none) :
    List.Forall₂ Piece.Alike (pieces a) (pieces b) := by
  induction h with
  | leaf h => exact .cons (scalar_alike h (hh _ List.mem_cons_self)) .nil
  | list h ih =>
    rw [pieces, pieces, h.length_trees]
    exact .cons (.same _) (ih hh)
  | map h ih =>
    rw [pieces, pieces, h.length_pairs]
    exact .cons (.same _) (ih hh)
  | nil => exact .nil
  | cons _ _ ihh iht =>
    obtain ⟨hh, ht⟩ := List.forall_mem_append.1 hh
    exact List.rel_append (ihh hh) (iht ht)
  | done => exact .nil
  | field _ _ ihv ihr =>
    obtain ⟨hv, hr⟩ := List.forall_mem_append.1 hh
    exact .cons (.same _) (List.rel_append (ihv hv) (ihr hr))

theorem length_joined_eq {ps qs : List Piece} (h : List.Forall₂ Piece.Alike ps qs) :
    (joined ps).length = (joined qs).length := by
  induction h with
  | nil => rfl
  | cons h _ ih =>
    rw [joined_cons, joined_cons, List.length_append, List.length_append, h.length_eq, ih]

/-- Where the bytes of alike pieces differ, there are zeros of opposite sign. -/
theorem differ_at {ps qs : List Piece} (h : List.Forall₂ Piece.Alike ps qs) {position : Nat}
    (hd : (joined ps)[position]? ≠ (joined qs)[position]?) :
    ∃ (before before' after after' : List Piece) (s t : Scalar), s.OppositeZeros t ∧
      ps = before ++ .scalar s :: after ∧ qs = before' ++ .scalar t :: after' ∧
      (joined before).length = (joined before').length ∧ (joined before).length ≤ position ∧
      position < (joined before).length + (Piece.scalar s).bytes.length := by
  induction h generalizing position with
  | nil => exact absurd rfl hd
  | @cons p q ps qs h hr ih =>
    rw [joined_cons, joined_cons] at hd
    by_cases hlt : position < p.bytes.length
    · rw [List.getElem?_append_left hlt, List.getElem?_append_left (h.length_eq ▸ hlt)] at hd
      cases h with
      | same => exact absurd rfl hd
      | zeros h =>
        refine ⟨[], [], ps, qs, _, _, h, rfl, rfl, rfl, Nat.zero_le _, ?_⟩
        exact Nat.lt_of_lt_of_eq hlt (Nat.zero_add _).symm
    · have hle := Nat.le_of_not_lt hlt
      rw [List.getElem?_append_right hle, List.getElem?_append_right (h.length_eq ▸ hle),
        ← h.length_eq] at hd
      obtain ⟨before, before', after, after', s, t, hz, rfl, rfl, hl, hge, hlt'⟩ := ih hd
      refine ⟨p :: before, q :: before', after, after', s, t, hz, rfl, rfl, ?_, ?_, ?_⟩ <;>
        rw [joined_cons, List.length_append]
      · rw [joined_cons, List.length_append, h.length_eq, hl]
      · omega
      · omega

end Snapshot

namespace Value

open Snapshot (Piece pieces pieces_alike joined length_joined_eq differ_at writeValue
  writeNode_pieces HoldsAt)

/-- Equality is symmetric and transitive, and a value is equal to itself just if there is no NaN in
it. Values of different kinds are not equal, and handles are just if they refer to the same object.
Of two equal values without handles, what is written is as long for one as for the other, and it
differs only at bytes of zeros that are positive in one and negative in the other. -/
theorem equality_laws :
    (∀ a b : Value, a.equals b = b.equals a) ∧
    (∀ a b c : Value, a.equals b = true → b.equals c = true → a.equals c = true) ∧
    (∀ a : Value, a.equals a = true ↔ ¬ ∃ s : Scalar, s.NaN ∧ Node.Occurs s a) ∧
    (∀ a b : Value, a.variant ≠ b.variant → a.equals b = false) ∧
    (∀ a b : Handle, equals (.leaf (.handle a)) (.leaf (.handle b)) = true ↔ a.id = b.id) ∧
    ∀ a b : Value, a.equals b = true → ¬ a.HoldsHandle → ¬ b.HoldsHandle →
      writeValue a = .ok (joined (pieces a)) ∧ writeValue b = .ok (joined (pieces b)) ∧
        (joined (pieces a)).length = (joined (pieces b)).length ∧
        ∀ position, (joined (pieces a))[position]? ≠ (joined (pieces b))[position]? →
          ∃ s t, s.OppositeZeros t ∧ HoldsAt a position s ∧ HoldsAt b position t := by
  refine ⟨fun a b => Bool.eq_iff_iff.2 ⟨equals_symm, equals_symm⟩, fun _ _ _ => equals_trans,
    fun _ => equals_self_iff, fun a b h => ?_, fun a b => beq_iff_eq, fun a b h ha hb => ?_⟩
  · exact Bool.eq_false_iff.2 fun he => h (variant_eq he)
  · have ha := unencodable?_eq_none_iff.1 (unencodable?_eq_none_of_not ha)
    have hb := unencodable?_eq_none_iff.1 (unencodable?_eq_none_of_not hb)
    have alike := pieces_alike (equals_iff.1 h) ha
    refine ⟨writeNode_pieces a ha, writeNode_pieces b hb, length_joined_eq alike,
      fun position hd => ?_⟩
    obtain ⟨before, before', after, after', s, t, hz, e, e', hl, hge, hlt⟩ := differ_at alike hd
    refine ⟨s, t, hz, ⟨before, after, e, hge, hlt⟩, before', after', e', by omega, ?_⟩
    rwa [← hl, ← (Piece.Alike.zeros hz).length_eq]

/-- The same number in two types is not equal. -/
example : equals (.leaf (.int (.ofInt .int32 1))) (.leaf (.int (.ofInt .int64 1))) = false := by
  decide

end Value

end ExpiringCache
