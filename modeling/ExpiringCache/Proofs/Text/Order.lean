import ExpiringCache.Proofs.Text.Utf8

/-!
# The order of texts and of their bytes

One text lies below another just if its UTF-8 form lies below that of the other, byte by byte
(`encode_lt_encode_iff`). Of two characters the lesser has the lesser form, and neither form is the
beginning of the other (`CharForm.lt`), so the first character in which two texts differ decides
both orders.
-/

namespace ExpiringCache.Utf8

open String (utf8EncodeChar)

variable {front front' : List UInt8} {n n' : Nat}

/-- The forms of two characters differ as the characters do, whatever follows them. -/
theorem CharForm.lt (h : CharForm front n) (h' : CharForm front' n') (hlt : n < n')
    (rest rest' : List UInt8) : front ++ rest < front' ++ rest' := by
  cases h <;> cases h' <;>
    simp only [List.cons_append, List.nil_append, List.cons_lt_cons_iff, UInt8.lt_iff_toNat_lt,
      ← UInt8.toNat_inj, Tail] at * <;> grind

theorem flatMap_lt {text text' : List Char} (h : text < text') :
    text.flatMap utf8EncodeChar < text'.flatMap utf8EncodeChar := by
  induction h with
  | @nil c text =>
    rw [List.flatMap_nil, List.flatMap_cons]
    cases hc : utf8EncodeChar c with
    | nil => exact absurd hc (charForm_encode c).nonempty
    | cons b rest => exact .nil
  | @rel c text c' text' hlt =>
    exact (charForm_encode c).lt (charForm_encode c') (UInt32.lt_iff_toNat_lt.1 hlt) _ _
  | cons _ ih => exact List.append_left_lt ih

/-- Texts are ordered as their bytes are. -/
theorem encode_lt_encode_iff {text text' : String} :
    encode text < encode text' ↔ text < text' := by
  refine ⟨fun h => Decidable.byContradiction fun hn => ?_, flatMap_lt⟩
  by_cases hlt : text' < text
  · exact List.lt_asymm h (flatMap_lt hlt)
  · obtain rfl : text = text' := String.le_antisymm (String.not_lt.1 hlt) (String.not_lt.1 hn)
    exact List.lt_irrefl _ h

end ExpiringCache.Utf8
