import PacketWire.Proofs.Format.Types

/-!
# Line breaks in base64 messages

A transport may wrap the text of a base64 message. Wrapping is a relation: any number of line breaks
may stand at any places, so that a text has many wrapped forms, one of which is the text itself. All
of them are read alike, the faults that are found in them included (`decode_wrapped`), although only
texts with line breaks are stripped of them (`decodeBody_eq`). Line breaks that stand in front of
the text are not skipped: there they are bytes like any other.
-/

namespace PacketWire.Format

/-! ### Texts without line breaks -/

theorem withoutLineBreaks_append (a b : Bytes) :
    withoutLineBreaks (a ++ b) = withoutLineBreaks a ++ withoutLineBreaks b :=
  List.filter_append a b

theorem withoutLineBreaks_idem (body : Bytes) :
    withoutLineBreaks (withoutLineBreaks body) = withoutLineBreaks body := by
  rw [withoutLineBreaks, withoutLineBreaks, List.filter_filter]
  simp

/-- A part of a text without line breaks has none either. -/
theorem withoutLineBreaks_of_sublist {part body : Bytes} (hpart : part.Sublist body)
    (h : withoutLineBreaks body = body) : withoutLineBreaks part = part := by
  rw [withoutLineBreaks, List.filter_eq_self] at h ⊢
  intro b hb
  exact h b (hpart.subset hb)

/-- A text is copied only if there are line breaks in it, and is read as if it always were: where
there are none, it is its own copy. -/
theorem decodeBody_eq (body : Bytes) :
    decodeBody body = (Base64.decode (withoutLineBreaks body)).mapError .badPayload := by
  rw [decodeBody]
  split
  · rfl
  · next hnone =>
    have hsame : withoutLineBreaks body = body := by
      rw [withoutLineBreaks, List.filter_eq_self]
      simpa using hnone
    rw [hsame]

/-! ### Wrapped texts -/

/-- The second text is the first one with line breaks put in. -/
inductive Wrapped : Bytes → Bytes → Prop
  | nil : Wrapped [] []
  | keep {b text wrapped} : Wrapped text wrapped → Wrapped (b :: text) (b :: wrapped)
  | insert {b text wrapped} : isLineBreak b → Wrapped text wrapped → Wrapped text (b :: wrapped)

theorem withoutLineBreaks_cons_of_break {b : UInt8} (h : isLineBreak b) (text : Bytes) :
    withoutLineBreaks (b :: text) = withoutLineBreaks text := by
  simp [withoutLineBreaks, h]

theorem withoutLineBreaks_cons {b : UInt8} (h : isLineBreak b = false) (text : Bytes) :
    withoutLineBreaks (b :: text) = b :: withoutLineBreaks text := by
  simp [withoutLineBreaks, h]

/-- Nothing but line breaks is put into a text that is wrapped. -/
theorem Wrapped.withoutLineBreaks_eq {text wrapped : Bytes} (h : Wrapped text wrapped) :
    withoutLineBreaks wrapped = withoutLineBreaks text := by
  induction h with
  | nil => rfl
  | @keep b _ _ _ ih =>
    cases hb : isLineBreak b with
    | true => rw [withoutLineBreaks_cons_of_break hb, withoutLineBreaks_cons_of_break hb, ih]
    | false => rw [withoutLineBreaks_cons hb, withoutLineBreaks_cons hb, ih]
  | insert hb _ ih => rw [withoutLineBreaks_cons_of_break hb, ih]

/-- Every text is wrapped, be it only by the line breaks that are in it. -/
theorem wrapped_withoutLineBreaks (text : Bytes) : Wrapped (withoutLineBreaks text) text := by
  induction text with
  | nil => exact .nil
  | cons b text ih =>
    cases hb : isLineBreak b with
    | true =>
      rw [withoutLineBreaks_cons_of_break hb]
      exact .insert hb ih
    | false =>
      rw [withoutLineBreaks_cons hb]
      exact .keep ih

/-- A text is read alike however it is wrapped. -/
theorem decodeBody_wrapped {body wrapped : Bytes} (h : Wrapped body wrapped) :
    decodeBody wrapped = decodeBody body := by
  rw [decodeBody_eq, decodeBody_eq, h.withoutLineBreaks_eq]

/-! ### Line breaks in front of the text -/

theorem isLineBreak_iff {b : UInt8} : isLineBreak b ↔ b = 13 ∨ b = 10 := by
  simp [isLineBreak]

theorem ne_marker_of_isLineBreak {b : UInt8} (h : isLineBreak b) : b ≠ marker := by
  rcases isLineBreak_iff.mp h with rfl | rfl <;> decide

theorem not_digit_of_isLineBreak {b : UInt8} (h : isLineBreak b) : ¬ (48 ≤ b ∧ b ≤ 54) := by
  rcases isLineBreak_iff.mp h with rfl | rfl <;> decide

/-- Two bytes or more that do not begin with the marker are no message at all. -/
theorem decode_of_ne_marker {m : UInt8} (hm : m ≠ marker) (b : UInt8) (rest : Bytes) :
    decode .base64 (m :: b :: rest) = .error (.badFraming (m :: b :: rest)) := by
  rw [decode, if_neg hm]

theorem decode_of_not_digit {b : UInt8} (hb : ¬ (48 ≤ b ∧ b ≤ 54)) (rest : Bytes) :
    decode .base64 (marker :: b :: rest) = .error (.unknownType b) := by
  rw [decode, if_pos rfl, PacketType.readDigit_of_not_digit hb]
  rfl

/-- Whatever comes after the marker and a byte for the type, wrapping it does not change what is
read, or what is found wrong with it; so it is read like what is left of it without line breaks.
Anywhere else a line break is a byte like any other. In front of two bytes or more it is not the
marker, after the marker it is the digit of no type, and a message that begins with a digit ends
with it. -/
theorem decode_wrapped :
    (∀ d body wrapped, Wrapped body wrapped →
      decode .base64 (marker :: d :: wrapped) = decode .base64 (marker :: d :: body)) ∧
    (∀ d body,
      decode .base64 (marker :: d :: body) =
        decode .base64 (marker :: d :: withoutLineBreaks body)) ∧
    (∀ b c rest, isLineBreak b →
      decode .base64 (b :: c :: rest) = .error (.badFraming (b :: c :: rest))) ∧
    (∀ b rest, isLineBreak b → decode .base64 (marker :: b :: rest) = .error (.unknownType b)) ∧
    ∀ (t : PacketType) b rest,
      decode .base64 (t.digit :: b :: rest) = .error (.badFraming (t.digit :: b :: rest)) := by
  have hwrapped : ∀ d body wrapped, Wrapped body wrapped →
      decode .base64 (marker :: d :: wrapped) = decode .base64 (marker :: d :: body) := by
    intro d body wrapped h
    rw [decode, if_pos rfl, decode, if_pos rfl, decodeBody_wrapped h]
  refine ⟨hwrapped, ?_, ?_, ?_, ?_⟩
  · intro d body
    exact hwrapped d _ _ (wrapped_withoutLineBreaks body)
  · intro b c rest hb
    exact decode_of_ne_marker (ne_marker_of_isLineBreak hb) c rest
  · intro b rest hb
    exact decode_of_not_digit (not_digit_of_isLineBreak hb) rest
  · intro t b rest
    exact decode_of_ne_marker t.digit_ne_marker b rest

/-- The exclamation mark is found at offset one, with line breaks before and behind it, and between
the paddings too. -/
theorem decode_wrapped_offset :
    Wrapped [89, 33, 61, 61] [13, 10, 89, 10, 33, 61, 13, 61] ∧
      decode .base64 [marker, 52, 13, 10, 89, 10, 33, 61, 13, 61] =
        decode .base64 [marker, 52, 89, 33, 61, 61] ∧
      decode .base64 [marker, 52, 89, 33, 61, 61] =
        .error (.badPayload (.invalidSymbol 33 1)) := by
  have hwrapped : Wrapped [89, 33, 61, 61] [13, 10, 89, 10, 33, 61, 13, 61] :=
    .insert rfl (.insert rfl (.keep (.insert rfl (.keep (.keep (.insert rfl (.keep .nil)))))))
  exact ⟨hwrapped, decode_wrapped.1 52 _ _ hwrapped, rfl⟩

end PacketWire.Format
