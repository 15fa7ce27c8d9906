import PacketWire.Proofs.Base64.Diagnosis
import PacketWire.Proofs.Format.Joining

/-!
# What is said of a payload that cannot be read

The text of a base64 message is read without its line breaks, and what is reported of it is true of
the text without them: offsets and lengths are counted in it (`payload_fault_holds`).
-/

namespace PacketWire.Format

open Base64

/-- A fault of the payload is one of the text without its line breaks. -/
theorem decode_marked_eq_badPayload_iff {t : PacketType} {body : Bytes} {cause : Base64.Error} :
    decode .base64 (marker :: t.digit :: body) = .error (.badPayload cause) ↔
      Base64.decode (withoutLineBreaks body) = .error cause := by
  rw [decode_marked, decodeBody_eq]
  cases Base64.decode (withoutLineBreaks body) <;> simp [Except.bind]

/-- Behind marker and digit, a message is accepted just if its text is. -/
theorem exists_decode_marked_iff {t : PacketType} {body : Bytes} :
    (∃ p, decode .base64 (marker :: t.digit :: body) = .ok p) ↔
      ∃ payload, Base64.decode (withoutLineBreaks body) = .ok payload := by
  rw [decode_marked, decodeBody_eq]
  cases Base64.decode (withoutLineBreaks body) <;> simp [Except.bind]

/-- A message of marker, digit and a text that cannot be read is refused for its payload, and what is
said of the text holds without its line breaks. A byte that is named stands at the offset that is
named, and is not in the alphabet. A length is named exactly when all bytes are in the alphabet and
one of them is left over after whole groups; it is the number of these bytes. Missing padding is
reported exactly when the text is refused, and is accepted with one padding more, or with two. -/
theorem payload_fault_holds (t : PacketType) (body : Bytes) :
    (∀ cause, decode .base64 (marker :: t.digit :: body) = .error cause →
      ∃ fault, cause = .badPayload fault) ∧
    (∀ b offset,
      decode .base64 (marker :: t.digit :: body) = .error (.badPayload (.invalidSymbol b offset)) →
        offset < (withoutLineBreaks body).length ∧ (withoutLineBreaks body)[offset]? = some b ∧
          b ∉ alphabet) ∧
    (∀ length,
      decode .base64 (marker :: t.digit :: body) = .error (.badPayload (.invalidLength length)) ↔
        (∀ b ∈ withoutLineBreaks body, b ∈ alphabet) ∧ (withoutLineBreaks body).length % 4 = 1 ∧
          length = (withoutLineBreaks body).length) ∧
    (decode .base64 (marker :: t.digit :: body) = .error (.badPayload .invalidPadding) ↔
      (¬ ∃ p, decode .base64 (marker :: t.digit :: withoutLineBreaks body) = .ok p) ∧
        ((∃ p, decode .base64 (marker :: t.digit :: (withoutLineBreaks body ++ [pad])) = .ok p) ∨
          ∃ p, decode .base64 (marker :: t.digit :: (withoutLineBreaks body ++ [pad, pad])) =
            .ok p)) := by
  refine ⟨?_, ?_, ?_, ?_⟩
  · intro cause h
    rw [decode_marked, decodeBody_eq] at h
    cases hd : Base64.decode (withoutLineBreaks body) with
    | ok payload =>
      rw [hd] at h
      cases h
    | error fault =>
      rw [hd] at h
      cases h
      exact ⟨fault, rfl⟩
  · intro b offset h
    obtain ⟨hbyte, hnot⟩ := getElem?_of_invalidSymbol (decode_marked_eq_badPayload_iff.mp h)
    obtain ⟨hoffset, -⟩ := List.getElem?_eq_some_iff.mp hbyte
    exact ⟨hoffset, hbyte, hnot⟩
  · intro length
    rw [decode_marked_eq_badPayload_iff, decode_eq_invalidLength_iff]
  · have hpads : ∀ pads : Bytes, withoutLineBreaks pads = pads →
        withoutLineBreaks (withoutLineBreaks body ++ pads) = withoutLineBreaks body ++ pads := by
      intro pads h
      rw [withoutLineBreaks_append, withoutLineBreaks_idem, h]
    rw [decode_marked_eq_badPayload_iff, exists_decode_marked_iff, exists_decode_marked_iff,
      exists_decode_marked_iff, withoutLineBreaks_idem, hpads [pad] rfl, hpads [pad, pad] rfl,
      decode_eq_invalidPadding_iff_append, iff_and_self]
    intro h
    have hrefused := decode_eq_invalidPadding_iff_append.mpr h
    rintro ⟨payload, haccepted⟩
    rw [hrefused] at haccepted
    cases haccepted

/-- Of four bytes three are symbols and one is a line feed, so one padding is missing; a padding that
comes too early is named, at its place among the bytes that are no line breaks. -/
theorem payload_fault_holds_pads :
    decode .base64 [marker, 52, 98, 71, 10, 56] = .error (.badPayload .invalidPadding) ∧
      ((¬ ∃ p, decode .base64 [marker, 52, 98, 71, 56] = .ok p) ∧
        ((∃ p, decode .base64 [marker, 52, 98, 71, 56, pad] = .ok p) ∨
          ∃ p, decode .base64 [marker, 52, 98, 71, 56, pad, pad] = .ok p)) ∧
      decode .base64 [marker, 52, 13, 89, 61, 74, 74] =
        .error (.badPayload (.invalidSymbol 61 1)) ∧
      (∃ fault, Malformed.badPayload (.invalidSymbol 61 1) = .badPayload fault) ∧
      1 < (withoutLineBreaks [13, 89, 61, 74, 74]).length ∧
      (withoutLineBreaks [13, 89, 61, 74, 74])[1]? = some 61 ∧ 61 ∉ alphabet := by
  have hmissing : decode .base64 [marker, 52, 98, 71, 10, 56] =
      .error (.badPayload .invalidPadding) := rfl
  have hearly : decode .base64 [marker, 52, 13, 89, 61, 74, 74] =
      .error (.badPayload (.invalidSymbol 61 1)) := rfl
  exact ⟨hmissing, (payload_fault_holds .message [98, 71, 10, 56]).2.2.2.mp hmissing, hearly,
    (payload_fault_holds .message [13, 89, 61, 74, 74]).1 _ hearly,
    (payload_fault_holds .message [13, 89, 61, 74, 74]).2.1 61 1 hearly⟩

end PacketWire.Format
