import PacketWire.Proofs.Base64.Bits
import PacketWire.Proofs.Format.Acceptance

/-!
# The grammar of base64 messages

What decoding a base64 message comes to, row by row, in the order in which the rows are tried:

| message                                    | outcome                             |
|--------------------------------------------|-------------------------------------|
| nothing                                    | `empty`                             |
| a digit `'0' … '6'` alone                  | its type, no payload                |
| another byte alone                         | `unknownType` of that byte          |
| two bytes or more, not after the marker    | `badFraming` of the whole message   |
| marker, no digit `'0' … '6'`, anything     | `unknownType` of the second byte    |
| marker, digit, base64 among line breaks    | its type, the bits in whole bytes   |
| marker, digit, anything else               | `badPayload`                        |
-/

namespace PacketWire.Format

open Base64

/-- A byte from `'0'` to `'6'`. -/
def IsTypeDigit (b : UInt8) : Prop := 48 ≤ b ∧ b ≤ 54

/-- The grammar of base64 messages, by rows. The digits are those of the packet types. A message of
marker, digit and more is accepted exactly when the rest is a body, the payload being the bits of
its symbols in whole bytes; otherwise the payload is at fault. -/
theorem base64_grammar :
    (∀ b, IsTypeDigit b ↔ ∃ t : PacketType, b = t.digit) ∧
    decode .base64 [] = .error .empty ∧
    (∀ t : PacketType, decode .base64 [t.digit] = .ok ⟨t, [], .binaryOnly⟩) ∧
    (∀ b, ¬ IsTypeDigit b → decode .base64 [b] = .error (.unknownType b)) ∧
    (∀ m b rest, m ≠ marker →
      decode .base64 (m :: b :: rest) = .error (.badFraming (m :: b :: rest))) ∧
    (∀ b rest, ¬ IsTypeDigit b → decode .base64 (marker :: b :: rest) = .error (.unknownType b)) ∧
    (∀ (t : PacketType) rest p, decode .base64 (marker :: t.digit :: rest) = .ok p ↔
      ∃ symbols pads, Body rest symbols pads ∧
        p = ⟨t, wholeBytes (symbols.flatMap bits), .binaryOnly⟩) ∧
    (∀ (t : PacketType) rest, (¬ ∃ symbols pads, Body rest symbols pads) →
      ∃ cause, decode .base64 (marker :: t.digit :: rest) = .error (.badPayload cause)) := by
  refine ⟨fun b => PacketType.exists_digit_iff.symm, rfl, ?_, ?_, ?_, ?_, ?_, ?_⟩
  · intro t
    rw [decode, PacketType.readDigit_digit]
    rfl
  · intro b hb
    rw [decode, PacketType.readDigit_of_not_digit hb]
    rfl
  · intro m b rest hm
    rw [decode, if_neg hm]
  · intro b rest hb
    rw [decode, if_pos rfl, PacketType.readDigit_of_not_digit hb]
    rfl
  · intro t rest p
    simp only [decode_marked_eq_ok_iff, joined_eq_wholeBytes]
  · intro t rest h
    obtain ⟨cause, hcause⟩ := decodeBody_of_not_body h
    exact ⟨cause, by rw [decode_marked, hcause]; rfl⟩

/-- One symbol and four bits of the next make a byte; the line feed and the other bits do not. -/
theorem base64_grammar_left_over_bits :
    decode .base64 [marker, 52, 89, 10, 82, 61, 61] = .ok ⟨.message, [97], .binaryOnly⟩ :=
  (base64_grammar.2.2.2.2.2.2.1 .message [89, 10, 82, 61, 61] _).mpr
    ⟨[24, 17], 2, ⟨by decide +kernel, by decide, by decide⟩, by decide⟩

end PacketWire.Format
