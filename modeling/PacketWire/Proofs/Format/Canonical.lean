import PacketWire.Proofs.Base64.Rewriting
import PacketWire.Proofs.Format.Acceptance
import PacketWire.Proofs.Format.RoundTrip

/-!
# Canonical messages

Writing the packet of an accepted message yields the message again for the binary and the string
format. For base64 it yields the canonical form of the message: without line breaks, without the
marker where there is no body, and with the unused bits of the last symbol set to zero. `Canonical`
says what that form is, in terms of the message alone.
-/

namespace PacketWire.Format

open Base64

/-- The second message is the canonical form of the first. -/
inductive Canonical : Format → Bytes → Bytes → Prop
  | binary {w} : Canonical .binary w w
  | string {w} : Canonical .string w w
  /-- A digit alone stays as it is. -/
  | short {d} : Canonical .base64 [d] [d]
  /-- A body of line breaks only goes, and the marker with it. -/
  | noBody {m d body} : withoutLineBreaks body = [] → Canonical .base64 (m :: d :: body) [d]
  /-- In any other body the last symbol before the paddings loses the bits that no byte uses. -/
  | body {m d body init v pads} : withoutLineBreaks body = spell (init ++ [v]) pads →
    Canonical .base64 (m :: d :: body)
      (m :: d :: spell (init ++ [clearLow (unusedBits pads) v]) pads)

/-! ### The form is unique, and no longer -/

theorem spell_concat_ne_nil {init : List Sextet} {v : Sextet} {pads : Nat} :
    spell (init ++ [v]) pads ≠ [] := by
  simp [spell]

/-- A message has one canonical form at most. -/
theorem Canonical.unique {f : Format} {w c c' : Bytes} (h : Canonical f w c)
    (h' : Canonical f w c') : c = c' := by
  cases h with
  | binary | string | short => cases h'; rfl
  | noBody hbody =>
    cases h' with
    | noBody => rfl
    | body hbody' =>
      exact absurd (hbody'.symm.trans hbody) spell_concat_ne_nil
  | body hbody =>
    cases h' with
    | noBody hbody' =>
      exact absurd (hbody.symm.trans hbody') spell_concat_ne_nil
    | body hbody' =>
      obtain ⟨hsymbols, rfl⟩ := spell_injective (hbody.symm.trans hbody')
      obtain ⟨rfl, hv⟩ := List.append_inj' hsymbols rfl
      cases hv
      rfl

/-- Making a message canonical never makes it longer. -/
theorem Canonical.length_le {f : Format} {w c : Bytes} (h : Canonical f w c) :
    c.length ≤ w.length := by
  cases h with
  | binary | string | short => exact Nat.le_refl _
  | noBody => simp
  | @body m d body init v pads hbody =>
    have hlen : (withoutLineBreaks body).length ≤ body.length := List.length_filter_le _ _
    simp only [hbody, length_spell, List.length_append, List.length_singleton] at hlen
    simp only [List.length_cons, length_spell, List.length_append, List.length_nil]
    omega

/-! ### Writing an accepted message -/

/-- Writing again what was read gives the canonical form. -/
theorem canonical_encode {f : Format} {w : Bytes} {p : Packet} (h : f.decode w = .ok p) :
    Canonical f w (f.encode p) := by
  cases f with
  | binary =>
    obtain ⟨t, payload, rfl, rfl⟩ := decode_binary_eq_ok_iff.mp h
    rw [encode_binary]
    exact .binary
  | string =>
    obtain ⟨t, payload, rfl, rfl⟩ := decode_string_eq_ok_iff.mp h
    rw [encode_string]
    exact .string
  | base64 =>
    obtain ⟨t, rfl, rfl⟩ | ⟨t, body, symbols, pads, rfl, hbody, rfl⟩ :=
      decode_base64_eq_ok_iff.mp h
    · exact .short
    · obtain ⟨hfits, htext⟩ := body_iff.mp hbody
      obtain rfl | ⟨init, v, rfl⟩ := symbols.eq_nil_or_concat
      · -- There is nothing to pad without a symbol.
        obtain rfl : pads = 0 := by
          have := hfits.few
          have := hfits.whole
          rw [List.length_nil] at this
          omega
        exact .noBody htext
      · rw [List.concat_eq_append] at *
        have hencode := encode_joined init v pads hfits
        -- No payload would be written without any symbol.
        have hpayload : joined (init ++ [v]) ≠ [] := by
          intro hnil
          rw [hnil] at hencode
          exact absurd hencode.symm spell_concat_ne_nil
        rw [encode_base64_of_payload hpayload, hencode]
        exact .body htext

/-- A binary message is accepted when its first byte is at most six, a string message when its first
byte is a digit from `'0'` to `'6'`. Writing the packet of an accepted message of any format yields
the canonical form of the message, which is no longer than it, is read as the same packet, and is
the message itself only if that was canonical already. -/
theorem encode_of_decode :
    (∀ w, (∃ p, decode .binary w = .ok p) ↔ ∃ b rest, w = b :: rest ∧ b ≤ 6) ∧
    (∀ w, (∃ p, decode .string w = .ok p) ↔ ∃ b rest, w = b :: rest ∧ 48 ≤ b ∧ b ≤ 54) ∧
    ∀ (f : Format) (w : Bytes) (p : Packet), f.decode w = .ok p →
      Canonical f w (f.encode p) ∧ (f.encode p).length ≤ w.length ∧
      f.decode (f.encode p) = .ok p ∧ (f.encode p = w ↔ Canonical f w w) := by
  refine ⟨?_, ?_, ?_⟩
  · intro w
    simp only [decode_binary_eq_ok_iff, ← PacketType.exists_byte_iff]
    constructor
    · rintro ⟨-, t, payload, hw, -⟩
      exact ⟨t.byte, payload, hw, t, rfl⟩
    · rintro ⟨-, payload, hw, t, rfl⟩
      exact ⟨_, t, payload, hw, rfl⟩
  · intro w
    simp only [decode_string_eq_ok_iff, ← PacketType.exists_digit_iff]
    constructor
    · rintro ⟨-, t, payload, hw, -⟩
      exact ⟨t.digit, payload, hw, t, rfl⟩
    · rintro ⟨-, payload, hw, t, rfl⟩
      exact ⟨_, t, payload, hw, rfl⟩
  · intro f w p h
    have hcanonical := canonical_encode h
    have hflags := flags_of_decode h
    refine ⟨hcanonical, hcanonical.length_le, ?_, ?_, ?_⟩
    · rw [decode_encode, ← hflags]
    · intro heq
      rw [heq] at hcanonical
      exact hcanonical
    · exact hcanonical.unique

/-- A line feed goes, and so do four bits of the second symbol: it becomes the one of value 16. -/
theorem encode_of_decode_line_feed :
    decode .base64 [marker, 52, 89, 10, 82, 61, 61] = .ok ⟨.message, [97], .binaryOnly⟩ ∧
      Canonical .base64 [marker, 52, 89, 10, 82, 61, 61] [marker, 52, 89, symbol 16, 61, 61] :=
  ⟨rfl,
    (encode_of_decode.2.2 .base64 [marker, 52, 89, 10, 82, 61, 61] ⟨.message, [97], .binaryOnly⟩
      rfl).1⟩

end PacketWire.Format
