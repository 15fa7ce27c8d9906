import PacketWire.Proofs.Base64.Text
import PacketWire.Proofs.Format.LineBreaks

/-!
# What each format accepts

For each format the messages that it accepts, together with the packet in each of them
(`decode_binary_eq_ok_iff`, `decode_string_eq_ok_iff`, `decode_base64_eq_ok_iff`). A base64 message
with a payload has a *body*, which is base64 once its line breaks are gone.
-/

namespace PacketWire.Format

open Base64

/-- Without its line breaks, a body consists of symbols and at most two paddings after them, and its
length is a multiple of four. -/
structure Body (body : Bytes) (symbols : List Sextet) (pads : Nat) : Prop where
  text : withoutLineBreaks body = symbols.map symbol ++ List.replicate pads pad
  few : pads ≤ 2
  whole : (withoutLineBreaks body).length % 4 = 0

/-! ### Bodies -/

/-- A body is spelled by symbols that the paddings fit. -/
theorem body_iff {body : Bytes} {symbols : List Sextet} {pads : Nat} :
    Body body symbols pads ↔ Fits symbols pads ∧ withoutLineBreaks body = spell symbols pads := by
  constructor
  · intro h
    have htext : withoutLineBreaks body = spell symbols pads := h.text
    have hwhole := h.whole
    rw [htext, length_spell] at hwhole
    exact ⟨⟨h.few, hwhole⟩, htext⟩
  · rintro ⟨hfits, htext⟩
    refine ⟨htext, hfits.few, ?_⟩
    rw [htext, length_spell]
    exact hfits.whole

/-- A payload is read exactly from a body, and it is made of the symbols of the body. -/
theorem decodeBody_eq_ok_iff {body payload : Bytes} :
    decodeBody body = .ok payload ↔
      ∃ symbols pads, Body body symbols pads ∧ payload = joined symbols := by
  simp only [decodeBody_eq, mapError_eq_ok_iff, decode_eq_ok_iff, body_iff, and_assoc]

/-- Whatever is wrong with what should be a body, it is reported as a fault of the payload. -/
theorem decodeBody_of_not_body {body : Bytes} (h : ¬ ∃ symbols pads, Body body symbols pads) :
    ∃ cause, decodeBody body = .error (.badPayload cause) := by
  cases hd : Base64.decode (withoutLineBreaks body) with
  | ok payload =>
    have hok : decodeBody body = .ok payload := by rw [decodeBody_eq, hd, mapError_ok]
    obtain ⟨symbols, pads, hbody, -⟩ := decodeBody_eq_ok_iff.mp hok
    exact absurd ⟨symbols, pads, hbody⟩ h
  | error cause => exact ⟨cause, by rw [decodeBody_eq, hd, mapError_error]⟩

/-! ### Messages -/

/-- A message that is a type and a payload directly behind it, whichever bytes stand for types. -/
theorem typed_eq_ok_iff {read : UInt8 → Except Malformed PacketType} {spell : PacketType → UInt8}
    (hread : ∀ {b t}, read b = .ok t ↔ b = spell t) {b : UInt8} {rest : Bytes} {flags : Flags}
    {p : Packet} :
    (do
      let t ← read b
      return (⟨t, rest, flags⟩ : Packet)) = .ok p ↔
    ∃ (t : PacketType) (payload : Bytes), b :: rest = spell t :: payload ∧
      p = ⟨t, payload, flags⟩ := by
  simp only [bind_eq_ok_iff, hread, pure_eq_ok, Except.ok.injEq]
  constructor
  · rintro ⟨t, rfl, rfl⟩
    exact ⟨t, rest, rfl, rfl⟩
  · rintro ⟨t, payload, hw, rfl⟩
    obtain ⟨rfl, rfl⟩ := List.cons.inj hw
    exact ⟨t, rfl, rfl⟩

/-- The binary format accepts a type byte with anything behind it. -/
theorem decode_binary_eq_ok_iff {w : Bytes} {p : Packet} :
    decode .binary w = .ok p ↔
      ∃ (t : PacketType) (payload : Bytes), w = t.byte :: payload ∧
        p = ⟨t, payload, .binaryOnly⟩ := by
  cases w with
  | nil => simp [decode]
  | cons b rest => exact typed_eq_ok_iff PacketType.readByte_eq_ok_iff

theorem decode_string_eq_ok_iff {w : Bytes} {p : Packet} :
    decode .string w = .ok p ↔
      ∃ (t : PacketType) (payload : Bytes), w = t.digit :: payload ∧
        p = ⟨t, payload, .none⟩ := by
  cases w with
  | nil => simp [decode]
  | cons b rest => exact typed_eq_ok_iff PacketType.readDigit_eq_ok_iff

/-- After marker and digit only the body can be at fault. -/
theorem decode_marked (t : PacketType) (body : Bytes) :
    decode .base64 (marker :: t.digit :: body) =
      (decodeBody body).bind fun payload => .ok ⟨t, payload, .binaryOnly⟩ := by
  rw [decode, if_pos rfl, PacketType.readDigit_digit]
  rfl

theorem decode_marked_eq_ok_iff {t : PacketType} {body : Bytes} {p : Packet} :
    decode .base64 (marker :: t.digit :: body) = .ok p ↔
      ∃ symbols pads, Body body symbols pads ∧ p = ⟨t, joined symbols, .binaryOnly⟩ := by
  rw [decode_marked]
  constructor
  · intro h
    obtain ⟨payload, hbody, hp⟩ := bind_eq_ok_iff.mp h
    obtain ⟨symbols, pads, hrest, rfl⟩ := decodeBody_eq_ok_iff.mp hbody
    cases hp
    exact ⟨symbols, pads, hrest, rfl⟩
  · rintro ⟨symbols, pads, hrest, rfl⟩
    rw [decodeBody_eq_ok_iff.mpr ⟨symbols, pads, hrest, rfl⟩]
    rfl

/-- The base64 format accepts a digit of a type alone, or marker, digit and body. -/
theorem decode_base64_eq_ok_iff {w : Bytes} {p : Packet} :
    decode .base64 w = .ok p ↔
      (∃ t : PacketType, w = [t.digit] ∧ p = ⟨t, [], .binaryOnly⟩) ∨
      ∃ (t : PacketType) (body : Bytes) (symbols : List Sextet) (pads : Nat),
        w = marker :: t.digit :: body ∧ Body body symbols pads ∧
          p = ⟨t, joined symbols, .binaryOnly⟩ := by
  constructor
  · intro h
    match w, h with
    | [b], h =>
      obtain ⟨t, ht, hp⟩ := bind_eq_ok_iff.mp h
      cases hp
      exact .inl ⟨t, by rw [PacketType.readDigit_eq_ok_iff.mp ht], rfl⟩
    | m :: b :: body, h =>
      -- Both the marker and the digit are checked before the body is looked at.
      have ⟨hm, t, hb⟩ : m = marker ∧ ∃ t : PacketType, b = t.digit := by
        rw [decode] at h
        split at h
        · next hm =>
          obtain ⟨t, ht, -⟩ := bind_eq_ok_iff.mp h
          exact ⟨hm, t, PacketType.readDigit_eq_ok_iff.mp ht⟩
        · cases h
      subst hm hb
      obtain ⟨symbols, pads, hbody, rfl⟩ := decode_marked_eq_ok_iff.mp h
      exact .inr ⟨t, body, symbols, pads, rfl, hbody, rfl⟩
  · rintro (⟨t, rfl, rfl⟩ | ⟨t, body, symbols, pads, rfl, hbody, rfl⟩)
    · rw [decode, PacketType.readDigit_digit]
      rfl
    · exact decode_marked_eq_ok_iff.mpr ⟨symbols, pads, hbody, rfl⟩

/-- A packet that was read carries the flags of the format that read it. -/
theorem flags_of_decode {f : Format} {w : Bytes} {p : Packet} (h : f.decode w = .ok p) :
    p.flags = f.flags := by
  cases f with
  | binary =>
    obtain ⟨t, payload, -, rfl⟩ := decode_binary_eq_ok_iff.mp h
    rfl
  | string =>
    obtain ⟨t, payload, -, rfl⟩ := decode_string_eq_ok_iff.mp h
    rfl
  | base64 =>
    obtain ⟨t, -, rfl⟩ | ⟨t, _, _, _, -, -, rfl⟩ := decode_base64_eq_ok_iff.mp h <;> rfl

end PacketWire.Format
