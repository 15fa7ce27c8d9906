import PacketWire.Proofs.Format.Acceptance
import PacketWire.Proofs.Format.RoundTrip

/-!
# Messages of another format

A binary message begins with a raw byte, a string message with a digit, and a base64 message with
the marker unless it is a digit alone. So the only messages that two formats accept are the digits
alone, and the two are the text formats, which take them for the same packet without a payload
(`eq_digit_of_decode`). A packet that is read in another format than the one it was written in is
refused, or has lost nothing but its flags (`decode_other_format`).
-/

namespace PacketWire.Format

def Refuses (f : Format) (message : Bytes) : Prop := ∃ cause, f.decode message = .error cause

theorem refuses_of_forall_ne {f : Format} {message : Bytes}
    (h : ∀ p, f.decode message ≠ .ok p) : f.Refuses message := by
  cases hd : f.decode message with
  | ok p => exact absurd hd (h p)
  | error cause => exact ⟨cause, hd⟩

/-! ### Messages that two formats accept -/

/-- No message begins like one of the binary format and like one of a text format too. -/
theorem not_decode_of_binary {message : Bytes} {p q : Packet} (hp : decode .binary message = .ok p)
    {g : Format} (hg : g ≠ .binary) : g.decode message ≠ .ok q := by
  obtain ⟨t, payload, rfl, -⟩ := decode_binary_eq_ok_iff.mp hp
  intro hq
  cases g with
  | binary => exact hg rfl
  | string =>
    obtain ⟨u, rest, hmessage, -⟩ := decode_string_eq_ok_iff.mp hq
    exact t.byte_ne_digit u (List.cons.inj hmessage).1
  | base64 =>
    rcases decode_base64_eq_ok_iff.mp hq with ⟨u, hmessage, -⟩ | ⟨u, body, _, _, hmessage, -⟩
    · exact t.byte_ne_digit u (List.cons.inj hmessage).1
    · exact t.byte_ne_marker (List.cons.inj hmessage).1

/-- Both text formats accept the digit of a type alone, and nothing else. -/
theorem eq_digit_of_text {message : Bytes} {p q : Packet} (hp : decode .string message = .ok p)
    (hq : decode .base64 message = .ok q) :
    ∃ t : PacketType, message = [t.digit] ∧ p = ⟨t, [], .none⟩ ∧ q = ⟨t, [], .binaryOnly⟩ := by
  obtain ⟨t, payload, rfl, rfl⟩ := decode_string_eq_ok_iff.mp hp
  rcases decode_base64_eq_ok_iff.mp hq with ⟨u, hmessage, rfl⟩ | ⟨u, body, _, _, hmessage, -⟩
  · obtain ⟨hdigit, rfl⟩ := List.cons.inj hmessage
    rw [PacketType.digit_injective hdigit]
    exact ⟨u, rfl, rfl, rfl⟩
  · exact absurd (List.cons.inj hmessage).1 t.digit_ne_marker

/-- What two formats accept is the digit of a type alone, and neither format is the binary one. -/
theorem eq_digit_of_decode {f g : Format} (hne : f ≠ g) {message : Bytes} {p q : Packet}
    (hp : f.decode message = .ok p) (hq : g.decode message = .ok q) :
    f ≠ .binary ∧ g ≠ .binary ∧
      ∃ t : PacketType, message = [t.digit] ∧ p = ⟨t, [], f.flags⟩ ∧ q = ⟨t, [], g.flags⟩ := by
  have hf : f ≠ .binary := by
    rintro rfl
    exact not_decode_of_binary hp hne.symm hq
  have hg : g ≠ .binary := by
    rintro rfl
    exact not_decode_of_binary hq hne hp
  refine ⟨hf, hg, ?_⟩
  cases f with
  | binary => exact absurd rfl hf
  | string =>
    cases g with
    | binary => exact absurd rfl hg
    | string => exact absurd rfl hne
    | base64 => exact eq_digit_of_text hp hq
  | base64 =>
    cases g with
    | binary => exact absurd rfl hg
    | string =>
      obtain ⟨t, hmessage, hq, hp⟩ := eq_digit_of_text hq hp
      exact ⟨t, hmessage, hp, hq⟩
    | base64 => exact absurd rfl hne

/-! ### Packets without a payload -/

theorem decode_digit {f : Format} (hf : f ≠ .binary) (t : PacketType) :
    f.decode [t.digit] = .ok ⟨t, [], f.flags⟩ := by
  cases f with
  | binary => exact absurd rfl hf
  | string | base64 =>
    rw [decode, PacketType.readDigit_digit]
    rfl

theorem encode_of_text {f : Format} (hf : f ≠ .binary) {p : Packet} (hp : p.payload = []) :
    f.encode p = [p.type.digit] := by
  cases f with
  | binary => exact absurd rfl hf
  | string => rw [encode_string, hp]
  | base64 => exact encode_base64_of_empty hp

/-- What the binary format accepts the other two refuse. Both of these accept a message exactly when
it is a digit from `'0'` to `'6'` alone, and find the same type and no payload in it. So a packet
that is written in one format is refused by another, unless neither format is the binary one and
the packet has no payload; then its type is read. -/
theorem decode_other_format :
    (∀ message p, decode .binary message = .ok p →
      Refuses .string message ∧ Refuses .base64 message) ∧
    (∀ message, ((∃ p, decode .string message = .ok p) ∧ ∃ q, decode .base64 message = .ok q) ↔
      ∃ b, message = [b] ∧ 48 ≤ b ∧ b ≤ 54) ∧
    (∀ message p q, decode .string message = .ok p → decode .base64 message = .ok q →
      ∃ t, p = ⟨t, [], .none⟩ ∧ q = ⟨t, [], .binaryOnly⟩) ∧
    ∀ (p : Packet) (f g : Format), f ≠ g →
      (f ≠ .binary ∧ g ≠ .binary ∧ p.payload = [] →
        g.decode (f.encode p) =
          .ok ⟨p.type, [], if g = .string then Flags.none else Flags.binaryOnly⟩) ∧
      (¬ (f ≠ .binary ∧ g ≠ .binary ∧ p.payload = []) → Refuses g (f.encode p)) := by
  refine ⟨?_, ?_, ?_, ?_⟩
  · intro message p hp
    have hrefuses {g : Format} (hg : g ≠ .binary) : g.Refuses message := by
      apply refuses_of_forall_ne
      intro q
      exact not_decode_of_binary hp hg
    exact ⟨hrefuses (by decide), hrefuses (by decide)⟩
  · intro message
    constructor
    · rintro ⟨⟨p, hp⟩, q, hq⟩
      obtain ⟨t, rfl, -⟩ := eq_digit_of_text hp hq
      exact ⟨t.digit, rfl, PacketType.exists_digit_iff.mp ⟨t, rfl⟩⟩
    · rintro ⟨b, rfl, hb⟩
      obtain ⟨t, rfl⟩ := PacketType.exists_digit_iff.mpr hb
      exact ⟨⟨_, decode_digit (by decide) t⟩, _, decode_digit (by decide) t⟩
  · intro message p q hp hq
    obtain ⟨t, -, hp, hq⟩ := eq_digit_of_text hp hq
    exact ⟨t, hp, hq⟩
  · intro p f g hne
    constructor
    · rintro ⟨hf, hg, hpayload⟩
      rw [encode_of_text hf hpayload, decode_digit hg, flags_eq]
    · intro hother
      apply refuses_of_forall_ne
      intro q hq
      obtain ⟨hf, hg, t, -, hp, -⟩ := eq_digit_of_decode hne (decode_encode f p) hq
      exact hother ⟨hf, hg, congrArg Packet.payload hp⟩

/-- A digit alone goes from one text format to the other, but not with a payload behind it. -/
theorem decode_other_format_digit :
    decode .base64 (encode .string ⟨.ping, [], .none⟩) = .ok ⟨.ping, [], .binaryOnly⟩ ∧
      Refuses .base64 (encode .string ⟨.ping, [10], .none⟩) ∧
      Refuses .string [2] :=
  ⟨(decode_other_format.2.2.2 ⟨.ping, [], .none⟩ .string .base64 (by decide)).1 (by decide),
    (decode_other_format.2.2.2 ⟨.ping, [10], .none⟩ .string .base64 (by decide)).2 (by decide),
    (decode_other_format.1 [2] ⟨.ping, [], .binaryOnly⟩ rfl).1⟩

end PacketWire.Format
