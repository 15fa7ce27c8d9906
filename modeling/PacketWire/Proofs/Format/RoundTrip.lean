import PacketWire.Format.Writing
import PacketWire.Proofs.Base64.Text
import PacketWire.Proofs.Format.LineBreaks

/-!
# Packets survive the wire

Each format writes a packet in one shape (`encode_binary`, `encode_string`, `encode_base64`), a sink
that takes everything holds exactly the encoded bytes afterwards (`writeAll_of_no_script`), and
reading them gives the packet back, up to the flags: those say which format it came through.
-/

namespace PacketWire

/-! ### Sinks that take everything -/

/-- A sink without a script takes every segment as a whole. -/
theorem Segment.write_of_no_script (s : Segment) :
    ∃ calls, s.write [] = ⟨calls, .ok (), []⟩ ∧ calls.flatMap Sink.Call.accepted = s.bytes := by
  cases s with
  | whole bytes =>
    rw [write, Sink.offerAll]
    split
    -- No bytes are not offered at all.
    · next h => exact ⟨[], rfl, by simpa [Segment.bytes] using h.symm⟩
    · exact ⟨_, rfl, by simp [Sink.Call.accepted, Segment.bytes]⟩
  | empty => exact ⟨_, rfl, by simp [Sink.Call.accepted, Segment.bytes]⟩

theorem Segment.writeAll_of_no_script (segments : List Segment) :
    ∃ calls, writeAll segments [] = ⟨calls, .ok (), []⟩ ∧
      calls.flatMap Sink.Call.accepted = segments.flatMap Segment.bytes := by
  induction segments with
  | nil => exact ⟨[], rfl, rfl⟩
  | cons s rest ih =>
    obtain ⟨first, hs, hfirst⟩ := s.write_of_no_script
    obtain ⟨later, hrest, hlater⟩ := ih
    refine ⟨first ++ later, ?_, ?_⟩
    · rw [writeAll, hs, Sink.Run.andThen, hrest]
    · rw [List.flatMap_append, List.flatMap_cons, hfirst, hlater]

namespace Format

/-! ### Wire forms -/

theorem payload_eq_nil_iff {p : Packet} : p.isEmpty = true ↔ p.payload = [] := by
  rw [Packet.isEmpty, List.isEmpty_iff]

/-- With a payload or without one, a binary message is the type byte and the payload. -/
theorem encode_binary (p : Packet) : encode .binary p = p.type.byte :: p.payload := by
  by_cases h : p.isEmpty
  · rw [encode, segments, if_pos h, payload_eq_nil_iff.mp h]
    rfl
  · rw [encode, segments, if_neg h]
    simp [Segment.bytes]

theorem encode_string (p : Packet) : encode .string p = p.type.digit :: p.payload := by
  by_cases h : p.isEmpty
  · rw [encode, segments, if_pos h, payload_eq_nil_iff.mp h]
    rfl
  · rw [encode, segments, if_neg h]
    simp [Segment.bytes]

theorem encode_base64_of_empty {p : Packet} (h : p.payload = []) :
    encode .base64 p = [p.type.digit] := by
  rw [encode, segments, if_pos (payload_eq_nil_iff.mpr h)]
  rfl

theorem encode_base64_of_payload {p : Packet} (h : p.payload ≠ []) :
    encode .base64 p = marker :: p.type.digit :: Base64.encode p.payload := by
  rw [encode, segments, if_neg (fun he => h (payload_eq_nil_iff.mp he))]
  simp [Segment.bytes]

/-! ### Line breaks, which base64 texts have not -/

theorem isLineBreak_symbol : ∀ v : Base64.Sextet, isLineBreak (Base64.symbol v) = false := by
  decide +kernel

theorem withoutLineBreaks_spell (symbols : List Base64.Sextet) (pads : Nat) :
    withoutLineBreaks (Base64.spell symbols pads) = Base64.spell symbols pads := by
  rw [withoutLineBreaks, List.filter_eq_self]
  intro b hb
  rcases List.mem_append.mp hb with hb | hb
  · obtain ⟨v, -, rfl⟩ := List.mem_map.mp hb
    rw [isLineBreak_symbol]
    rfl
  · rw [List.eq_of_mem_replicate hb]
    rfl

theorem withoutLineBreaks_encode (payload : Bytes) :
    withoutLineBreaks (Base64.encode payload) = Base64.encode payload := by
  rw [Base64.encode_eq_spell, withoutLineBreaks_spell]

theorem decodeBody_encode (payload : Bytes) : decodeBody (Base64.encode payload) = .ok payload := by
  rw [decodeBody_eq, withoutLineBreaks_encode, Base64.decode_encode]
  rfl

/-! ### Reading what was written -/

/-- Only the string format leaves what it decodes unmarked. -/
theorem flags_eq (f : Format) :
    f.flags = if f = .string then Flags.none else Flags.binaryOnly := by
  cases f <;> rfl

/-- Reading an encoded packet gives it back, with the flags of the format. -/
theorem decode_encode (f : Format) (p : Packet) :
    f.decode (f.encode p) = .ok { p with flags := f.flags } := by
  cases f with
  | binary =>
    rw [encode_binary, decode, PacketType.readByte_byte]
    rfl
  | string =>
    rw [encode_string, decode, PacketType.readDigit_digit]
    rfl
  | base64 =>
    by_cases h : p.payload = []
    · rw [encode_base64_of_empty h, decode, PacketType.readDigit_digit, h]
      rfl
    · rw [encode_base64_of_payload h, decode, if_pos rfl, PacketType.readDigit_digit, ok_bind,
        decodeBody_encode]
      rfl

/-- A message is never empty, not even without a payload. -/
theorem encode_ne_nil (f : Format) (p : Packet) : f.encode p ≠ [] := by
  intro h
  have := decode_encode f p
  rw [h] at this
  cases f <;> cases this

/-- The binary and string formats put one byte in front of the payload. -/
theorem exists_typeByte {f : Format} (hf : f = .binary ∨ f = .string) :
    ∃ typeByte : PacketType → UInt8,
      (∀ p, f.encode p = typeByte p.type :: p.payload) ∧
      ∀ t payload, f.decode (typeByte t :: payload) = .ok ⟨t, payload, f.flags⟩ := by
  rcases hf with rfl | rfl
  · refine ⟨PacketType.byte, encode_binary, ?_⟩
    intro t payload
    rw [decode, PacketType.readByte_byte]
    rfl
  · refine ⟨PacketType.digit, encode_string, ?_⟩
    intro t payload
    rw [decode, PacketType.readDigit_digit]
    rfl

/-- A sink that takes everything holds the wire form. -/
theorem write_of_no_script (f : Format) (p : Packet) :
    (f.write p []).result = .ok () ∧ (f.write p []).accepted = f.encode p := by
  obtain ⟨calls, hwrite, hcalls⟩ := Segment.writeAll_of_no_script (f.segments p)
  rw [write, hwrite]
  exact ⟨rfl, hcalls⟩

/-- Encoding succeeds for every format and packet, and decoding what it wrote yields the type and
the payload of the packet, marked as binary unless the format is the string one. So the packet comes
back unchanged exactly when its flags were those of the format to begin with. -/
theorem round_trip (f : Format) (p : Packet) :
    (f.write p []).result = .ok () ∧ (f.write p []).accepted = f.encode p ∧
      f.decode (f.encode p) =
        .ok ⟨p.type, p.payload, if f = .string then Flags.none else Flags.binaryOnly⟩ ∧
      (f.decode (f.encode p) = .ok p ↔
        p.flags = if f = .string then Flags.none else Flags.binaryOnly) := by
  obtain ⟨calls, hwrite, hcalls⟩ := Segment.writeAll_of_no_script (f.segments p)
  rw [write, hwrite, decode_encode, ← flags_eq]
  refine ⟨rfl, hcalls, rfl, ?_⟩
  rw [Except.ok.injEq]
  constructor
  · intro h
    rw [← h]
  · intro h
    rw [← h]

end Format

end PacketWire
