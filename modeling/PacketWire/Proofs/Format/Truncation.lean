import PacketWire.Proofs.Base64.Joining
import PacketWire.Proofs.Format.Acceptance
import PacketWire.Proofs.Format.RoundTrip

/-!
# Wire forms that are cut off

A sink that fails may be left with the front of a wire form. Reading that never yields a packet of
another type, nor a payload that does not begin like the one that was sent: the binary and string
formats yield the part of the payload that is there, and base64 the whole groups, unless the text is
cut within a group (`decode_cut_off`).
-/

namespace PacketWire.Format

theorem decode_nil (f : Format) : f.decode [] = .error .empty := by
  cases f <;> rfl

theorem length_lt_of_cut_off {f : Format} {p : Packet} {t : Bytes} (h : t <+: f.encode p)
    (hproper : t ≠ f.encode p) : t.length < (f.encode p).length := by
  apply Nat.lt_of_le_of_ne h.length_le
  intro hlength
  exact hproper (h.eq_of_length hlength)

/-! ### Payloads that are carried as they are -/

/-- A binary or string message that is cut off is a message with a part of the payload. -/
theorem decode_cut_off_plain {f : Format} (hf : f = .binary ∨ f = .string) {p : Packet} {t : Bytes}
    (h : t <+: f.encode p) (hproper : t ≠ f.encode p) {k : Nat} (hk : t.length = k + 1) :
    k < p.payload.length ∧ f.decode t = .ok ⟨p.type, p.payload.take k, f.flags⟩ := by
  have hlength := length_lt_of_cut_off h hproper
  obtain ⟨typeByte, hencode, hdecode⟩ := exists_typeByte hf
  rw [hencode, List.length_cons, hk] at hlength
  rw [List.prefix_iff_eq_take, hk, hencode, List.take_succ_cons] at h
  rw [h, hdecode]
  exact ⟨Nat.lt_of_succ_lt_succ hlength, rfl⟩

/-! ### Base64 texts -/

/-- After marker and digit, what is left of the text is base64 exactly when it was cut between
groups. -/
theorem decode_cut_off_base64 {p : Packet} (hp : p.payload ≠ []) {t : Bytes}
    (h : t <+: encode .base64 p) (hproper : t ≠ encode .base64 p) {k : Nat}
    (hk : t.length = 2 + k) :
    (k % 4 = 0 → 3 * (k / 4) < p.payload.length ∧
      decode .base64 t = .ok ⟨p.type, p.payload.take (3 * (k / 4)), .binaryOnly⟩) ∧
    (k % 4 ≠ 0 → ∃ cause, decode .base64 t = .error (.badPayload cause)) := by
  have hlength := length_lt_of_cut_off h hproper
  rw [encode_base64_of_payload hp, List.length_cons, List.length_cons, hk] at hlength
  have ht : t = marker :: p.type.digit :: (Base64.encode p.payload).take k := by
    rw [List.prefix_iff_eq_take, hk, Nat.add_comm, encode_base64_of_payload hp] at h
    exact h
  rw [ht, decode_marked]
  constructor
  · intro hgroups
    have hcut : k = 4 * (k / 4) := by omega
    constructor
    · rw [Base64.length_encode] at hlength
      omega
    · rw [hcut, ← Base64.encode_take, decodeBody_encode, Nat.mul_div_cancel_left _ (by decide)]
      rfl
  · intro hgroups
    have hbody : ¬ ∃ symbols pads, Body ((Base64.encode p.payload).take k) symbols pads := by
      rintro ⟨symbols, pads, hbody⟩
      have hwhole := hbody.whole
      have htake := withoutLineBreaks_of_sublist (List.take_sublist k _)
        (withoutLineBreaks_encode p.payload)
      rw [htake, List.length_take, Nat.min_eq_left (by omega)] at hwhole
      exact hgroups hwhole
    obtain ⟨cause, hcause⟩ := decodeBody_of_not_body hbody
    rw [hcause]
    exact ⟨cause, rfl⟩

/-! ### Any wire form -/

/-- Of a message of one byte nothing is left when it is cut off. -/
theorem eq_nil_of_cut_off {p : Packet} (hp : p.payload = []) {t : Bytes}
    (h : t <+: encode .base64 p) (hproper : t ≠ encode .base64 p) : t = [] := by
  have hlength := length_lt_of_cut_off h hproper
  rw [encode_base64_of_empty hp, List.length_singleton] at hlength
  exact List.length_eq_zero_iff.mp (by omega)

/-- A marker alone is taken for a type. -/
theorem decode_cut_off_marker {p : Packet} (hp : p.payload ≠ []) {t : Bytes}
    (h : t <+: encode .base64 p) (hk : t.length = 1) :
    decode .base64 t = .error (.unknownType marker) := by
  rw [List.prefix_iff_eq_take, hk, encode_base64_of_payload hp] at h
  rw [h]
  rfl

/-- A packet that is read has the type of the packet that was sent, and a payload with which that
one begins. -/
theorem prefix_of_decode_cut_off {f : Format} {p q : Packet} {t : Bytes} (h : t <+: f.encode p)
    (hproper : t ≠ f.encode p) (hq : f.decode t = .ok q) :
    q.type = p.type ∧ q.payload <+: p.payload := by
  by_cases hempty : t = []
  · rw [hempty, decode_nil] at hq
    cases hq
  obtain ⟨k, hk⟩ : ∃ k, t.length = k + 1 :=
    Nat.exists_eq_succ_of_ne_zero (mt List.length_eq_zero_iff.mp hempty)
  cases f with
  | binary =>
    rw [(decode_cut_off_plain (.inl rfl) h hproper hk).2] at hq
    cases hq
    exact ⟨rfl, List.take_prefix _ _⟩
  | string =>
    rw [(decode_cut_off_plain (.inr rfl) h hproper hk).2] at hq
    cases hq
    exact ⟨rfl, List.take_prefix _ _⟩
  | base64 =>
    have hp : p.payload ≠ [] := fun hp => hempty (eq_nil_of_cut_off hp h hproper)
    cases k with
    | zero =>
      rw [decode_cut_off_marker hp h hk] at hq
      cases hq
    | succ k =>
      obtain ⟨hwhole, hcut⟩ := decode_cut_off_base64 hp h hproper (k := k) (by omega)
      by_cases hgroups : k % 4 = 0
      · rw [(hwhole hgroups).2] at hq
        cases hq
        exact ⟨rfl, List.take_prefix _ _⟩
      · obtain ⟨cause, hcause⟩ := hcut hgroups
        rw [hcause] at hq
        cases hq

/-- Reading a wire form that is cut off. Nothing at all is reported as such. Of a binary or string
message the first byte and a part of the payload are there. Of a base64 message with a payload the
marker is taken for a type if it is alone, and otherwise the text is read up to where it is cut if
that is after a whole group. So whatever packet is read has the type of the packet that was sent,
and a payload with which that one begins. -/
theorem decode_cut_off (f : Format) (p : Packet) (t : Bytes) (h : t <+: f.encode p)
    (hproper : t ≠ f.encode p) :
    (t = [] → f.decode t = .error .empty) ∧
      (f = .binary ∨ f = .string → ∀ k, t.length = k + 1 →
        k < p.payload.length ∧ f.decode t = .ok ⟨p.type, p.payload.take k,
          if f = .string then Flags.none else Flags.binaryOnly⟩) ∧
      (f = .base64 → p.payload = [] → t = []) ∧
      (f = .base64 → p.payload ≠ [] → t.length = 1 → f.decode t = .error (.unknownType marker)) ∧
      (f = .base64 → p.payload ≠ [] → ∀ k, t.length = 2 + k →
        (k % 4 = 0 → 3 * (k / 4) < p.payload.length ∧
          f.decode t = .ok ⟨p.type, p.payload.take (3 * (k / 4)), .binaryOnly⟩) ∧
        (k % 4 ≠ 0 → ∃ cause, f.decode t = .error (.badPayload cause))) ∧
      ∀ q, f.decode t = .ok q → q.type = p.type ∧ q.payload <+: p.payload := by
  refine ⟨?_, ?_, ?_, ?_, ?_, ?_⟩
  · rintro rfl
    exact decode_nil f
  · intro hf k hk
    rw [← flags_eq]
    exact decode_cut_off_plain hf h hproper hk
  · rintro rfl hp
    exact eq_nil_of_cut_off hp h hproper
  · rintro rfl hp hk
    exact decode_cut_off_marker hp h hk
  · rintro rfl hp k hk
    exact decode_cut_off_base64 hp h hproper hk
  · intro q hq
    exact prefix_of_decode_cut_off h hproper hq

/-- A text that is cut off one symbol after its first group is no text. -/
theorem decode_cut_off_in_group :
    [marker, 52, 89, 87, 74, 106, 89] <+: encode .base64 ⟨.message, [97, 98, 99, 97], .none⟩ ∧
      [marker, 52, 89, 87, 74, 106, 89] ≠ encode .base64 ⟨.message, [97, 98, 99, 97], .none⟩ ∧
      ∃ cause, decode .base64 [marker, 52, 89, 87, 74, 106, 89] = .error (.badPayload cause) := by
  have hcut : [marker, 52, 89, 87, 74, 106, 89] <+:
      encode .base64 ⟨.message, [97, 98, 99, 97], .none⟩ := by
    decide +kernel
  have hproper : [marker, 52, 89, 87, 74, 106, 89] ≠
      encode .base64 ⟨.message, [97, 98, 99, 97], .none⟩ := by
    decide +kernel
  have hread := decode_cut_off .base64 ⟨.message, [97, 98, 99, 97], .none⟩ _ hcut hproper
  exact ⟨hcut, hproper, (hread.2.2.2.2.1 rfl (by decide) 5 rfl).2 (by decide)⟩

end PacketWire.Format
