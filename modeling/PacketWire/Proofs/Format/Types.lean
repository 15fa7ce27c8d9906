import PacketWire.Format.Decoding
import PacketWire.Proofs.Except

/-!
# Reading packet types

The bytes that stand for a packet type are seven in a row, from `0` on a binary channel and from
`'0'` on a text channel (`exists_byte_iff`, `exists_digit_iff`). Every other byte is reported as it
stands.
-/

namespace PacketWire.PacketType

@[simp] theorem readByte_byte (t : PacketType) : readByte t.byte = .ok t := by
  rw [readByte, ofByte?_byte]

@[simp] theorem readDigit_digit (t : PacketType) : readDigit t.digit = .ok t := by
  rw [readDigit, ofDigit?_digit]

theorem readByte_eq_ok_iff {b : UInt8} {t : PacketType} : readByte b = .ok t ↔ b = t.byte := by
  rw [← ofByte?_eq_some_iff, readByte]
  split <;> simp_all

theorem readDigit_eq_ok_iff {b : UInt8} {t : PacketType} : readDigit b = .ok t ↔ b = t.digit := by
  rw [← ofDigit?_eq_some_iff, readDigit]
  split <;> simp_all

/-- The raw bytes that stand for a type are those up to six. -/
theorem exists_byte_iff {b : UInt8} : (∃ t : PacketType, b = t.byte) ↔ b ≤ 6 := by
  constructor
  · rintro ⟨t, rfl⟩
    cases t <;> decide
  · intro h
    have found : ∀ n ≤ 6, (ofByte? (UInt8.ofNat n)).isSome := by decide
    obtain ⟨t, ht⟩ := Option.isSome_iff_exists.mp (found b.toNat h)
    rw [UInt8.ofNat_toNat] at ht
    exact ⟨t, ofByte?_eq_some_iff.mp ht⟩

/-- The digits that stand for a type are those from `'0'` to `'6'`. -/
theorem exists_digit_iff {b : UInt8} : (∃ t : PacketType, b = t.digit) ↔ 48 ≤ b ∧ b ≤ 54 := by
  constructor
  · rintro ⟨t, rfl⟩
    cases t <;> decide
  · rintro ⟨hlow, hhigh⟩
    have found : ∀ n ≤ 54, 48 ≤ n → (ofDigit? (UInt8.ofNat n)).isSome := by decide
    obtain ⟨t, ht⟩ := Option.isSome_iff_exists.mp (found b.toNat hhigh hlow)
    rw [UInt8.ofNat_toNat] at ht
    exact ⟨t, ofDigit?_eq_some_iff.mp ht⟩

/-! ### Bytes, digits and the marker -/

theorem digit_injective {t u : PacketType} (h : t.digit = u.digit) : t = u := by
  have := ofDigit?_digit t
  rw [h, ofDigit?_digit] at this
  exact (Option.some.inj this).symm

/-- The raw bytes end long before the digits begin. -/
theorem byte_ne_digit (t u : PacketType) : t.byte ≠ u.digit := by
  have hbyte : t.byte ≤ 6 := exists_byte_iff.mp ⟨t, rfl⟩
  have hdigit : 48 ≤ u.digit := (exists_digit_iff.mp ⟨u, rfl⟩).1
  intro h
  rw [h] at hbyte
  exact absurd (UInt8.le_trans hdigit hbyte) (by decide)

theorem byte_ne_marker (t : PacketType) : t.byte ≠ Format.marker := by
  cases t <;> decide

/-- The marker is not taken for a type. -/
theorem digit_ne_marker (t : PacketType) : t.digit ≠ Format.marker := by
  cases t <;> decide

/-! ### Other bytes -/

/-- A byte that is no digit of a type is reported. -/
theorem readDigit_of_not_digit {b : UInt8} (h : ¬ (48 ≤ b ∧ b ≤ 54)) :
    readDigit b = .error (.unknownType b) := by
  rw [readDigit]
  split
  · next t ht => exact absurd (exists_digit_iff.mp ⟨t, ofDigit?_eq_some_iff.mp ht⟩) h
  · rfl

end PacketWire.PacketType
