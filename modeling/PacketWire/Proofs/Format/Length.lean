import Mathlib.Algebra.Group.Nat.Defs
import PacketWire.Format.Length
import PacketWire.Proofs.Format.RoundTrip

/-!
# How long wire forms are, and what a limit leaves for the payload

The number of bytes in a wire form depends only on the format and on the number of bytes in the
payload (`length_encode`). Computed in words it is the same number, as long as the payload has fewer
than `2 ^ 63` bytes, and no memory holds more (`toNat_encodedLength`). Read backwards, a limit on
wire forms is a limit on payloads, the `capacity` (`length_encode_le_iff`).
-/

namespace PacketWire

/-! ### Words -/

/-- Four symbols for each group of three bytes, the last one being filled up, provided that a word
can count them. -/
theorem Base64.paddedLength?_eq_some_iff {n length : UInt64} :
    paddedLength? n = some length ↔ length.toNat = (n.toNat + 2) / 3 * 4 := by
  have hzero : n % 3 = 0 ↔ n.toNat % 3 = 0 := by
    rw [← UInt64.toNat_inj, UInt64.toNat_mod]
    rfl
  have hwhole (whole : UInt64) :
      Word.mul? (n / 3) 4 = some whole ↔ whole.toNat = n.toNat / 3 * 4 := by
    rw [Word.mul?_eq_some_iff, UInt64.toNat_div]
    rfl
  simp only [paddedLength?, Option.bind_eq_bind, Option.bind_eq_some_iff, hwhole]
  by_cases h : n % 3 = 0
  · simp only [if_pos h, Option.some.injEq, exists_eq_right]
    rw [hzero] at h
    omega
  · simp only [if_neg h, Word.add?_eq_some_iff]
    rw [hzero] at h
    constructor
    · rintro ⟨whole, hwhole, hlength⟩
      rw [hlength, hwhole]
      show _ + 4 = _
      omega
    · intro hlength
      have hword : n.toNat / 3 * 4 < 2 ^ 64 := by
        have := length.toNat_lt
        omega
      refine ⟨UInt64.ofNat (n.toNat / 3 * 4), UInt64.toNat_ofNat_of_lt' hword, ?_⟩
      rw [UInt64.toNat_ofNat_of_lt' hword, hlength]
      show _ = _ + 4
      omega

/-- No payload that a memory holds has a text that a word cannot count. -/
theorem Base64.exists_paddedLength? {n : UInt64} (h : n.toNat < 2 ^ 63) :
    ∃ length, paddedLength? n = some length ∧ length.toNat = (n.toNat + 2) / 3 * 4 := by
  have hlength : (n.toNat + 2) / 3 * 4 < 2 ^ 64 := by omega
  refine ⟨UInt64.ofNat ((n.toNat + 2) / 3 * 4), ?_, UInt64.toNat_ofNat_of_lt' hlength⟩
  apply paddedLength?_eq_some_iff.mpr
  exact UInt64.toNat_ofNat_of_lt' hlength

/-- The marker and the digit can always be counted too: the length of a text is a multiple of four,
which keeps it four below the range of a word, and what stands in for a length that no word can
count leaves room for two. -/
theorem Base64.toNat_two_add_paddedLength (n : UInt64) :
    (2 + (paddedLength? n).getD (Word.largest - 2)).toNat =
      2 + ((paddedLength? n).getD (Word.largest - 2)).toNat := by
  rw [UInt64.toNat_add]
  apply Nat.mod_eq_of_lt
  cases h : paddedLength? n with
  | none => decide
  | some length =>
    have hfour : length.toNat = (n.toNat + 2) / 3 * 4 := paddedLength?_eq_some_iff.mp h
    have hword := length.toNat_lt
    show 2 + length.toNat < 2 ^ 64
    omega

namespace Format

/-! ### Numbers -/

/-- The number of bytes in the wire form of a packet whose payload has `n` bytes. -/
def wireLength : Format → Nat → Nat
  | .binary, n | .string, n => 1 + n
  | .base64, n => if n = 0 then 1 else 2 + (n + 2) / 3 * 4

/-- There is always a byte beside the payload. -/
theorem lt_wireLength (f : Format) (n : Nat) : n < f.wireLength n := by
  cases f with
  | binary | string => exact Nat.lt_add_of_pos_left Nat.one_pos
  | base64 =>
    rw [wireLength]
    split <;> omega

/-- The length of a message depends on the length of the payload alone. -/
theorem length_encode (f : Format) (p : Packet) :
    (f.encode p).length = f.wireLength p.payload.length := by
  cases f with
  | binary => rw [encode_binary, List.length_cons, Nat.add_comm, wireLength]
  | string => rw [encode_string, List.length_cons, Nat.add_comm, wireLength]
  | base64 =>
    by_cases h : p.payload = []
    · rw [encode_base64_of_empty h, h]
      rfl
    · have hlength : p.payload.length ≠ 0 := mt List.length_eq_zero_iff.mp h
      rw [encode_base64_of_payload h, wireLength, if_neg hlength, List.length_cons,
        List.length_cons, Base64.length_encode]
      omega

/-- No step of the computation leaves the range of a word. -/
theorem toNat_encodedLength (f : Format) {n : UInt64} (h : n.toNat < 2 ^ 63) :
    (f.encodedLength n).toNat = f.wireLength n.toNat := by
  cases f with
  | binary | string =>
    rw [encodedLength, UInt64.toNat_add, wireLength]
    exact Nat.mod_eq_of_lt (by show 1 + n.toNat < 2 ^ 64; omega)
  | base64 =>
    rw [encodedLength, wireLength]
    by_cases hn : n = 0
    · rw [if_pos hn, hn]
      rfl
    · have hnat : n.toNat ≠ 0 := by
        intro hzero
        exact hn (UInt64.toNat_inj.mp hzero)
      obtain ⟨length, hpadded, hlength⟩ := Base64.exists_paddedLength? h
      rw [if_neg hn, if_neg hnat, Base64.toNat_two_add_paddedLength, hpadded, Option.getD_some,
        hlength]

/-- The length that is computed in words is that of the wire form. -/
theorem toNat_encodedLength_payload (f : Format) {p : Packet} (h : p.payload.length < 2 ^ 63) :
    (f.encodedLength (UInt64.ofNat p.payload.length)).toNat = (f.encode p).length := by
  have hword : (UInt64.ofNat p.payload.length).toNat = p.payload.length :=
    UInt64.toNat_ofNat_of_lt' (Nat.lt_trans h (by decide))
  rw [toNat_encodedLength f (by rw [hword]; exact h), hword, length_encode]

/-! ### Limits -/

/-- The greatest number of payload bytes for which the wire form keeps within a limit that is not
zero. -/
def capacity : Format → Nat → Nat
  | .binary, limit | .string, limit => limit - 1
  | .base64, limit => 3 * ((limit - 2) / 4)

/-- What keeps within a limit is known from the capacity that the limit leaves. -/
theorem wireLength_le_iff {f : Format} {n limit : Nat} :
    f.wireLength n ≤ limit ↔ 1 ≤ limit ∧ n ≤ f.capacity limit := by
  cases f with
  | binary | string =>
    simp only [wireLength, capacity]
    omega
  | base64 =>
    simp only [wireLength, capacity]
    split <;> omega

/-- A wire form keeps within a limit exactly when its payload keeps within the capacity. -/
theorem length_encode_le_iff {f : Format} {p : Packet} {limit : Nat} :
    (f.encode p).length ≤ limit ↔ 1 ≤ limit ∧ p.payload.length ≤ f.capacity limit := by
  rw [length_encode, wireLength_le_iff]

end Format

end PacketWire
