import Mathlib.Algebra.Group.Nat.Defs
import PacketWire.Proofs.Base64.Text

/-!
# Writing what was read

Reading is many-to-one only in the bits of the last symbol for which its group has no byte. Writing
the bytes of a text sets these to zero and changes nothing else (`encode_joined`), and since a text
is spelled in one way only (`spell_injective`), that describes the result completely.
-/

namespace PacketWire.Base64

/-- A sextet with that many of its low bits set to zero. -/
def clearLow (count : Nat) (v : Sextet) : Sextet :=
  ⟨v.val / 2 ^ count * 2 ^ count, Nat.lt_of_le_of_lt (Nat.div_mul_le_self _ _) v.isLt⟩

/-- The low bits of the last symbol that belong to no byte: two for each padding. -/
def unusedBits (pads : Nat) : Nat := 2 * pads

/-! ### One spelling for each text -/

/-- A text spells one list of symbols with one number of paddings only. -/
theorem spell_injective {symbols symbols' : List Sextet} {pads pads' : Nat}
    (h : spell symbols pads = spell symbols' pads') : symbols = symbols' ∧ pads = pads' := by
  induction symbols generalizing symbols' with
  | nil =>
    cases pads with
    | zero =>
      obtain ⟨rfl, rfl⟩ := spell_eq_nil_iff.mp h.symm
      exact ⟨rfl, rfl⟩
    | succ n =>
      have h : pad :: List.replicate n pad = spell symbols' pads' := h
      obtain ⟨rfl, rfl, -⟩ := pad_cons_eq_spell_iff.mp h
      rw [List.length_replicate]
      exact ⟨rfl, rfl⟩
  | cons v later ih =>
    rw [spell_cons, cons_eq_spell_iff (symbol_ne_pad v)] at h
    obtain ⟨w, later', rfl, hvw, hlater⟩ := h
    obtain ⟨rfl, rfl⟩ := ih hlater
    rw [symbol_injective hvw]
    exact ⟨rfl, rfl⟩

/-! ### Groups -/

theorem sextet_eq {n : Nat} {v : Sextet} (h : n % 64 = v.val) : sextet n = v := Fin.ext h

theorem toNat_byte (n : Nat) : (byte n).toNat = n % 256 := UInt8.toNat_ofNat'

/-- Four symbols are written as they were. -/
theorem sextets₃_bytesOf (v w x y : Sextet) :
    ∃ a b c, bytesOf [v, w, x, y] = [a, b, c] ∧ sextets₃ a b c = [v, w, x, y] := by
  refine ⟨_, _, _, rfl, ?_⟩
  simp only [sextets₃, toNat_byte, List.cons.injEq, and_true]
  refine ⟨sextet_eq ?_, sextet_eq ?_, sextet_eq ?_, sextet_eq ?_⟩ <;> omega

/-- Of three symbols the last loses two bits. -/
theorem sextets₂_bytesOf (v w x : Sextet) :
    ∃ a b, bytesOf [v, w, x] = [a, b] ∧ sextets₂ a b = [v, w, clearLow 2 x] := by
  refine ⟨_, _, rfl, ?_⟩
  simp only [sextets₂, toNat_byte, List.cons.injEq, and_true]
  refine ⟨sextet_eq (by omega), sextet_eq (by omega), sextet_eq ?_⟩
  simp only [clearLow]
  omega

/-- Of two symbols the last loses four bits. -/
theorem sextets₁_bytesOf (v w : Sextet) :
    ∃ a, bytesOf [v, w] = [a] ∧ sextets₁ a = [v, clearLow 4 w] := by
  refine ⟨_, rfl, ?_⟩
  simp only [sextets₁, toNat_byte, List.cons.injEq, and_true]
  refine ⟨sextet_eq (by omega), sextet_eq ?_⟩
  simp only [clearLow]
  omega

theorem clearLow_zero (v : Sextet) : clearLow 0 v = v := by
  apply Fin.ext
  simp [clearLow]

/-! ### Any number of groups -/

/-- Writing the bytes of a text clears the unused bits of its last symbol and changes nothing
else. -/
theorem encode_joined (init : List Sextet) (v : Sextet) (pads : Nat)
    (h : Fits (init ++ [v]) pads) :
    encode (joined (init ++ [v])) = spell (init ++ [clearLow (unusedBits pads) v]) pads := by
  have hfew := h.few
  have hwhole := h.whole
  rw [List.length_append, List.length_singleton] at hwhole
  -- In the last group the number of symbols settles the number of paddings.
  match init with
  | [] =>
    rw [List.length_nil] at hwhole
    omega
  | [a] =>
    obtain rfl : pads = 2 := by
      rw [List.length_singleton] at hwhole
      omega
    obtain ⟨x, hbytes, hsextets⟩ := sextets₁_bytesOf a v
    show encode (bytesOf [a, v]) = _
    rw [hbytes, encode, hsextets]
    rfl
  | [a, b] =>
    obtain rfl : pads = 1 := by
      simp only [List.length_cons, List.length_nil] at hwhole
      omega
    obtain ⟨x, y, hbytes, hsextets⟩ := sextets₂_bytesOf a b v
    show encode (bytesOf [a, b, v]) = _
    rw [hbytes, encode, hsextets]
    rfl
  | [a, b, c] =>
    obtain rfl : pads = 0 := by
      simp only [List.length_cons, List.length_nil] at hwhole
      omega
    obtain ⟨x, y, z, hbytes, hsextets⟩ := sextets₃_bytesOf a b c v
    show encode (bytesOf [a, b, c, v] ++ []) = _
    rw [hbytes, List.append_nil, encode, hsextets, unusedBits, clearLow_zero]
    rfl
  | a :: b :: c :: d :: rest =>
    obtain ⟨x, y, z, hbytes, hsextets⟩ := sextets₃_bytesOf a b c d
    have ih := encode_joined rest v pads h.of_cons₄
    show encode (bytesOf [a, b, c, d] ++ joined (rest ++ [v])) = _
    rw [hbytes]
    show (sextets₃ x y z).map symbol ++ encode (joined (rest ++ [v])) = _
    rw [hsextets, ih]
    rfl

end PacketWire.Base64
