import PacketWire.Text.Utf8

/-!
# UTF-8 is what is read as UTF-8

Reading bytes piece by piece is compared with writing characters one after the other, each as
`String.utf8EncodeChar` says: bytes are read as a text exactly when they are what is written for it,

    decode? bytes = some text ↔ bytes = text.toList.flatMap String.utf8EncodeChar

(`decode?_eq_some_iff`). The characters of several bytes are taken in digits of six bits: the first
digit stands in the first byte, above a mark that tells how many follow, and each of the others in a
byte of its own.
-/

namespace PacketWire.Utf8

/-- The byte of a digit that is not the first. -/
def follower (digit : Nat) : UInt8 := UInt8.ofNat (digit + 0x80)

theorem toNat_follower {m : Nat} (h : m < 64) : (follower m).toNat = m + 0x80 := by
  rw [follower, UInt8.toNat_ofNat']
  omega

theorem toNat_charOfNat {n : Nat} (h : n.isValidChar) : (Char.ofNat n).toNat = n := by
  rw [Char.ofNat, dif_pos h]
  rfl

/-! ### Writing, by the number of bytes -/

theorem utf8EncodeChar_one {c : Char} {n : Nat} (hc : c.toNat = n) (hn : n < 128) :
    String.utf8EncodeChar c = [UInt8.ofNat n] := by
  rw [String.utf8EncodeChar, Char.toNat_val, hc, if_pos (by omega)]

/-- The bits of a character in two bytes: five, then six. -/
theorem utf8EncodeChar_two {c : Char} {n m : Nat} (hc : c.toNat = n * 64 + m) (hlow : 2 ≤ n)
    (hn : n < 32) (hm : m < 64) :
    String.utf8EncodeChar c = [UInt8.ofNat (n + 0xC0), follower m] := by
  have hfirst : c.toNat / 64 % 32 = n := by omega
  have hsecond : c.toNat % 64 = m := by omega
  rw [String.utf8EncodeChar, Char.toNat_val, if_neg (by omega), if_pos (by omega), hfirst, hsecond]
  rfl

/-- The bits of a character in three bytes: four, then six twice. -/
theorem utf8EncodeChar_three {c : Char} {n m k : Nat} (hc : c.toNat = (n * 64 + m) * 64 + k)
    (hlow : n = 0 → 32 ≤ m) (hn : n < 16) (hm : m < 64) (hk : k < 64) :
    String.utf8EncodeChar c = [UInt8.ofNat (n + 0xE0), follower m, follower k] := by
  have hfirst : c.toNat / 4096 % 16 = n := by omega
  have hsecond : c.toNat / 64 % 64 = m := by omega
  have hthird : c.toNat % 64 = k := by omega
  rw [String.utf8EncodeChar, Char.toNat_val, if_neg (by omega), if_neg (by omega),
    if_pos (by omega), hfirst, hsecond, hthird]
  rfl

/-- The bits of a character in four bytes: three, then six three times. -/
theorem utf8EncodeChar_four {c : Char} {n m k j : Nat}
    (hc : c.toNat = ((n * 64 + m) * 64 + k) * 64 + j) (hlow : n = 0 → 16 ≤ m) (hn : n < 5)
    (hm : m < 64) (hk : k < 64) (hj : j < 64) :
    String.utf8EncodeChar c = [UInt8.ofNat (n + 0xF0), follower m, follower k, follower j] := by
  have hfirst : c.toNat / 262144 % 8 = n := by omega
  have hsecond : c.toNat / 4096 % 64 = m := by omega
  have hthird : c.toNat / 64 % 64 = k := by omega
  have hfourth : c.toNat % 64 = j := by omega
  rw [String.utf8EncodeChar, Char.toNat_val, if_neg (by omega), if_neg (by omega),
    if_neg (by omega), hfirst, hsecond, hthird, hfourth]
  rfl

/-! ### Reading, by the first byte -/

deriving instance DecidableEq for Lead

theorem lead?_two : ∀ n < 32, 2 ≤ n →
    lead? (UInt8.ofNat (n + 0xC0)) = some ⟨n, 1, 0x80, 0xBF⟩ := by
  decide +kernel

/-- The first byte of three. The next one is bounded so that no shorter form and no surrogate comes
out. -/
theorem lead?_three : ∀ n < 16,
    lead? (UInt8.ofNat (n + 0xE0)) =
      some ⟨n, 2, if n = 0 then 0xA0 else 0x80, if n = 13 then 0x9F else 0xBF⟩ := by
  decide +kernel

/-- The first byte of four. The next one is bounded so that no shorter form and nothing too large
comes out. -/
theorem lead?_four : ∀ n < 5,
    lead? (UInt8.ofNat (n + 0xF0)) =
      some ⟨n, 3, if n = 0 then 0x90 else 0x80, if n = 4 then 0x8F else 0xBF⟩ := by
  decide +kernel

/-- Any other byte is the first of no character of several bytes. -/
theorem lead?_bounds {b : UInt8} {l : Lead} (h : lead? b = some l) :
    0xC2 ≤ b.toNat ∧ b.toNat < 0xF5 := by
  have hall : ∀ n < 256, (lead? (UInt8.ofNat n)).isSome → 0xC2 ≤ n ∧ n < 0xF5 := by
    decide +kernel
  apply hall b.toNat b.toNat_lt
  rw [UInt8.ofNat_toNat, h]
  rfl

theorem continuation_zero_iff {bits : Nat} {low high : UInt8} {bytes rest : Bytes} {c : Char} :
    continuation bits low high 0 bytes = (.character c, rest) ↔
      bytes = rest ∧ c = Char.ofNat bits := by
  rw [continuation, Prod.mk.injEq, Piece.character.injEq, and_comm, eq_comm (a := c)]

/-- With bytes due the next one adds six bits, within its bounds. -/
theorem continuation_succ_iff {bits n : Nat} {low high : UInt8} {bytes rest : Bytes} {c : Char}
    (hlow : 0x80 ≤ low.toNat) (hhigh : high.toNat ≤ 0xBF) :
    continuation bits low high (n + 1) bytes = (.character c, rest) ↔
      ∃ m later, bytes = follower m :: later ∧
        (m < 64 ∧ low.toNat ≤ m + 0x80 ∧ m + 0x80 ≤ high.toNat) ∧
        continuation (bits * 64 + m) 0x80 0xBF n later = (.character c, rest) := by
  cases bytes with
  | nil => simp [continuation]
  | cons b later =>
    rw [continuation]
    simp only [UInt8.le_iff_toNat_le, List.cons.injEq]
    constructor
    · intro h
      split at h
      · next hb =>
        have hfollower : b = follower (b.toNat - 0x80) := by
          apply UInt8.toNat_inj.mp
          rw [toNat_follower] <;> omega
        exact ⟨b.toNat - 0x80, later, ⟨hfollower, rfl⟩, by omega, h⟩
      · cases h
    · rintro ⟨m, _, ⟨rfl, rfl⟩, ⟨hm, hm'⟩, h⟩
      rw [toNat_follower hm, if_pos hm', Nat.add_sub_cancel]
      exact h

theorem piece_of_lead {b : UInt8} {l : Lead} (h : lead? b = some l) (rest : Bytes) :
    piece b rest = continuation l.bits l.low l.high l.following rest := by
  have hb : ¬ b < 0x80 := by
    rw [UInt8.lt_iff_toNat_lt]
    exact Nat.not_lt_of_le (Nat.le_trans (by decide) (lead?_bounds h).1)
  rw [piece, if_neg hb, h]

/-- The bounds of the byte after the first, which are narrowed for one first digit from below and for
one from above. -/
theorem narrowed_iff {n first last m : Nat} {low high : UInt8} :
    (m < 64 ∧ (if n = first then low else 0x80).toNat ≤ m + 0x80 ∧
        m + 0x80 ≤ (if n = last then high else 0xBF).toNat) ↔
      m < 64 ∧ (n = first → low.toNat ≤ m + 0x80) ∧ (n = last → m + 0x80 ≤ high.toNat) := by
  have hlow : (if n = first then low else 0x80).toNat = if n = first then low.toNat else 0x80 := by
    split <;> rfl
  have hhigh : (if n = last then high else 0xBF).toNat = if n = last then high.toNat else 0xBF := by
    split <;> rfl
  rw [hlow, hhigh]
  split <;> split <;> omega

theorem continuation_follower_iff {bits n : Nat} {bytes rest : Bytes} {c : Char} :
    continuation bits 0x80 0xBF (n + 1) bytes = (.character c, rest) ↔
      ∃ m later, bytes = follower m :: later ∧ m < 64 ∧
        continuation (bits * 64 + m) 0x80 0xBF n later = (.character c, rest) := by
  have hbounds : ∀ m, (m < 64 ∧ (0x80 : UInt8).toNat ≤ m + 0x80 ∧
      m + 0x80 ≤ (0xBF : UInt8).toNat) ↔ m < 64 := by
    intro m
    show (m < 64 ∧ 0x80 ≤ m + 0x80 ∧ m + 0x80 ≤ 0xBF) ↔ m < 64
    omega
  rw [continuation_succ_iff (Nat.le_refl _) (Nat.le_refl _)]
  simp only [hbounds]

theorem piece_two_iff {n : Nat} (hlow : 2 ≤ n) (hn : n < 32) {bytes rest : Bytes} {c : Char} :
    piece (UInt8.ofNat (n + 0xC0)) bytes = (.character c, rest) ↔
      ∃ m, bytes = follower m :: rest ∧ m < 64 ∧ c = Char.ofNat (n * 64 + m) := by
  rw [piece_of_lead (lead?_two n hn hlow), continuation_follower_iff]
  simp only [continuation_zero_iff]
  constructor
  · rintro ⟨m, _, rfl, hm, rfl, hc⟩
    exact ⟨m, rfl, hm, hc⟩
  · rintro ⟨m, rfl, hm, hc⟩
    exact ⟨m, _, rfl, hm, rfl, hc⟩

theorem piece_three_iff {n : Nat} (hn : n < 16) {bytes rest : Bytes} {c : Char} :
    piece (UInt8.ofNat (n + 0xE0)) bytes = (.character c, rest) ↔
      ∃ m k, bytes = follower m :: follower k :: rest ∧
        (m < 64 ∧ (n = 0 → 0xA0 ≤ m + 0x80) ∧ (n = 13 → m + 0x80 ≤ 0x9F)) ∧ k < 64 ∧
          c = Char.ofNat ((n * 64 + m) * 64 + k) := by
  have hlow : 0x80 ≤ (if n = 0 then 0xA0 else 0x80 : UInt8).toNat := by split <;> decide
  have hhigh : (if n = 13 then 0x9F else 0xBF : UInt8).toNat ≤ 0xBF := by split <;> decide
  rw [piece_of_lead (lead?_three n hn), continuation_succ_iff hlow hhigh]
  simp only [continuation_follower_iff, continuation_zero_iff, narrowed_iff]
  constructor
  · rintro ⟨m, _, rfl, hm, k, _, rfl, hk, rfl, hc⟩
    exact ⟨m, k, rfl, hm, hk, hc⟩
  · rintro ⟨m, k, rfl, hm, hk, hc⟩
    exact ⟨m, _, rfl, hm, k, _, rfl, hk, rfl, hc⟩

theorem piece_four_iff {n : Nat} (hn : n < 5) {bytes rest : Bytes} {c : Char} :
    piece (UInt8.ofNat (n + 0xF0)) bytes = (.character c, rest) ↔
      ∃ m k j, bytes = follower m :: follower k :: follower j :: rest ∧
        (m < 64 ∧ (n = 0 → 0x90 ≤ m + 0x80) ∧ (n = 4 → m + 0x80 ≤ 0x8F)) ∧ k < 64 ∧ j < 64 ∧
          c = Char.ofNat (((n * 64 + m) * 64 + k) * 64 + j) := by
  have hlow : 0x80 ≤ (if n = 0 then 0x90 else 0x80 : UInt8).toNat := by split <;> decide
  have hhigh : (if n = 4 then 0x8F else 0xBF : UInt8).toNat ≤ 0xBF := by split <;> decide
  rw [piece_of_lead (lead?_four n hn), continuation_succ_iff hlow hhigh]
  simp only [continuation_follower_iff, continuation_zero_iff, narrowed_iff]
  constructor
  · rintro ⟨m, _, rfl, hm, k, _, rfl, hk, j, _, rfl, hj, rfl, hc⟩
    exact ⟨m, k, j, rfl, hm, hk, hj, hc⟩
  · rintro ⟨m, k, j, rfl, hm, hk, hj, hc⟩
    exact ⟨m, _, rfl, hm, k, _, rfl, hk, j, _, rfl, hj, rfl, hc⟩

/-! ### One character -/

/-- A character that is read stood there in the form in which it is written. -/
theorem utf8EncodeChar_of_piece {b : UInt8} {bytes rest : Bytes} {c : Char}
    (h : piece b bytes = (.character c, rest)) :
    b :: bytes = String.utf8EncodeChar c ++ rest := by
  by_cases hone : b < 0x80
  · rw [piece, if_pos hone] at h
    obtain ⟨hc, rfl⟩ := Prod.mk.inj h
    obtain rfl := Piece.character.inj hc
    rw [UInt8.lt_iff_toNat_lt] at hone
    have hone : b.toNat < 128 := hone
    rw [utf8EncodeChar_one (toNat_charOfNat (by omega)) hone, UInt8.ofNat_toNat]
    rfl
  cases hlead : lead? b with
  | none =>
    rw [piece, if_neg hone, hlead] at h
    cases h
  | some l =>
    obtain ⟨hlow, hhigh⟩ := lead?_bounds hlead
    -- The first byte tells how many bytes follow.
    have hform : (∃ n, b = UInt8.ofNat (n + 0xC0) ∧ 2 ≤ n ∧ n < 32) ∨
        (∃ n, b = UInt8.ofNat (n + 0xE0) ∧ n < 16) ∨ ∃ n, b = UInt8.ofNat (n + 0xF0) ∧ n < 5 := by
      have hb : ∀ n, b.toNat = n → b = UInt8.ofNat n := by
        rintro n rfl
        exact UInt8.ofNat_toNat.symm
      by_cases htwo : b.toNat < 0xE0
      · exact .inl ⟨b.toNat - 0xC0, hb _ (by omega), by omega, by omega⟩
      · by_cases hthree : b.toNat < 0xF0
        · exact .inr (.inl ⟨b.toNat - 0xE0, hb _ (by omega), by omega⟩)
        · exact .inr (.inr ⟨b.toNat - 0xF0, hb _ (by omega), by omega⟩)
    rcases hform with ⟨n, rfl, hn, hn'⟩ | ⟨n, rfl, hn⟩ | ⟨n, rfl, hn⟩
    · obtain ⟨m, rfl, hm, rfl⟩ := (piece_two_iff hn hn').mp h
      rw [utf8EncodeChar_two (toNat_charOfNat (by omega)) hn hn' hm]
      rfl
    · obtain ⟨m, k, rfl, ⟨hm, hfirst, hlast⟩, hk, rfl⟩ := (piece_three_iff hn).mp h
      rw [utf8EncodeChar_three (toNat_charOfNat (by omega)) (by omega) hn hm hk]
      rfl
    · obtain ⟨m, k, j, rfl, ⟨hm, hfirst, hlast⟩, hk, hj, rfl⟩ := (piece_four_iff hn).mp h
      rw [utf8EncodeChar_four (toNat_charOfNat (by omega)) (by omega) hn hm hk hj]
      rfl

/-- A character that was written is read again, whatever follows it. -/
theorem exists_piece_utf8EncodeChar (c : Char) (rest : Bytes) :
    ∃ b bytes, String.utf8EncodeChar c ++ rest = b :: bytes ∧
      piece b bytes = (.character c, rest) := by
  have hvalid : c.toNat.isValidChar := c.valid
  have hc : ∀ n, c.toNat = n → c = Char.ofNat n := by
    rintro n rfl
    exact (Char.ofNat_toNat c).symm
  by_cases hone : c.toNat < 128
  · have hbyte : (UInt8.ofNat c.toNat).toNat = c.toNat := by
      rw [UInt8.toNat_ofNat']
      omega
    have hlt : UInt8.ofNat c.toNat < 0x80 := by
      rw [UInt8.lt_iff_toNat_lt, hbyte]
      exact hone
    rw [utf8EncodeChar_one rfl hone]
    refine ⟨_, _, rfl, ?_⟩
    rw [piece, if_pos hlt, hbyte, Char.ofNat_toNat]
    rfl
  by_cases htwo : c.toNat < 0x800
  · have hdigits : c.toNat = c.toNat / 64 * 64 + c.toNat % 64 := by omega
    rw [utf8EncodeChar_two hdigits (by omega) (by omega) (by omega)]
    refine ⟨_, _, rfl, (piece_two_iff (by omega) (by omega)).mpr ?_⟩
    exact ⟨_, rfl, by omega, hc _ hdigits⟩
  by_cases hthree : c.toNat < 0x10000
  · have hdigits : c.toNat =
        (c.toNat / 4096 * 64 + c.toNat / 64 % 64) * 64 + c.toNat % 64 := by omega
    rw [utf8EncodeChar_three hdigits (by omega) (by omega) (by omega) (by omega)]
    refine ⟨_, _, rfl, (piece_three_iff (by omega)).mpr ?_⟩
    exact ⟨_, _, rfl, by omega, by omega, hc _ hdigits⟩
  · have hdigits : c.toNat = ((c.toNat / 262144 * 64 + c.toNat / 4096 % 64) * 64 +
        c.toNat / 64 % 64) * 64 + c.toNat % 64 := by omega
    rw [utf8EncodeChar_four hdigits (by omega) (by omega) (by omega) (by omega) (by omega)]
    refine ⟨_, _, rfl, (piece_four_iff (by omega)).mpr ?_⟩
    exact ⟨_, _, _, rfl, by omega, by omega, by omega, hc _ hdigits⟩

/-- A character is read off the front of bytes exactly when they begin with what is written for
it. -/
theorem piece_eq_character_iff {b : UInt8} {bytes rest : Bytes} {c : Char} :
    piece b bytes = (.character c, rest) ↔ b :: bytes = String.utf8EncodeChar c ++ rest := by
  refine ⟨utf8EncodeChar_of_piece, fun h => ?_⟩
  obtain ⟨b', bytes', hencode, hpiece⟩ := exists_piece_utf8EncodeChar c rest
  obtain ⟨rfl, rfl⟩ := List.cons.inj (h.trans hencode)
  exact hpiece

/-! ### Texts -/

theorem character?_eq_some_iff {p : Piece} {c : Char} :
    p.character? = some c ↔ p = .character c := by
  cases p <;> simp [Piece.character?]

/-- All pieces are characters just if the bytes are those that are written for them. -/
theorem mapM_pieces_eq_some_iff {bytes : Bytes} {chars : List Char} :
    (pieces bytes).mapM Piece.character? = some chars ↔
      bytes = chars.flatMap String.utf8EncodeChar := by
  fun_induction pieces bytes generalizing chars with
  | case1 =>
    cases chars with
    | nil => simp
    | cons c chars =>
      obtain ⟨b, bytes, hencode, -⟩ :=
        exists_piece_utf8EncodeChar c (chars.flatMap String.utf8EncodeChar)
      simp [List.flatMap_cons, hencode]
  | case2 b rest ih =>
    constructor
    · intro h
      rw [List.mapM_cons] at h
      obtain ⟨c, hc, h⟩ := Option.bind_eq_some_iff.mp h
      obtain ⟨later, hlater, h⟩ := Option.bind_eq_some_iff.mp h
      cases h
      have hpiece : piece b rest = (.character c, later.flatMap String.utf8EncodeChar) :=
        Prod.ext (character?_eq_some_iff.mp hc) (ih.mp hlater)
      exact piece_eq_character_iff.mp hpiece
    · intro h
      cases chars with
      | nil => cases h
      | cons c later =>
        have hpiece := piece_eq_character_iff.mpr (h.trans List.flatMap_cons)
        rw [hpiece] at ih ⊢
        rw [List.mapM_cons, ih.mpr rfl]
        rfl

/-- Bytes are read as a text exactly when they are what is written for its characters. -/
theorem decode?_eq_some_iff {bytes : Bytes} {text : String} :
    decode? bytes = some text ↔ bytes = text.toList.flatMap String.utf8EncodeChar := by
  rw [decode?, Option.map_eq_some_iff]
  simp only [mapM_pieces_eq_some_iff]
  constructor
  · rintro ⟨chars, rfl, rfl⟩
    rw [String.toList_ofList]
  · intro h
    exact ⟨text.toList, h, String.ofList_toList⟩

/-- Two texts are not written as the same bytes. -/
theorem flatMap_utf8EncodeChar_injective {s t : String}
    (h : s.toList.flatMap String.utf8EncodeChar = t.toList.flatMap String.utf8EncodeChar) :
    s = t := by
  have hs : decode? (t.toList.flatMap String.utf8EncodeChar) = some s :=
    decode?_eq_some_iff.mpr h.symm
  rw [decode?_eq_some_iff.mpr rfl, Option.some.injEq] at hs
  exact hs.symm

/-- Bytes are well-formed when they are what is written for some characters. -/
def WellFormed (bytes : Bytes) : Prop :=
  ∃ chars : List Char, bytes = chars.flatMap String.utf8EncodeChar

/-- The bytes that are read as a text are the well-formed ones. -/
theorem isSome_decode?_iff {bytes : Bytes} : (decode? bytes).isSome ↔ WellFormed bytes := by
  rw [decode?, Option.isSome_map, Option.isSome_iff_exists]
  simp only [mapM_pieces_eq_some_iff, WellFormed]

/-- A byte that is a character by itself has no part in the bytes behind it. -/
theorem wellFormed_cons_iff {b : UInt8} (hb : b < 0x80) {rest : Bytes} :
    WellFormed (b :: rest) ↔ WellFormed rest := by
  rw [← isSome_decode?_iff, ← isSome_decode?_iff, decode?, decode?, Option.isSome_map,
    Option.isSome_map, pieces, piece, if_pos hb, List.mapM_cons]
  cases (pieces rest).mapM Piece.character? <;> rfl

end PacketWire.Utf8
