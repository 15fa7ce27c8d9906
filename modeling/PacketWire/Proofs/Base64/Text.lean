import PacketWire.Base64.Decoding
import PacketWire.Base64.Encoding
import PacketWire.Proofs.Except

/-!
# Base64 texts

Which texts are base64, and which bytes they stand for, said without the reader:

    decode text = .ok bytes ↔ ∃ symbols pads, Fits symbols pads ∧ text = spell symbols pads
                                ∧ bytes = joined symbols

(`decode_eq_ok_iff`). The writer is one more spelling: it spells the sextets that the bytes are cut
into (`encode_eq_spell`), and joining those gives the bytes back (`joined_sextetsOf`).
-/

namespace PacketWire.Base64

/-- Symbols, and the paddings that follow them. -/
def spell (symbols : List Sextet) (pads : Nat) : Bytes :=
  symbols.map symbol ++ List.replicate pads pad

/-- Symbols and paddings that make up whole groups of four, with at most two paddings. -/
structure Fits (symbols : List Sextet) (pads : Nat) : Prop where
  few : pads ≤ 2
  whole : (symbols.length + pads) % 4 = 0

/-- The bytes of symbols that are taken four at a time. -/
def joined : List Sextet → Bytes
  | v :: w :: x :: y :: rest => bytesOf [v, w, x, y] ++ joined rest
  | last => bytesOf last

/-! ### Spelling -/

@[simp] theorem spell_cons (v : Sextet) (symbols : List Sextet) (pads : Nat) :
    spell (v :: symbols) pads = symbol v :: spell symbols pads := rfl

@[simp] theorem length_spell (symbols : List Sextet) (pads : Nat) :
    (spell symbols pads).length = symbols.length + pads := by
  simp [spell]

theorem mem_alphabet_of_mem_map {b : UInt8} {symbols : List Sextet} (h : b ∈ symbols.map symbol) :
    b ∈ alphabet := by
  obtain ⟨v, -, hv⟩ := List.mem_map.mp h
  exact mem_alphabet_iff.mpr ⟨v, hv.symm⟩

theorem symbol_ne_pad (v : Sextet) : symbol v ≠ pad := by
  intro h
  have := value?_symbol v
  rw [h, value?_pad] at this
  cases this

/-- Just the byte of a symbol is read as that symbol, wherever it stands. -/
theorem readSymbol_eq_ok_iff {offset : Nat} {b : UInt8} {v : Sextet} :
    readSymbol offset b = .ok v ↔ b = symbol v := by
  rw [← value?_eq_some_iff, readSymbol]
  split <;> simp_all

/-! ### The last group -/

theorem spell_eq_nil_iff {symbols : List Sextet} {pads : Nat} :
    spell symbols pads = [] ↔ symbols = [] ∧ pads = 0 := by
  simp [spell]

/-- A text that begins with a padding has no symbols. -/
theorem pad_cons_eq_spell_iff {rest : Bytes} {symbols : List Sextet} {pads : Nat} :
    pad :: rest = spell symbols pads ↔
      symbols = [] ∧ pads = rest.length + 1 ∧ ∀ b ∈ rest, b = pad := by
  cases symbols with
  | nil =>
    simp only [spell, List.map_nil, List.nil_append, List.eq_replicate_iff, List.length_cons,
      List.mem_cons, true_and]
    grind
  | cons v symbols => simp [(symbol_ne_pad v).symm]

/-- A text that begins with another byte begins with a symbol. -/
theorem cons_eq_spell_iff {b : UInt8} (hb : b ≠ pad) {rest : Bytes} {symbols : List Sextet}
    {pads : Nat} :
    b :: rest = spell symbols pads ↔
      ∃ v later, symbols = v :: later ∧ b = symbol v ∧ rest = spell later pads := by
  cases symbols with
  | nil =>
    cases pads with
    | zero => simp [spell]
    | succ n => simp [spell, List.replicate_succ, hb]
  | cons v symbols =>
    constructor
    · intro h
      exact ⟨v, symbols, rfl, List.cons.inj h⟩
    · rintro ⟨w, later, hw, rfl, rfl⟩
      rw [hw, spell_cons]

/-- A last group splits into the symbols and paddings that spell it, provided that two symbols at
least stand before the first padding. -/
theorem splitLast_eq_ok_iff {start index : Nat} {group : Bytes} {symbols : List Sextet}
    {pads : Nat} :
    splitLast start index group = .ok (symbols, pads) ↔
      group = spell symbols pads ∧ (pads = 0 ∨ 2 ≤ index + symbols.length) := by
  -- The symbols read so far count through `index`, so the induction goes over all indices.
  induction group generalizing index symbols pads with
  | nil =>
    rw [splitLast, eq_comm (a := ([] : Bytes)), spell_eq_nil_iff]
    constructor
    · intro h
      cases h
      simp
    · rintro ⟨⟨rfl, rfl⟩, -⟩
      rfl
  | cons b rest ih =>
    by_cases hb : b = pad
    · subst hb
      rw [splitLast, if_pos rfl, pad_cons_eq_spell_iff]
      simp only [List.all_eq_true, decide_eq_true_eq]
      split
      · next h =>
        simp only [Except.ok.injEq, Prod.mk.injEq]
        constructor
        · rintro ⟨rfl, rfl⟩
          exact ⟨⟨rfl, Nat.add_comm _ _, h.2⟩, .inr h.1⟩
        · rintro ⟨⟨rfl, rfl, -⟩, -⟩
          exact ⟨rfl, Nat.add_comm _ _⟩
      · next h =>
        -- refused: something else follows the padding, or it comes too early
        simp only [reduceCtorEq, false_iff]
        rintro ⟨⟨rfl, rfl, hrest⟩, hindex⟩
        exact h ⟨by simpa using hindex, hrest⟩
    · rw [splitLast, if_neg hb, cons_eq_spell_iff hb]
      simp only [bind_eq_ok_iff, readSymbol_eq_ok_iff, Prod.exists, ih, pure_eq_ok,
        Except.ok.injEq, Prod.mk.injEq]
      constructor
      · rintro ⟨v, rfl, later, n, ⟨rfl, hn⟩, rfl, rfl⟩
        refine ⟨⟨v, later, rfl, rfl, rfl⟩, ?_⟩
        rw [List.length_cons]
        omega
      · rintro ⟨⟨v, later, rfl, rfl, rfl⟩, hn⟩
        rw [List.length_cons] at hn
        exact ⟨v, rfl, later, pads, ⟨rfl, by omega⟩, rfl, rfl⟩

/-- The last group is read exactly when it is the last group of a text that is base64. -/
theorem decodeLast_eq_ok_iff {start : Nat} {group bytes : Bytes} (hlen : group.length ≤ 4) :
    decodeLast start group = .ok bytes ↔
      ∃ symbols pads, Fits symbols pads ∧ group = spell symbols pads ∧ bytes = bytesOf symbols := by
  cases group with
  | nil =>
    rw [decodeLast]
    constructor
    · intro h
      cases h
      exact ⟨[], 0, ⟨by decide, rfl⟩, rfl, rfl⟩
    · rintro ⟨symbols, pads, -, hgroup, rfl⟩
      rw [(spell_eq_nil_iff.mp hgroup.symm).1]
      rfl
  | cons b rest =>
    simp only [decodeLast, bind_eq_ok_iff, Prod.exists, splitLast_eq_ok_iff]
    constructor
    · rintro ⟨symbols, pads, ⟨hgroup, -⟩, h⟩
      have hcount := congrArg List.length hgroup
      simp only [length_spell, List.length_cons] at hcount hlen
      split at h
      · cases h
      · split at h
        · cases h
        · cases h
          exact ⟨symbols, pads, ⟨by omega, by omega⟩, hgroup, rfl⟩
    · rintro ⟨symbols, pads, hfits, hgroup, rfl⟩
      have hcount := congrArg List.length hgroup
      have hfew := hfits.few
      have hwhole := hfits.whole
      simp only [length_spell, List.length_cons] at hcount
      -- At most two of four bytes are paddings, so the two checks on lengths pass.
      refine ⟨symbols, pads, ⟨hgroup, by omega⟩, ?_⟩
      rw [if_neg (by omega), if_neg (by omega)]
      rfl

/-! ### The whole text -/

theorem exists_cons₄ {symbols : List Sextet} (h : 4 ≤ symbols.length) :
    ∃ v w x y later, symbols = v :: w :: x :: y :: later := by
  match symbols, h with
  | v :: w :: x :: y :: later, _ => exact ⟨v, w, x, y, later, rfl⟩

/-- A text that begins with at least four symbols has the others behind these. -/
theorem cons₄_eq_spell {a b c d : UInt8} {rest : Bytes} {symbols : List Sextet} {pads : Nat}
    (h : a :: b :: c :: d :: rest = spell symbols pads) (hfour : 4 ≤ symbols.length) :
    ∃ v w x y later, symbols = v :: w :: x :: y :: later ∧ a = symbol v ∧ b = symbol w ∧
      c = symbol x ∧ d = symbol y ∧ rest = spell later pads := by
  obtain ⟨v, w, x, y, later, rfl⟩ := exists_cons₄ hfour
  simp only [spell_cons, List.cons.injEq] at h
  exact ⟨v, w, x, y, later, rfl, h⟩

theorem length_le_four {group : Bytes}
    (h : ∀ a b c d e rest, group ≠ a :: b :: c :: d :: e :: rest) : group.length ≤ 4 := by
  match group, h with
  | [], _ | [_], _ | [_, _], _ | [_, _, _], _ | [_, _, _, _], _ => simp
  | a :: b :: c :: d :: e :: rest, h => exact absurd rfl (h a b c d e rest)

theorem joined_eq_bytesOf {symbols : List Sextet} (h : symbols.length ≤ 4) :
    joined symbols = bytesOf symbols := by
  match symbols, h with
  | [], _ | [_], _ | [_, _], _ | [_, _, _], _ | [_, _, _, _], _ => rfl

theorem Fits.of_cons₄ {v w x y : Sextet} {symbols : List Sextet} {pads : Nat}
    (h : Fits (v :: w :: x :: y :: symbols) pads) : Fits symbols pads := by
  refine ⟨h.few, ?_⟩
  have := h.whole
  simp only [List.length_cons] at this
  omega

theorem Fits.cons₄ {symbols : List Sextet} {pads : Nat} (h : Fits symbols pads)
    (v w x y : Sextet) : Fits (v :: w :: x :: y :: symbols) pads := by
  refine ⟨h.few, ?_⟩
  have := h.whole
  simp only [List.length_cons]
  omega

/-- The groups are read exactly when they are a text that is base64. -/
theorem decodeGroups_eq_ok_iff (start : Nat) {text bytes : Bytes} :
    decodeGroups start text = .ok bytes ↔
      ∃ symbols pads, Fits symbols pads ∧ text = spell symbols pads ∧ bytes = joined symbols := by
  fun_induction decodeGroups start text generalizing bytes with
  | case1 start a b c d e rest ih =>
    simp only [bind_eq_ok_iff, readSymbol_eq_ok_iff, ih, pure_eq_ok, Except.ok.injEq]
    constructor
    · rintro ⟨v, rfl, w, rfl, x, rfl, y, rfl, _, ⟨symbols, pads, hfits, hrest, rfl⟩, rfl⟩
      exact ⟨v :: w :: x :: y :: symbols, pads, hfits.cons₄ v w x y, by simp [hrest], rfl⟩
    · rintro ⟨symbols, pads, hfits, htext, rfl⟩
      have hcount := congrArg List.length htext
      have hfew := hfits.few
      have hwhole := hfits.whole
      simp only [length_spell, List.length_cons] at hcount
      -- Five bytes or more with at most two paddings begin with four symbols.
      have hfour : 4 ≤ symbols.length := by omega
      obtain ⟨v, w, x, y, later, rfl, rfl, rfl, rfl, rfl, hrest⟩ := cons₄_eq_spell htext hfour
      exact ⟨v, rfl, w, rfl, x, rfl, y, rfl, _, ⟨later, pads, hfits.of_cons₄, hrest, rfl⟩, rfl⟩
  | case2 start group hgroup =>
    have hlen := length_le_four hgroup
    rw [decodeLast_eq_ok_iff hlen]
    have hjoin : ∀ {symbols pads}, group = spell symbols pads →
        joined symbols = bytesOf symbols := by
      intro symbols pads htext
      apply joined_eq_bytesOf
      rw [htext, length_spell] at hlen
      omega
    constructor
    · rintro ⟨symbols, pads, hfits, htext, rfl⟩
      exact ⟨symbols, pads, hfits, htext, (hjoin htext).symm⟩
    · rintro ⟨symbols, pads, hfits, htext, rfl⟩
      exact ⟨symbols, pads, hfits, htext, hjoin htext⟩

/-- A text is base64 exactly when it spells whole groups of symbols and paddings, and then it
stands for the bytes of its symbols. -/
theorem decode_eq_ok_iff {text bytes : Bytes} :
    decode text = .ok bytes ↔
      ∃ symbols pads, Fits symbols pads ∧ text = spell symbols pads ∧ bytes = joined symbols := by
  rw [← decodeGroups_eq_ok_iff 0, decode]
  split
  · next b hb =>
    -- A stray byte stands after whole groups, so that the groups cannot be read either.
    simp only [reduceCtorEq, false_iff, decodeGroups_eq_ok_iff]
    rintro ⟨symbols, pads, hfits, rfl, -⟩
    have := hfits.whole
    rw [strayLast?, length_spell, if_neg (by omega)] at hb
    cases hb
  · rfl

/-! ### Cutting bytes into sextets -/

/-- The sextets that bytes are cut into, taken three at a time. -/
def sextetsOf : Bytes → List Sextet
  | a :: b :: c :: rest => sextets₃ a b c ++ sextetsOf rest
  | [a, b] => sextets₂ a b
  | [a] => sextets₁ a
  | [] => []

/-- The paddings after the sextets of that many bytes. -/
def padsOf (length : Nat) : Nat := (3 - length % 3) % 3

theorem padsOf_add_three (length : Nat) : padsOf (length + 3) = padsOf length := by
  simp [padsOf]

/-- What is written spells the sextets of the bytes. -/
theorem encode_eq_spell (bytes : Bytes) :
    encode bytes = spell (sextetsOf bytes) (padsOf bytes.length) := by
  fun_induction encode bytes with
  | case1 a b c rest ih =>
    rw [ih, sextetsOf, List.length_cons, List.length_cons, List.length_cons, padsOf_add_three]
    simp [spell]
  | case2 | case3 | case4 => rfl

theorem length_sextetsOf (bytes : Bytes) :
    (sextetsOf bytes).length = (bytes.length * 4 + 2) / 3 := by
  fun_induction sextetsOf bytes with
  | case1 a b c rest ih =>
    simp only [List.length_append, ih, sextets₃, List.length_cons, List.length_nil]
    omega
  | case2 | case3 | case4 => simp [sextets₂, sextets₁]

/-- The padding that is written fills up the last group. -/
theorem fits_sextetsOf (bytes : Bytes) : Fits (sextetsOf bytes) (padsOf bytes.length) := by
  constructor
  · rw [padsOf]
    omega
  · rw [length_sextetsOf, padsOf]
    have : bytes.length % 3 = 0 ∨ bytes.length % 3 = 1 ∨ bytes.length % 3 = 2 := by omega
    rcases this with h | h | h <;> rw [h] <;> omega

/-- Cutting bytes into symbols and joining them again loses nothing. -/
theorem joined_sextetsOf (bytes : Bytes) : joined (sextetsOf bytes) = bytes := by
  fun_induction sextetsOf bytes with
  | case1 a b c rest ih =>
    have : joined (sextets₃ a b c ++ sextetsOf rest) =
        bytesOf (sextets₃ a b c) ++ joined (sextetsOf rest) := rfl
    rw [this, bytesOf_sextets₃, ih]
    rfl
  | case2 a b => exact bytesOf_sextets₂ a b
  | case3 a => exact bytesOf_sextets₁ a
  | case4 => rfl

/-- Reading undoes writing. -/
theorem decode_encode (bytes : Bytes) : decode (encode bytes) = .ok bytes :=
  decode_eq_ok_iff.mpr
    ⟨_, _, fits_sextetsOf bytes, encode_eq_spell bytes, (joined_sextetsOf bytes).symm⟩

end PacketWire.Base64
