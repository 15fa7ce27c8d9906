import PacketWire.Proofs.Base64.Text

/-!
# What is wrong with a text

Which texts the reader refuses, and with which error, said without the reader:

* a text of symbols alone is too short by what its last group holds, which is one symbol
  (`decode_eq_invalidLength_iff`);
* a text lacks padding that would be base64 with one padding more, or with two
  (`decode_eq_invalidPadding_iff`);
* in any other text that is refused a byte is named that is not in the alphabet, at the offset at
  which it stands (`getElem?_of_invalidSymbol`).
-/

namespace PacketWire.Base64

/-- The text spelled so would be base64 with one padding more, or with two. -/
def Lacks (symbols : List Sextet) (pads : Nat) : Prop :=
  Fits symbols (pads + 1) ∨ Fits symbols (pads + 2)

/-- Padding is missing when two or three symbols are left over and too few paddings follow them. -/
theorem lacks_iff {symbols : List Sextet} {pads : Nat} :
    Lacks symbols pads ↔ 2 ≤ symbols.length % 4 ∧ symbols.length % 4 + pads < 4 := by
  constructor
  · rintro (h | h)
    all_goals
      have := h.few
      have := h.whole
      omega
  · rintro ⟨hsymbols, hpads⟩
    have hmissing : symbols.length % 4 + pads = 3 ∨ symbols.length % 4 + pads = 2 := by omega
    rcases hmissing with h | h
    · exact .inl ⟨by omega, by omega⟩
    · exact .inr ⟨by omega, by omega⟩

theorem lacks_cons₄_iff {v w x y : Sextet} {symbols : List Sextet} {pads : Nat} :
    Lacks (v :: w :: x :: y :: symbols) pads ↔ Lacks symbols pads := by
  simp only [lacks_iff, List.length_cons]
  omega

/-! ### Symbols -/

theorem readSymbol_eq_error_iff {offset : Nat} {b : UInt8} {e : Error} :
    readSymbol offset b = .error e ↔ b ∉ alphabet ∧ e = .invalidSymbol b offset := by
  rw [← value?_eq_none_iff, readSymbol]
  cases value? b with
  | some v => simp
  | none => simp [eq_comm]

theorem pad_not_mem_alphabet : pad ∉ alphabet := value?_eq_none_iff.mp value?_pad

/-- Bytes of the alphabet are the spelling of some symbols, without padding. -/
theorem forall_mem_alphabet_iff {text : Bytes} :
    (∀ b ∈ text, b ∈ alphabet) ↔ ∃ symbols, text = spell symbols 0 := by
  simp only [spell, List.replicate_zero, List.append_nil]
  constructor
  · intro h
    induction text with
    | nil => exact ⟨[], rfl⟩
    | cons b rest ih =>
      obtain ⟨hb, hrest⟩ := List.forall_mem_cons.mp h
      obtain ⟨v, rfl⟩ := mem_alphabet_iff.mp hb
      obtain ⟨symbols, rfl⟩ := ih hrest
      exact ⟨v :: symbols, rfl⟩
  · rintro ⟨symbols, rfl⟩ b hb
    exact mem_alphabet_of_mem_map hb

/-! ### The last group -/

/-- The last group is refused for a byte in it that is no symbol. -/
theorem getElem?_of_splitLast {start index : Nat} {group : Bytes} {e : Error}
    (h : splitLast start index group = .error e) :
    ∃ b i, e = .invalidSymbol b (start + index + i) ∧ group[i]? = some b ∧ b ∉ alphabet := by
  induction group generalizing index with
  | nil => cases h
  | cons b rest ih =>
    rw [splitLast] at h
    split at h
    · next hb =>
      subst hb
      split at h
      · cases h
      · cases h
        exact ⟨pad, 0, rfl, rfl, pad_not_mem_alphabet⟩
    · rcases bind_eq_error_iff.mp h with h | ⟨v, -, h⟩
      · obtain ⟨hb, rfl⟩ := readSymbol_eq_error_iff.mp h
        exact ⟨b, 0, rfl, rfl, hb⟩
      · rcases bind_eq_error_iff.mp h with h | ⟨_, -, h⟩
        · obtain ⟨c, i, rfl, hc, hnot⟩ := ih h
          have hoffset : start + (index + 1) + i = start + index + (i + 1) := by omega
          exact ⟨c, i + 1, by rw [hoffset], hc, hnot⟩
        · cases h

theorem getElem?_of_decodeLast {start : Nat} {group : Bytes} {b : UInt8} {offset : Nat}
    (h : decodeLast start group = .error (.invalidSymbol b offset)) :
    ∃ i, offset = start + i ∧ group[i]? = some b ∧ b ∉ alphabet := by
  cases group with
  | nil => cases h
  | cons c rest =>
    simp only [decodeLast, bind_eq_error_iff, Prod.exists] at h
    rcases h with h | ⟨symbols, pads, -, h⟩
    · obtain ⟨_, i, he, hc, hnot⟩ := getElem?_of_splitLast h
      cases he
      exact ⟨i, rfl, hc, hnot⟩
    · split at h
      · cases h
      · split at h <;> cases h

/-- A last group is too short just if it is a single symbol. -/
theorem decodeLast_eq_invalidLength_iff {start length : Nat} {group : Bytes} :
    decodeLast start group = .error (.invalidLength length) ↔
      ∃ v, group = [symbol v] ∧ length = start + 1 := by
  cases group with
  | nil => simp [decodeLast]
  | cons b rest =>
    simp only [decodeLast, bind_eq_error_iff, Prod.exists, splitLast_eq_ok_iff]
    constructor
    · rintro (h | ⟨symbols, pads, ⟨hgroup, hpads⟩, h⟩)
      · obtain ⟨_, _, he, -⟩ := getElem?_of_splitLast h
        cases he
      · split at h
        · next hshort =>
          obtain rfl : pads = 0 := by omega
          cases h
          cases symbols with
          | nil => cases hgroup
          | cons v later =>
            obtain rfl : later = [] := by
              apply List.eq_nil_of_length_eq_zero
              rw [List.length_cons] at hshort
              omega
            exact ⟨v, hgroup, rfl⟩
        · split at h <;> cases h
    · rintro ⟨v, hgroup, rfl⟩
      exact .inr ⟨[v], 0, ⟨hgroup, .inl rfl⟩, rfl⟩

theorem decodeLast_eq_invalidPadding_iff {start : Nat} {group : Bytes} (hlen : group.length ≤ 4) :
    decodeLast start group = .error .invalidPadding ↔
      ∃ symbols pads, Lacks symbols pads ∧ group = spell symbols pads := by
  simp only [lacks_iff]
  cases group with
  | nil =>
    rw [decodeLast]
    refine iff_of_false (fun h => by cases h) ?_
    rintro ⟨symbols, pads, ⟨hsymbols, -⟩, hgroup⟩
    rw [(spell_eq_nil_iff.mp hgroup.symm).1] at hsymbols
    exact absurd hsymbols (by decide)
  | cons b rest =>
    simp only [decodeLast, bind_eq_error_iff, Prod.exists, splitLast_eq_ok_iff]
    constructor
    · rintro (h | ⟨symbols, pads, ⟨hgroup, -⟩, h⟩)
      · obtain ⟨_, _, he, -⟩ := getElem?_of_splitLast h
        cases he
      · have hcount := congrArg List.length hgroup
        rw [length_spell] at hcount
        split at h
        · cases h
        · split at h
          · exact ⟨symbols, pads, by omega, hgroup⟩
          · cases h
    · rintro ⟨symbols, pads, hlacks, hgroup⟩
      have hcount := congrArg List.length hgroup
      rw [length_spell] at hcount
      -- Two symbols at least make the group long enough, and it is one short of four, or two.
      refine .inr ⟨symbols, pads, ⟨hgroup, by omega⟩, ?_⟩
      rw [if_neg (by omega), if_pos (by omega)]

/-! ### The whole text -/

/-- The byte that a text is refused for stands at the offset that is named. -/
theorem getElem?_of_decodeGroups {start : Nat} {text : Bytes} {bad : UInt8} {offset : Nat}
    (h : decodeGroups start text = .error (.invalidSymbol bad offset)) :
    ∃ i, offset = start + i ∧ text[i]? = some bad ∧ bad ∉ alphabet := by
  fun_induction decodeGroups start text with
  | case1 start a b c d e rest ih =>
    simp only [bind_eq_error_iff, readSymbol_eq_error_iff, Error.invalidSymbol.injEq, pure_eq_ok,
      reduceCtorEq, and_false, exists_false, or_false] at h
    rcases h with ⟨ha, rfl, rfl⟩ | ⟨-, -, ⟨hb, rfl, rfl⟩ | ⟨-, -, ⟨hc, rfl, rfl⟩ |
      ⟨-, -, ⟨hd, rfl, rfl⟩ | ⟨-, -, h⟩⟩⟩⟩
    · exact ⟨0, rfl, rfl, ha⟩
    · exact ⟨1, rfl, rfl, hb⟩
    · exact ⟨2, rfl, rfl, hc⟩
    · exact ⟨3, rfl, rfl, hd⟩
    · obtain ⟨i, rfl, hi, hbad⟩ := ih h
      exact ⟨i + 4, by omega, hi, hbad⟩
  | case2 start group hgroup => exact getElem?_of_decodeLast h

/-- The length is named of symbols of which one is left over after whole groups. -/
theorem decodeGroups_eq_invalidLength_iff {start length : Nat} {text : Bytes} :
    decodeGroups start text = .error (.invalidLength length) ↔
      ∃ symbols, symbols.length % 4 = 1 ∧ text = spell symbols 0 ∧
        length = start + symbols.length := by
  fun_induction decodeGroups start text with
  | case1 start a b c d e rest ih =>
    simp only [bind_eq_error_iff, readSymbol_eq_error_iff, readSymbol_eq_ok_iff, ih, pure_eq_ok,
      reduceCtorEq, and_false, exists_false, false_or, or_false]
    constructor
    · rintro ⟨v, rfl, w, rfl, x, rfl, y, rfl, symbols, hone, hrest, rfl⟩
      refine ⟨v :: w :: x :: y :: symbols, ?_, by simp [hrest], ?_⟩
      all_goals
        simp only [List.length_cons]
        omega
    · rintro ⟨symbols, hone, htext, rfl⟩
      have hcount := congrArg List.length htext
      simp only [length_spell, List.length_cons] at hcount
      obtain ⟨v, w, x, y, later, rfl, rfl, rfl, rfl, rfl, hrest⟩ := cons₄_eq_spell htext (by omega)
      simp only [List.length_cons] at hone ⊢
      exact ⟨v, rfl, w, rfl, x, rfl, y, rfl, later, by omega, hrest, by omega⟩
  | case2 start group hgroup =>
    rw [decodeLast_eq_invalidLength_iff]
    constructor
    · rintro ⟨v, rfl, rfl⟩
      exact ⟨[v], rfl, rfl, rfl⟩
    · rintro ⟨symbols, hone, rfl, rfl⟩
      have hlen := length_le_four hgroup
      rw [length_spell] at hlen
      obtain ⟨v, rfl⟩ := List.length_eq_one_iff.mp (show symbols.length = 1 by omega)
      exact ⟨v, rfl, rfl⟩

/-- Whole groups in front of the last one do not change whether padding is missing. -/
theorem decodeGroups_eq_invalidPadding_iff {start : Nat} {text : Bytes} :
    decodeGroups start text = .error .invalidPadding ↔
      ∃ symbols pads, Lacks symbols pads ∧ text = spell symbols pads := by
  fun_induction decodeGroups start text with
  | case1 start a b c d e rest ih =>
    simp only [bind_eq_error_iff, readSymbol_eq_error_iff, readSymbol_eq_ok_iff, ih, pure_eq_ok,
      reduceCtorEq, and_false, exists_false, false_or, or_false]
    constructor
    · rintro ⟨v, rfl, w, rfl, x, rfl, y, rfl, symbols, pads, hlacks, hrest⟩
      exact ⟨v :: w :: x :: y :: symbols, pads, lacks_cons₄_iff.mpr hlacks, by simp [hrest]⟩
    · rintro ⟨symbols, pads, hlacks, htext⟩
      have hcount := congrArg List.length htext
      have hshort := lacks_iff.mp hlacks
      simp only [length_spell, List.length_cons] at hcount
      obtain ⟨v, w, x, y, later, rfl, rfl, rfl, rfl, rfl, hrest⟩ := cons₄_eq_spell htext (by omega)
      exact ⟨v, rfl, w, rfl, x, rfl, y, rfl, later, pads, lacks_cons₄_iff.mp hlacks, hrest⟩
  | case2 start group hgroup => exact decodeLast_eq_invalidPadding_iff (length_le_four hgroup)

/-! ### A last byte that is alone -/

/-- A stray byte is the last one, alone after whole groups, and neither symbol nor padding. -/
theorem strayLast?_eq_some_iff {text : Bytes} {b : UInt8} :
    strayLast? text = some b ↔
      text.length % 4 = 1 ∧ text.getLast? = some b ∧ b ≠ pad ∧ b ∉ alphabet := by
  rw [strayLast?]
  split
  · next h => simp [h, Option.filter_eq_some_iff, value?_eq_none_iff]
  · next h => simp [h]

/-- The byte that is blamed stands in the text and is not in the alphabet. -/
theorem getElem?_of_invalidSymbol {text : Bytes} {b : UInt8} {offset : Nat}
    (h : decode text = .error (.invalidSymbol b offset)) :
    text[offset]? = some b ∧ b ∉ alphabet := by
  rw [decode] at h
  split at h
  · next c hc =>
    cases h
    obtain ⟨-, hlast, -, hnot⟩ := strayLast?_eq_some_iff.mp hc
    rw [List.getLast?_eq_getElem?] at hlast
    exact ⟨hlast, hnot⟩
  · obtain ⟨i, rfl, hi, hnot⟩ := getElem?_of_decodeGroups h
    rw [Nat.zero_add]
    exact ⟨hi, hnot⟩

/-- One symbol is left over after whole groups. -/
theorem decode_eq_invalidLength_iff {text : Bytes} {length : Nat} :
    decode text = .error (.invalidLength length) ↔
      (∀ b ∈ text, b ∈ alphabet) ∧ text.length % 4 = 1 ∧ length = text.length := by
  rw [forall_mem_alphabet_iff, decode]
  split
  · next c hc =>
    obtain ⟨-, hlast, -, hnot⟩ := strayLast?_eq_some_iff.mp hc
    refine iff_of_false (fun h => by cases h) ?_
    rintro ⟨hsymbols, -, -⟩
    exact hnot (forall_mem_alphabet_iff.mpr hsymbols c (List.mem_of_getLast? hlast))
  · rw [decodeGroups_eq_invalidLength_iff]
    constructor
    · rintro ⟨symbols, hone, rfl, rfl⟩
      rw [length_spell]
      exact ⟨⟨symbols, rfl⟩, hone, Nat.zero_add _⟩
    · rintro ⟨⟨symbols, rfl⟩, hone, rfl⟩
      rw [length_spell] at hone ⊢
      exact ⟨symbols, hone, rfl, (Nat.zero_add _).symm⟩

/-- A stray byte is no symbol, so it does not hide that padding is missing. -/
theorem decode_eq_invalidPadding_iff {text : Bytes} :
    decode text = .error .invalidPadding ↔
      ∃ symbols pads, Lacks symbols pads ∧ text = spell symbols pads := by
  rw [decode]
  split
  · next c hc =>
    obtain ⟨hone, -⟩ := strayLast?_eq_some_iff.mp hc
    refine iff_of_false (fun h => by cases h) ?_
    rintro ⟨symbols, pads, hlacks, rfl⟩
    have := lacks_iff.mp hlacks
    rw [length_spell] at hone
    omega
  · exact decodeGroups_eq_invalidPadding_iff

/-! ### Paddings added -/

theorem append_pad_eq_spell_iff {text : Bytes} {symbols : List Sextet} {pads : Nat} :
    text ++ [pad] = spell symbols pads ↔ ∃ n, pads = n + 1 ∧ text = spell symbols n := by
  cases pads with
  | zero =>
    refine iff_of_false ?_ ?_
    · intro h
      have hsymbols := forall_mem_alphabet_iff.mpr ⟨symbols, h⟩
      exact pad_not_mem_alphabet (hsymbols pad (List.mem_append_right _ List.mem_cons_self))
    · rintro ⟨n, hpads, -⟩
      cases hpads
  | succ n =>
    have hspell : spell symbols (n + 1) = spell symbols n ++ [pad] := by
      rw [spell, List.replicate_succ', ← List.append_assoc, spell]
    simp [hspell]

/-- Padding is missing exactly when the text is base64 once it is added. -/
theorem decode_eq_invalidPadding_iff_append {text : Bytes} :
    decode text = .error .invalidPadding ↔
      (∃ bytes, decode (text ++ [pad]) = .ok bytes) ∨
        ∃ bytes, decode (text ++ [pad, pad]) = .ok bytes := by
  have hpads : text ++ [pad, pad] = text ++ [pad] ++ [pad] := by simp
  simp only [decode_eq_invalidPadding_iff, decode_eq_ok_iff, hpads, append_pad_eq_spell_iff]
  constructor
  · rintro ⟨symbols, pads, hone | htwo, rfl⟩
    · exact .inl ⟨_, symbols, _, hone, ⟨pads, rfl, rfl⟩, rfl⟩
    · exact .inr ⟨_, symbols, _, htwo, ⟨pads + 1, rfl, pads, rfl, rfl⟩, rfl⟩
  · rintro (⟨-, symbols, -, hfits, ⟨pads, rfl, rfl⟩, -⟩ |
      ⟨-, symbols, -, hfits, ⟨-, rfl, pads, rfl, rfl⟩, -⟩)
    · exact ⟨symbols, pads, .inl hfits, rfl⟩
    · exact ⟨symbols, pads, .inr hfits, rfl⟩

end PacketWire.Base64
