import PacketWire.Proofs.Base64.Rewriting

/-!
# Base64 texts put together and cut off

Texts put one after the other are one text only if none but the last has paddings, since a symbol
cannot follow a padding (`flatMap_text_eq_spell_iff`). A text that is cut off after whole groups is
the text of the bytes in these groups (`encode_take`).
-/

namespace PacketWire.Base64

/-! ### Put together -/

/-- What begins with a symbol continues a text only if that has no paddings yet. -/
theorem spell_append_eq_spell_iff {symbols symbols' : List Sextet} {pads pads' : Nat} {v : Sextet}
    {rest : Bytes} :
    spell symbols pads ++ symbol v :: rest = spell symbols' pads' ↔
      pads = 0 ∧ ∃ later, symbols' = symbols ++ later ∧ symbol v :: rest = spell later pads' := by
  induction symbols generalizing symbols' with
  | nil =>
    cases pads with
    | zero => simp [spell]
    | succ n =>
      refine iff_of_false ?_ (fun h => absurd h.1 n.succ_ne_zero)
      intro h
      obtain ⟨-, -, hpads⟩ := pad_cons_eq_spell_iff.mp h
      exact symbol_ne_pad v (hpads _ (List.mem_append_right _ List.mem_cons_self))
  | cons w symbols ih =>
    rw [spell_cons, List.cons_append, cons_eq_spell_iff (symbol_ne_pad w)]
    constructor
    · rintro ⟨w', later, rfl, hw, hrest⟩
      obtain ⟨hpads, more, rfl, hmore⟩ := ih.mp hrest
      rw [symbol_injective hw]
      exact ⟨hpads, more, rfl, hmore⟩
    · rintro ⟨hpads, more, rfl, hmore⟩
      exact ⟨w, symbols ++ more, rfl, rfl, ih.mpr ⟨hpads, more, rfl, hmore⟩⟩

/-- A text as a part of a longer one: some symbols, and the paddings after them. -/
structure Piece where
  symbols : List Sextet
  pads : Nat

def Piece.text (p : Piece) : Bytes := spell p.symbols p.pads

/-- A piece that has symbols begins with one of them. -/
theorem Piece.exists_text_eq_cons {p : Piece} (h : p.symbols ≠ []) :
    ∃ v rest, p.text = symbol v :: rest := by
  obtain ⟨v, symbols, hsymbols⟩ := List.exists_cons_of_ne_nil h
  refine ⟨v, spell symbols p.pads, ?_⟩
  rw [Piece.text, hsymbols, spell_cons]

/-- Pieces that all have symbols are one text exactly when only the last of them has paddings. -/
theorem flatMap_text_eq_spell_iff {init : List Piece} {last : Piece}
    (h : ∀ p ∈ init ++ [last], p.symbols ≠ []) {symbols : List Sextet} {pads : Nat} :
    (init ++ [last]).flatMap Piece.text = spell symbols pads ↔
      (∀ p ∈ init, p.pads = 0) ∧
        symbols = (init ++ [last]).flatMap Piece.symbols ∧ pads = last.pads := by
  induction init generalizing symbols with
  | nil =>
    simp only [List.nil_append, List.flatMap_singleton, Piece.text]
    constructor
    · intro hspell
      obtain ⟨hsymbols, hpads⟩ := spell_injective hspell
      exact ⟨List.forall_mem_nil _, hsymbols.symm, hpads.symm⟩
    · rintro ⟨-, rfl, rfl⟩
      rfl
  | cons p init ih =>
    have hrest : ∀ q ∈ init ++ [last], q.symbols ≠ [] := fun q hq => h q (List.mem_cons_of_mem p hq)
    obtain ⟨v, rest, htext⟩ : ∃ v rest,
        (init ++ [last]).flatMap Piece.text = symbol v :: rest := by
      cases hpieces : init ++ [last] with
      | nil => simp at hpieces
      | cons q later =>
        obtain ⟨v, rest, hq⟩ := q.exists_text_eq_cons (hrest q (by simp [hpieces]))
        exact ⟨v, rest ++ later.flatMap Piece.text, by rw [List.flatMap_cons, hq]; rfl⟩
    rw [List.cons_append, List.flatMap_cons, List.flatMap_cons, htext, Piece.text,
      spell_append_eq_spell_iff, ← htext]
    simp only [ih hrest, List.forall_mem_cons]
    constructor
    · rintro ⟨hp, later, rfl, hinit, rfl, hpads⟩
      exact ⟨⟨hp, hinit⟩, rfl, hpads⟩
    · rintro ⟨⟨hp, hinit⟩, rfl, hpads⟩
      exact ⟨hp, _, rfl, hinit, rfl, hpads⟩

theorem padsOf_eq_zero_iff {length : Nat} : padsOf length = 0 ↔ length % 3 = 0 := by
  rw [padsOf]
  omega

/-- Whole groups of bytes are whole groups of symbols. -/
theorem length_sextetsOf_mod {bytes : Bytes} (h : bytes.length % 3 = 0) :
    (sextetsOf bytes).length % 4 = 0 := by
  rw [length_sextetsOf]
  omega

/-- The bytes of whole groups do not depend on what follows them. -/
theorem joined_append {symbols : List Sextet} (h : symbols.length % 4 = 0) (later : List Sextet) :
    joined (symbols ++ later) = joined symbols ++ joined later := by
  match symbols, h with
  | [], _ => rfl
  | [_], h | [_, _], h | [_, _, _], h => simp at h
  | v :: w :: x :: y :: rest, h =>
    have hrest : rest.length % 4 = 0 := by
      simp only [List.length_cons] at h
      omega
    show bytesOf [v, w, x, y] ++ joined (rest ++ later) = bytesOf [v, w, x, y] ++ joined rest ++ _
    rw [joined_append hrest, List.append_assoc]

/-! ### Cut off -/

theorem exists_cons₃ {bytes : Bytes} (h : 3 ≤ bytes.length) :
    ∃ a b c rest, bytes = a :: b :: c :: rest := by
  rcases bytes with _ | ⟨a, _ | ⟨b, _ | ⟨c, rest⟩⟩⟩
  · simp at h
  · simp at h
  · simp at h
  · exact ⟨a, b, c, rest, rfl⟩

/-- Some whole groups of a text are the text of as many groups of bytes. -/
theorem encode_take (bytes : Bytes) (groups : Nat) :
    encode (bytes.take (3 * groups)) = (encode bytes).take (4 * groups) := by
  induction groups generalizing bytes with
  | zero => simp [encode]
  | succ groups ih =>
    by_cases hshort : bytes.length < 3
    · -- The last group is not cut, since it fits into the ones that are kept.
      rw [List.take_of_length_le, List.take_of_length_le]
      · rw [length_encode]
        omega
      · omega
    · obtain ⟨a, b, c, rest, rfl⟩ := exists_cons₃ (Nat.le_of_not_lt hshort)
      have hgroup : 4 * (groups + 1) = ((sextets₃ a b c).map symbol).length + 4 * groups :=
        Nat.add_comm (4 * groups) 4
      show (sextets₃ a b c).map symbol ++ encode (rest.take (3 * groups)) =
        ((sextets₃ a b c).map symbol ++ encode rest).take (4 * (groups + 1))
      rw [ih, hgroup, List.take_length_add_append]

end PacketWire.Base64
