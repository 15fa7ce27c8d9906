import PacketWire.Proofs.Format.Joining
import PacketWire.Proofs.Text.Utf8

/-!
# Wire forms on text channels

A base64 message is ASCII text whatever the payload is: symbols, and paddings behind them
(`encode_base64_eq_text`). A string message is text exactly when its payload is, for the digit in
front of it is a character by itself (`Utf8.wellFormed_cons_iff`).
-/

namespace PacketWire.Format

open Base64

/-! ### Symbols and paddings -/

theorem symbols_pieceOf_of_empty {p : Packet} (h : p.payload = []) :
    (pieceOf p).symbols.map symbol = [p.type.digit] := by
  rw [pieceOf, if_pos (payload_eq_nil_iff.mpr h), List.map_singleton, symbol_digitSextet]

theorem symbols_pieceOf_of_payload {p : Packet} (h : p.payload ≠ []) :
    (pieceOf p).symbols.map symbol = marker :: p.type.digit :: (sextetsOf p.payload).map symbol := by
  rw [pieceOf, if_neg (mt payload_eq_nil_iff.mp h), List.map_cons, List.map_cons,
    symbol_markerSextet, symbol_digitSextet]

/-! ### Printable bytes -/

/-- Every symbol can be printed, and none is a blank. -/
theorem printable_of_mem_alphabet : ∀ b ∈ alphabet, 0x20 < b ∧ b < 0x7F := by decide +kernel

/-- A base64 message consists of symbols and paddings, all of which can be printed. -/
theorem printable_of_mem_encode {p : Packet} {b : UInt8} (h : b ∈ encode .base64 p) :
    0x20 < b ∧ b < 0x7F := by
  rw [encode_base64_eq_text] at h
  rcases List.mem_append.mp h with hsymbol | hpad
  · exact printable_of_mem_alphabet b (mem_alphabet_of_mem_map hsymbol)
  · rw [List.eq_of_mem_replicate hpad]
    decide

theorem withoutLineBreaks_encode_base64 (p : Packet) :
    withoutLineBreaks (encode .base64 p) = encode .base64 p := by
  rw [encode_base64_eq_text, Piece.text, withoutLineBreaks_spell]

/-- There is no line break in a base64 message. -/
theorem isLineBreak_of_mem_encode {p : Packet} {b : UInt8} (h : b ∈ encode .base64 p) :
    isLineBreak b = false := by
  have hkept := List.filter_eq_self.mp (withoutLineBreaks_encode_base64 p) b h
  rwa [Bool.not_eq_true'] at hkept

theorem digit_lt (t : PacketType) : t.digit < 0x80 := by
  cases t <;> decide

/-- A base64 message is symbols of the alphabet with at most two paddings behind them, and there are
paddings only in the long form, behind marker and digit. All its bytes are printable ASCII, so none
is a line break, and a reader that skips these skips nothing of it. Its length is one, or two more
than whole groups of four. A string message is well-formed UTF-8 exactly when its payload is. -/
theorem text_forms (p : Packet) :
    (∃ symbols pads, encode .base64 p = symbols ++ List.replicate pads pad ∧
      (∀ b ∈ symbols, b ∈ alphabet) ∧ pads ≤ 2 ∧
      (p.payload = [] → symbols = [p.type.digit] ∧ pads = 0) ∧
      (p.payload ≠ [] → ∃ body, symbols = marker :: p.type.digit :: body)) ∧
    (∀ b ∈ encode .base64 p, 0x20 < b ∧ b < 0x7F ∧ isLineBreak b = false) ∧
    (∀ n, withoutLineBreaks ((encode .base64 p).drop n) = (encode .base64 p).drop n) ∧
    ((encode .base64 p).length = 1 ∨ (encode .base64 p).length % 4 = 2) ∧
    (Utf8.WellFormed (encode .string p) ↔ Utf8.WellFormed p.payload) := by
  refine ⟨?_, ?_, ?_, ?_, ?_⟩
  · refine ⟨_, _, encode_base64_eq_text p, ?_, ?_, ?_, ?_⟩
    · intro b hb
      exact mem_alphabet_of_mem_map hb
    · exact (fits_sextetsOf p.payload).few
    · intro h
      refine ⟨symbols_pieceOf_of_empty h, ?_⟩
      show padsOf p.payload.length = 0
      rw [h]
      rfl
    · intro h
      exact ⟨_, symbols_pieceOf_of_payload h⟩
  · intro b hb
    obtain ⟨hlow, hhigh⟩ := printable_of_mem_encode hb
    exact ⟨hlow, hhigh, isLineBreak_of_mem_encode hb⟩
  · intro n
    apply withoutLineBreaks_of_sublist (List.drop_sublist n _)
    exact withoutLineBreaks_encode_base64 p
  · by_cases h : p.payload = []
    · left
      rw [encode_base64_of_empty h]
      rfl
    · right
      rw [length_encode_base64_mod, if_neg (mt payload_eq_nil_iff.mp h)]
  · rw [encode_string, Utf8.wellFormed_cons_iff (digit_lt p.type)]

/-- A payload of one byte that stands in no text: its base64 message is text all the same, its string
message is not. -/
theorem text_forms_last_byte :
    encode .base64 ⟨.message, [255], .none⟩ = [marker, 52, 47, 119, pad, pad] ∧
      (∀ b ∈ ([marker, 52, 47, 119, pad, pad] : Bytes),
        0x20 < b ∧ b < 0x7F ∧ isLineBreak b = false) ∧
      encode .string ⟨.message, [255], .none⟩ = [52, 255] ∧ ¬ Utf8.WellFormed [52, 255] := by
  have hpayload : ¬ Utf8.WellFormed [255] := by
    rw [← Utf8.isSome_decode?_iff, Utf8.decode?, Utf8.pieces]
    decide
  obtain ⟨-, hbytes, -, -, hstring⟩ := text_forms ⟨.message, [255], .none⟩
  exact ⟨rfl, hbytes, rfl, mt hstring.mp hpayload⟩

end PacketWire.Format
