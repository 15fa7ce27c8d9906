import PacketWire.Proofs.Base64.Joining
import PacketWire.Proofs.Format.Acceptance
import PacketWire.Proofs.Format.RoundTrip

/-!
# Messages run together

When the wire forms of several packets are read as one message, the binary and string formats take
all but the first for payload. A base64 message is itself spelled with symbols and paddings
(`encode_base64_eq_spell`), marker and digit included, so that base64 messages run together may be
the text of a single one; `Joinable` says when.
-/

namespace PacketWire.Format

open Base64

/-! ### Base64 messages are base64 texts -/

def markerSextet : Sextet := 27

def digitSextet (t : PacketType) : Sextet := sextet (52 + t.byte.toNat)

theorem symbol_markerSextet : symbol markerSextet = marker := by decide +kernel

theorem symbol_digitSextet (t : PacketType) : symbol (digitSextet t) = t.digit := by
  have hall : ∀ t ∈ PacketType.all, symbol (digitSextet t) = t.digit := by decide +kernel
  exact hall t (by cases t <;> decide)

/-- The symbols and paddings of the base64 message of a packet. -/
def pieceOf (p : Packet) : Piece where
  symbols :=
    if p.isEmpty then [digitSextet p.type]
    else markerSextet :: digitSextet p.type :: sextetsOf p.payload
  pads := padsOf p.payload.length

/-- A base64 message is a piece of base64 text itself, marker and digit being symbols. -/
theorem encode_base64_eq_text (p : Packet) : encode .base64 p = (pieceOf p).text := by
  by_cases h : p.isEmpty
  · have hpayload := payload_eq_nil_iff.mp h
    rw [encode_base64_of_empty hpayload, Piece.text, pieceOf, if_pos h, hpayload, spell_cons,
      symbol_digitSextet]
    rfl
  · rw [encode_base64_of_payload (mt payload_eq_nil_iff.mpr h), Piece.text, pieceOf, if_neg h,
      spell_cons, spell_cons, symbol_markerSextet, symbol_digitSextet, encode_eq_spell]

theorem symbols_pieceOf_ne_nil (p : Packet) : (pieceOf p).symbols ≠ [] := by
  by_cases h : p.isEmpty <;> simp [pieceOf, h]

/-! ### Lengths modulo four -/

/-- A base64 message is one symbol or two longer than whole groups. -/
theorem length_encode_base64_mod (p : Packet) :
    (encode .base64 p).length % 4 = if p.isEmpty then 1 else 2 := by
  by_cases h : p.isEmpty
  · rw [encode_base64_of_empty (payload_eq_nil_iff.mp h), if_pos h]
    rfl
  · rw [encode_base64_of_payload (mt payload_eq_nil_iff.mpr h), if_neg h]
    simp only [List.length_cons, length_encode]
    omega

/-- How many symbols are left over of several messages depends on how many of them have no payload.
-/
theorem length_flatMap_encode_base64_mod (ps : List Packet) :
    (ps.flatMap (encode .base64)).length % 4 =
      (2 * ps.countP (!·.isEmpty) + ps.countP (·.isEmpty)) % 4 := by
  induction ps with
  | nil => rfl
  | cons p ps ih =>
    have hp := length_encode_base64_mod p
    rw [List.flatMap_cons, List.length_append, List.countP_cons, List.countP_cons]
    by_cases h : p.isEmpty
    · simp only [h, if_true, Bool.not_true, Bool.false_eq_true, if_false] at hp ⊢
      omega
    · simp only [h, Bool.not_false, if_true, Bool.false_eq_true, if_false] at hp ⊢
      omega

/-! ### Base64 messages run together -/

/-- The packets after the first one are read as a part of its payload. -/
structure Joinable (p : Packet) (ps : List Packet) : Prop where
  payload : p.payload ≠ []
  /-- Only the last message has paddings. -/
  whole : ∀ q ∈ (p :: ps).dropLast, q.payload.length % 3 = 0
  /-- The first text and the messages after it make up whole groups of symbols. -/
  count : (2 * ps.countP (!·.isEmpty) + ps.countP (·.isEmpty)) % 4 = 0

theorem withoutLineBreaks_flatMap_text (pieces : List Piece) :
    withoutLineBreaks (pieces.flatMap Piece.text) = pieces.flatMap Piece.text := by
  induction pieces with
  | nil => rfl
  | cons piece pieces ih =>
    rw [List.flatMap_cons, withoutLineBreaks_append, ih, Piece.text, withoutLineBreaks_spell]

/-- The text of a first payload, and the messages after it. -/
def joinedPieces (p : Packet) (ps : List Packet) : List Piece :=
  ⟨sextetsOf p.payload, padsOf p.payload.length⟩ :: ps.map pieceOf

/-- Behind the marker and the digit of the first message the pieces are all that there is. -/
theorem flatMap_text_joinedPieces (p : Packet) (ps : List Packet) :
    (joinedPieces p ps).flatMap Piece.text =
      Base64.encode p.payload ++ ps.flatMap (encode .base64) := by
  rw [joinedPieces, List.flatMap_cons, Piece.text, ← encode_eq_spell, List.flatMap_map,
    ← funext encode_base64_eq_text]

theorem symbols_joinedPieces_ne_nil {p : Packet} (hp : p.payload ≠ []) (ps : List Packet) :
    ∀ piece ∈ joinedPieces p ps, piece.symbols ≠ [] := by
  rw [joinedPieces, List.forall_mem_cons]
  constructor
  · apply List.ne_nil_of_length_pos
    have := List.length_pos_iff.mpr hp
    rw [length_sextetsOf]
    omega
  · intro piece hpiece
    obtain ⟨q, -, rfl⟩ := List.mem_map.mp hpiece
    exact symbols_pieceOf_ne_nil q

theorem joinedPieces_concat (p last : Packet) (init : List Packet) :
    joinedPieces p (init ++ [last]) = joinedPieces p init ++ [pieceOf last] := by
  simp [joinedPieces]

/-- No piece but the last has paddings when all payloads but the last are whole groups. -/
theorem pads_joinedPieces_iff {p last : Packet} {init : List Packet} :
    (∀ piece ∈ joinedPieces p init, piece.pads = 0) ↔
      ∀ q ∈ (p :: (init ++ [last])).dropLast, q.payload.length % 3 = 0 := by
  rw [← List.cons_append, List.dropLast_concat]
  simp [joinedPieces, pieceOf, padsOf_eq_zero_iff]

/-- Where only the last piece has paddings, symbols and paddings together count like the messages. -/
theorem count_joinedPieces {p : Packet} {init : List Packet} (hp : p.payload ≠ [])
    (h : ∀ piece ∈ joinedPieces p init, piece.pads = 0) (last : Packet) :
    (((joinedPieces p (init ++ [last])).flatMap Piece.symbols).length + (pieceOf last).pads) % 4 =
      (2 * (init ++ [last]).countP (!·.isEmpty) + (init ++ [last]).countP (·.isEmpty)) % 4 := by
  have hne := symbols_joinedPieces_ne_nil hp (init ++ [last])
  rw [joinedPieces_concat] at hne
  have hspell := (flatMap_text_eq_spell_iff hne).mpr ⟨h, rfl, rfl⟩
  have hlength := congrArg List.length hspell
  rw [← joinedPieces_concat, flatMap_text_joinedPieces, List.length_append, length_spell,
    length_encode] at hlength
  rw [← length_flatMap_encode_base64_mod, ← hlength]
  omega

/-- The body of a message with others behind it is a body when the packets are joinable, and the
symbols of the first payload come first in it. -/
theorem body_joined_iff {p last : Packet} {init : List Packet} (hp : p.payload ≠ [])
    {symbols : List Sextet} {pads : Nat} :
    Body (Base64.encode p.payload ++ (init ++ [last]).flatMap (encode .base64)) symbols pads ↔
      Joinable p (init ++ [last]) ∧
        symbols = (joinedPieces p (init ++ [last])).flatMap Piece.symbols ∧
        pads = (pieceOf last).pads := by
  have hne := symbols_joinedPieces_ne_nil hp (init ++ [last])
  rw [joinedPieces_concat] at hne
  rw [body_iff, ← flatMap_text_joinedPieces, withoutLineBreaks_flatMap_text, joinedPieces_concat,
    flatMap_text_eq_spell_iff hne, ← joinedPieces_concat]
  constructor
  · rintro ⟨hfits, hpads, rfl, rfl⟩
    have hcount := count_joinedPieces hp hpads last
    exact ⟨⟨hp, pads_joinedPieces_iff.mp hpads, by rw [← hcount, hfits.whole]⟩, rfl, rfl⟩
  · rintro ⟨hjoinable, rfl, rfl⟩
    have hpads := pads_joinedPieces_iff.mpr hjoinable.whole
    have hfew : (pieceOf last).pads ≤ 2 := (fits_sextetsOf last.payload).few
    exact ⟨⟨hfew, by rw [count_joinedPieces hp hpads last, hjoinable.count]⟩, hpads, rfl, rfl⟩

/-! ### Reading joined messages -/

/-- Joined binary or string messages are one packet, the payload of which contains all but the
first. -/
theorem decode_joined {f : Format} (hf : f = .binary ∨ f = .string) (p : Packet)
    (ps : List Packet) :
    f.decode ((p :: ps).flatMap f.encode) =
      .ok ⟨p.type, p.payload ++ ps.flatMap f.encode, f.flags⟩ := by
  obtain ⟨typeByte, hencode, hdecode⟩ := exists_typeByte hf
  rw [List.flatMap_cons, hencode, List.cons_append, hdecode]

/-- Base64 messages that are joinable are one packet, with the payload of the first one in front. -/
theorem decode_base64_of_joinable {p : Packet} {ps : List Packet} (hps : ps ≠ [])
    (h : Joinable p ps) :
    ∃ rest, decode .base64 ((p :: ps).flatMap (encode .base64)) =
      .ok ⟨p.type, p.payload ++ rest, .binaryOnly⟩ := by
  obtain ⟨init, last, rfl⟩ : ∃ init last, ps = init ++ [last] :=
    ⟨_, _, (List.dropLast_concat_getLast hps).symm⟩
  have hbody := (body_joined_iff h.payload).mpr ⟨h, rfl, rfl⟩
  have hfirst : p.payload.length % 3 = 0 := by
    apply h.whole
    rw [← List.cons_append, List.dropLast_concat]
    exact List.mem_cons_self
  have hjoined : joined ((joinedPieces p (init ++ [last])).flatMap Piece.symbols) =
      p.payload ++ joined (((init ++ [last]).map pieceOf).flatMap Piece.symbols) := by
    rw [joinedPieces, List.flatMap_cons, joined_append (length_sextetsOf_mod hfirst),
      joined_sextetsOf]
  have hdecode := (decode_marked_eq_ok_iff (t := p.type)).mpr ⟨_, _, hbody, rfl⟩
  rw [hjoined] at hdecode
  rw [List.flatMap_cons, encode_base64_of_payload h.payload, List.cons_append, List.cons_append]
  exact ⟨_, hdecode⟩

/-- Messages that are not joinable are no body, so that they are refused together. -/
theorem decode_base64_of_not_joinable {p : Packet} {ps : List Packet} (hps : ps ≠ [])
    (h : ¬ Joinable p ps) :
    ∃ cause, decode .base64 ((p :: ps).flatMap (encode .base64)) = .error cause := by
  obtain ⟨init, last, rfl⟩ : ∃ init last, ps = init ++ [last] :=
    ⟨_, _, (List.dropLast_concat_getLast hps).symm⟩
  by_cases hp : p.payload = []
  · -- The message begins with a digit in the place of the marker.
    obtain ⟨b, rest, hrest⟩ : ∃ b rest, (init ++ [last]).flatMap (encode .base64) = b :: rest := by
      apply List.exists_cons_of_ne_nil
      intro hnil
      exact encode_ne_nil .base64 last (List.flatMap_eq_nil_iff.mp hnil last (by simp))
    rw [List.flatMap_cons, encode_base64_of_empty hp, hrest, List.singleton_append, decode,
      if_neg (p.type.digit_ne_marker)]
    exact ⟨_, rfl⟩
  · have hbody : ¬ ∃ symbols pads,
        Body (Base64.encode p.payload ++ (init ++ [last]).flatMap (encode .base64)) symbols pads := by
      rintro ⟨symbols, pads, hbody⟩
      exact h ((body_joined_iff hp).mp hbody).1
    obtain ⟨cause, hcause⟩ := decodeBody_of_not_body hbody
    rw [List.flatMap_cons, encode_base64_of_payload hp, List.cons_append, List.cons_append,
      decode_marked, hcause]
    exact ⟨_, rfl⟩

/-- Two messages are never joinable: the second one is two symbols, or one, more than whole
groups. -/
theorem not_joinable_pair (p q : Packet) : ¬ Joinable p [q] := by
  intro h
  have := h.count
  by_cases hq : q.isEmpty <;> simp [hq] at this

end PacketWire.Format
