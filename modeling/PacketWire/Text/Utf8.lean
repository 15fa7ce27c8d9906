import PacketWire.Bytes

/-!
# UTF-8

Bytes are read as UTF-8 one piece at a time. A piece is either one well-formed character or one
*broken* part: the longest run that begins a character which never arrives, and at least one
byte. Both readings of a whole byte string come from the same pieces: `decode?` refuses any
broken part, `decodeLossy` shows each of them as U+FFFD.
-/

namespace PacketWire.Utf8

inductive Piece
  | character (c : Char)
  | broken
  deriving DecidableEq, Repr

/-- What the first byte of a character of several bytes promises: the bits it contributes, how
many bytes follow it, and the range that the first of those must lie in. -/
structure Lead where
  bits : Nat
  following : Nat
  low : UInt8
  high : UInt8

/-- The first bytes of characters of several bytes. The narrowed ranges keep out over-long
forms, surrogates and values above U+10FFFF. -/
def lead? (b : UInt8) : Option Lead :=
  if 0xC2 ≤ b ∧ b ≤ 0xDF then some ⟨b.toNat - 0xC0, 1, 0x80, 0xBF⟩
  else if b = 0xE0 then some ⟨0, 2, 0xA0, 0xBF⟩
  else if b = 0xED then some ⟨13, 2, 0x80, 0x9F⟩
  else if 0xE1 ≤ b ∧ b ≤ 0xEF then some ⟨b.toNat - 0xE0, 2, 0x80, 0xBF⟩
  else if b = 0xF0 then some ⟨0, 3, 0x90, 0xBF⟩
  else if b = 0xF4 then some ⟨4, 3, 0x80, 0x8F⟩
  else if 0xF1 ≤ b ∧ b ≤ 0xF3 then some ⟨b.toNat - 0xF0, 3, 0x80, 0xBF⟩
  else none

/-- Reads `following` more bytes onto the bits so far; the first must lie between `low` and
`high`, any later one is an ordinary continuation byte. A byte that does not fit is left alone. -/
def continuation (bits : Nat) (low high : UInt8) : Nat → Bytes → Piece × Bytes
  | 0, rest => (.character (Char.ofNat bits), rest)
  | _ + 1, [] => (.broken, [])
  | n + 1, b :: rest =>
    if low ≤ b ∧ b ≤ high then
      continuation (bits * 64 + (b.toNat - 0x80)) 0x80 0xBF n rest
    else (.broken, b :: rest)

/-- The piece that begins with byte `b`, and what follows it. -/
def piece (b : UInt8) (rest : Bytes) : Piece × Bytes :=
  if b < 0x80 then (.character (Char.ofNat b.toNat), rest)
  else match lead? b with
    | some l => continuation l.bits l.low l.high l.following rest
    | none => (.broken, rest)

theorem length_continuation_le (bits : Nat) (low high : UInt8) (n : Nat) (bytes : Bytes) :
    (continuation bits low high n bytes).2.length ≤ bytes.length := by
  fun_induction continuation bits low high n bytes with
  | case1 | case2 | case4 => exact Nat.le_refl _
  | case3 _ _ _ _ _ _ _ ih => exact Nat.le_succ_of_le ih

theorem length_piece_le (b : UInt8) (rest : Bytes) : (piece b rest).2.length ≤ rest.length := by
  unfold piece
  split
  · exact Nat.le_refl _
  · split
    · exact length_continuation_le ..
    · exact Nat.le_refl _

def pieces : Bytes → List Piece
  | [] => []
  | b :: rest => (piece b rest).1 :: pieces (piece b rest).2
termination_by bytes => bytes.length
decreasing_by exact Nat.lt_succ_of_le (length_piece_le b rest)

def Piece.character? : Piece → Option Char
  | .character c => some c
  | .broken => none

/-- The text that the bytes encode, if they are well-formed. -/
def decode? (bytes : Bytes) : Option String :=
  ((pieces bytes).mapM Piece.character?).map String.ofList

/-- The text of the bytes with U+FFFD in place of each broken part. -/
def decodeLossy (bytes : Bytes) : String :=
  String.ofList ((pieces bytes).map fun p => p.character?.getD '\uFFFD')

end PacketWire.Utf8
