import PacketWire.Base64.Group

/-!
# Reading base64

A text is read in groups of four symbols; only the last group may hold padding, and must hold as
much of it as fills it up. Left-over bits of the last symbol are ignored.

When several things are wrong, the error that is reported follows from the order of the checks:

* a single byte after the last whole group that could be neither symbol nor padding is reported
  before anything else, since it looks like a line ending that was not removed;
* then the whole groups are read from the left, where padding is as wrong as any other byte;
* then the last group is read, where padding too early, or followed by a symbol, is reported at
  the first padding;
* then a last group of fewer than two symbols is too short;
* and last, one that is not filled up lacks padding.
-/

namespace PacketWire.Base64

/-- What is wrong with a text that should be base64. Offsets count from the front of the text. -/
inductive Error
  /-- A byte that may not stand where it stands. -/
  | invalidSymbol (byte : UInt8) (offset : Nat)
  /-- The last group has too few symbols to hold a byte; the length is that of what could be
  read. -/
  | invalidLength (length : Nat)
  /-- The last group is not filled up. -/
  | invalidPadding
  deriving DecidableEq, Repr

def Error.message : Error → String
  | .invalidSymbol byte offset =>
    "Invalid symbol " ++ toString byte.toNat ++ ", offset " ++ toString offset ++ "."
  | .invalidLength length => "Invalid input length: " ++ toString length
  | .invalidPadding => "Invalid padding"

def readSymbol (offset : Nat) (b : UInt8) : Except Error Sextet :=
  match value? b with
  | some v => .ok v
  | none => .error (.invalidSymbol b offset)

/-- The last group split into its symbols and the number of paddings after them. The group
starts at `start`, of which `index` bytes have been read. -/
def splitLast (start index : Nat) : Bytes → Except Error (List Sextet × Nat)
  | [] => .ok ([], 0)
  | b :: rest =>
    if b = pad then
      -- From the first padding on there is nothing else, and a group holds a byte at least.
      if 2 ≤ index ∧ rest.all (· = pad) then .ok ([], 1 + rest.length)
      else .error (.invalidSymbol pad (start + index))
    else do
      let v ← readSymbol (start + index) b
      let (vs, pads) ← splitLast start (index + 1) rest
      return (v :: vs, pads)

/-- The bytes of the last group, which holds at most four bytes of text. -/
def decodeLast (start : Nat) : Bytes → Except Error Bytes
  | [] => .ok []
  | group => do
    let (symbols, pads) ← splitLast start 0 group
    -- Too few symbols are reported before missing paddings.
    if symbols.length < 2 then .error (.invalidLength (start + symbols.length))
    else if (symbols.length + pads) % 4 ≠ 0 then .error .invalidPadding
    else return bytesOf symbols

/-- The bytes of the groups from offset `start` on. A group is the last when nothing follows
it. -/
def decodeGroups (start : Nat) : Bytes → Except Error Bytes
  | a :: b :: c :: d :: e :: rest => do
    let v ← readSymbol start a
    let w ← readSymbol (start + 1) b
    let x ← readSymbol (start + 2) c
    let y ← readSymbol (start + 3) d
    let bytes ← decodeGroups (start + 4) (e :: rest)
    return bytesOf [v, w, x, y] ++ bytes
  | group => decodeLast start group

/-- A last byte that is alone after whole groups and could never be read. -/
def strayLast? (text : Bytes) : Option UInt8 :=
  if text.length % 4 = 1 then
    text.getLast?.filter fun b => b ≠ pad ∧ (value? b).isNone
  else none

/-- The bytes that a padded base64 text stands for. -/
def decode (text : Bytes) : Except Error Bytes :=
  match strayLast? text with
  | some b => .error (.invalidSymbol b (text.length - 1))
  | none => decodeGroups 0 text

end PacketWire.Base64
