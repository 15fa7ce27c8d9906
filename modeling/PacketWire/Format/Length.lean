import PacketWire.Format.Encoding
import PacketWire.Word

/-!
# Lengths of wire forms

The length of a wire form, found from the length of the payload alone, in 64-bit words. Counting
groups of four could leave the range of a word for payloads that no memory holds; the count then
stops at the largest value to which two can still be added.
-/

namespace PacketWire

/-- The length of the padded base64 text of `n` bytes, unless it leaves the range of a word:
four for each whole group of three, and four more for what is left. -/
def Base64.paddedLength? (n : UInt64) : Option UInt64 := do
  let whole ← Word.mul? (n / 3) 4
  if n % 3 = 0 then some whole else Word.add? whole 4

/-- The length of the wire form of a packet whose payload has `n` bytes. -/
def Format.encodedLength (f : Format) (n : UInt64) : UInt64 :=
  match f with
  | .binary | .string => 1 + n
  | .base64 => if n = 0 then 1 else 2 + (Base64.paddedLength? n).getD (Word.largest - 2)

end PacketWire
