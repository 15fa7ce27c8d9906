/-!
# Blank characters

The characters of the Unicode property `White_Space`, and trimming by them.
-/

namespace PacketWire.Text

/-- A character that only separates: tabulators, line ends, spaces of every width. -/
def isBlank (c : Char) : Bool :=
  let n := c.toNat
  (0x09 ≤ n && n ≤ 0x0D) || n == 0x20 || n == 0x85 || n == 0xA0 || n == 0x1680
    || (0x2000 ≤ n && n ≤ 0x200A) || n == 0x2028 || n == 0x2029 || n == 0x202F
    || n == 0x205F || n == 0x3000

def trim (s : String) : String :=
  String.ofList (((s.toList.dropWhile isBlank).reverse.dropWhile isBlank).reverse)

/-- Small letters for the 26 capitals; all other characters are kept. -/
def foldCase (s : String) : String := String.ofList (s.toList.map Char.toLower)

end PacketWire.Text
