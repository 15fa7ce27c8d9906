/-!
# Numerals

Unsigned decimal numerals of one 64-bit word: an optional plus sign, then ASCII digits.
-/

namespace PacketWire.Numeral

inductive Error
  | empty
  | badDigit
  | tooLarge
  deriving DecidableEq, Repr

def Error.message : Error → String
  | .empty => "cannot parse integer from empty string"
  | .badDigit => "invalid digit found in string"
  | .tooLarge => "number too large to fit in target type"

def digitValue (c : Char) : Nat := c.toNat - '0'.toNat

/-- Reads digits onto a value. At each place a character that is no digit is noticed before a
value that is too large, and whatever is noticed first ends the reading. -/
def readDigits (value : Nat) : List Char → Except Error Nat
  | [] => .ok value
  | c :: rest =>
    if c.isDigit then
      let next := value * 10 + digitValue c
      if next < UInt64.size then readDigits next rest else .error .tooLarge
    else .error .badDigit

def read : List Char → Except Error Nat
  | [] => .error .empty
  | ['+'] => .error .badDigit
  | '+' :: digits => readDigits 0 digits
  | digits => readDigits 0 digits

def parse (text : String) : Except Error UInt64 := (read text.toList).map Nat.toUInt64

end PacketWire.Numeral
