import PacketWire.Text.Unprintable

/-!
# Texts quoted for people

A text in double quotes, in which every character can be told apart: the two marks that would be
misread and the line ends and tabulators are escaped, and a character that has no form of its own
is named by its number.
-/

namespace PacketWire.Text

def escaped (c : Char) : List Char :=
  match c with
  | '"' => ['\\', '"']
  | '\\' => ['\\', '\\']
  | '\t' => ['\\', 't']
  | '\n' => ['\\', 'n']
  | '\r' => ['\\', 'r']
  | '\x00' => ['\\', '0']
  | c =>
    if isUnprintable c then ['\\', 'u', '\x7b'] ++ Nat.toDigits 16 c.toNat ++ ['\x7d'] else [c]

def quoted (s : String) : String :=
  String.ofList ('"' :: s.toList.flatMap escaped ++ ['"'])

end PacketWire.Text
