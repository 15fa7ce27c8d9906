import PacketWire.Toml.Text

/-!
# Writing documents

A document that is written consists of sections, each a header and lines with one key and one
value; an empty line stands between two sections.
-/

namespace PacketWire.Toml

/-- A value that fits on a line. -/
inductive Scalar
  | text (s : String)
  | natural (n : Nat)
  | boolean (b : Bool)
  deriving DecidableEq, Repr

def Scalar.spell : Scalar → List Char
  | .text s => spellText s
  | .natural n => Nat.toDigits 10 n
  | .boolean b => if b then ['t', 'r', 'u', 'e'] else ['f', 'a', 'l', 's', 'e']

/-- A named group of keys with their values. -/
structure Section where
  name : String
  entries : List (String × Scalar)
  deriving DecidableEq, Repr

def spellEntry (entry : String × Scalar) : List Char :=
  entry.1.toList ++ [' ', '=', ' '] ++ entry.2.spell ++ ['\n']

def Section.spell (s : Section) : List Char :=
  ['['] ++ s.name.toList ++ [']', '\n'] ++ s.entries.flatMap spellEntry

def spellDocument (sections : List Section) : String :=
  String.ofList (List.intercalate ['\n'] (sections.map Section.spell))

end PacketWire.Toml
