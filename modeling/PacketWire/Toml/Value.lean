import PacketWire.Toml.Key
import PacketWire.Toml.Tree

/-!
# Values in a document

A value is a text, a truth value, a moment or a number, or holds other values in brackets or
braces. How deeply brackets and braces may be nested is bounded, and reading a value is a
recursion on that bound.
-/

namespace PacketWire.Toml

/-- An array: items with commas between them, over any number of lines, and possibly a comma
after the last. The opening bracket is read too. -/
def array (item : Reader Value) : Reader Value := do
  Reader.char '['
  lines
  Reader.orElse
    (do
      Reader.char ']'
      return .array [])
    (do
      let items ← Reader.separated ',' do
        lines
        let v ← item
        lines
        return v
      let _ ← Reader.optional do
        Reader.char ','
        lines
      Reader.char ']'
      return .array items)

/-- A table in braces: entries with commas between them on one line. -/
def bracedTable (item : Reader Value) : Reader Value := do
  Reader.char '\x7b'
  spaces
  let pairs ← Reader.orElse
    (do
      Reader.char '\x7d'
      return [])
    (do
      let pairs ← Reader.separated ',' do
        let (way, key) ← dottedKey
        Reader.char '='
        spaces
        let v ← item
        spaces
        return (way, key, v)
      Reader.char '\x7d'
      return pairs)
  Reader.ofOption ((Table.ofPairs pairs).map (.table .braces))

/-- A text in quotes of any style; three quotes in a row always open a block. -/
def textValue : Reader String :=
  Reader.orElse Style.basicBlock.reader <|
  Reader.orElse Style.literalBlock.reader <|
  Reader.orElse Style.basic.reader Style.literal.reader

def truthValue : Reader Bool :=
  Reader.orElse
    (do
      Reader.exactly ['t', 'r', 'u', 'e']
      return true)
    (do
      Reader.exactly ['f', 'a', 'l', 's', 'e']
      return false)

/-- A value in which arrays and braces are nested to at most that depth. -/
def value : Nat → Reader Value
  | 0 => flat
  | depth + 1 =>
    Reader.byNext fun c =>
      if c = '[' then array (value depth)
      else if c = '\x7b' then bracedTable (value depth)
      else flat
where
  /-- A value that holds no other. -/
  flat : Reader Value :=
    Reader.byNext fun c =>
      if c = '"' || c = '\'' then .text <$> textValue
      else if c = 't' || c = 'f' then .boolean <$> truthValue
      else Reader.orElse (.moment <$> Moment.reader) (.number <$> Number.reader)

/-- The depth to which arrays and braces may be nested. -/
def maxDepth : Nat := 79

end PacketWire.Toml
