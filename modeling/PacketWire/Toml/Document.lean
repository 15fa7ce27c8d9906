import PacketWire.Toml.Value

/-!
# Reading documents

A document is read line by line into statements: a header opens a table, an entry adds a value to
the table that was opened last. The statements in order then build the tree. Reading yields
nothing as soon as a line is ill-formed or a statement contradicts those before it.
-/

namespace PacketWire.Toml

/-! ### Statements -/

inductive Statement
  /-- Opens the table of that name. -/
  | table (way : List String) (key : String)
  /-- Opens one more table of that name. -/
  | repeated (way : List String) (key : String)
  /-- Adds a value to the open table. -/
  | entry (way : List String) (key : String) (value : Value)
  deriving Repr

def header : Reader Statement :=
  Reader.orElse
    (do
      Reader.exactly ['[', '[']
      let (way, key) ← dottedKey
      Reader.exactly [']', ']']
      return .repeated way key)
    (do
      Reader.char '['
      let (way, key) ← dottedKey
      Reader.char ']'
      return .table way key)

def entry : Reader Statement := do
  let (way, key) ← dottedKey
  Reader.char '='
  spaces
  let v ← value maxDepth
  return .entry way key v

/-- A line without its end: at most one statement, then possibly a comment. -/
def line : Reader (Option Statement) := do
  spaces
  let statement ← Reader.optional (Reader.orElse header entry)
  spaces
  Reader.skip skipComment length_skipComment_le
  return statement

/-- The statements of a text. Every line is followed by a line end or ends the text. -/
def statements (input : List Char) : Option (List Statement) :=
  match _h : line.run input with
  | none => none
  | some (statement, []) => some statement.toList
  | some (statement, c :: rest) =>
    match _n : afterNewline? (c :: rest) with
    | none => none
    | some after => (statements after).map fun later => statement.toList ++ later
termination_by input.length
decreasing_by
  have := line.length_le _h
  have := length_afterNewline?_lt _n
  omega

/-! ### Trees -/

/-- A tree under construction: the whole of it, and the way to the table that is open. -/
structure Draft where
  root : Table := []
  current : List String := []

def Draft.add (d : Draft) : Statement → Option Draft
  | .table way key =>
    (d.root.within way (Table.openTable key)).map fun root => ⟨root, way ++ [key]⟩
  | .repeated way key =>
    (d.root.within way (Table.openRepeated key)).map fun root => ⟨root, way ++ [key]⟩
  | .entry way key v =>
    (d.root.within d.current (Table.insertDotted way key v)).map fun root =>
      { d with root }

def build (statements : List Statement) : Option Table :=
  (statements.foldlM Draft.add {}).map Draft.root

/-- A text without the mark that some editors put in front of it. -/
def withoutMark : List Char → List Char
  | '\uFEFF' :: rest => rest
  | input => input

def parse (text : String) : Option Table := do
  build (← statements (withoutMark text.toList))

end PacketWire.Toml
