import PacketWire.Toml.Moment
import PacketWire.Toml.Number

/-!
# Documents as trees

A document is a table: keys in the order in which they were introduced, each with a value. A table
remembers how it came about, since that decides what a document may still add to it.
-/

namespace PacketWire.Toml

/-- How a table came about. -/
inductive Origin
  /-- Written out in braces; nothing is added to it later. -/
  | braces
  /-- Opened by a header of its own. -/
  | header
  /-- Needed by the header of a table inside it; its own header may still follow. -/
  | implied
  /-- Needed by a dotted key; other dotted keys may add to it. -/
  | dotted
  deriving DecidableEq, Repr

inductive Value
  | text (s : String)
  | number (n : Number)
  | boolean (b : Bool)
  | moment (m : Moment)
  | array (items : List Value)
  /-- Tables under one key, opened one after the other by repeated headers. -/
  | tables (items : List (List (String × Value)))
  | table (origin : Origin) (entries : List (String × Value))
  deriving Repr

/-- The entries of a table, in the order in which their keys were introduced. -/
abbrev Table := List (String × Value)

namespace Table

def get? (t : Table) (key : String) : Option Value := t.lookup key

/-- Replaces the value under a key, or adds the key at the end. The change is told what is there
and may refuse. -/
def alter (key : String) (change : Option Value → Option Value) : Table → Option Table
  | [] => (change none).map fun v => [(key, v)]
  | (k, v) :: rest =>
    if k = key then (change (some v)).map fun w => (k, w) :: rest
    else (alter key change rest).map fun rest => (k, v) :: rest

def erase (t : Table) (key : String) : Table := t.filter fun e => e.1 ≠ key

end Table

/-- Changes the last item of a list; there has to be one. -/
def changeLast {α : Type} (change : α → Option α) : List α → Option (List α)
  | [] => none
  | [x] => (change x).map fun y => [y]
  | x :: y :: rest => (changeLast change (y :: rest)).map fun rest => x :: rest

/-! ### Dotted keys -/

/-- Adds a value under a dotted key, given as the keys on the way and the last one. Tables on the
way come about as needed. A way may lead through tables made by dotted keys; through one that a
header implied, or the last of repeated tables, only if it does not end there. A key that is
present is never written again. -/
def Table.insertDotted (way : List String) (key : String) (value : Value) (t : Table) :
    Option Table :=
  match way with
  | [] =>
    t.alter key fun
      | none => some value
      | some _ => none
  | step :: later =>
    t.alter step fun
      | none => (insertDotted later key value []).map (.table .dotted)
      | some (.table origin entries) =>
        -- A table with a header of its own is complete; one that is implied may only be passed.
        if origin = .dotted ∨ (origin = .implied ∧ later ≠ []) then
          (insertDotted later key value entries).map (.table origin)
        else none
      | some (.tables items) =>
        if later ≠ [] then (changeLast (insertDotted later key value) items).map .tables
        else none
      | some _ => none

/-- A table written in braces, from its dotted keys and values in order. -/
def Table.ofPairs (pairs : List (List String × String × Value)) : Option Table :=
  pairs.foldlM (fun t p => t.insertDotted p.1 p.2.1 p.2.2) []

/-! ### Headers -/

/-- Changes the table that the keys of a header lead to. Tables on the way are implied as needed;
the way may lead through any table that is not in braces, and of repeated tables through the
last. -/
def Table.within (way : List String) (change : Table → Option Table) (t : Table) :
    Option Table :=
  match way with
  | [] => change t
  | step :: later =>
    t.alter step fun
      | none => (within later change []).map (.table .implied)
      | some (.table origin entries) =>
        if origin = .braces then none
        else (within later change entries).map (.table origin)
      | some (.tables items) => (changeLast (within later change) items).map .tables
      | some _ => none

/-- Opens the table under a key: a new one, or one that was only implied, which then counts as
introduced here. -/
def Table.openTable (key : String) (t : Table) : Option Table :=
  match t.get? key with
  | none => some (t ++ [(key, .table .header [])])
  | some (.table .implied entries) => some (t.erase key ++ [(key, .table .header entries)])
  | some _ => none

/-- Opens one more of the repeated tables under a key. -/
def Table.openRepeated (key : String) (t : Table) : Option Table :=
  t.alter key fun
    | none => some (.tables [[]])
    | some (.tables items) => some (.tables (items ++ [[]]))
    | some _ => none

end PacketWire.Toml
