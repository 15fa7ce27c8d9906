import PacketWire.Config.Basic
import PacketWire.Config.Mismatch

/-!
# A configuration from a document

A section of a configuration is a list of fields, each with its key and the way to set it. The
same list serves a table, whose keys may come in any order and may be unknown, and an array, whose
items are the fields in order. What is not given keeps its default; the first value that does not
fit, in the order of the document, is reported.
-/

namespace PacketWire

open Toml (Value Table)

/-! ### Fields and sections -/

structure Field (σ : Type) where
  key : String
  /-- Sets the field to a value, if the value fits. -/
  set : σ → Value → Except Mismatch σ

namespace Field

variable {σ : Type}

/-- Sets the field of that key; an unknown key changes nothing, whatever its value. -/
def setNamed (fields : List (Field σ)) (s : σ) (entry : String × Value) : Except Mismatch σ :=
  match fields.find? fun f => f.key = entry.1 with
  | some f => f.set s entry.2
  | none => .ok s

/-- Sets fields by the entries of a table, in their order. -/
def ofEntries (fields : List (Field σ)) (s : σ) (entries : Table) : Except Mismatch σ :=
  entries.foldlM (setNamed fields) s

/-- Sets fields by their position; missing items leave the last fields alone, further items are
ignored. -/
def ofItems (fields : List (Field σ)) (s : σ) (items : List Value) : Except Mismatch σ :=
  (fields.zip items).foldlM (fun s p => p.1.set s p.2) s

/-- Sets fields by a value: a table, an array, or repeated tables, which are an array of tables. A
moment is a table without any of the keys. -/
def ofValue (fields : List (Field σ)) (expected : Expected) (s : σ) :
    Value → Except Mismatch σ
  | .table _ entries => ofEntries fields s entries
  | .array items => ofItems fields s items
  | .tables items => ofItems fields s (items.map (Value.table .header))
  | .moment _ => .ok s
  | v => .error (.wrongType (Found.ofValue v) expected)

end Field

/-! ### Values of fields -/

/-- What stands under the name of a format has to be empty. -/
def Format.checkContent : Value → Except Mismatch Unit
  | .tables items => if items.isEmpty then .ok () else .error .formatWithTables
  | .array items => if items.isEmpty then .ok () else .error .formatWithContent
  | .table _ entries => if entries.isEmpty then .ok () else .error .formatWithContent
  | .text _ => .error (.formatWithValue "string")
  | .number (.integer _) => .error (.formatWithValue "integer")
  | .number (.float _) => .error (.formatWithValue "float")
  | .boolean _ => .error (.formatWithValue "boolean")
  | .moment _ => .error (.formatWithValue "datetime")

def Format.ofName (name : String) : Except Mismatch Format :=
  (Choice.byName name).mapError .unknownFormat

/-- A format: its name, or a table whose only key is its name. -/
def Format.ofValue : Value → Except Mismatch Format
  | .text name => ofName name
  | .table _ [] => .error .noFormat
  | .table _ [(name, content)] => do
    let f ← ofName name
    checkContent content
    return f
  | .table _ _ => .error .severalFormats
  | _ => .error .notAFormat

def sizeOfValue : Value → Except Mismatch UInt64
  | .number (.integer n) =>
    if n < 0 then .error (.negativeSize n.toInt) else .ok n.toUInt64
  | v => .error (.wrongType (Found.ofValue v) .size)

def textOfValue : Value → Except Mismatch String
  | .text s => .ok s
  | v => .error (.wrongType (Found.ofValue v) .text)

def truthOfValue : Value → Except Mismatch Bool
  | .boolean b => .ok b
  | v => .error (.wrongType (Found.ofValue v) .truthValue)

/-- A level: a text that names one or gives its number. -/
def Level.ofValue (v : Value) : Except Mismatch Level := do
  let text ← textOfValue v
  match Level.parse? text with
  | some l => return l
  | none => .error (.unknownLevel text)

/-! ### The sections of a configuration -/

def CodecSettings.fields : List (Field CodecSettings) :=
  [⟨"kind", fun s v => do return { s with format := ← Format.ofValue v }⟩,
   ⟨"max_message_size", fun s v => do return { s with maxMessageSize := ← sizeOfValue v }⟩]

def LogSettings.fields : List (Field LogSettings) :=
  [⟨"app_name", fun s v => do return { s with appName := ← textOfValue v }⟩,
   ⟨"log_level", fun s v => do return { s with level := ← Level.ofValue v }⟩,
   ⟨"json_format", fun s v => do return { s with json := ← truthOfValue v }⟩]

/-- The sections of a configuration; a section starts from its defaults. -/
def Config.fields : List (Field Config) :=
  [⟨"codec", fun c v => do
      return { c with codec := ← Field.ofValue CodecSettings.fields .codecSettings {} v }⟩,
   ⟨"logging", fun c v => do
      return { c with logging := ← Field.ofValue LogSettings.fields .logSettings {} v }⟩]

def Config.ofTable (t : Table) : Except Mismatch Config := Field.ofEntries Config.fields {} t

end PacketWire
