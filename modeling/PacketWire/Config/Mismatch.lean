import PacketWire.Choice
import PacketWire.Text.Quoted
import PacketWire.Toml.Tree

/-!
# Values that do not fit

A document can be well written and still hold a value that its key does not allow.
-/

namespace PacketWire

/-- What stands in a place, as far as a message shows it. -/
inductive Found
  | integer (n : Int)
  | float (x : Decimal.Binary64)
  | boolean (b : Bool)
  | text (s : String)
  | sequence
  | map
  deriving DecidableEq, Repr

/-- What is found where a value stands; a moment counts as a map of its parts. -/
def Found.ofValue : Toml.Value → Found
  | .text s => .text s
  | .number (.integer n) => .integer n.toInt
  | .number (.float x) => .float x
  | .boolean b => .boolean b
  | .moment _ | .table .. => .map
  | .array _ | .tables _ => .sequence

def Found.words : Found → String
  | .integer n => "integer " ++ Choice.ticked (toString n)
  | .float x => "floating point " ++ Choice.ticked x.text
  | .boolean b => "boolean " ++ Choice.ticked (if b then "true" else "false")
  | .text s => "string " ++ Text.quoted s
  | .sequence => "sequence"
  | .map => "map"

inductive Expected
  | codecSettings
  | logSettings
  | size
  | text
  | truthValue
  deriving DecidableEq, Repr

def Expected.words : Expected → String
  | .codecSettings => "struct CodecSettings"
  | .logSettings => "struct LoggingConfig"
  | .size => "usize"
  | .text => "a string"
  | .truthValue => "a boolean"

inductive Mismatch
  | wrongType (found : Found) (expected : Expected)
  /-- A size below zero. -/
  | negativeSize (n : Int)
  /-- A level that is neither a name nor a number from one to five. -/
  | unknownLevel (text : String)
  /-- A name that is none of the formats. -/
  | unknownFormat (cause : Choice.Error)
  /-- A format is neither named by a text nor by the key of a table. -/
  | notAFormat
  /-- A table that should name a format has no key. -/
  | noFormat
  /-- A table that should name a format has several keys. -/
  | severalFormats
  /-- The table or array under the name of a format is not empty. -/
  | formatWithContent
  /-- The repeated tables under the name of a format hold something. -/
  | formatWithTables
  /-- Something else than a table stands under the name of a format. -/
  | formatWithValue (type : String)
  deriving DecidableEq, Repr

def Mismatch.message : Mismatch → String
  | .wrongType found expected =>
    "invalid type: " ++ found.words ++ ", expected " ++ expected.words
  | .negativeSize n =>
    "invalid value: " ++ (Found.integer n).words ++ ", expected " ++ Expected.size.words
  | .unknownLevel text => "Invalid log level: " ++ text
  | .unknownFormat cause => cause.message
  | .notAFormat => "wanted string or table"
  | .noFormat => "wanted exactly 1 element, found 0 elements"
  | .severalFormats => "wanted exactly 1 element, more than 1 element"
  | .formatWithContent => "expected empty table"
  | .formatWithTables => "expected empty array"
  | .formatWithValue type => "expected table, found " ++ type

end PacketWire
