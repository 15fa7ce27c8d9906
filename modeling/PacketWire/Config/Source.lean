import PacketWire.Config.Error
import PacketWire.Config.OfTable
import PacketWire.Text.Utf8
import PacketWire.Toml.Document

/-!
# Where a configuration comes from

A configuration is read from the text of a document, from a file that holds one, or from three
environment variables.
-/

namespace PacketWire

/-! ### Documents and files -/

def Config.ofText (text : String) : Except Config.Error Config :=
  match Toml.parse text with
  | none => .error .notADocument
  | some table => (Config.ofTable table).mapError .mismatch

inductive File
  | missing
  | directory
  | regular (content : Bytes)
  deriving DecidableEq, Repr

def File.text : File → Except FileFailure String
  | .missing => .error .missing
  | .directory => .error .isDirectory
  | .regular content =>
    match Utf8.decode? content with
    | some text => .ok text
    | none => .error .notUtf8

def Config.ofFile (file : File) : Except Config.Error Config := do
  Config.ofText (← file.text.mapError .file)

/-! ### Environment variables -/

/-- The three variables, each unset or holding a text. -/
structure Environment where
  kind : Option String := none
  size : Option String := none
  level : Option String := none
  deriving DecidableEq, Repr

/-- The three variables as they are stored, each unset or holding bytes. -/
structure RawEnvironment where
  kind : Option Bytes := none
  size : Option Bytes := none
  level : Option Bytes := none
  deriving DecidableEq, Repr

/-- The variables that can be read as texts; one that is not UTF-8 counts as unset. -/
def RawEnvironment.readable (e : RawEnvironment) : Environment :=
  ⟨e.kind.bind Utf8.decode?, e.size.bind Utf8.decode?, e.level.bind Utf8.decode?⟩

/-- Reads a variable if it is set, and keeps the default otherwise. -/
def Environment.get {α : Type} (held : Option String) (default : α)
    (read : String → Except Config.Error α) : Except Config.Error α :=
  match held with
  | none => .ok default
  | some text => read text

def Environment.readFormat (text : String) : Except Config.Error Format :=
  (Format.parse text).mapError .unknownFormat

/-- The size that the text of a variable means, apart from blanks around it. -/
def Environment.readSize (text : String) : Except Config.Error UInt64 :=
  (Numeral.parse (Text.trim text)).mapError .badSize

/-- The level that the text of a variable means, apart from blanks around it. -/
def Environment.readLevel (text : String) : Except Config.Error Level :=
  match Level.parse? (Text.trim text) with
  | some l => .ok l
  | none => .error (.badLevel text)

/-- The configuration that the variables describe: defaults with the fields of the variables that
are set. The variables are read in order, and the first that cannot be read is reported. -/
def Config.ofEnvironment (e : Environment) : Except Config.Error Config := do
  let start : Config := {}
  let format ← Environment.get e.kind start.codec.format Environment.readFormat
  let size ← Environment.get e.size start.codec.maxMessageSize Environment.readSize
  let level ← Environment.get e.level start.logging.level Environment.readLevel
  return { codec := ⟨format, size⟩, logging := { start.logging with level } }

def Config.ofRawEnvironment (e : RawEnvironment) : Except Config.Error Config :=
  Config.ofEnvironment e.readable

end PacketWire
