import PacketWire.Config.Mismatch
import PacketWire.Config.Problem

/-!
# Configurations that cannot be had
-/

namespace PacketWire

inductive FileFailure
  | missing
  | isDirectory
  | notUtf8
  deriving DecidableEq, Repr

def FileFailure.message : FileFailure → String
  | .missing => "No such file or directory (os error 2)"
  | .isDirectory => "Is a directory (os error 21)"
  | .notUtf8 => "stream did not contain valid UTF-8"

/-- A file that does not exist cannot be opened; the other failures come with the first read. -/
def FileFailure.verb : FileFailure → String
  | .missing => "open"
  | .isDirectory | .notUtf8 => "read"

namespace Config

def sizeVariable : String := "PACKET_CODEC_MAX_MESSAGE_SIZE"

def levelVariable : String := "PACKET_CODEC_LOG_LEVEL"

inductive Error
  /-- A text that names no format. -/
  | unknownFormat (unknown : Format.Unknown)
  /-- The variable for the size holds no numeral. -/
  | badSize (cause : Numeral.Error)
  /-- The variable for the level holds no level; the text is shown as it stands. -/
  | badLevel (text : String)
  | file (failure : FileFailure)
  /-- The text is not a well-written document. -/
  | notADocument
  /-- The document holds a value that its key does not allow. -/
  | mismatch (cause : Mismatch)
  /-- The configuration makes no sense. -/
  | invalid (problems : List Problem)
  deriving DecidableEq, Repr

def Error.message : Error → String
  | .unknownFormat unknown => unknown.message
  | .badSize cause => "Invalid " ++ sizeVariable ++ ": " ++ cause.message
  | .badLevel text => "Invalid " ++ levelVariable ++ ": " ++ text
  | .file failure => "Failed to " ++ failure.verb ++ " config file: " ++ failure.message
  | .notADocument => "Failed to parse TOML"
  | .mismatch cause => "Failed to parse TOML: " ++ cause.message
  | .invalid problems =>
    "Configuration validation failed:\n  - "
      ++ "\n  - ".intercalate (problems.map Problem.message)

/-- Nothing, if the configuration makes sense. -/
def validate (c : Config) : Except Error Unit :=
  if c.problems.isEmpty then .ok () else .error (.invalid c.problems)

end Config

end PacketWire
