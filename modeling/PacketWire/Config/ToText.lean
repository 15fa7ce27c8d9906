import PacketWire.Config.Basic
import PacketWire.Toml.Section

/-!
# A configuration as a document

Every field is written, under the key that reading looks for. Sizes that need the 64th bit cannot
be written, since the integers of a document have a sign.
-/

namespace PacketWire

inductive Unwritable
  | sizeOutOfRange
  deriving DecidableEq, Repr

def Unwritable.message : Unwritable → String
  | .sizeOutOfRange => "out-of-range value for u64 type"

namespace Config

def sections (c : Config) : List Toml.Section :=
  [⟨"codec",
    [("kind", .text c.codec.format.name),
     ("max_message_size", .natural c.codec.maxMessageSize.toNat)]⟩,
   ⟨"logging",
    [("app_name", .text c.logging.appName),
     ("log_level", .text c.logging.level.name),
     ("json_format", .boolean c.logging.json)]⟩]

def toText (c : Config) : Except Unwritable String :=
  if c.codec.maxMessageSize.toNat ≤ Int64.maxValue.toInt then .ok (Toml.spellDocument c.sections)
  else .error .sizeOutOfRange

/-- The text of the default configuration, to start from. -/
def exampleText : String :=
  match toText {} with
  | .ok text => text
  | .error _ => "# Failed to generate example config"

end Config

end PacketWire
