import PacketWire.Choice
import PacketWire.Text.Blank

/-!
# Wire formats

The three ways to write a packet. A format is chosen by its name; a person who types the name may
add blanks around it and use capitals.
-/

namespace PacketWire

inductive Format
  /-- Raw bytes: the type as a byte, then the payload. -/
  | binary
  /-- Text: the type as a digit, then the payload, which has to be text itself. -/
  | string
  /-- Text that carries any payload, written in base64. -/
  | base64
  deriving DecidableEq, Repr

namespace Format

instance : Inhabited Format := ⟨.binary⟩

def all : List Format := [.binary, .string, .base64]

def name : Format → String
  | .binary => "binary"
  | .string => "string"
  | .base64 => "base64"

instance : Listed Format := ⟨all, name⟩

/-- The format may be used on a channel that carries text only. -/
def isTextSafe (f : Format) : Bool := f ≠ .binary

/-- A text that names no format, as it was compared: trimmed and in small letters. -/
structure Unknown where
  text : String
  deriving DecidableEq, Repr

def Unknown.message (u : Unknown) : String :=
  "Unknown codec kind: '" ++ u.text ++ "' (expected binary, string or base64)"

def parse (text : String) : Except Unknown Format :=
  let folded := Text.foldCase (Text.trim text)
  match Choice.named? folded with
  | some f => .ok f
  | none => .error ⟨folded⟩

end Format

end PacketWire
