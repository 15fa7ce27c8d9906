import PacketWire.Choice
import PacketWire.Numeral
import PacketWire.Text.Blank

/-!
# Log levels

How much is logged, from errors alone to every step. A level may be given by name, in any mixture
of capitals and small letters, or as a numeral from one to five.
-/

namespace PacketWire

inductive Level
  | error
  | warn
  | info
  | debug
  | trace
  deriving DecidableEq, Repr

namespace Level

def all : List Level := [.error, .warn, .info, .debug, .trace]

def name : Level → String
  | .error => "error"
  | .warn => "warn"
  | .info => "info"
  | .debug => "debug"
  | .trace => "trace"

instance : Listed Level := ⟨all, name⟩

/-- The name in capitals, as it stands in a log. -/
def capitals : Level → String
  | .error => "ERROR"
  | .warn => "WARN"
  | .info => "INFO"
  | .debug => "DEBUG"
  | .trace => "TRACE"

/-- The position of a level, counted from one. -/
def rank : Level → Nat
  | .error => 1
  | .warn => 2
  | .info => 3
  | .debug => 4
  | .trace => 5

def ofRank? (n : Nat) : Option Level := all.find? fun l => l.rank = n

/-- The level that a text names; blanks around it are not trimmed. -/
def parse? (text : String) : Option Level :=
  match Numeral.parse text with
  | .ok n => ofRank? n.toNat
  | .error _ => Choice.named? (Text.foldCase text)

end Level

end PacketWire
