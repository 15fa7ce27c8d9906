import PacketWire.Config.Error
import PacketWire.Malformed
import PacketWire.Sink

/-!
# Faults

All that can go wrong, in one type. Only malformed input is the doing of whoever sent the bytes.
-/

namespace PacketWire

inductive Fault
  | malformed (cause : Malformed)
  | sink (failure : Sink.Failure)
  | oversized (size : Nat)
  | config (cause : Config.Error)
  deriving DecidableEq, Repr

namespace Fault

def isMalformedInput : Fault → Bool
  | .malformed _ => true
  | .sink _ | .oversized _ | .config _ => false

def message : Fault → String
  | .malformed cause => cause.message
  | .sink failure => "I/O error: " ++ failure.text
  | .oversized size => "Message too large: " ++ toString size ++ " bytes"
  | .config cause => "Configuration error: " ++ cause.message

end Fault

end PacketWire
