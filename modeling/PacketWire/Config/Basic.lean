import PacketWire.Format.Basic
import PacketWire.Level

/-!
# Configuration

Which wire format messages use, how large one may be, and what is logged. Sizes are 64-bit words.
-/

namespace PacketWire

/-- The largest message that is accepted unless something else is said: 16 MiB. -/
def defaultMaxMessageSize : UInt64 := 16 * 1024 * 1024

structure CodecSettings where
  format : Format := .binary
  /-- The size in bytes up to which a received message is accepted. -/
  maxMessageSize : UInt64 := defaultMaxMessageSize
  deriving DecidableEq, Repr

structure LogSettings where
  /-- The name that the program gives itself in the log. -/
  appName : String := "packet-codec"
  level : Level := .info
  /-- Log lines are JSON objects. -/
  json : Bool := false
  deriving DecidableEq, Repr

structure Config where
  codec : CodecSettings := {}
  logging : LogSettings := {}
  deriving DecidableEq, Repr

end PacketWire
