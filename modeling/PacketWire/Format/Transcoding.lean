import PacketWire.Format.Decoding

/-!
# Transcoding

A message is carried along a chain of steps. Each step reads it in one format and writes the
packet in another; the chain ends at the first message that cannot be read.
-/

namespace PacketWire

/-- One step of a chain: the format to read in and the format to write in. -/
structure Transcoding where
  source : Format
  target : Format
  deriving DecidableEq, Repr

namespace Transcoding

/-- What a step yields: the message it was given, the packet in it and the new message. -/
structure Yield where
  step : Transcoding
  received : Bytes
  packet : Packet
  sent : Bytes
  deriving DecidableEq, Repr

def apply (step : Transcoding) (message : Bytes) : Except Malformed Yield := do
  let packet ← step.source.decode message
  return ⟨step, message, packet, step.target.encode packet⟩

/-- The steps of a chain in order; a step that fails is the last of them. -/
def run : List Transcoding → Bytes → List (Except Malformed Yield)
  | [], _ => []
  | step :: later, message =>
    match step.apply message with
    | .error e => [.error e]
    | .ok y => .ok y :: run later y.sent

end Transcoding

end PacketWire
