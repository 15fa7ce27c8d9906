import PacketWire.Format.Encoding
import PacketWire.Sink

/-!
# Writing packets to a sink

The segments of a packet are offered one after the other, each only when the one before it has
gone through. What a sink took before a failure stays with it.
-/

namespace PacketWire

def Segment.write : Segment → List Sink.Outcome → Sink.Run
  | .whole bytes, script => Sink.offerAll bytes script
  | .empty, script => Sink.offerOnce [] script

/-- Offers segments in order, up to the first that fails. -/
def Segment.writeAll : List Segment → List Sink.Outcome → Sink.Run
  | [], script => ⟨[], .ok (), script⟩
  | s :: rest, script => (s.write script).andThen (writeAll rest)

def Format.write (f : Format) (p : Packet) (script : List Sink.Outcome) : Sink.Run :=
  Segment.writeAll (f.segments p) script

end PacketWire
