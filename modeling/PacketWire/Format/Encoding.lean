import PacketWire.Base64.Encoding
import PacketWire.Format.Basic
import PacketWire.Packet

/-!
# Writing packets

A packet is written as a short sequence of segments. The segments are the single account of a
wire form: the encoded bytes are their concatenation (`encode`), and what a sink is offered, and
in which pieces, follows from them too.

| format | no payload        | with payload                    |
|--------|-------------------|---------------------------------|
| binary | type byte         | type byte, payload              |
| string | digit, then empty | digit, payload                  |
| base64 | digit             | marker, digit, base64 of payload |
-/

namespace PacketWire

inductive Segment
  /-- Bytes that are offered until all of them have been accepted. -/
  | whole (bytes : Bytes)
  /-- An empty offer, made exactly once: it shows a sink that a payload was due. -/
  | empty
  deriving DecidableEq, Repr

def Segment.bytes : Segment → Bytes
  | .whole bytes => bytes
  | .empty => []

namespace Format

/-- The byte `'b'` that opens a base64 message with a payload. -/
def marker : UInt8 := 98

/-- The segments of a packet, in the order in which they are written. The flags of the packet
do not matter. -/
def segments : Format → Packet → List Segment
  | .binary, p =>
    if p.isEmpty then [.whole [p.type.byte]]
    else [.whole [p.type.byte], .whole p.payload]
  | .string, p =>
    if p.isEmpty then [.whole [p.type.digit], .empty]
    else [.whole [p.type.digit], .whole p.payload]
  | .base64, p =>
    if p.isEmpty then [.whole [p.type.digit]]
    else [.whole [marker], .whole [p.type.digit], .whole (Base64.encode p.payload)]

def encode (f : Format) (p : Packet) : Bytes := (f.segments p).flatMap Segment.bytes

end Format

end PacketWire
