import PacketWire.Base64.Decoding
import PacketWire.Text.Utf8

/-!
# Malformed input

The four ways in which received bytes can fail to be a packet.
-/

namespace PacketWire

inductive Malformed
  /-- There are no bytes. -/
  | empty
  /-- The byte in the place of the packet type stands for none. -/
  | unknownType (byte : UInt8)
  /-- A base64 message of two or more bytes that lacks its marker; `raw` is all of it. -/
  | badFraming (raw : Bytes)
  /-- The payload is not base64. -/
  | badPayload (cause : Base64.Error)
  deriving DecidableEq, Repr

def Malformed.message : Malformed → String
  | .empty => "packet bytes is empty"
  | .unknownType byte => "invalid packet type: 0x" ++ hexByte byte
  | .badFraming raw => "invalid b64 packet: " ++ Utf8.decodeLossy raw
  | .badPayload cause => "invalid base64 payload: " ++ cause.message

end PacketWire
