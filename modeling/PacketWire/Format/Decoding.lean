import PacketWire.Format.Encoding
import PacketWire.Malformed

/-!
# Reading packets

A whole message is read as one packet. The binary and base64 formats mark the packet as binary,
whether or not there was a payload; the string format leaves it unmarked.
-/

namespace PacketWire

def PacketType.readByte (b : UInt8) : Except Malformed PacketType :=
  match ofByte? b with
  | some t => .ok t
  | none => .error (.unknownType b)

def PacketType.readDigit (b : UInt8) : Except Malformed PacketType :=
  match ofDigit? b with
  | some t => .ok t
  | none => .error (.unknownType b)

namespace Format

def isLineBreak (b : UInt8) : Bool := b = 13 || b = 10

/-- A base64 text without the line breaks that a transport may have put into it. -/
def withoutLineBreaks (body : Bytes) : Bytes := body.filter fun b => !isLineBreak b

/-- The payload of a base64 message. Its text is copied only if line breaks have to be left out. -/
def decodeBody (body : Bytes) : Except Malformed Bytes :=
  if body.any isLineBreak then (Base64.decode (withoutLineBreaks body)).mapError .badPayload
  else (Base64.decode body).mapError .badPayload

/-- The flags that a format records on what it decodes. -/
def flags : Format → Flags
  | .string => .none
  | .binary | .base64 => .binaryOnly

def decode : Format → Bytes → Except Malformed Packet
  | _, [] => .error .empty
  | .binary, b :: payload => do
    let type ← PacketType.readByte b
    return ⟨type, payload, flags .binary⟩
  | .string, b :: payload => do
    let type ← PacketType.readDigit b
    return ⟨type, payload, flags .string⟩
  | .base64, [b] => do
    let type ← PacketType.readDigit b
    return ⟨type, [], flags .base64⟩
  | .base64, m :: b :: body =>
    if m = marker then do
      let type ← PacketType.readDigit b
      let payload ← decodeBody body
      return ⟨type, payload, flags .base64⟩
    else .error (.badFraming (m :: b :: body))

end Format

end PacketWire
