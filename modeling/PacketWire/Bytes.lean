/-!
# Bytes

Everything that travels over a transport is a list of bytes, so that a payload can be taken apart
by pattern and its length is the length of the list.
-/

namespace PacketWire

/-- A run of bytes, in the order in which they travel. -/
abbrev Bytes := List UInt8

def hexByte (b : UInt8) : String :=
  String.ofList [Nat.digitChar (b.toNat / 16), Nat.digitChar (b.toNat % 16)]

end PacketWire
