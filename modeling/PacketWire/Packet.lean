import PacketWire.Bytes
import PacketWire.Choice

/-!
# Packets

A packet is a type, a payload and the marks that a decoder left on it. It is a plain value: an
absent payload is the empty one.

A type is written in one of two ways, as the raw byte `0 … 6` or as the ASCII digit `'0' … '6'`;
each reading accepts exactly what the matching writing produces
(`ofByte?_eq_some_iff`, `ofDigit?_eq_some_iff`).
-/

namespace PacketWire

/-! ### Types -/

inductive PacketType
  | opening
  | closing
  | ping
  | pong
  | message
  | upgrade
  | noop
  deriving DecidableEq, Repr

namespace PacketType

def all : List PacketType :=
  [.opening, .closing, .ping, .pong, .message, .upgrade, .noop]

def name : PacketType → String
  | .opening => "open"
  | .closing => "close"
  | .ping => "ping"
  | .pong => "pong"
  | .message => "message"
  | .upgrade => "upgrade"
  | .noop => "noop"

instance : Listed PacketType := ⟨all, name⟩

/-- The raw byte that stands for a type on a binary channel. -/
def byte : PacketType → UInt8
  | .opening => 0
  | .closing => 1
  | .ping => 2
  | .pong => 3
  | .message => 4
  | .upgrade => 5
  | .noop => 6

/-- The ASCII digit that stands for a type on a text channel. -/
def digit (t : PacketType) : UInt8 := 48 + t.byte

/-- The type that a raw byte stands for; a digit is not one. -/
def ofByte? (b : UInt8) : Option PacketType := all.find? fun t => t.byte = b

/-- The type that an ASCII digit stands for; a raw byte is not one. -/
def ofDigit? (b : UInt8) : Option PacketType := all.find? fun t => t.digit = b

theorem ofByte?_byte (t : PacketType) : ofByte? t.byte = some t := by cases t <;> decide

theorem ofDigit?_digit (t : PacketType) : ofDigit? t.digit = some t := by cases t <;> decide

theorem ofByte?_eq_some_iff {b : UInt8} {t : PacketType} : ofByte? b = some t ↔ b = t.byte := by
  refine ⟨fun h => ?_, fun h => h ▸ ofByte?_byte t⟩
  have found : t.byte = b := by simpa using List.find?_some h
  exact found.symm

theorem ofDigit?_eq_some_iff {b : UInt8} {t : PacketType} :
    ofDigit? b = some t ↔ b = t.digit := by
  refine ⟨fun h => ?_, fun h => h ▸ ofDigit?_digit t⟩
  have found : t.digit = b := by simpa using List.find?_some h
  exact found.symm

end PacketType

/-! ### Marks -/

/-- The marks that decoding leaves on a packet: whether its wire form could carry raw bytes. -/
structure Flags where
  /-- The payload arrived in a form that can carry any bytes. -/
  binary : Bool := false
  deriving DecidableEq, Repr, Inhabited

namespace Flags

/-- No mark at all, which is what a packet starts with. -/
def none : Flags := {}

/-- The single mark that exists. -/
def binaryOnly : Flags := ⟨true⟩

/-- Every mark of `b` is also on `a`. -/
def contains (a b : Flags) : Bool := !b.binary || a.binary

def isEmpty (a : Flags) : Bool := !a.binary

end Flags

/-! ### Packets -/

structure Packet where
  type : PacketType
  payload : Bytes := []
  flags : Flags := .none
  deriving DecidableEq, Repr

namespace Packet

/-- The packet is marked as having come from a form that can carry any bytes. -/
def isBinary (p : Packet) : Bool := p.flags.contains .binaryOnly

def size (p : Packet) : Nat := p.payload.length

def isEmpty (p : Packet) : Bool := p.payload.isEmpty

end Packet

end PacketWire
