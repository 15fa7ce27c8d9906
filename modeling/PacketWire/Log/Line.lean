import PacketWire.Log.Event
import PacketWire.Text.Quoted

/-!
# Lines of the log

An event is shown with its level, the part of the program that it comes from, a message and named
fields, either on one line of plain text or as a JSON object.
-/

namespace PacketWire.Log

inductive FieldValue
  /-- Shown as it is. -/
  | bare (text : String)
  /-- Shown in quotes on a plain line. -/
  | quoted (text : String)
  | number (n : Nat)
  deriving DecidableEq, Repr

structure Entry where
  level : Level
  target : String
  message : String
  fields : List (String × FieldValue)
  deriving DecidableEq, Repr

def formatTarget : Format → String
  | .binary => "packet_codec::core::codec::binary"
  | .string => "packet_codec::core::codec::text"
  | .base64 => "packet_codec::core::codec::base64"

def packetFields (format : Format) (type : PacketType) (size : Nat) :
    List (String × FieldValue) :=
  [("codec", .quoted format.name), ("ptype", .bare type.name), ("len", .number size)]

def Event.entry (e : Event) : Entry :=
  match e with
  | .decoded format type size short =>
    { level := e.level
      target := formatTarget format
      message := if short then "decoded short-form packet" else "decoded packet"
      fields := packetFields format type size }
  | .encoded format type size short =>
    { level := e.level
      target := formatTarget format
      message := if short then "encoded short-form packet" else "encoded packet"
      fields := packetFields format type size }
  | .refused format size limit =>
    { level := e.level
      target := "packet_codec::core::framing"
      message := "rejecting oversized message"
      fields := [("codec", .bare format.name), ("size", .number size),
        ("limit", .number limit.toNat)] }
  | .started app level =>
    { level := e.level
      target := "packet_codec::utils::logging"
      message := "logging initialized"
      fields := [("app", .bare app), ("level", .bare level.capitals)] }

def FieldValue.plain : FieldValue → String
  | .bare text => text
  | .quoted text => Text.quoted text
  | .number n => toString n

/-- A plain line. Levels are aligned at the right. -/
def Entry.plain (e : Entry) : String :=
  let level := e.level.capitals
  "".pushn ' ' (5 - level.length) ++ level ++ " " ++ e.target ++ ": " ++ e.message
    ++ String.join (e.fields.map fun f => " " ++ f.1 ++ "=" ++ f.2.plain)

inductive Line
  | plain (text : String)
  | object (entry : Entry)
  deriving DecidableEq, Repr

end PacketWire.Log
