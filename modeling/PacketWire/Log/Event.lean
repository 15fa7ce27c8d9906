import PacketWire.Config.Basic
import PacketWire.Format.Transcoding
import PacketWire.Format.Writing
import PacketWire.Mailbox

/-!
# Events

What the library has to say about its work. An event follows from what was done and what came of
it: a packet that was read or written completely, a message that was too long, and the start of
the log itself. Failures other than an over-long message are reported to the caller alone.
-/

namespace PacketWire.Log

inductive Event
  /-- A packet was read. A message of a lone digit in the base64 format is the short form. -/
  | decoded (format : Format) (type : PacketType) (size : Nat) (short : Bool)
  /-- A packet was written. -/
  | encoded (format : Format) (type : PacketType) (size : Nat) (short : Bool)
  /-- A message was refused for its size. -/
  | refused (format : Format) (size : Nat) (limit : UInt64)
  /-- The log was started. -/
  | started (app : String) (level : Level)
  deriving DecidableEq, Repr

namespace Event

/-- How much has to be logged for an event to appear. -/
def level : Event → Level
  | .decoded .. | .encoded .. => .trace
  | .refused .. => .debug
  | .started .. => .info

def ofDecoded (f : Format) (message : Bytes) (p : Packet) : Event :=
  .decoded f p.type p.size (f = .base64 ∧ message.length = 1)

def ofEncoded (f : Format) (p : Packet) : Event :=
  .encoded f p.type p.size (f = .base64 ∧ p.isEmpty)

def ofDecoding (f : Format) (message : Bytes) : List Event :=
  match f.decode message with
  | .ok p => [ofDecoded f message p]
  | .error _ => []

def ofWriting (f : Format) (p : Packet) (run : Sink.Run) : List Event :=
  match run.result with
  | .ok () => [ofEncoded f p]
  | .error _ => []

def ofYield (y : Transcoding.Yield) : List Event :=
  [ofDecoded y.step.source y.received y.packet, ofEncoded y.step.target y.packet]

def ofTranscoding (steps : List (Except Malformed Transcoding.Yield)) : List Event :=
  steps.flatMap fun
    | .ok y => ofYield y
    | .error _ => []

def ofTaking (m : Mailbox) (buffer : Bytes) (result : Except Fault (Option Packet)) :
    List Event :=
  match result with
  | .ok (some p) => [ofDecoded m.format buffer p]
  | .error (.oversized size) => [.refused m.format size m.limit]
  | _ => []

def ofTurn (t : Session.Turn) : List Event :=
  match t.step, t.reply with
  | .post p, _ => [ofEncoded t.before.mailbox.format p]
  | _, .taken result => ofTaking t.before.mailbox t.before.buffer result
  | _, _ => []

end Event

end PacketWire.Log
