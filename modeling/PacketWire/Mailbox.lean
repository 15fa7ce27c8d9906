import PacketWire.Config.Basic
import PacketWire.Fault
import PacketWire.Format.Decoding

/-!
# Mailboxes

On a channel of messages each message is exactly one packet. A mailbox reads and writes such
messages in one format, over a buffer: what is written is appended to it, and what is read is all
of it at once. A buffer that is longer than the limit is refused and left alone, so that it stays
refused until it is cleared or the limit is raised.
-/

namespace PacketWire

/-- A wire format with a limit on the size of received messages. -/
structure Mailbox where
  format : Format := .binary
  limit : UInt64 := defaultMaxMessageSize
  deriving DecidableEq, Repr

namespace Mailbox

def ofSettings (s : CodecSettings) : Mailbox := ⟨s.format, s.maxMessageSize⟩

def post (m : Mailbox) (p : Packet) (buffer : Bytes) : Bytes := buffer ++ m.format.encode p

/-- Takes the message in a buffer: nothing from an empty one, and otherwise the whole of it unless
it is too long. Yields the buffer that is left. -/
def take (m : Mailbox) (buffer : Bytes) : Except Fault (Option Packet) × Bytes :=
  if buffer.isEmpty then (.ok none, buffer)
  else if m.limit.toNat < buffer.length then (.error (.oversized buffer.length), buffer)
  else ((m.format.decode buffer).mapError .malformed |>.map some, [])

/-- The fault of a channel that ends in the middle of a message. -/
def cutShort : Sink.Failure := ⟨.other, "bytes remaining on stream"⟩

/-- Takes the message in a buffer to which nothing will be added any more: bytes that are left
over without a message are a fault. -/
def takeLast (m : Mailbox) (buffer : Bytes) : Except Fault (Option Packet) × Bytes :=
  match m.take buffer with
  | (.ok none, left) => if left.isEmpty then (.ok none, left) else (.error (.sink cutShort), left)
  | taken => taken

end Mailbox

/-! ### Sessions -/

/-- A mailbox at work on one buffer. -/
structure Session where
  mailbox : Mailbox := {}
  buffer : Bytes := []
  deriving DecidableEq, Repr

namespace Session

inductive Step
  /-- Bytes arrive. -/
  | receive (bytes : Bytes)
  /-- The buffer is emptied. -/
  | clear
  | post (packet : Packet)
  | take
  | takeLast
  | setLimit (limit : UInt64)
  /-- The format is replaced; the limit is kept or becomes the default. -/
  | switch (format : Format) (keepLimit : Bool)
  /-- Asks which mailbox is at work. -/
  | look
  deriving DecidableEq, Repr

inductive Reply
  | done
  | taken (result : Except Fault (Option Packet))
  | mailbox (mailbox : Mailbox)

def step (s : Session) : Step → Reply × Session
  | .receive bytes => (.done, { s with buffer := s.buffer ++ bytes })
  | .clear => (.done, { s with buffer := [] })
  | .post p => (.done, { s with buffer := s.mailbox.post p s.buffer })
  | .take =>
    let (result, left) := s.mailbox.take s.buffer
    (.taken result, { s with buffer := left })
  | .takeLast =>
    let (result, left) := s.mailbox.takeLast s.buffer
    (.taken result, { s with buffer := left })
  | .setLimit limit => (.done, { s with mailbox := { s.mailbox with limit } })
  | .switch format keepLimit =>
    let limit := if keepLimit then s.mailbox.limit else defaultMaxMessageSize
    (.done, { s with mailbox := ⟨format, limit⟩ })
  | .look => (.mailbox s.mailbox, s)

/-- A step that was made, with the session before and after it. -/
structure Turn where
  before : Session
  step : Step
  reply : Reply
  after : Session

def run (s : Session) : List Step → List Turn
  | [] => []
  | step :: later =>
    let (reply, after) := s.step step
    ⟨s, step, reply, after⟩ :: run after later

end Session

end PacketWire
