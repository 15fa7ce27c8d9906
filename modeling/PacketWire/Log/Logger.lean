import PacketWire.Log.Line

/-!
# The log

There is no log until it is started. The first start decides for good which events appear and in
which form; any later start is refused and changes nothing.
-/

namespace PacketWire.Log

structure Logger where
  level : Level
  json : Bool
  deriving DecidableEq, Repr

def Logger.line (l : Logger) (e : Event) : Line :=
  if l.json then .object e.entry else .plain e.entry.plain

/-- The lines that events leave in a log, if there is one. -/
def lines (logger : Option Logger) (events : List Event) : List Line :=
  match logger with
  | none => []
  | some l => (events.filter fun e => e.level.rank ≤ l.level.rank).map l.line

/-- What comes of starting the log: whether it was started, the log there is now, and the events
of the start. -/
structure Start where
  accepted : Bool
  logger : Option Logger
  events : List Event

def start (s : LogSettings) (logger : Option Logger) : Start :=
  match logger with
  | none => ⟨true, some ⟨s.level, s.json⟩, [.started s.appName s.level]⟩
  | some l => ⟨false, some l, []⟩

end PacketWire.Log
