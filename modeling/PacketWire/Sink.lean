import PacketWire.Bytes

/-!
# Sinks

A sink takes bytes in calls. Each call may take all that it is offered, only a part of it, or
fail; a script lists these outcomes in advance, and a sink whose script has ended takes
everything. The record of a run is the list of calls in order, from which the bytes that the sink
holds follow (`Run.accepted`).
-/

namespace PacketWire.Sink

inductive FailureKind
  | notFound | permissionDenied | alreadyExists
  -- the connection
  | connectionRefused | connectionReset | connectionAborted | notConnected | hostUnreachable
  | networkUnreachable | networkDown | addrInUse | addrNotAvailable | brokenPipe
  -- the call
  | wouldBlock | inProgress | timedOut | interrupted | invalidInput | invalidData | writeZero
  | unexpectedEof | unsupported
  -- files and devices
  | notADirectory | isADirectory | directoryNotEmpty | readOnlyFilesystem | filesystemLoop
  | staleNetworkFileHandle | storageFull | notSeekable | quotaExceeded | fileTooLarge
  | resourceBusy | executableFileBusy | deadlock | crossesDevices | tooManyLinks | invalidFilename
  | argumentListTooLong | outOfMemory
  -- none of these
  | other | uncategorized
  deriving DecidableEq, Repr

/-- A failure, with the words that came with it. -/
structure Failure where
  kind : FailureKind
  text : String
  deriving DecidableEq, Repr

inductive Outcome
  | all
  | atMost (count : Nat)
  | fail (failure : Failure)
  deriving DecidableEq, Repr

inductive Answer
  | accepted (count : Nat)
  | failed (failure : Failure)
  deriving DecidableEq, Repr

/-- What comes of offering that many bytes. -/
def Outcome.answer (offered : Nat) : Outcome → Answer
  | .all => .accepted offered
  | .atMost count => .accepted (min count offered)
  | .fail failure => .failed failure

/-- One call: the bytes that were offered, and how it ended. -/
structure Call where
  offered : Bytes
  answer : Answer
  deriving DecidableEq, Repr

def Call.accepted (c : Call) : Bytes :=
  match c.answer with
  | .accepted count => c.offered.take count
  | .failed _ => []

/-- A finished series of calls: the calls in order, how the series ended, and the outcomes that
were not used up. -/
structure Run where
  calls : List Call
  result : Except Failure Unit
  unused : List Outcome

def Run.accepted (r : Run) : Bytes := r.calls.flatMap Call.accepted

def Run.after (c : Call) (r : Run) : Run := { r with calls := c :: r.calls }

/-- The run `r`, continued by `next` from where it left the script if it went well. -/
def Run.andThen (r : Run) (next : List Outcome → Run) : Run :=
  match r.result with
  | .error _ => r
  | .ok () =>
    let later := next r.unused
    { later with calls := r.calls ++ later.calls }

/-- The failure of a sink that takes nothing although there is something to take. -/
def tookNothing : Failure := ⟨.writeZero, "failed to write whole buffer"⟩

/-- Offers what is left of the bytes until nothing is left. A call that was interrupted is
repeated; one that takes nothing, or fails otherwise, ends the run. -/
def offerAll (bytes : Bytes) (script : List Outcome) : Run :=
  if bytes.isEmpty then ⟨[], .ok (), script⟩
  else match script with
    | [] => ⟨[⟨bytes, .accepted bytes.length⟩], .ok (), []⟩
    | outcome :: later =>
      let answer := outcome.answer bytes.length
      let call : Call := ⟨bytes, answer⟩
      match answer with
      | .accepted 0 => ⟨[call], .error tookNothing, later⟩
      | .accepted count => .after call (offerAll (bytes.drop count) later)
      | .failed failure =>
        if failure.kind = .interrupted then .after call (offerAll bytes later)
        else ⟨[call], .error failure, later⟩

/-- Offers the bytes in a single call; only a failure matters, not how much was taken. -/
def offerOnce (bytes : Bytes) : List Outcome → Run
  | [] => ⟨[⟨bytes, .accepted bytes.length⟩], .ok (), []⟩
  | outcome :: later =>
    let answer := outcome.answer bytes.length
    match answer with
    | .accepted _ => ⟨[⟨bytes, answer⟩], .ok (), later⟩
    | .failed failure => ⟨[⟨bytes, answer⟩], .error failure, later⟩

end PacketWire.Sink
