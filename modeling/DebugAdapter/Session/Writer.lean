import DebugAdapter.Packet.Writer
import DebugAdapter.Session.Handle

/-!
# Writing the outbox

What is queued for the client is written in the order in which it was queued and numbered from one
on. Writing ends with the first write that fails, or with the mark that nothing follows, after
which the stream is shut down.
-/

namespace DebugAdapter

/-- The message under its number, with its keys in the order of the wire. -/
def Outgoing.json? (number : UInt32) : Outgoing → Option Json
  | .response r => some (Protocol.response.encode { r with seq := number }).ordered
  | .event e => some (Protocol.event.encode { e with seq := number }).ordered
  | .close => none

inductive Writer.State where
  | writing
  | failed
  | finished
deriving DecidableEq, Repr

structure Writer where
  endpoint : String
  sink : Packet.Sink := {}
  number : UInt32 := 1
  /-- How much of the outbox was taken up. -/
  taken : Nat := 0
  state : Writer.State := .writing

namespace Writer

def write (w : Writer) (message : Json) : Writer :=
  let (ok, sink) := w.sink.write (Packet.ofJson w.endpoint message)
  { w with sink := sink, state := if ok then w.state else .failed }

def deliver (w : Writer) (m : Outgoing) : Writer :=
  match w.state with
  | .failed | .finished => w
  | .writing =>
    match m.json? w.number with
    | some message => { w.write message with number := w.number + 1, taken := w.taken + 1 }
    | none =>
      { w with sink := w.sink.shutDown, taken := w.taken + 1, state := .finished }

def flush (w : Writer) (outbox : List Outgoing) : Writer :=
  (outbox.drop w.taken).foldl deliver w

end Writer

end DebugAdapter
