import DebugAdapter.Packet.Basic
import DebugAdapter.Json.Writer

/-!
# Writing packets

`Sink` is the receiving end of a stream. It may take only so many bytes; the write that goes beyond
them delivers what still fits and fails, and so does every later one.
-/

namespace DebugAdapter.Packet

structure Sink where
  accepted : Bytes := []
  /-- How many bytes are still taken; none where there is no limit. -/
  room : Option Nat := none
  shut : Bool := false
deriving DecidableEq, Repr

/-- Whether all bytes were taken, and the sink after it. -/
def Sink.write (sink : Sink) (bytes : Bytes) : Bool × Sink :=
  match sink.room with
  | none => (true, { sink with accepted := sink.accepted ++ bytes })
  | some room =>
    (decide (bytes.length ≤ room),
      { sink with
        accepted := sink.accepted ++ bytes.take room
        room := some (room - bytes.length) })

def Sink.failure : String := "pipe full"

def Sink.shutDown (sink : Sink) : Sink := { sink with shut := true }

def ofJson (endpoint : String) (message : Json) : Bytes :=
  encode endpoint (Text.utf8 message.text)

end DebugAdapter.Packet
