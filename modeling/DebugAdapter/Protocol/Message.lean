import DebugAdapter.Codec.Record

/-!
# Messages

Requests come from the client; responses and events go to it. The payload of each is any JSON.
-/

namespace DebugAdapter.Protocol

inductive MessageKind where
  | request
  | response
  | event
deriving DecidableEq, Repr

def MessageKind.name : MessageKind → String
  | .request => "request"
  | .response => "response"
  | .event => "event"

def messageKind : Codec MessageKind :=
  .enumeration [("request", .request), ("response", .response), ("event", .event)] MessageKind.name

structure Header where
  seq : UInt32
  kind : MessageKind
deriving DecidableEq, Repr

def header : Codec Header :=
  .record "ProtocolMessage"
    (.cons (.required "seq" .word) <|
     .cons (.required "type" messageKind) .nil)
    (fun (seq, kind, ()) => ⟨seq, kind⟩)
    fun m => (m.seq, m.kind, ())

structure Request where
  seq : UInt32
  kind : MessageKind
  command : String
  arguments : Option Json := none
deriving BEq

def request : Codec Request :=
  .record "Request"
    (.cons (.required "seq" .word) <|
     .cons (.required "type" messageKind) <|
     .cons (.required "command" .text) <|
     .cons (.optional "arguments" .any) .nil)
    (fun (seq, kind, command, arguments, ()) => ⟨seq, kind, command, arguments⟩)
    fun m => (m.seq, m.kind, m.command, m.arguments, ())

structure Response where
  seq : UInt32
  kind : MessageKind
  requestSeq : UInt32
  success : Bool
  command : String
  message : Option String := none
  body : Option Json := none
deriving BEq

def response : Codec Response :=
  .record "Response"
    (.cons (.required "seq" .word) <|
     .cons (.required "type" messageKind) <|
     .cons (.aliased "request_seq" "requestSeq" .word) <|
     .cons (.required "success" .bool) <|
     .cons (.required "command" .text) <|
     .cons (.optional "message" .text) <|
     .cons (.optional "body" .any) .nil)
    (fun (seq, kind, requestSeq, success, command, message, body, ()) =>
      ⟨seq, kind, requestSeq, success, command, message, body⟩)
    fun m => (m.seq, m.kind, m.requestSeq, m.success, m.command, m.message, m.body, ())

structure Event where
  seq : UInt32
  kind : MessageKind
  name : String
  body : Option Json := none
deriving BEq

def event : Codec Event :=
  .record "Event"
    (.cons (.required "seq" .word) <|
     .cons (.required "type" messageKind) <|
     .cons (.required "event" .text) <|
     .cons (.optional "body" .any) .nil)
    (fun (seq, kind, name, body, ()) => ⟨seq, kind, name, body⟩)
    fun m => (m.seq, m.kind, m.name, m.body, ())

end DebugAdapter.Protocol
