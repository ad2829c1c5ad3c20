import DebugAdapter.Codec.Record

/-!
# Lifecycle messages

How a connection and a session begin and end. The arguments of launch and attach may hold keys of
their own, which are kept; for that they are read from objects only.
-/

namespace DebugAdapter.Protocol

structure Capabilities where
  supportsConfigurationDoneRequest : Option Bool := none
  supportsFunctionBreakpoints : Option Bool := none
  supportsConditionalBreakpoints : Option Bool := none
  supportsHitConditionalBreakpoints : Option Bool := none
  supportsLogPoints : Option Bool := none
  supportsPauseRequest : Option Bool := none
deriving DecidableEq, Repr

def capabilities : Codec Capabilities :=
  .record "Capabilities"
    (.cons (.optional "supportsConfigurationDoneRequest" .bool) <|
     .cons (.optional "supportsFunctionBreakpoints" .bool) <|
     .cons (.optional "supportsConditionalBreakpoints" .bool) <|
     .cons (.optional "supportsHitConditionalBreakpoints" .bool) <|
     .cons (.optional "supportsLogPoints" .bool) <|
     .cons (.optional "supportsPauseRequest" .bool) .nil)
    (fun (supportsConfigurationDoneRequest, supportsFunctionBreakpoints,
         supportsConditionalBreakpoints, supportsHitConditionalBreakpoints, supportsLogPoints,
         supportsPauseRequest, ()) =>
      ⟨supportsConfigurationDoneRequest, supportsFunctionBreakpoints,
       supportsConditionalBreakpoints, supportsHitConditionalBreakpoints, supportsLogPoints,
       supportsPauseRequest⟩)
    fun m =>
      (m.supportsConfigurationDoneRequest, m.supportsFunctionBreakpoints,
       m.supportsConditionalBreakpoints, m.supportsHitConditionalBreakpoints, m.supportsLogPoints,
       m.supportsPauseRequest, ())

structure InitializeArguments where
  clientId : Option String := none
  adapterId : Option String := none
  linesStartAt1 : Option Bool := none
  columnsStartAt1 : Option Bool := none
deriving DecidableEq, Repr

def initializeArguments : Codec InitializeArguments :=
  .record "InitializeArguments"
    (.cons (.optional "clientId" .text) <|
     .cons (.optional "adapterId" .text) <|
     .cons (.optional "linesStartAt1" .bool) <|
     .cons (.optional "columnsStartAt1" .bool) .nil)
    (fun (clientId, adapterId, linesStartAt1, columnsStartAt1, ()) =>
      ⟨clientId, adapterId, linesStartAt1, columnsStartAt1⟩)
    fun m => (m.clientId, m.adapterId, m.linesStartAt1, m.columnsStartAt1, ())

structure DisconnectArguments where
  restart : Option Bool := none
  terminateDebuggee : Option Bool := none
deriving DecidableEq, Repr

def disconnectArguments : Codec DisconnectArguments :=
  .record "DisconnectArguments"
    (.cons (.optional "restart" .bool) <|
     .cons (.optional "terminateDebuggee" .bool) .nil)
    (fun (restart, terminateDebuggee, ()) => ⟨restart, terminateDebuggee⟩)
    fun m => (m.restart, m.terminateDebuggee, ())

structure DebugLocation where
  id : String
  description : String
deriving DecidableEq, Repr

def debugLocation : Codec DebugLocation :=
  .record "DebugLocation"
    (.cons (.required "id" .text) <|
     .cons (.required "description" .text) .nil)
    (fun (id, description, ()) => ⟨id, description⟩)
    fun m => (m.id, m.description, ())

structure HandshakeResponse where
  success : Bool
  locations : List DebugLocation := []
deriving DecidableEq, Repr

def handshakeResponse : Codec HandshakeResponse :=
  .record "HandshakeResponse"
    (.cons (.required "success" .bool) <|
     .cons (.nonempty "locations" debugLocation) .nil)
    (fun (success, locations, ()) => ⟨success, locations⟩)
    fun m => (m.success, m.locations, ())

structure LaunchArguments where
  noDebug : Option Bool := none
  additional : List (String × Json) := []
deriving BEq

def launchArguments : Codec LaunchArguments where
  decode
    | .obj entries =>
      let noDebug : Field (Option Bool) := .optional "noDebug" .bool
      match entries.lookup noDebug.name with
      | none => .ok ⟨none, entries⟩
      | some j =>
        (noDebug.decode j).map fun b => ⟨b, entries.filter fun e => e.1 != noDebug.name⟩
    | j => .error (.wrongType (.of j) "struct LaunchArguments")
  encode m :=
    .obj ((m.noDebug.map fun b => ("noDebug", Json.bool b)).toList ++ m.additional)

structure AttachArguments where
  additional : List (String × Json) := []
deriving BEq

def attachArguments : Codec AttachArguments where
  decode
    | .obj entries => .ok ⟨entries⟩
    | j => .error (.wrongType (.of j) "struct AttachArguments")
  encode m := .obj m.additional

end DebugAdapter.Protocol
