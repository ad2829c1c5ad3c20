import DebugAdapter.Protocol.Breakpoints

/-!
# Inspection messages

Frames, scopes and variables of a stop.
-/

namespace DebugAdapter.Protocol

inductive VariablesFilter where
  | named
  | indexed
deriving DecidableEq, Repr

def VariablesFilter.name : VariablesFilter → String
  | .named => "named"
  | .indexed => "indexed"

def variablesFilter : Codec VariablesFilter :=
  .enumeration [("named", .named), ("indexed", .indexed)] VariablesFilter.name

structure StackTraceArguments where
  threadId : UInt32 := 0
  startFrame : Option UInt32 := none
  levels : Option UInt32 := none
deriving DecidableEq, Repr

def stackTraceArguments : Codec StackTraceArguments :=
  .record "StackTraceArguments"
    (.cons (.defaulted "threadId" .word 0) <|
     .cons (.optional "startFrame" .word) <|
     .cons (.optional "levels" .word) .nil)
    (fun (threadId, startFrame, levels, ()) => ⟨threadId, startFrame, levels⟩)
    fun m => (m.threadId, m.startFrame, m.levels, ())

structure StackFrame where
  id : UInt32
  name : String
  source : Option Source := none
  line : UInt32
  column : UInt32
deriving DecidableEq, Repr

def stackFrame : Codec StackFrame :=
  .record "StackFrame"
    (.cons (.required "id" .word) <|
     .cons (.required "name" .text) <|
     .cons (.optional "source" source) <|
     .cons (.required "line" .word) <|
     .cons (.required "column" .word) .nil)
    (fun (id, name, source, line, column, ()) => ⟨id, name, source, line, column⟩)
    fun m => (m.id, m.name, m.source, m.line, m.column, ())

structure StackTraceBody where
  stackFrames : List StackFrame
  totalFrames : Option UInt32 := none
deriving DecidableEq, Repr

def stackTraceBody : Codec StackTraceBody :=
  .record "StackTraceResponseBody"
    (.cons (.required "stackFrames" (.list stackFrame)) <|
     .cons (.optional "totalFrames" .word) .nil)
    (fun (stackFrames, totalFrames, ()) => ⟨stackFrames, totalFrames⟩)
    fun m => (m.stackFrames, m.totalFrames, ())

structure ScopesArguments where
  frameId : UInt32
deriving DecidableEq, Repr

def scopesArguments : Codec ScopesArguments :=
  .record "ScopesArguments"
    (.cons (.required "frameId" .word) .nil)
    (fun (frameId, ()) => ⟨frameId⟩)
    fun m => (m.frameId, ())

structure Scope where
  name : String
  presentationHint : Option String := none
  variablesReference : UInt32
  expensive : Bool
deriving DecidableEq, Repr

def scope : Codec Scope :=
  .record "Scope"
    (.cons (.required "name" .text) <|
     .cons (.optional "presentationHint" .text) <|
     .cons (.required "variablesReference" .word) <|
     .cons (.required "expensive" .bool) .nil)
    (fun (name, presentationHint, variablesReference, expensive, ()) =>
      ⟨name, presentationHint, variablesReference, expensive⟩)
    fun m => (m.name, m.presentationHint, m.variablesReference, m.expensive, ())

structure ScopesBody where
  scopes : List Scope
deriving DecidableEq, Repr

def scopesBody : Codec ScopesBody :=
  .record "ScopesResponseBody"
    (.cons (.required "scopes" (.list scope)) .nil)
    (fun (scopes, ()) => ⟨scopes⟩)
    fun m => (m.scopes, ())

structure VariablesArguments where
  variablesReference : UInt32
  filter : Option VariablesFilter := none
  start : Option UInt32 := none
  count : Option UInt32 := none
deriving DecidableEq, Repr

def variablesArguments : Codec VariablesArguments :=
  .record "VariablesArguments"
    (.cons (.required "variablesReference" .word) <|
     .cons (.optional "filter" variablesFilter) <|
     .cons (.optional "start" .word) <|
     .cons (.optional "count" .word) .nil)
    (fun (variablesReference, filter, start, count, ()) =>
      ⟨variablesReference, filter, start, count⟩)
    fun m => (m.variablesReference, m.filter, m.start, m.count, ())

structure VariableHint where
  kind : Option String := none
deriving DecidableEq, Repr

def variableHint : Codec VariableHint :=
  .record "VariablePresentationHint"
    (.cons (.optional "kind" .text) .nil)
    (fun (kind, ()) => ⟨kind⟩)
    fun m => (m.kind, ())

structure Variable where
  name : String
  value : String
  typeName : Option String := none
  presentationHint : Option VariableHint := none
  variablesReference : UInt32
  namedVariables : Option UInt32 := none
  indexedVariables : Option UInt32 := none
deriving DecidableEq, Repr

def variableRecord : Codec Variable :=
  .record "Variable"
    (.cons (.required "name" .text) <|
     .cons (.required "value" .text) <|
     .cons (.optional "type" .text) <|
     .cons (.optional "presentationHint" variableHint) <|
     .cons (.required "variablesReference" .word) <|
     .cons (.optional "namedVariables" .word) <|
     .cons (.optional "indexedVariables" .word) .nil)
    (fun (name, value, typeName, presentationHint, variablesReference, namedVariables,
         indexedVariables, ()) =>
      ⟨name, value, typeName, presentationHint, variablesReference, namedVariables,
       indexedVariables⟩)
    fun m =>
      (m.name, m.value, m.typeName, m.presentationHint, m.variablesReference, m.namedVariables,
       m.indexedVariables, ())

structure VariablesBody where
  records : List Variable
deriving DecidableEq, Repr

def variablesBody : Codec VariablesBody :=
  .record "VariablesResponseBody"
    (.cons (.required "variables" (.list variableRecord)) .nil)
    (fun (records, ()) => ⟨records⟩)
    fun m => (m.records, ())

end DebugAdapter.Protocol
