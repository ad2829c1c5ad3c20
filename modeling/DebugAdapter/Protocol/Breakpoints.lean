import DebugAdapter.Codec.Record

/-!
# Breakpoint messages

Breakpoints on the lines of a source and on functions, as the client asks for them and as they are
reported back.
-/

namespace DebugAdapter.Protocol

/-- A file by its path, or a label without one. -/
structure Source where
  name : Option String := none
  path : Option String := none
deriving DecidableEq, Repr

def source : Codec Source :=
  .record "Source"
    (.cons (.optional "name" .text) <|
     .cons (.optional "path" .text) .nil)
    (fun (name, path, ()) => ⟨name, path⟩)
    fun m => (m.name, m.path, ())

structure SourceBreakpoint where
  line : UInt32
  column : Option UInt32 := none
  condition : Option String := none
  hitCondition : Option String := none
  logMessage : Option String := none
deriving DecidableEq, Repr

def sourceBreakpoint : Codec SourceBreakpoint :=
  .record "SourceBreakpoint"
    (.cons (.required "line" .word) <|
     .cons (.optional "column" .word) <|
     .cons (.optional "condition" .text) <|
     .cons (.optional "hitCondition" .text) <|
     .cons (.optional "logMessage" .text) .nil)
    (fun (line, column, condition, hitCondition, logMessage, ()) =>
      ⟨line, column, condition, hitCondition, logMessage⟩)
    fun m => (m.line, m.column, m.condition, m.hitCondition, m.logMessage, ())

structure FunctionBreakpoint where
  name : String
  condition : Option String := none
  hitCondition : Option String := none
deriving DecidableEq, Repr

def functionBreakpoint : Codec FunctionBreakpoint :=
  .record "FunctionBreakpoint"
    (.cons (.required "name" .text) <|
     .cons (.optional "condition" .text) <|
     .cons (.optional "hitCondition" .text) .nil)
    (fun (name, condition, hitCondition, ()) => ⟨name, condition, hitCondition⟩)
    fun m => (m.name, m.condition, m.hitCondition, ())

structure Breakpoint where
  id : UInt32
  verified : Bool
  source : Option Source := none
  line : Option UInt32 := none
deriving DecidableEq, Repr

def breakpoint : Codec Breakpoint :=
  .record "Breakpoint"
    (.cons (.required "id" .word) <|
     .cons (.required "verified" .bool) <|
     .cons (.optional "source" source) <|
     .cons (.optional "line" .word) .nil)
    (fun (id, verified, source, line, ()) => ⟨id, verified, source, line⟩)
    fun m => (m.id, m.verified, m.source, m.line, ())

structure SetBreakpointsArguments where
  source : Source
  breakpoints : Option (List SourceBreakpoint) := none
  sourceModified : Option Bool := none
deriving DecidableEq, Repr

def setBreakpointsArguments : Codec SetBreakpointsArguments :=
  .record "SetBreakpointsArguments"
    (.cons (.required "source" source) <|
     .cons (.optional "breakpoints" (.list sourceBreakpoint)) <|
     .cons (.optional "sourceModified" .bool) .nil)
    (fun (source, breakpoints, sourceModified, ()) => ⟨source, breakpoints, sourceModified⟩)
    fun m => (m.source, m.breakpoints, m.sourceModified, ())

structure BreakpointsBody where
  breakpoints : List Breakpoint
deriving DecidableEq, Repr

def breakpointsBody : Codec BreakpointsBody :=
  .record "SetBreakpointsResponseBody"
    (.cons (.required "breakpoints" (.list breakpoint)) .nil)
    (fun (breakpoints, ()) => ⟨breakpoints⟩)
    fun m => (m.breakpoints, ())

structure SetFunctionBreakpointsArguments where
  breakpoints : List FunctionBreakpoint
deriving DecidableEq, Repr

def setFunctionBreakpointsArguments : Codec SetFunctionBreakpointsArguments :=
  .record "SetFunctionBreakpointsArguments"
    (.cons (.required "breakpoints" (.list functionBreakpoint)) .nil)
    (fun (breakpoints, ()) => ⟨breakpoints⟩)
    fun m => (m.breakpoints, ())

end DebugAdapter.Protocol
