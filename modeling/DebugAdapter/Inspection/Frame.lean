import DebugAdapter.Interpreter.Basic
import DebugAdapter.Protocol.Inspection

/-!
# Frames as the client sees them

A chunk name that starts with `@` names a file; any other is a label, of which one leading `=` is
dropped and the first line shown.
-/

namespace DebugAdapter

open Protocol (Source StackFrame)

-- ---------------------------------------------------------------------------
-- Sources
-- ---------------------------------------------------------------------------

/-- The last part of a path that names something. Empty parts and steps into the current directory
name nothing; a path that ends in a step upwards has no last name. -/
def fileName? (path : List Char) : Option (List Char) :=
  match ((path.splitOn '/').filter fun p => p != [] && p != ['.']).getLast? with
  | none => none
  | some last => if last = ['.', '.'] then none else some last

/-- The text before the first line end, which is a line feed or the two characters of a carriage
return and a line feed. -/
def firstLine : List Char → List Char
  | [] | '\n' :: _ | '\r' :: '\n' :: _ => []
  | c :: r => c :: firstLine r

def Protocol.Source.ofChunk (chunk : String) : Source :=
  match chunk.toList with
  | '@' :: path =>
    { name := some (String.ofList ((fileName? path).getD path))
      path := some (String.ofList path) }
  | '=' :: label => { name := some (String.ofList (firstLine label)) }
  | label => { name := some (String.ofList (firstLine label)) }

example : (Source.ofChunk "@dir/a.lua/").name = some "a.lua" := by decide +kernel
example : (Source.ofChunk "=stdin\r\nrest").name = some "stdin" := by decide +kernel

-- ---------------------------------------------------------------------------
-- Frames
-- ---------------------------------------------------------------------------

def FrameInfo.displayName (info : FrameInfo) : String :=
  match info.kind with
  | .main => "Global"
  | .script => info.name.getD "GLOBAL_SCOPE"
  | .native => "CFunc"

/-- The record of a frame; columns are not known and always one. -/
def FrameInfo.record (info : FrameInfo) (id : UInt32) : StackFrame where
  id := id
  name := info.displayName
  source := info.source.map Source.ofChunk
  line := info.line.getD 0
  column := 1

end DebugAdapter
