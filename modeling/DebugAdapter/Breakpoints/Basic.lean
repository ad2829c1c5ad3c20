import DebugAdapter.Breakpoints.Path
import DebugAdapter.Numbering
import DebugAdapter.Protocol.Breakpoints

/-!
# Breakpoints

All breakpoints of a session: those on lines, set source by source, and those on functions, set
all at once. A source gets its number at first sight and keeps it. One counter numbers the
breakpoints of both kinds, so a number that was replaced does not come back.
-/

namespace DebugAdapter

open Protocol

structure LineBreakpoint where
  id : UInt32
  sourceId : Nat
  line : UInt32
deriving DecidableEq, Repr

structure CallBreakpoint where
  id : UInt32
  function : String
deriving DecidableEq, Repr

structure Breakpoints where
  ignoresCase : Bool
  /-- Every source that was ever named; the number of a source is its position, from one. -/
  sources : List Source := []
  onLines : List LineBreakpoint := []
  onCalls : List CallBreakpoint := []
  minted : Nat := 0
deriving DecidableEq, Repr

namespace Breakpoints

def fresh (paths : PathCase) : Breakpoints := { ignoresCase := paths.ignoresCase }

-- ---------------------------------------------------------------------------
-- Sources
-- ---------------------------------------------------------------------------

/-- The number of the first source that a path or chunk name means. -/
def find? (b : Breakpoints) (path : Option String) : Option Nat :=
  (b.sources.findIdx? fun s => Path.same b.ignoresCase s.path path).map (· + 1)

def intern (b : Breakpoints) (s : Source) : Nat × Breakpoints :=
  match b.find? s.path with
  | some id => (id, b)
  | none => (b.sources.length + 1, { b with sources := b.sources ++ [s] })

def source? (b : Breakpoints) : Nat → Option Source
  | 0 => none
  | n + 1 => b.sources[n]?

def sourceId? (b : Breakpoints) (s : Source) : Option Nat := b.find? s.path

-- ---------------------------------------------------------------------------
-- Setting
-- ---------------------------------------------------------------------------

def setLines (b : Breakpoints) (s : Source) (specs : List SourceBreakpoint) :
    List Breakpoint × Breakpoints :=
  let (sourceId, b) := b.intern s
  let ids := numbered b.minted specs
  (ids.map fun (id, spec) => ⟨id, true, some s, some spec.line⟩,
    { b with
      onLines := b.onLines.filter (·.sourceId != sourceId) ++
        ids.map fun (id, spec) => ⟨id, sourceId, spec.line⟩
      minted := b.minted + specs.length })

def setCalls (b : Breakpoints) (specs : List FunctionBreakpoint) : List Breakpoint × Breakpoints :=
  let ids := numbered b.minted specs
  (ids.map fun (id, _) => ⟨id, true, none, none⟩,
    { b with
      onCalls := ids.map fun (id, spec) => ⟨id, spec.name⟩
      minted := b.minted + specs.length })

-- ---------------------------------------------------------------------------
-- Matching
-- ---------------------------------------------------------------------------

/-- The first breakpoint on a line of the source that a chunk name means. -/
def matchLine (b : Breakpoints) (chunk : Option String) (line : UInt32) : Option UInt32 :=
  (b.find? chunk).bind fun id =>
    (b.onLines.find? fun p => p.sourceId == id && p.line == line).map (·.id)

def matchCall (b : Breakpoints) (function : String) : Option UInt32 :=
  (b.onCalls.find? (·.function == function)).map (·.id)

def linesOf (b : Breakpoints) (s : Source) : List UInt32 :=
  match b.find? s.path with
  | none => []
  | some id => (b.onLines.filter (·.sourceId == id)).map (·.line)

end Breakpoints

end DebugAdapter
