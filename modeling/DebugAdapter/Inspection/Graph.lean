import DebugAdapter.Inspection.Frame
import DebugAdapter.Inspection.Scalar
import DebugAdapter.Numbering
import Std.Data.TreeMap

/-!
# The graph of a stop

Frames and variables that the client has been told of, each under a number. A variable keeps its key
and a link to its parent, never its place: the place is found by following the links. Parents get
their numbers before their children, so the links lead downwards and end at the locals of a frame.
-/

namespace DebugAdapter

open Protocol

structure FrameEntry where
  level : UInt32
  frame : StackFrame
  /-- The variable that holds the locals, once they were asked for. -/
  locals : Option UInt32 := none
deriving DecidableEq, Repr

inductive VariableKey where
  | locals
  /-- A local by its slot, counted from one. -/
  | slot (name : String) (number : UInt32)
  | entry (key : Key)
deriving DecidableEq, Repr

inductive Parent where
  | frame (id : UInt32)
  | variable (id : UInt32)
deriving DecidableEq, Repr

structure VariableEntry where
  key : VariableKey
  parent : Parent
  /-- The record of the variable, once its value was read. -/
  resolved : Option Variable := none
  children : List UInt32 := []
deriving DecidableEq, Repr

structure StackGraph where
  /-- How many numbers were given out, in this stop or an earlier one. -/
  minted : Nat := 0
  /-- Innermost first, once they were asked for. -/
  frames : Option (List FrameEntry) := none
  arena : Std.TreeMap UInt32 VariableEntry := ∅

def Key.text : Key → String
  | .name s => s
  | .index n => toString n

def Key.isIndex : Key → Bool
  | .name _ => false
  | .index _ => true

namespace VariableKey

def text : VariableKey → String
  | .locals => "Locals"
  | .slot name _ => name
  | .entry key => key.text

def isIndexed : VariableKey → Bool
  | .entry key => key.isIndex
  | .locals | .slot .. => false

end VariableKey

namespace StackGraph

def next (g : StackGraph) : StackGraph := { minted := g.minted }

-- ---------------------------------------------------------------------------
-- Frames
-- ---------------------------------------------------------------------------

def enterFrame (g : StackGraph) (level : UInt32) (info : FrameInfo) : FrameEntry × StackGraph :=
  ({ level := level, frame := info.record (.ofNat (g.minted + 1)) },
    { g with minted := g.minted + 1 })

/-- Frames are looked up once all of them are known. -/
def keepFrames (g : StackGraph) (entries : List FrameEntry) : List FrameEntry × StackGraph :=
  (entries, { g with frames := some entries })

def frame? (g : StackGraph) (id : UInt32) : Option FrameEntry :=
  (g.frames.getD []).find? (·.frame.id == id)

-- ---------------------------------------------------------------------------
-- Variables
-- ---------------------------------------------------------------------------

def put (g : StackGraph) (id : UInt32) (entry : VariableEntry) : StackGraph :=
  { g with arena := g.arena.insert id entry }

def enterChildren (g : StackGraph) (parent : UInt32) (keys : List VariableKey) :
    List UInt32 × StackGraph :=
  let fresh := numbered g.minted keys
  (fresh.map Prod.fst,
    { g with
      minted := g.minted + keys.length
      arena := fresh.foldl
        (fun vs (id, key) => vs.insert id { key := key, parent := .variable parent })
        g.arena })

/-- Enters the locals of a frame: one variable that holds them, and one for each slot. -/
def enterLocals (g : StackGraph) (frameId : UInt32) (names : List String) :
    UInt32 × StackGraph :=
  let root := UInt32.ofNat (g.minted + 1)
  let slots := names.mapIdx fun i name => VariableKey.slot name (.ofNatClamp (i + 1))
  let (children, g) := { g with minted := g.minted + 1 }.enterChildren root slots
  let record : Variable :=
    { name := VariableKey.locals.text
      value := ""
      variablesReference := root
      namedVariables := some (.ofNatClamp names.length) }
  let g := g.put root
    { key := .locals, parent := .frame frameId, resolved := some record, children := children }
  (root, { g with
    frames := g.frames.map fun entries => entries.map fun e =>
      if e.frame.id = frameId then { e with locals := some root } else e })

/-- The place that a chain of `steps` links leads to, `keys` being the way back down. -/
def placeFrom (g : StackGraph) : (steps : Nat) → UInt32 → List Key → Option Place
  | 0, _, _ => none
  | steps + 1, id, keys =>
    (g.arena[id]?).bind fun entry =>
      match entry.key, entry.parent with
      | .entry key, .variable parent => g.placeFrom steps parent (key :: keys)
      | .slot _ number, .variable root =>
        (g.arena[root]?).bind fun locals =>
          match locals.parent with
          | .frame id => (g.frame? id).map fun f => ⟨f.level, number, keys⟩
          | .variable _ => none
      | .locals, _ | _, .frame _ => none

/-- The place of a variable. The links lead to ever smaller numbers, so the number itself bounds
how many there are. -/
def place? (g : StackGraph) (id : UInt32) : Option Place := g.placeFrom id.toNat id []

def propertyHint : VariableHint := ⟨some "property"⟩

/-- A number of children, left out where there are none. -/
def countOf (n : Nat) : Option UInt32 := if n = 0 then none else some (.ofNatClamp n)

/-- Enters what was read of a variable. -/
def settle (g : StackGraph) (id : UInt32) (entry : VariableEntry) (reading : Reading) :
    Variable × StackGraph :=
  let blank : Variable :=
    { name := entry.key.text
      value := ""
      presentationHint := some propertyHint
      variablesReference := 0 }
  match reading with
  | .nowhere =>
    let record := { blank with value := unevaluated }
    (record, g.put id { entry with resolved := some record })
  | .scalar v =>
    let record := { blank with value := v.display, typeName := v.typeName? }
    (record, g.put id { entry with resolved := some record })
  | .table keys =>
    let (children, g) := g.enterChildren id (keys.map .entry)
    let record :=
      { blank with
        typeName := some (if keys.all Key.isIndex then "array" else "object")
        variablesReference := if keys.isEmpty then 0 else id
        namedVariables := countOf (keys.countP fun k => !k.isIndex)
        indexedVariables := countOf (keys.countP Key.isIndex) }
    (record, g.put id { entry with resolved := some record, children := children })

end StackGraph

end DebugAdapter
