import DebugAdapter.Error
import DebugAdapter.Inspection.Graph

/-!
# Inspecting a stop

Stack traces, scopes and variables. The interpreter is asked as late as possible and never twice:
frames are enumerated by the first stack trace, locals by the first look at the scopes of their
frame, a value when it first appears in a list or is opened.
-/

namespace DebugAdapter

open Protocol

/-- A computation on the graph of a stop and the interpreter. A fault keeps both as they are when
it strikes. -/
abbrev Inspect (σ : Type) := ExceptT Fault (StateM (StackGraph × σ))

namespace Inspect

variable {σ α : Type}

def probe (p : Probe σ α) : Inspect σ α :=
  ExceptT.mk fun (g, s) =>
    let (a, s) := p s
    (a, g, s)

def graph : Inspect σ StackGraph := ExceptT.mk fun (g, s) => (.ok g, g, s)

def revise (f : StackGraph → α × StackGraph) : Inspect σ α :=
  ExceptT.mk fun (g, s) =>
    let (a, g) := f g
    (.ok a, g, s)

def fail (fault : Fault) : Inspect σ α := ExceptT.mk fun st => (.error fault, st)

end Inspect

/-- The items from `start` on, at most `count` of them; a count of zero is no limit. -/
def page {α : Type} (start count : Option UInt32) (items : List α) : List α :=
  let rest := items.drop (start.getD 0).toNat
  match count with
  | some n => if n = 0 then rest else rest.take n.toNat
  | none => rest

namespace StackGraph

variable {σ : Type}

-- ---------------------------------------------------------------------------
-- Frames and scopes
-- ---------------------------------------------------------------------------

/-- Enumerates the frames from a level on. Each has its number before the next one is asked for. -/
def enumerate (it : Interpreter σ) : Nat → UInt32 → Inspect σ (List FrameEntry)
  | 0, _ => pure []
  | steps + 1, level => do
    match ← Inspect.probe (it.frame level) with
    | none => pure []
    | some info =>
      let entry ← Inspect.revise (·.enterFrame level info)
      let outer ← enumerate it steps (level + 1)
      pure (entry :: outer)

def ensureFrames (it : Interpreter σ) : Inspect σ (List FrameEntry) := do
  match (← Inspect.graph).frames with
  | some entries => pure entries
  | none =>
    let entries ← enumerate it Interpreter.maxLevels 0
    Inspect.revise (·.keepFrames entries)

def stackTrace (it : Interpreter σ) (args : StackTraceArguments) : Inspect σ StackTraceBody := do
  let entries ← ensureFrames it
  pure
    { stackFrames := (page args.startFrame args.levels entries).map (·.frame)
      totalFrames := some (.ofNatClamp entries.length) }

def localScope (root : UInt32) : Scope where
  name := "Locals"
  presentationHint := some "locals"
  variablesReference := root
  expensive := false

/-- The scopes of a frame, none where its locals cannot be read. -/
def scopes (it : Interpreter σ) (frameId : UInt32) :
    Inspect σ (Except AdapterError (List Scope)) := do
  match (← Inspect.graph).frame? frameId with
  | none => pure (.error (.unknownFrame frameId))
  | some entry =>
    match entry.locals with
    | some root => pure (.ok [localScope root])
    | none =>
      match ← Inspect.probe (it.locals entry.level) with
      | none => pure (.ok [])
      | some names =>
        let root ← Inspect.revise (·.enterLocals frameId names)
        pure (.ok [localScope root])

-- ---------------------------------------------------------------------------
-- Variables
-- ---------------------------------------------------------------------------

/-- The record of a variable, whose value is read at the first call. A variable without a place
counts as one that is not there any more. -/
def resolve (it : Interpreter σ) (id : UInt32) : Inspect σ Variable := do
  let g ← Inspect.graph
  match g.arena[id]? with
  | none => Inspect.fail (.dangling id)
  | some entry =>
    match entry.resolved with
    | some record => pure record
    | none =>
      let reading ← match g.place? id with
        | none => pure .nowhere
        | some place => Inspect.probe (it.read place)
      Inspect.revise (·.settle id entry reading)

def resolveAll (it : Interpreter σ) : List UInt32 → Inspect σ (List Variable)
  | [] => pure []
  | id :: rest => do
    let record ← resolve it id
    let records ← resolveAll it rest
    pure (record :: records)

def passes (g : StackGraph) (filter : Option VariablesFilter) (child : UInt32) : Bool :=
  match filter, g.arena[child]? with
  | some .indexed, some entry => entry.key.isIndexed
  | some .named, some entry => !entry.key.isIndexed
  | _, _ => true

def variablesOf (it : Interpreter σ) (args : VariablesArguments) :
    Inspect σ (Except AdapterError (List Variable)) := do
  let id := args.variablesReference
  match (← Inspect.graph).arena[id]? with
  | none => pure (.error (.unknownVariable id))
  | some _ =>
    let _ ← resolve it id
    let g ← Inspect.graph
    let children := ((g.arena[id]?).map (·.children)).getD []
    let chosen := page args.start args.count (children.filter (g.passes args.filter))
    let records ← resolveAll it chosen
    pure (.ok records)

end StackGraph

end DebugAdapter
