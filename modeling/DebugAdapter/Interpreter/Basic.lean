import DebugAdapter.Decimal.Shortest

/-!
# The interpreter

What can be asked of a parked interpreter: its frames, the locals of a frame, a value at a place and
the keys of a table. Every question may change the interpreter's own state, and one may kill the
thread that answers it.
-/

namespace DebugAdapter

inductive FrameKind where
  /-- The outermost code of a file. -/
  | main
  | script
  | native
deriving DecidableEq, Repr

structure FrameInfo where
  kind : FrameKind
  name : Option String := none
  /-- The chunk that the frame runs. -/
  source : Option String := none
  line : Option UInt32 := none
deriving DecidableEq, Repr

/-- A value as it is read. The keys of a table are asked for on their own. -/
inductive Value where
  | nil
  | bool (b : Bool)
  | integer (n : Int)
  | number (x : Binary64)
  | text (s : String)
  | table
  | function
  | userdata
  | thread
deriving DecidableEq, Repr

inductive Key where
  | name (s : String)
  | index (n : Int)
deriving DecidableEq, Repr

/-- Where a value is: a local slot of a frame, counted from one, and table keys from there on. -/
structure Place where
  /-- Zero is the innermost frame. -/
  level : UInt32
  slot : UInt32
  keys : List Key := []
deriving DecidableEq, Repr

-- ---------------------------------------------------------------------------
-- Questions
-- ---------------------------------------------------------------------------

inductive Call where
  | frame (level : UInt32)
  /-- The names of a frame's locals in slot order. -/
  | locals (level : UInt32)
  | resolve (place : Place)
  /-- The keys of the table at a place in their own order. -/
  | entries (place : Place)
deriving DecidableEq, Repr

/-- No frame past the outermost one, no locals of a frame that cannot be entered, no value where a
place leads nowhere. -/
abbrev Call.Answer : Call → Type
  | .frame _ => Option FrameInfo
  | .locals _ => Option (List String)
  | .resolve _ => Option Value
  | .entries _ => Option (List Key)

/-- Why there is no answer and the thread is dead. -/
inductive Fault where
  | died
  | dangling (id : UInt32)
deriving DecidableEq, Repr

structure Interpreter (σ : Type) where
  answer : (call : Call) → σ → Except Fault call.Answer × σ

/-- A computation that asks an interpreter. A fault keeps the state in which it struck. -/
abbrev Probe (σ : Type) := ExceptT Fault (StateM σ)

namespace Interpreter

variable {σ : Type}

def ask (it : Interpreter σ) (call : Call) : Probe σ call.Answer :=
  ExceptT.mk fun s => it.answer call s

def frame (it : Interpreter σ) (level : UInt32) : Probe σ (Option FrameInfo) :=
  it.ask (.frame level)

def locals (it : Interpreter σ) (level : UInt32) : Probe σ (Option (List String)) :=
  it.ask (.locals level)

def resolve (it : Interpreter σ) (place : Place) : Probe σ (Option Value) :=
  it.ask (.resolve place)

def entries (it : Interpreter σ) (place : Place) : Probe σ (Option (List Key)) :=
  it.ask (.entries place)

/-- The same interpreter, which also keeps a list of what it was asked, the latest call last. -/
def recording (it : Interpreter σ) : Interpreter (σ × List Call) where
  answer call := fun (s, calls) =>
    let (a, s) := it.answer call s
    (a, s, calls ++ [call])

-- ---------------------------------------------------------------------------
-- Walks
-- ---------------------------------------------------------------------------

/-- Levels have 32 bits, so no walk has more steps. -/
def maxLevels : Nat := UInt32.size

def framesFrom (it : Interpreter σ) : Nat → UInt32 → Probe σ (List FrameInfo)
  | 0, _ => pure []
  | steps + 1, level => do
    match ← it.frame level with
    | none => pure []
    | some info =>
      let outer ← it.framesFrom steps (level + 1)
      pure (info :: outer)

/-- All frames, asked for from the innermost outwards until there is none. -/
def frames (it : Interpreter σ) : Probe σ (List FrameInfo) := it.framesFrom maxLevels 0

def depth (it : Interpreter σ) : Probe σ UInt32 := do
  let frames ← it.frames
  pure (UInt32.ofNat frames.length)

end Interpreter

-- ---------------------------------------------------------------------------
-- Readings
-- ---------------------------------------------------------------------------

inductive Reading where
  | nowhere
  | scalar (v : Value)
  | table (keys : List Key)
deriving DecidableEq, Repr

/-- Reads a value, and the keys if it is a table. A table that does not list its keys has none. -/
def Interpreter.read {σ : Type} (it : Interpreter σ) (place : Place) : Probe σ Reading := do
  match ← it.resolve place with
  | none => pure .nowhere
  | some .table =>
    let keys ← it.entries place
    pure (.table (keys.getD []))
  | some v => pure (.scalar v)

end DebugAdapter
