import DebugAdapter.Interpreter.Basic

/-!
# A scripted interpreter

An interpreter whose stack is written down. Its answers do not change, and a value may be marked as
unreachable, as a table that does not list its keys, or as one that kills whoever reads it.
-/

namespace DebugAdapter.Scripted

inductive Scene where
  | value (v : Value)
  | table (entries : List (Key × Scene))
  | unlisted
  | gone
  | deadly
deriving Inhabited

structure Frame where
  info : FrameInfo
  active : Bool := true
  locals : List (String × Scene) := []

abbrev Stack := List Frame

def Stack.locals? (stack : Stack) (level : UInt32) : Option (List (String × Scene)) :=
  match stack[level.toNat]? with
  | some frame => if frame.active then some frame.locals else none
  | none => none

/-- Follows keys into nested tables; of equal keys the first counts. -/
def Scene.at? : List Key → Scene → Option Scene
  | [], scene => some scene
  | key :: keys, .table entries => (entries.lookup key).bind (at? keys)
  | _ :: _, _ => none

def Stack.at? (stack : Stack) (place : Place) : Option Scene := do
  let locals ← stack.locals? place.level
  match place.slot.toNat with
  | 0 => none
  | n + 1 =>
    let (_, scene) ← locals[n]?
    scene.at? place.keys

def Stack.answer (stack : Stack) : (call : Call) → Except Fault call.Answer
  | .frame level => .ok (stack[level.toNat]?.map Frame.info)
  | .locals level => .ok ((stack.locals? level).map fun locals => locals.map Prod.fst)
  | .resolve place =>
    match stack.at? place with
    | some .deadly => .error .died
    | some (.value v) => .ok (some v)
    | some (.table _) | some .unlisted => .ok (some .table)
    | some .gone | none => .ok none
  | .entries place =>
    match stack.at? place with
    | some (.table entries) => .ok (some (entries.map Prod.fst))
    | _ => .ok none

def interpreter : Interpreter Stack where
  answer call := fun stack => (stack.answer call, stack)

end DebugAdapter.Scripted
