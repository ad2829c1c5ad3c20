/-!
# Stepping

A stop ends with a decision. A decision to step sets a goal, measured against the line and the stack
depth at which the stop ended, and the target runs until a line event meets the goal.
-/

namespace DebugAdapter

inductive Decision where
  | run
  | stepOver
  | stepIn
  | stepOut
  /-- The session is over and the target runs free of it. -/
  | detach
deriving DecidableEq, Repr

inductive EventKind where
  | line
  | call
  | ret
deriving DecidableEq, Repr

structure ExecutionEvent where
  kind : EventKind
  source : Option String := none
  line : Option UInt32 := none
  function : Option String := none
deriving DecidableEq, Repr

inductive StepGoal where
  /-- Another line at this depth, or any line above it. -/
  | over (line depth : UInt32)
  /-- Another line at any depth. -/
  | into (line : UInt32)
  /-- Any line above this depth. -/
  | out (depth : UInt32)
deriving DecidableEq, Repr

namespace StepGoal

/-- The goal of a decision. There is nothing above the outermost frame, so stepping out of depth
zero has none. -/
def of? (decision : Decision) (line depth : UInt32) : Option StepGoal :=
  match decision with
  | .stepOver => some (.over line depth)
  | .stepIn => some (.into line)
  | .stepOut => if 0 < depth then some (.out depth) else none
  | .run | .detach => none

/-- Only line events meet a goal. -/
def isMet (goal : StepGoal) (kind : EventKind) (line depth : UInt32) : Bool :=
  kind == .line &&
    match goal with
    | .over line₀ depth₀ => depth < depth₀ || (depth == depth₀ && line != line₀)
    | .into line₀ => line != line₀
    | .out depth₀ => depth < depth₀

end StepGoal

end DebugAdapter
