import DebugAdapter.Breakpoints.Basic
import DebugAdapter.Error
import DebugAdapter.Interpreter.Basic
import DebugAdapter.Protocol.Running
import DebugAdapter.Protocol.Lifecycle
import DebugAdapter.Stepping

/-!
# The debugger

What decides where the target stops: the breakpoints, the goal of the last step decision and whether
the client has gone. An event hits a breakpoint or else may meet the goal; only for the goal is the
depth of the stack measured.
-/

namespace DebugAdapter

open Protocol

inductive StartMode where
  | launch
  | attach
deriving DecidableEq, Repr

structure Debugger where
  breakpoints : Breakpoints
  /-- How many frames and variables were numbered. -/
  references : Nat := 0
  startMode : Option StartMode := none
  goal : Option StepGoal := none
  /-- The client has gone; nothing stops the target any more. -/
  terminated : Bool := false
deriving DecidableEq, Repr

namespace Debugger

def fresh (paths : PathCase) : Debugger := { breakpoints := .fresh paths }

def threadId : UInt32 := 1

def threads : List Thread := [⟨threadId, "Default"⟩]

-- ---------------------------------------------------------------------------
-- Requests
-- ---------------------------------------------------------------------------

def chooseStart (d : Debugger) (mode : StartMode) : Except AdapterError Debugger :=
  match d.startMode with
  | some _ => .error .startModeSet
  | none => .ok { d with startMode := some mode }

def chosenStart (d : Debugger) : Except AdapterError StartMode :=
  match d.startMode with
  | some mode => .ok mode
  | none => .error .startModeMissing

def disconnect (d : Debugger) : Debugger := { d with terminated := true, goal := none }

def setLines (d : Debugger) (s : Source) (specs : List SourceBreakpoint) :
    List Breakpoint × Debugger :=
  let (set, breakpoints) := d.breakpoints.setLines s specs
  (set, { d with breakpoints := breakpoints })

def setCalls (d : Debugger) (specs : List FunctionBreakpoint) : List Breakpoint × Debugger :=
  let (set, breakpoints) := d.breakpoints.setCalls specs
  (set, { d with breakpoints := breakpoints })

-- ---------------------------------------------------------------------------
-- Events
-- ---------------------------------------------------------------------------

def stoppedBy (reason : String) (breakpoint : Option UInt32) : StoppedBody where
  reason := reason
  threadId := some threadId
  hitBreakpointIds := breakpoint.map fun id => [id]
  allThreadsStopped := some true

def breakpointStop (d : Debugger) (event : ExecutionEvent) : Option StoppedBody :=
  match event.kind with
  | .line =>
    event.line.bind fun line =>
      (d.breakpoints.matchLine event.source line).map fun id => stoppedBy "breakpoint" (some id)
  | .call =>
    event.function.bind fun function =>
      (d.breakpoints.matchCall function).map fun id =>
        stoppedBy "function breakpoint" (some id)
  | .ret => none

variable {σ : Type}

def stepStop (it : Interpreter σ) (goal : Option StepGoal) (event : ExecutionEvent) :
    Probe σ (Option StoppedBody) :=
  match goal, event.kind, event.line with
  | some goal, .line, some line => do
    let depth ← it.depth
    pure (if goal.isMet .line line depth then some (stoppedBy "step" none) else none)
  | _, _, _ => pure none

def stopAt (it : Interpreter σ) (d : Debugger) (event : ExecutionEvent) :
    Probe σ (Option StoppedBody) :=
  if d.terminated then pure none
  else
    match d.breakpointStop event with
    | some body => pure (some body)
    | none => stepStop it d.goal event

/-- The goal that a decision sets at the event of its stop. -/
def goalAfter (it : Interpreter σ) (decision : Decision) (event : ExecutionEvent) :
    Probe σ (Option StepGoal) :=
  match decision with
  | .run | .detach => pure none
  | .stepOver | .stepIn | .stepOut => do
    let depth ← it.depth
    pure (StepGoal.of? decision (event.line.getD 0) depth)

/-- The goal of the last decision is dropped where the target stops. -/
def disarm (d : Debugger) : Debugger := { d with goal := none }

/-- After a stop: the new goal, and whether the target runs free from now on. -/
def resume (d : Debugger) (decision : Decision) (goal : Option StepGoal) : Debugger :=
  { d with goal := goal, terminated := d.terminated || decision == .detach }

end Debugger

end DebugAdapter
