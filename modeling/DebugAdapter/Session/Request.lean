import DebugAdapter.Debugger
import DebugAdapter.Inspection.Request
import DebugAdapter.Protocol.Message

/-!
# Requests

What a request asks for, once its command is known and its arguments are read. Missing arguments are
read as an empty object; some commands take no notice of theirs.
-/

namespace DebugAdapter

open Protocol

/-- A question about the present stop, answered on the thread that it has parked. -/
inductive Question where
  | stackTrace (args : StackTraceArguments)
  | scopes (args : ScopesArguments)
  | values (args : VariablesArguments)
deriving DecidableEq, Repr

def Question.answer {σ : Type} (it : Interpreter σ) :
    Question → Inspect σ (Except AdapterError Json)
  | .stackTrace args => do
    let body ← StackGraph.stackTrace it args
    pure (.ok (stackTraceBody.encode body))
  | .scopes args => do
    let scopes ← StackGraph.scopes it args.frameId
    pure (scopes.map fun scopes => scopesBody.encode ⟨scopes⟩)
  | .values args => do
    let records ← StackGraph.variablesOf it args
    pure (records.map fun records => variablesBody.encode ⟨records⟩)

inductive Demand where
  | capabilities
  | chooseStart (mode : StartMode)
  | start
  | disconnect
  | setLines (args : SetBreakpointsArguments)
  | setCalls (args : SetFunctionBreakpointsArguments)
  | threads
  | inspect (question : Question)
  | pause
  | resume (decision : Decision)
deriving DecidableEq, Repr

def Protocol.Request.read {α : Type} (r : Request) (c : Codec α) : Except AdapterError α :=
  (c.decode (r.arguments.getD (.obj []))).mapError fun e => .arguments r.command e.message

/-- What a request asks for, or why its arguments are refused; none for an unknown command. -/
def Demand.of? (r : Request) : Option (Except AdapterError Demand) :=
  match r.command with
  | "initialize" => some ((r.read initializeArguments).map fun _ => .capabilities)
  | "launch" => some ((r.read launchArguments).map fun _ => .chooseStart .launch)
  | "attach" => some ((r.read attachArguments).map fun _ => .chooseStart .attach)
  | "configurationDone" => some (.ok .start)
  | "disconnect" => some ((r.read disconnectArguments).map fun _ => .disconnect)
  | "setBreakpoints" => some ((r.read setBreakpointsArguments).map .setLines)
  | "setFunctionBreakpoints" => some ((r.read setFunctionBreakpointsArguments).map .setCalls)
  | "threads" => some (.ok .threads)
  | "stackTrace" => some ((r.read stackTraceArguments).map fun args => .inspect (.stackTrace args))
  | "scopes" => some ((r.read scopesArguments).map fun args => .inspect (.scopes args))
  | "variables" => some ((r.read variablesArguments).map fun args => .inspect (.values args))
  | "pause" => some ((r.read (threadArguments "PauseArguments")).map fun _ => .pause)
  | "continue" => some ((r.read (threadArguments "ContinueArguments")).map fun _ => .resume .run)
  | "next" => some ((r.read (threadArguments "NextArguments")).map fun _ => .resume .stepOver)
  | "stepIn" => some ((r.read (threadArguments "StepInArguments")).map fun _ => .resume .stepIn)
  | "stepOut" => some ((r.read (threadArguments "StepOutArguments")).map fun _ => .resume .stepOut)
  | _ => none

-- ---------------------------------------------------------------------------
-- Answers
-- ---------------------------------------------------------------------------

namespace Protocol.Request

/-- Numbers are given out as messages are written. -/
def accept (r : Request) (body : Option Json) : Response where
  seq := 0
  kind := .response
  requestSeq := r.seq
  success := true
  command := r.command
  body := body

def refuse (r : Request) (message : String) : Response where
  seq := 0
  kind := .response
  requestSeq := r.seq
  success := false
  command := r.command
  message := some message

end Protocol.Request

def Protocol.Event.named (name : String) (body : Option Json) : Event where
  seq := 0
  kind := .event
  name := name
  body := body

def ownCapabilities : Capabilities where
  supportsConfigurationDoneRequest := some true
  supportsFunctionBreakpoints := some true
  supportsConditionalBreakpoints := some false
  supportsHitConditionalBreakpoints := some false
  supportsLogPoints := some false
  supportsPauseRequest := some false

/-- Of the ways to resume, only running on has a body in its answer. -/
def resumeBody : Decision → Option Json
  | .run => some (continueBody.encode ⟨some true⟩)
  | _ => none

end DebugAdapter
