import DebugAdapter.Protocol.Message
import DebugAdapter.Protocol.Inspection
import DebugAdapter.Protocol.Running
import DebugAdapter.Protocol.Lifecycle

/-!
# Catalogue of the message types

Every type of the protocol under the name by which errors call it, with its codec, its equality and,
where all its fields may be left out, its blank value.
-/

namespace DebugAdapter.Protocol

structure Listed where
  {Value : Type}
  codec : Codec Value
  same : Value → Value → Bool
  blank : Option Value := none

namespace Listed

def plain {α : Type} [BEq α] (codec : Codec α) : Listed := ⟨codec, (· == ·), none⟩

def blankable {α : Type} [BEq α] (codec : Codec α) (blank : α) : Listed :=
  ⟨codec, (· == ·), some blank⟩

end Listed

def catalogue : List (String × Listed) :=
  [("MessageType", .plain messageKind),
   ("ProtocolMessage", .plain header),
   ("Request", .plain request),
   ("Response", .plain response),
   ("Event", .plain event),
   ("StoppedEventBody", .plain stoppedBody),
   ("Source", .blankable source {}),
   ("Capabilities", .blankable capabilities {}),
   ("InitializeArguments", .blankable initializeArguments {}),
   ("LaunchArguments", .blankable launchArguments {}),
   ("AttachArguments", .blankable attachArguments {}),
   ("DisconnectArguments", .blankable disconnectArguments {}),
   ("ContinueArguments", .blankable (threadArguments "ContinueArguments") {}),
   ("PauseArguments", .blankable (threadArguments "PauseArguments") {}),
   ("NextArguments", .blankable (threadArguments "NextArguments") {}),
   ("StepInArguments", .blankable (threadArguments "StepInArguments") {}),
   ("StepOutArguments", .blankable (threadArguments "StepOutArguments") {}),
   ("ContinueResponseBody", .plain continueBody),
   ("Thread", .plain thread),
   ("ThreadsResponseBody", .plain threadsBody),
   ("StackTraceArguments", .blankable stackTraceArguments {}),
   ("StackFrame", .plain stackFrame),
   ("StackTraceResponseBody", .plain stackTraceBody),
   ("ScopesArguments", .plain scopesArguments),
   ("Scope", .plain scope),
   ("ScopesResponseBody", .plain scopesBody),
   ("VariablesFilter", .plain variablesFilter),
   ("VariablesArguments", .plain variablesArguments),
   ("VariablePresentationHint", .plain variableHint),
   ("Variable", .plain variableRecord),
   ("VariablesResponseBody", .plain variablesBody),
   ("SourceBreakpoint", .plain sourceBreakpoint),
   ("FunctionBreakpoint", .plain functionBreakpoint),
   ("Breakpoint", .plain breakpoint),
   ("SetBreakpointsArguments", .plain setBreakpointsArguments),
   ("SetBreakpointsResponseBody", .plain breakpointsBody),
   ("SetFunctionBreakpointsArguments", .plain setFunctionBreakpointsArguments),
   ("DebugLocation", .plain debugLocation),
   ("HandshakeResponse", .plain handshakeResponse)]

end DebugAdapter.Protocol
