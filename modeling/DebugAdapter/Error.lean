/-!
# Errors of the adapter

Every failure has a cause, and each cause one text. Contract violations are mistakes of the client
that leave the session usable: it answers them and goes on, while any other failed request ends it.
-/

namespace DebugAdapter

inductive AdapterError where
  | transport (text : String)
  | json (text : String)
  | framing (reason : String)
  | arguments (command reason : String)
  | notStopped
  | stopEnded
  | alreadyResumed
  | startModeSet
  | startModeMissing
  | unknownFrame (id : UInt32)
  | unknownVariable (id : UInt32)
  | startFailed (reason : String)
  | settings (reason : String)
deriving DecidableEq, Repr

namespace AdapterError

def message : AdapterError → String
  | transport text => s!"io error: {text}"
  | json text => s!"invalid json: {text}"
  | framing reason => s!"framing error: {reason}"
  | arguments command reason => s!"invalid {command} args: {reason}"
  | notStopped => "not stopped"
  | stopEnded => "stop has ended"
  | alreadyResumed => "continuation already set"
  | startModeSet => "start mode already set"
  | startModeMissing => "start mode not set"
  | unknownFrame id => s!"unknown frame id {id}"
  | unknownVariable id => s!"unknown variables reference {id}"
  | startFailed reason => s!"launch failed: {reason}"
  | settings reason => s!"invalid config: {reason}"

/-- The client asked for something that the present state does not allow. -/
def isContractViolation : AdapterError → Bool
  | notStopped | stopEnded | alreadyResumed | startModeSet | startModeMissing
  | unknownFrame _ | unknownVariable _ => true
  | transport _ | json _ | framing _ | arguments .. | startFailed _ | settings _ => false

end AdapterError

end DebugAdapter
