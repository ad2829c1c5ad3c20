import DebugAdapter.Packet.Reader
import DebugAdapter.Session.Handle

/-!
# Phases

Where the two sides of a session are: the session that serves the client, and the thread of the
interpreter that reports events. Between two phases lies one atomic step.
-/

namespace DebugAdapter

open Protocol

-- ---------------------------------------------------------------------------
-- The session
-- ---------------------------------------------------------------------------

/-- The handling of a request comes to one response; then events follow, a stop is let go, and the
session may close. -/
structure Outcome where
  response : Response
  events : List Event := []
  release : Option Nat := none
  closes : Bool := false

inductive Closing where
  | mark
  | vacate
  | settle (stop : Nat)
  | release (stop : Nat)
deriving DecidableEq, Repr

inductive Session.Phase where
  | reading
  | handling (r : Request)
  | asking (r : Request) (question : Question)
  | scheduling (r : Request) (question : Question) (stop : Nat)
  | awaiting (r : Request)
  | resuming (r : Request) (decision : Decision)
  | deciding (r : Request) (decision : Decision) (stop : Nat)
  | answering (outcome : Outcome)
  | following (events : List Event) (release : Option Nat) (closes : Bool)
  /-- Closes, to go on reading or to end with a result. -/
  | closing (step : Closing) (result : Option (Except AdapterError Unit))
  | disconnecting (result : Except AdapterError Unit)
  | finishing (result : Except AdapterError Unit)
  | ended (result : Except AdapterError Unit)

structure Session where
  phase : Session.Phase := .reading
  reader : Packet.Reader := {}
  disconnected : Bool := false

-- ---------------------------------------------------------------------------
-- The thread
-- ---------------------------------------------------------------------------

/-- What the thread does next, and the state of the interpreter at that point: an event goes to the
debugger, a stop is reported as it is. -/
inductive Item (σ : Type) where
  | event (e : ExecutionEvent) (s : σ)
  | stop (body : StoppedBody) (s : σ)

inductive Origin where
  | debugger (e : ExecutionEvent)
  | direct
deriving DecidableEq, Repr

inductive Thread.Phase (σ : Type) where
  | idle
  /-- Asks whether the target still stops, and for which goal. -/
  | hooked (e : ExecutionEvent) (s : σ)
  | matching (e : ExecutionEvent) (goal : Option StepGoal) (s : σ)
  | disarming (e : ExecutionEvent) (body : StoppedBody) (s : σ)
  | installing (origin : Origin) (body : StoppedBody) (g : StackGraph) (s : σ)
  | announcing (origin : Origin) (body : StoppedBody) (stop : Nat) (g : StackGraph) (s : σ)
  | serving (origin : Origin) (stop : Nat) (batch : List Question) (g : StackGraph) (s : σ)
  | leaving (origin : Origin) (stop : Nat) (s : σ)
  | resumed (origin : Origin) (decision : Decision) (s : σ)
  | dead (s : σ)

structure Thread (σ : Type) where
  phase : Thread.Phase σ := .idle
  program : List (Item σ) := []
  /-- The states in which finished items left the interpreter. -/
  past : List σ := []
  /-- How the stops ended that were reported directly. -/
  returned : List Decision := []
  /-- How many frames and variables were numbered in stops that were reported directly. -/
  references : Nat := 0

end DebugAdapter
