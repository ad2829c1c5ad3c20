import DebugAdapter.Session.Connection

/-!
# In lockstep

One order of steps among the many possible ones: the client makes a move and waits until everything
has come to rest. First the session answers all that has arrived, the parked thread answering its
questions; then the thread goes on, until it is parked again or its program ends.
-/

namespace DebugAdapter

namespace System

variable {σ τ : Type}

/-- Lets the session move until it waits for the client. While it waits for a reply the thread
moves. -/
def runSession (host : Host σ τ) : (fuel : Nat) → System σ τ → System σ τ
  | 0, sys => sys
  | fuel + 1, sys =>
    match sys.stepSession host with
    | some sys => runSession host fuel sys
    | none =>
      match sys.session.phase with
      | .awaiting _ =>
        match sys.stepThread host with
        | some sys => runSession host fuel sys
        | none => sys
      | _ => sys

/-- Lets the thread move until it is parked or at its end. -/
def runThread (host : Host σ τ) : (fuel : Nat) → System σ τ → System σ τ
  | 0, sys => sys
  | fuel + 1, sys =>
    match sys.stepThread host with
    | some sys => runThread host fuel sys
    | none => sys

/-- Each byte brings about at most sixteen steps, and so does the end. -/
def enoughForSession (sys : System σ τ) : Nat := 16 * (sys.session.reader.size + 2)

/-- Each item of the program takes at most twelve steps, and so does what was begun. -/
def enoughForThread (sys : System σ τ) : Nat := 12 * (sys.thread.program.length + 2)

def restSession (host : Host σ τ) (sys : System σ τ) : System σ τ :=
  sys.runSession host sys.enoughForSession

def restThread (host : Host σ τ) (sys : System σ τ) : System σ τ :=
  if host.isRunning sys.target then sys.runThread host sys.enoughForThread else sys

end System

namespace Connection

variable {σ τ : Type}

def onSession (c : Connection σ τ) (f : System σ τ → System σ τ) : Connection σ τ :=
  match c.stage with
  | .running sys => { c with stage := .running (f sys) }
  | .greeting .. | .over .. => c

def hangUp (host : Host σ τ) (c : Connection σ τ) : Connection σ τ :=
  ((c.revise (·.endInput)).greet.onSession (·.restSession host)).flush

/-- A client that hears nothing any more hangs up, if it is impatient. -/
def hangUpIfDeaf (host : Host σ τ) (impatient : Bool) (c : Connection σ τ) : Connection σ τ :=
  if impatient && c.writer.state = .failed && c.result?.isNone then c.hangUp host else c

def rest (host : Host σ τ) (impatient : Bool) (c : Connection σ τ) : Connection σ τ :=
  let c := ((c.greet.onSession (·.restSession host)).flush).hangUpIfDeaf host impatient
  let c := ((c.onSession (·.restThread host)).flush).hangUpIfDeaf host impatient
  (c.onSession (·.restThread host)).flush

def receive (host : Host σ τ) (impatient : Bool) (c : Connection σ τ)
    (arrivals : List Packet.Arrival) : Connection σ τ :=
  (c.revise (·.feed arrivals)).rest host impatient

def finish (host : Host σ τ) (impatient : Bool) (c : Connection σ τ) : Connection σ τ :=
  (c.revise (·.endInput)).rest host impatient

end Connection

end DebugAdapter
