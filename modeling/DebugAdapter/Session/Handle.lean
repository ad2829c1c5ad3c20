import DebugAdapter.Session.Bridge
import DebugAdapter.Session.Request

/-!
# The handle of a session

What the session and the thread of the interpreter share: the stops so far, which of them is
active, whether the session is closed, and the messages that wait to be written. Every operation
is one atomic step. An active stop keeps its place until its thread leaves it or the session
closes, so a decided stop is still active.
-/

namespace DebugAdapter

open Protocol

structure Stop where
  bridge : Bridge Question := {}
  decision : Option Decision := none
deriving DecidableEq, Repr

inductive Outgoing where
  | response (r : Response)
  | event (e : Event)
  /-- Nothing follows. -/
  | close
deriving BEq

structure Handle where
  closed : Bool := false
  /-- All stops that were ever reported, the first one first. -/
  stops : List Stop := []
  active : Option Nat := none
  /-- Everything that was ever queued for the client. -/
  outbox : List Outgoing := []

namespace Handle

def isStopped (h : Handle) : Bool := h.active.isSome

def post (h : Handle) (m : Outgoing) : Handle := { h with outbox := h.outbox ++ [m] }

def revise (h : Handle) (stop : Nat) (f : Stop → Stop) : Handle :=
  { h with stops := h.stops.modify stop f }

-- ---------------------------------------------------------------------------
-- The thread of the interpreter
-- ---------------------------------------------------------------------------

/-- A new stop becomes the active one, unless the session is closed. -/
def install (h : Handle) : Option (Nat × Handle) :=
  if h.closed then none
  else some (h.stops.length, { h with stops := h.stops ++ [{}], active := some h.stops.length })

def take (h : Handle) (stop : Nat) : Bridge.Turn Question × Handle :=
  match h.stops[stop]? with
  | none => (.leave, h)
  | some s =>
    let (turn, bridge) := s.bridge.take
    (turn, h.revise stop fun s => { s with bridge := bridge })

def leave (h : Handle) (stop : Nat) : Decision × Handle :=
  ((h.stops[stop]?.bind (·.decision)).getD .detach,
    if h.active = some stop then { h with active := none } else h)

-- ---------------------------------------------------------------------------
-- The session
-- ---------------------------------------------------------------------------

def current (h : Handle) : Except AdapterError Nat :=
  match h.active with
  | some stop => .ok stop
  | none => .error .notStopped

def decide (h : Handle) (stop : Nat) (decision : Decision) : Except AdapterError Handle :=
  match h.stops[stop]?.bind (·.decision) with
  | some _ => .error .alreadyResumed
  | none => .ok (h.revise stop fun s => { s with decision := some decision })

def schedule (h : Handle) (stop : Nat) (question : Question) : Except AdapterError Handle :=
  match h.stops[stop]? with
  | none => .error .notStopped
  | some s => (s.bridge.schedule question).map fun bridge =>
      h.revise stop fun s => { s with bridge := bridge }

/-- Lets the thread of a stop go. -/
def release (h : Handle) (stop : Nat) : Handle :=
  h.revise stop fun s => { s with bridge := s.bridge.dispose }

-- ---------------------------------------------------------------------------
-- Closing, in four steps
-- ---------------------------------------------------------------------------

def markClosed (h : Handle) : Handle := { h with closed := true }

def vacate (h : Handle) : Option Nat × Handle := (h.active, { h with active := none })

/-- A stop without a decision ends in detachment. -/
def settle (h : Handle) (stop : Nat) : Handle :=
  h.revise stop fun s => { s with decision := some (s.decision.getD .detach) }

end Handle

end DebugAdapter
