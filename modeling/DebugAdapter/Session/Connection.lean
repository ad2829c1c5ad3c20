import DebugAdapter.Session.System
import DebugAdapter.Session.Writer

/-!
# Connections

A connection begins with one packet of the client, whatever its body. It is answered with the places
where something can be debugged; then a session for the default place runs on the same stream.
-/

namespace DebugAdapter

open Protocol

def defaultLocation : String := "default"

/-- What a server offers: the places that it lists, and those where it has a target. -/
structure Directory where
  locations : List DebugLocation
  serves : String → Bool

def Directory.single (description : String) : Directory where
  locations := [⟨defaultLocation, description⟩]
  serves place := place == defaultLocation

inductive Connection.Stage (σ τ : Type) where
  /-- Waits for the first packet; the session, whose stream it is, has not begun. -/
  | greeting (directory : Directory) (sys : System σ τ)
  | running (sys : System σ τ)
  /-- Ended without a session. -/
  | over (sys : System σ τ) (result : Except AdapterError Unit)

structure Connection (σ τ : Type) where
  stage : Connection.Stage σ τ
  writer : Writer

namespace Connection

variable {σ τ : Type}

def Stage.system : Stage σ τ → System σ τ
  | .greeting _ sys | .running sys | .over sys _ => sys

def system (c : Connection σ τ) : System σ τ := c.stage.system

def result? (c : Connection σ τ) : Option (Except AdapterError Unit) :=
  match c.stage with
  | .greeting .. => none
  | .over _ result => some result
  | .running sys =>
    match sys.session.phase with
    | .ended result => some result
    | _ => none

def revise (c : Connection σ τ) (f : System σ τ → System σ τ) : Connection σ τ :=
  { c with stage := match c.stage with
    | .greeting directory sys => .greeting directory (f sys)
    | .running sys => .running (f sys)
    | .over sys result => .over (f sys) result }

/-- Looks for the first packet, and answers it. Failing to read or to write ends the connection. -/
def greet (c : Connection σ τ) : Connection σ τ :=
  match c.stage with
  | .running _ | .over .. => c
  | .greeting directory sys =>
    let (r, reader) := sys.session.reader.readPacket
    let sys := { sys with session := { sys.session with reader := reader } }
    match r with
    | .blocked => { c with stage := .greeting directory sys }
    | .ended => { c with stage := .over sys (.ok ()) }
    | .failed text => { c with stage := .over sys (.error (.transport text)) }
    | .malformed e => { c with stage := .over sys (.error (.framing e.reason)) }
    | .item _ =>
      let writer := c.writer.write (handshakeResponse.encode ⟨true, directory.locations⟩)
      if writer.state = .failed then
        { stage := .over sys (.error (.transport Packet.Sink.failure)), writer := writer }
      else if directory.serves defaultLocation then
        { stage := .running sys, writer := writer }
      else
        { stage := .over sys (.ok ())
          writer := { writer with sink := writer.sink.shutDown, state := .finished } }

def flush (c : Connection σ τ) : Connection σ τ :=
  match c.stage with
  | .running sys => { c with writer := c.writer.flush sys.handle.outbox }
  | .greeting .. | .over .. => c

end Connection

end DebugAdapter
