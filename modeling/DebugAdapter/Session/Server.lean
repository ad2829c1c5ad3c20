import DebugAdapter.Session.Connection
import DebugAdapter.Settings.Basic

/-!
# Servers

A server listens at the address of its settings. Each client that comes gets a connection with a
debugger of its own, and all of them debug one target.
-/

namespace DebugAdapter

variable {σ τ ν : Type}

/-- The operating system as servers see it: at which address a program comes to listen, or why it
does not. Its states are `ν`. -/
structure Network (ν : Type) where
  listen : SocketAddress → ν → Except String SocketAddress × ν

/-- What the connections of a server have in common. -/
structure Factory where
  description : String
  paths : PathCase

def Factory.connect (factory : Factory) (endpoint : String) (target : τ) : Connection σ τ where
  stage := .greeting (.single factory.description)
    { debugger := .fresh factory.paths, target := target }
  writer := { endpoint := endpoint }

structure Server where
  /-- Where it listens, which may be another port than it asked for. -/
  address : SocketAddress
  endpoint : String
  factory : Factory

namespace Server

def bind (network : Network ν) (settings : Settings) (factory : Factory) (net : ν) :
    Except AdapterError Server × ν :=
  match network.listen settings.listen net with
  | (.ok address, net) => (.ok ⟨address, settings.endpoint, factory⟩, net)
  | (.error text, net) => (.error (.transport text), net)

def accept (server : Server) (target : τ) : Connection σ τ :=
  server.factory.connect server.endpoint target

end Server

end DebugAdapter
