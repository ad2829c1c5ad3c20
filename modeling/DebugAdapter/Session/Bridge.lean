import DebugAdapter.Error

/-!
# Bridges

A stop parks the thread of the interpreter. Its bridge takes tasks for that thread, in order,
until it is disposed; the thread runs what is queued and leaves once the bridge is disposed and
empty. Every operation is one atomic step.
-/

namespace DebugAdapter

structure Bridge (τ : Type) where
  queue : List τ := []
  disposed : Bool := false
deriving DecidableEq, Repr

namespace Bridge

variable {τ : Type}

def schedule (b : Bridge τ) (task : τ) : Except AdapterError (Bridge τ) :=
  if b.disposed then .error .stopEnded else .ok { b with queue := b.queue ++ [task] }

/-- No more tasks are taken; those that are queued still run. -/
def dispose (b : Bridge τ) : Bridge τ := { b with disposed := true }

inductive Turn (τ : Type) where
  | wait
  | work (batch : List τ)
  | leave
deriving DecidableEq, Repr

def take (b : Bridge τ) : Turn τ × Bridge τ :=
  match b.queue with
  | [] => (if b.disposed then .leave else .wait, b)
  | batch => (.work batch, { b with queue := [] })

end Bridge

end DebugAdapter
