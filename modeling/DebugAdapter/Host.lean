import DebugAdapter.Debugger

/-!
# The host

The program that is debugged: the interpreter inside it, and how it is started. Its states are `τ`,
those of the interpreter `σ`.
-/

namespace DebugAdapter

structure Host (σ τ : Type) where
  interpreter : Interpreter σ
  start : StartMode → τ → Except AdapterError Unit × τ
  /-- Whether the interpreter runs, so that its thread has events to report. -/
  isRunning : τ → Bool

/-- A target that can be started once, or not at all. It remembers how it was last asked to start,
if it was able to. -/
structure OneShot where
  missing : Bool := false
  running : Bool := false
  asked : Option StartMode := none
deriving DecidableEq, Repr

def OneShot.start (mode : StartMode) (t : OneShot) : Except AdapterError Unit × OneShot :=
  if t.missing then (.error (.startFailed "script not found"), t)
  else if t.running then (.error (.startFailed "already started"), { t with asked := some mode })
  else (.ok (), { t with running := true, asked := some mode })

end DebugAdapter
