import DebugAdapter.Breakpoints.Path
import DebugAdapter.Error
import DebugAdapter.Settings.SocketAddress
import DebugAdapter.Text.Blank
import DebugAdapter.Text.Utf8
import DebugAdapter.Toml.Reader

/-!
# Settings

Where the adapter listens, the endpoint that its packets name, how paths compare and what is logged.
They are read from a TOML document with the tables `server` and `log`; each key has a default, and
unknown keys are refused.
-/

namespace DebugAdapter

structure Settings where
  listen : SocketAddress := .quad ⟨0, 0, 0, 0⟩ 8845
  endpoint : String := "/dap"
  pathCase : PathCase := .auto
  logFilter : String := "info"
deriving DecidableEq, Repr

namespace Settings

def fileName : String := "lua-debug.toml"

/-- The document is not TOML, or not one of settings. -/
def unreadable : AdapterError := .settings s!"{fileName}:"

-- ---------------------------------------------------------------------------
-- Tables
-- ---------------------------------------------------------------------------

structure Draft where
  listen : Option String := none
  endpoint : Option String := none
  pathCase : Option PathCase := none
  logFilter : Option String := none

def textOf? : Toml.Value → Option String
  | .text s => some s
  | _ => none

def pathCaseNames : List (String × PathCase) :=
  [("auto", .auto), ("sensitive", .sensitive), ("insensitive", .insensitive)]

/-- A path case is written as its name, or as a table with its name as the only key and nothing
in it. -/
def pathCaseOf? : Toml.Value → Option PathCase
  | .text s => pathCaseNames.lookup s
  | .table _ [(s, .table _ [])] => pathCaseNames.lookup s
  | .table _ [(s, .array [])] => pathCaseNames.lookup s
  | _ => none

def serverEntry (draft : Draft) : String × Toml.Value → Option Draft
  | ("listen", v) => (textOf? v).map fun s => { draft with listen := some s }
  | ("endpoint", v) => (textOf? v).map fun s => { draft with endpoint := some s }
  | ("path_case", v) => (pathCaseOf? v).map fun p => { draft with pathCase := some p }
  | _ => none

def logEntry (draft : Draft) : String × Toml.Value → Option Draft
  | ("filter", v) => (textOf? v).map fun s => { draft with logFilter := some s }
  | _ => none

/-- A table may be written as an array of the values of its keys, in their order and without a
gap. -/
def tableOf? (keys : List String) : Toml.Value → Option Toml.Entries
  | .table _ entries => some entries
  | .array items => if items.length < keys.length then none else some (keys.zip items)
  | .text _ | .scalar => none

def entry (draft : Draft) : String × Toml.Value → Option Draft
  | ("server", v) =>
    (tableOf? ["listen", "endpoint", "path_case"] v).bind (·.foldlM serverEntry draft)
  | ("log", v) => (tableOf? ["filter"] v).bind (·.foldlM logEntry draft)
  | _ => none

-- ---------------------------------------------------------------------------
-- Values
-- ---------------------------------------------------------------------------

/-- A path from the root, without white space. -/
def isEndpoint (s : String) : Bool := s.toList.head? = some '/' && !s.toList.any Text.isBlank

def ofDraft (draft : Draft) : Except AdapterError Settings :=
  let usual : Settings := {}
  let listen := draft.listen.getD usual.listen.text
  let endpoint := draft.endpoint.getD usual.endpoint
  match SocketAddress.ofText? listen with
  | none => .error (.settings s!"server.listen '{listen}': invalid socket address syntax")
  | some address =>
    if isEndpoint endpoint then
      .ok
        { listen := address
          endpoint := endpoint
          pathCase := draft.pathCase.getD usual.pathCase
          logFilter := draft.logFilter.getD usual.logFilter }
    else
      .error (.settings
        s!"server.endpoint '{endpoint}' must be an absolute path without spaces")

def ofText (text : String) : Except AdapterError Settings :=
  match (Toml.read? text).bind (·.foldlM entry {}) with
  | none => .error unreadable
  | some draft => ofDraft draft

/-- The settings of a file, none where there is no such file. -/
def ofFile (content : Option Bytes) : Except AdapterError Settings :=
  match content with
  | none => .error (.settings s!"{fileName}: No such file or directory (os error 2)")
  | some bytes =>
    match Text.ofUtf8? bytes with
    | none => .error (.settings s!"{fileName}: stream did not contain valid UTF-8")
    | some text => ofText text

end Settings

end DebugAdapter
