import DebugAdapter.Text.Ascii

/-!
# Source paths

The client names a file by a path, the interpreter by a chunk name. Both have a canonical form: one
leading `@` dropped, backslashes as slashes, one leading `./` dropped, and ASCII letters in lower
case where case does not count. Two names mean one source when their canonical forms are equal; a
missing name counts as the empty one.
-/

namespace DebugAdapter

/-- Whether the case of letters in paths counts. -/
inductive PathCase where
  /-- As on the host, where it does. -/
  | auto
  | sensitive
  | insensitive
deriving DecidableEq, Repr

def PathCase.ignoresCase : PathCase → Bool
  | .auto | .sensitive => false
  | .insensitive => true

namespace Path

/-- Drops the mark of a chunk that comes from a file. -/
def unmarked : List Char → List Char
  | '@' :: r => r
  | r => r

def slashed (p : List Char) : List Char := p.map fun c => if c = '\\' then '/' else c

/-- Drops a leading step into the current directory. -/
def undotted : List Char → List Char
  | '.' :: '/' :: r => r
  | r => r

def canonical (ignoresCase : Bool) (path : Option String) : List Char :=
  let p := undotted (slashed (unmarked (path.getD "").toList))
  if ignoresCase then Text.lower p else p

def same (ignoresCase : Bool) (left right : Option String) : Bool :=
  canonical ignoresCase left == canonical ignoresCase right

theorem same_iff {ignoresCase : Bool} {left right : Option String} :
    same ignoresCase left right = true ↔
      canonical ignoresCase left = canonical ignoresCase right := by simp [same]

example : same false (some "@./a\\b.lua") (some "a/b.lua") = true := by decide +kernel
example : same false none (some "./") = true ∧ same true none (some "a") = false := by
  decide +kernel

end Path

end DebugAdapter
