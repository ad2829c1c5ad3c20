/-!
# Patterns

Regular expressions, as far as it matters whether they can be built: what stands where, and under
which modes. Their meaning is not kept. The height bounds how deep a pattern nests.
-/

namespace DebugAdapter

namespace Pattern

structure Modes where
  ignoreCase : Bool := false
  unicode : Bool := true
  /-- Blanks and comments are passed over. -/
  verbose : Bool := false
deriving DecidableEq, Repr

structure Literal where
  char : Char
  /-- Written as a byte of two hexadecimal digits. -/
  isByte : Bool := false
deriving DecidableEq, Repr

inductive ClassSet where
  | literal (l : Literal)
  | range (first last : Literal)
  | named (negated : Bool)
  /-- Digits, blanks, or word characters. -/
  | shorthand (negated : Bool)
  | union (parts : List ClassSet)
  /-- What is in both sets, or in the left one only, or in one of them only. -/
  | combined (left right : ClassSet)
  | bracketed (negated : Bool) (inside : ClassSet)
deriving Inhabited

inductive Atom where
  | literal (l : Literal)
  /-- Any character, but perhaps not a line end. -/
  | any
  /-- The beginning or the end of a line or of the text. -/
  | edge
  | wordBoundary
  | shorthand (negated : Bool)
  | bracket (inside : ClassSet)
deriving Inhabited

end Pattern

inductive Pattern where
  | atom (modes : Pattern.Modes) (a : Pattern.Atom)
  | change
  | group (body : Pattern)
  | repeated (body : Pattern)
  | sequence (parts : List Pattern)
  | choice (branches : List Pattern)
deriving Inhabited

namespace Pattern

-- ---------------------------------------------------------------------------
-- Height
-- ---------------------------------------------------------------------------

/-- Only several parts make a level of their own. -/
def level {α : Type} (parts : List α) : Nat := if parts.length ≤ 1 then 0 else 1

mutual

def ClassSet.height : ClassSet → Nat
  | .literal _ | .range _ _ | .named _ | .shorthand _ => 0
  | .union parts => level parts + ClassSet.heightAll parts
  | .combined left right => max left.height right.height + 1
  | .bracketed _ inside => inside.height + 1

def ClassSet.heightAll : List ClassSet → Nat
  | [] => 0
  | part :: rest => max part.height (ClassSet.heightAll rest)

end

def Atom.height : Atom → Nat
  | .bracket inside => inside.height
  | _ => 0

mutual

def height : Pattern → Nat
  | .atom _ a => a.height
  | .change => 0
  | .group body | .repeated body => body.height + 1
  | .sequence parts | .choice parts => level parts + heightAll parts

def heightAll : List Pattern → Nat
  | [] => 0
  | part :: rest => max part.height (heightAll rest)

end

-- ---------------------------------------------------------------------------
-- Atoms
-- ---------------------------------------------------------------------------

mutual

def atoms : Pattern → List (Modes × Atom)
  | .atom modes a => [(modes, a)]
  | .change => []
  | .group body | .repeated body => body.atoms
  | .sequence parts | .choice parts => atomsAll parts

def atomsAll : List Pattern → List (Modes × Atom)
  | [] => []
  | part :: rest => part.atoms ++ atomsAll rest

end

end Pattern

end DebugAdapter
