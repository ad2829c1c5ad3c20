import DebugAdapter.Pattern.Reader

/-!
# Patterns that can be built

Not every pattern that can be read can be built: it must match text only, and there are no tables
of letters beyond ASCII. So the case of characters, and what digits, blanks and words are, is known
only where Unicode is switched off; and there, nothing may match a part of a character.
-/

namespace DebugAdapter.Pattern

def heightLimit : Nat := 250

inductive PatternError where
  | invalid
  /-- It asks for the boundaries of words in Unicode. -/
  | wordBoundary
deriving DecidableEq, Repr

/-- A single byte must be a character. -/
def Literal.isSupported (modes : Modes) (l : Literal) : Bool :=
  if modes.unicode then !modes.ignoreCase else !l.isByte || l.char.toNat ≤ 0x7F

/-- Between brackets, every character must be a single byte where Unicode is off. -/
def Literal.isSupportedMember (modes : Modes) (l : Literal) : Bool :=
  if modes.unicode then !modes.ignoreCase else l.char.toNat ≤ 0x7F

mutual

def ClassSet.isSupported (modes : Modes) : ClassSet → Bool
  | .literal l => l.isSupportedMember modes
  | .range first last => first.isSupportedMember modes && last.isSupportedMember modes
  | .named negated => if modes.unicode then !modes.ignoreCase else !negated
  | .shorthand negated => !modes.unicode && !negated
  | .union parts => ClassSet.areSupported modes parts
  | .combined left right => left.isSupported modes && right.isSupported modes
  | .bracketed negated inside => (modes.unicode || !negated) && inside.isSupported modes

def ClassSet.areSupported (modes : Modes) : List ClassSet → Bool
  | [] => true
  | part :: rest => part.isSupported modes && ClassSet.areSupported modes rest

end

def Atom.isSupported (modes : Modes) : Atom → Bool
  | .literal l => l.isSupported modes
  | .any => modes.unicode
  | .edge | .wordBoundary => true
  | .shorthand negated => !modes.unicode && !negated
  | .bracket inside => inside.isSupported modes

def Atom.isUnicodeBoundary (modes : Modes) : Atom → Bool
  | .wordBoundary => modes.unicode
  | _ => false

def check (text : List Char) : Except PatternError Unit :=
  match read? text with
  | none => .error .invalid
  | some pattern =>
    if heightLimit < pattern.height then .error .invalid
    else if pattern.atoms.any fun (modes, a) => !a.isSupported modes then .error .invalid
    else if pattern.atoms.any fun (modes, a) => a.isUnicodeBoundary modes then
      .error .wordBoundary
    else .ok ()

example : (check "[a-z]+(b|c)*?".toList).isOk ∧ (check "(?-u)\\d\\b".toList).isOk := by
  decide +kernel
example : ¬ (check "\\d".toList).isOk ∧ check "\\b".toList matches .error .wordBoundary := by
  decide +kernel

end DebugAdapter.Pattern
