import DebugAdapter.Pattern.Basic
import DebugAdapter.Text.Alphanumeric
import DebugAdapter.Text.Hexadecimal

/-!
# Reading patterns

The text of a pattern never holds a closing brace, so that an opening one outside of brackets opens
nothing and is refused. What a group switches on or off ends with the group.
-/

namespace DebugAdapter.Pattern

/-- What is left of a text, the modes in force, and the names of groups so far. -/
structure Source where
  rest : List Char
  modes : Modes := {}
  names : List (List Char) := []

abbrev Scan := StateT Source Option

namespace Scan

def goOn (rest : List Char) : Scan Unit := modify fun s => { s with rest := rest }

def setModes (modes : Modes) : Scan Unit := modify fun s => { s with modes := modes }

def next : Scan Char := do
  match (← get).rest with
  | [] => failure
  | c :: r =>
    goOn r
    pure c

def accept (c : Char) : Scan Bool := do
  match (← get).rest with
  | [] => pure false
  | d :: r =>
    if c = d then goOn r
    pure (c = d)

def afterSpace (inComment : Bool) : List Char → List Char
  | [] => []
  | c :: r =>
    if inComment then afterSpace (c != '\n') r
    else if c = '#' then afterSpace true r
    else if Text.isBlank c then afterSpace false r
    else c :: r

/-- Blanks, and comments to the end of their line, where the modes allow them. -/
def space : Scan Unit :=
  modify fun s => if s.modes.verbose then { s with rest := afterSpace false s.rest } else s

/-- The character that comes next but for blanks. The mark of a comment is passed over here, its
text is not. -/
def ahead (modes : Modes) (cs : List Char) : Option Char :=
  if modes.verbose then
    match cs.dropWhile Text.isBlank with
    | '#' :: r => (r.dropWhile Text.isBlank).head?
    | r => r.head?
  else cs.head?

-- ---------------------------------------------------------------------------
-- Escapes
-- ---------------------------------------------------------------------------

def hexDigits : (count : Nat) → Scan (List Char)
  | 0 => pure []
  | count + 1 => do
    space
    let c ← next
    let rest ← hexDigits count
    pure (c :: rest)

def codePoint (count : Nat) : Scan Char := do
  let digits ← hexDigits count
  (Text.codePoint? digits : Option Char)

def controls : List (Char × Char) :=
  [('a', '\x07'), ('f', '\x0c'), ('t', '\t'), ('n', '\n'), ('r', '\r'), ('v', '\x0b')]

/-- Characters that stand for themselves behind a backslash. -/
def isEscapable (c : Char) : Bool :=
  c.toNat ≤ 0x7F && !c.isAlphanum && c != '<' && c != '>'

/-- Behind a backslash. Properties of characters are not known, nor are references to groups. -/
def escape : Scan Atom := do
  let c ← next
  match c with
  | 'x' => pure (.literal ⟨← codePoint 2, true⟩)
  | 'u' => pure (.literal ⟨← codePoint 4, false⟩)
  | 'U' => pure (.literal ⟨← codePoint 8, false⟩)
  | 'd' | 's' | 'w' => pure (.shorthand false)
  | 'D' | 'S' | 'W' => pure (.shorthand true)
  | 'A' | 'z' => pure .edge
  | 'b' | 'B' | '<' | '>' => pure .wordBoundary
  | c =>
    match controls.lookup c with
    | some d => pure (.literal ⟨d, false⟩)
    | none => if isEscapable c then pure (.literal ⟨c, false⟩) else failure

-- ---------------------------------------------------------------------------
-- Brackets
-- ---------------------------------------------------------------------------

def member : Scan Atom := do
  let c ← next
  if c = '\\' then escape else pure (.literal ⟨c, false⟩)

def single : Atom → Scan ClassSet
  | .literal l => pure (.literal l)
  | .shorthand negated => pure (.shorthand negated)
  | _ => failure

/-- A member, or a range of two. A dash in front of another one or of the closing bracket makes no
range. -/
def range : Scan ClassSet := do
  let first ← member
  space
  let s ← get
  match s.rest with
  | '-' :: r =>
    if [some ']', some '-'].contains (ahead s.modes r) then single first
    else
      goOn r
      space
      let last ← member
      match first, last with
      | .literal a, .literal b => if a.char ≤ b.char then pure (.range a b) else failure
      | _, _ => failure
  | _ => single first

def classNames : List (List Char) :=
  ["alnum", "alpha", "ascii", "blank", "cntrl", "digit", "graph", "lower", "print", "punct",
    "space", "upper", "word", "xdigit"].map String.toList

/-- The name of a class between colons, and whether it is negated, with its closing bracket. -/
def named? : List Char → Option (Bool × List Char)
  | ':' :: r =>
    let negated := r.head? == some '^'
    let r := if negated then r.drop 1 else r
    match r.dropWhile (· != ':') with
    | ':' :: ']' :: rest =>
      if classNames.contains (r.takeWhile (· != ':')) then some (negated, rest) else none
    | _ => none
  | _ => none

/-- A dash, or several, in front of all else stand for themselves. -/
def dashes : (fuel : Nat) → Scan (List ClassSet)
  | 0 => failure
  | fuel + 1 => do
    space
    if (← accept '-') then
      let rest ← dashes fuel
      pure (.literal ⟨'-', false⟩ :: rest)
    else pure []

/-- What stands in front of all else: dashes, or else a closing bracket that closes nothing. -/
def leading (fuel : Nat) : Scan (List ClassSet) := do
  let first ← dashes fuel
  if first.isEmpty then
    if (← accept ']') then return [.literal ⟨']', false⟩]
  pure first

/-- The set that ends at an operator or at the closing bracket, last part first. -/
def joined (left : Option ClassSet) (parts : List ClassSet) : ClassSet :=
  match left with
  | none => .union parts.reverse
  | some left => .combined left (.union parts.reverse)

mutual

def bracket : (fuel : Nat) → Scan ClassSet
  | 0 => failure
  | fuel + 1 => do
    space
    let negated ← accept '^'
    let first ← leading (fuel + 1)
    let inside ← members fuel none first.reverse
    pure (.bracketed negated inside)

/-- What is left of a set, with its parts so far, last part first, and what stands to the left of
the last operator. -/
def members : (fuel : Nat) → (left : Option ClassSet) → (parts : List ClassSet) → Scan ClassSet
  | 0, _, _ => failure
  | fuel + 1, left, parts => do
    space
    match (← get).rest with
    | [] => failure
    | ']' :: r =>
      goOn r
      pure (joined left parts)
    | '&' :: '&' :: r | '-' :: '-' :: r | '~' :: '~' :: r =>
      goOn r
      members fuel (some (joined left parts)) []
    | '[' :: r =>
      match named? r with
      | some (negated, r) =>
        goOn r
        members fuel left (.named negated :: parts)
      | none =>
        goOn r
        let inner ← bracket fuel
        members fuel left (inner :: parts)
    | _ =>
      let part ← range
      members fuel left (part :: parts)

end

-- ---------------------------------------------------------------------------
-- Groups
-- ---------------------------------------------------------------------------

def isNameStart (c : Char) : Bool := c == '_' || Text.isAlphabetic c

def isNamePart (c : Char) : Bool :=
  ['_', '.', '[', ']'].contains c || Text.isAlphanumeric c

/-- The name of a group, with the angle behind it. No two groups have one name. -/
def name : Scan Unit := do
  let s ← get
  let name := s.rest.takeWhile (· != '>')
  guard (name.head?.any isNameStart && name.tail.all isNamePart && !s.names.contains name)
  set { s with rest := s.rest.dropWhile (· != '>'), names := name :: s.names }
  guard (← accept '>')

def flagLetters : List Char := ['i', 'm', 's', 'U', 'u', 'R', 'x']

/-- The flags to switch on, and behind a dash those to switch off, each of them once. -/
def flags? (cs : List Char) : Option (List Char × List Char) :=
  match cs.splitOn '-' with
  | [on] => if isFine on then some (on, []) else none
  | [on, off] => if isFine (on ++ off) && !off.isEmpty then some (on, off) else none
  | _ => none
where
  isFine (letters : List Char) : Bool := letters.all flagLetters.contains && letters.Nodup

def changed (modes : Modes) (on off : List Char) : Modes :=
  let setting (letter : Char) (old : Bool) := on.contains letter || (old && !off.contains letter)
  ⟨setting 'i' modes.ignoreCase, setting 'u' modes.unicode, setting 'x' modes.verbose⟩

/-- Behind an opening parenthesis: the modes from here on, and whether a group begins here. -/
def opening : Scan (Modes × Bool) := do
  space
  let s ← get
  match s.rest with
  | '?' :: 'P' :: '<' :: r | '?' :: '<' :: r =>
    goOn r
    name
    pure (s.modes, true)
  | '?' :: r =>
    let letters := r.takeWhile fun c => c != ':' && c != ')'
    let (on, off) ← (flags? letters : Option (List Char × List Char))
    goOn (r.dropWhile fun c => c != ':' && c != ')')
    if (← accept ':') then pure (changed s.modes on off, true)
    else
      guard ((← accept ')') && !letters.isEmpty)
      pure (changed s.modes on off, false)
  | _ => pure (s.modes, true)

/-- Up to the end of the text or of the group, with the branches so far, and the parts of the last
one so far, last first. -/
def body : (fuel : Nat) → (branches parts : List Pattern) → Scan Pattern
  | 0, _, _ => failure
  | fuel + 1, branches, parts => do
    space
    let s ← get
    match s.rest with
    | [] | ')' :: _ => pure (.choice (.sequence parts.reverse :: branches).reverse)
    | c :: r =>
      goOn r
      match c with
      | '|' => body fuel (.sequence parts.reverse :: branches) []
      | '(' =>
        let (modes, isGroup) ← opening
        setModes modes
        if isGroup then
          let inside ← body fuel [] []
          guard (← accept ')')
          setModes s.modes
          body fuel branches (.group inside :: parts)
        else body fuel branches (.change :: parts)
      | '*' | '+' | '?' =>
        match parts with
        | [] | .change :: _ => failure
        | part :: parts =>
          let _ ← accept '?'
          body fuel branches (.repeated part :: parts)
      | '\x7b' => failure
      | c =>
        let a ← match c with
          | '[' => do pure (.bracket (← bracket (2 * r.length + 2)))
          | '\\' => escape
          | '.' => pure .any
          | '^' | '$' => pure .edge
          | c => pure (.literal ⟨c, false⟩)
        body fuel branches (.atom s.modes a :: parts)

end Scan

def read? (text : List Char) : Option Pattern := do
  let (pattern, s) ← Scan.body (text.length + 1) [] [] { rest := text }
  guard s.rest.isEmpty
  pure pattern

end DebugAdapter.Pattern
