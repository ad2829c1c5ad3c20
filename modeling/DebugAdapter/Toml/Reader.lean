import DebugAdapter.Toml.Scalar
import DebugAdapter.Toml.Table
import DebugAdapter.Toml.Text

/-!
# Reading TOML

A document is a sequence of lines, each a header, a key with its value, or nothing, and each with
a comment or without. Braces and brackets may span lines. A document with an array of tables is
refused, and so is one that goes too deep.
-/

namespace DebugAdapter.Toml

/-- How many brackets and braces may be open at once, and how many parts a key may have. -/
def depthLimit : Nat := 80

abbrev Scan := StateT (List Char) Option

namespace Scan

def expect (c : Char) : Scan Unit := fun cs =>
  match cs with
  | d :: r => if c = d then some ((), r) else none
  | [] => none

def skipBlanks : Scan Unit := fun cs => some ((), cs.dropWhile isBlank)

def comment : Scan Unit := fun cs =>
  match cs with
  | '#' :: r => some ((), r.dropWhile isAllowed)
  | cs => some ((), cs)

/-- What follows blanks, comments and line ends. A comment that ends in front of its line end is
followed by a character that begins nothing. -/
def afterGap (inComment : Bool) : List Char → List Char
  | [] => []
  | '\n' :: r => afterGap false r
  | '\r' :: '\n' :: r => afterGap false r
  | c :: r =>
    if inComment then if isAllowed c then afterGap true r else c :: r
    else if c = '#' then afterGap true r
    else if isBlank c then afterGap false r
    else c :: r

def skipGap : Scan Unit := fun cs => some ((), afterGap false cs)

-- ---------------------------------------------------------------------------
-- Keys
-- ---------------------------------------------------------------------------

def isKeyChar (c : Char) : Bool :=
  c.isAlphanum || c == '_' || c == '-'

def keyPart : Scan String := fun cs =>
  match cs with
  | '"' :: r => (basic r).map fun (s, rest) => (String.ofList s, rest)
  | '\'' :: r => (literal r).map fun (s, rest) => (String.ofList s, rest)
  | cs =>
    let word := cs.takeWhile isKeyChar
    if word.isEmpty then none else some (String.ofList word, cs.dropWhile isKeyChar)

def keyParts : (fuel : Nat) → Scan (List String)
  | 0 => failure
  | fuel + 1 => do
    skipBlanks
    let part ← keyPart
    skipBlanks
    match (← get) with
    | '.' :: r =>
      set r
      let parts ← keyParts fuel
      pure (part :: parts)
    | _ => pure [part]

def key : Scan (List String) := do
  let cs ← get
  let parts ← keyParts (cs.length + 1)
  guard (parts.length ≤ depthLimit)
  pure parts

-- ---------------------------------------------------------------------------
-- Values
-- ---------------------------------------------------------------------------

mutual

/-- A value in which at most `depth` brackets and braces are open at once. -/
def value : (fuel depth : Nat) → Scan Value
  | 0, _ => failure
  | fuel + 1, depth => do
    let cs ← get
    match cs, depth with
    | '[' :: r, depth + 1 =>
      set r
      let items ← items fuel depth
      pure (.array items)
    | '\x7b' :: r, depth + 1 =>
      set r
      let entries ← pairs fuel depth []
      pure (.table .inline entries)
    | _, _ =>
      match string? cs with
      | some (s, rest) =>
        set rest
        pure (.text (String.ofList s))
      | none =>
        match afterScalar? cs with
        | some rest =>
          set rest
          pure .scalar
        | none => failure

def items : (fuel depth : Nat) → Scan (List Value)
  | 0, _ => failure
  | fuel + 1, depth => do
    skipGap
    match (← get) with
    | ']' :: r =>
      set r
      pure []
    | _ =>
      let item ← value fuel depth
      skipGap
      match (← get) with
      | ',' :: r =>
        set r
        let rest ← items fuel depth
        pure (item :: rest)
      | _ =>
        expect ']'
        pure [item]

/-- What is left of an inline table, which has `entries` so far. A key ends on its line; its equals
sign and its value may be on later ones. -/
def pairs : (fuel depth : Nat) → Entries → Scan Entries
  | 0, _, _ => failure
  | fuel + 1, depth, entries => do
    skipGap
    match (← get) with
    | '\x7d' :: r =>
      set r
      pure entries
    | _ =>
      let keys ← key
      skipGap
      expect '='
      skipGap
      let v ← value fuel depth
      let entries ← (entries.assign keys v : Option Entries)
      skipGap
      match (← get) with
      | ',' :: r =>
        set r
        pairs fuel depth entries
      | _ =>
        expect '\x7d'
        pure entries

end

end Scan

-- ---------------------------------------------------------------------------
-- Documents
-- ---------------------------------------------------------------------------

/-- What was read so far: all entries, and the table that the last header has defined. -/
structure Document where
  entries : Entries := []
  header : List String := []

namespace Document

open Scan

def line (d : Document) : Scan Document := do
  skipBlanks
  let cs ← get
  match cs with
  | [] | '#' :: _ | '\n' :: _ | '\r' :: _ => pure d
  | '[' :: '[' :: _ => failure
  | '[' :: r =>
    set r
    let header ← key
    expect ']'
    let entries ← (d.entries.define header : Option Entries)
    pure { entries := entries, header := header }
  | _ =>
    let keys ← key
    expect '='
    skipBlanks
    let v ← value (cs.length + 1) depthLimit
    let entries ← (d.entries.assignBelow d.header keys v : Option Entries)
    pure { d with entries := entries }

def lines : (fuel : Nat) → Document → List Char → Option Document
  | 0, _, _ => none
  | fuel + 1, d, cs => do
    let (d, rest) ← d.line cs
    let ((), rest) ← skipBlanks rest
    let ((), rest) ← comment rest
    match rest with
    | [] => some d
    | rest =>
      let rest ← afterLineEnd? rest
      lines fuel d rest

end Document

/-- The entries of a document. A byte order mark in front of it is passed over. -/
def read? (text : String) : Option Entries :=
  let cs := match text.toList with
    | '\ufeff' :: r => r
    | cs => cs
  (Document.lines (cs.length + 1) {} cs).map (·.entries)

end DebugAdapter.Toml
