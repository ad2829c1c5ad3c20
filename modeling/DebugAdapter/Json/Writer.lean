import DebugAdapter.Json.Basic
import DebugAdapter.Decimal.Layout

/-!
# Writing JSON

The compact text of a value: no blanks, entries in the order in which the value lists them, and
only what must be escaped escaped.
-/

namespace DebugAdapter.Json

def escape (c : Char) : List Char :=
  if c = '"' then ['\\', '"']
  else if c = '\\' then ['\\', '\\']
  else if c = '\n' then ['\\', 'n']
  else if c = '\r' then ['\\', 'r']
  else if c = '\t' then ['\\', 't']
  else if c = '\x08' then ['\\', 'b']
  else if c = '\x0c' then ['\\', 'f']
  else if c.toNat < 0x20 then
    ['\\', 'u', '0', '0', Nat.digitChar (c.toNat / 16), Nat.digitChar (c.toNat % 16)]
  else [c]

def quoted (s : String) : List Char := '"' :: s.toList.flatMap escape ++ ['"']

def integerText (n : Int) : List Char :=
  if n < 0 then '-' :: Decimal.numeral n.natAbs else Decimal.numeral n.natAbs

mutual

def chars : Json → List Char
  | .null => ['n', 'u', 'l', 'l']
  | .bool true => ['t', 'r', 'u', 'e']
  | .bool false => ['f', 'a', 'l', 's', 'e']
  | .int n => integerText n
  | .float x => (Decimal.scientificBeyond x).toList
  | .str s => quoted s
  | .arr items => '[' :: itemChars items ++ [']']
  | .obj entries => '\x7b' :: entryChars entries ++ ['\x7d']

def itemChars : List Json → List Char
  | [] => []
  | [j] => chars j
  | j :: rest => chars j ++ ',' :: itemChars rest

def entryChars : List (String × Json) → List Char
  | [] => []
  | [(k, j)] => quoted k ++ ':' :: chars j
  | (k, j) :: rest => quoted k ++ ':' :: chars j ++ ',' :: entryChars rest

end

def text (j : Json) : String := String.ofList (chars j)

end DebugAdapter.Json
