import DebugAdapter.Decimal.Numeral
import DebugAdapter.Text.Hexadecimal
import DebugAdapter.Toml.Text

/-!
# TOML scalars

Numbers, truth values and moments, each of one word or of several with blanks between them. They are
only recognised: their values are not kept.
-/

namespace DebugAdapter.Toml

open Decimal (unsigned)

def endMarks : List Char :=
  ['=', ',', '[', ']', '\x7b', '\x7d', '#', ' ', '\t', '\r', '\n']

def isBare (c : Char) : Bool := !endMarks.contains c

/-- The words that a text begins with and the blanks between them. A quote belongs to a word, but
behind a blank it begins a string. -/
def words : List Char → List Char
  | [] => []
  | c :: r =>
    if isBlank c then
      match words r with
      | [] | '"' :: _ | '\'' :: _ => []
      | rest => c :: rest
    else if isBare c then c :: words r
    else []

-- ---------------------------------------------------------------------------
-- Numbers
-- ---------------------------------------------------------------------------

/-- Every underscore stands between two digits. -/
def isGrouped (digit : Char → Bool) (cs : List Char) : Bool :=
  let parts := cs.splitOn '_'
  (parts.tail.all fun part => part.head?.any digit) &&
    parts.dropLast.all fun part => part.getLast?.any digit

/-- Digits behind the mark of another base than ten, or none at all. -/
def isBased (digit : Char → Bool) (cs : List Char) : Bool :=
  (cs.all fun c => digit c || c == '_') && isGrouped digit cs

def isFloatMark (c : Char) : Bool := c == '.' || c == 'e' || c == 'E'

/-- A whole number to the base ten, without a leading zero. Behind its first underscore only the
neighbours of underscores are looked at, and letters up to f pass for digits there; what makes a
float or is a space is refused all the same. -/
def isDecimal (cs : List Char) : Bool :=
  let ds := unsigned cs
  match ds.dropWhile Char.isDigit with
  | [] => !ds.isEmpty && (ds.length = 1 || ds.head? != some '0')
  | '_' :: _ =>
    ds.head? != some '0' && !ds.any (fun c => isFloatMark c || c == ' ') &&
      isGrouped Text.isHexDigit ds
  | _ => false

def isInteger : List Char → Bool
  | '0' :: 'x' :: r => isBased Text.isHexDigit r
  | '0' :: 'o' :: r => isBased (fun c => '0' ≤ c && c ≤ '7') r
  | '0' :: 'b' :: r => isBased (fun c => c == '0' || c == '1') r
  | cs => isDecimal cs

def digits? (cs : List Char) : Option (List Char × List Char) :=
  let inside (c : Char) : Bool := c.isDigit || c == '_'
  let run := cs.takeWhile inside
  if run.any Char.isDigit then some (run, cs.dropWhile inside) else none

def afterFraction? : List Char → Option (List Char)
  | '.' :: r => (digits? r).map (·.2)
  | r => some r

def afterExponent? : List Char → Option (List Char)
  | 'e' :: r | 'E' :: r => (digits? (unsigned r)).map (·.2)
  | r => some r

def isFloat (cs : List Char) : Bool :=
  let ds := unsigned cs
  ds = ['i', 'n', 'f'] || ds = ['n', 'a', 'n'] ||
    match digits? ds with
    | none => false
    | some (whole, rest) =>
      !rest.isEmpty && (whole.head? != some '0' || whole.countP Char.isDigit = 1) &&
        (afterFraction? rest).bind afterExponent? = some [] && isGrouped Char.isDigit ds

-- ---------------------------------------------------------------------------
-- Moments
-- ---------------------------------------------------------------------------

def inBounds (width low high : Nat) (cs : List Char) : Bool :=
  cs.length = width && (Decimal.ofNumeral? cs).any fun n => low ≤ n && n ≤ high

def daysIn (year month : Nat) : Nat :=
  if month = 2 then
    if year % 4 = 0 && (year % 100 != 0 || year % 400 = 0) then 29 else 28
  else if [4, 6, 9, 11].contains month then 30
  else 31

def isDate (cs : List Char) : Bool :=
  match cs.splitOn '-' with
  | [year, month, day] =>
    inBounds 4 0 9999 year && inBounds 2 1 12 month &&
      inBounds 2 1 (daysIn (Nat.ofDigitChars 10 year 0) (Nat.ofDigitChars 10 month 0)) day
  | _ => false

/-- Hours and minutes, and seconds if they are given, with or without a fraction. -/
def isTime (cs : List Char) : Bool :=
  match cs.splitOn ':' with
  | [hour, minute] => inBounds 2 0 23 hour && inBounds 2 0 59 minute
  | [hour, minute, second] =>
    inBounds 2 0 23 hour && inBounds 2 0 59 minute &&
      match second.splitOn '.' with
      | [whole] => inBounds 2 0 60 whole
      | [whole, fraction] =>
        inBounds 2 0 60 whole && !fraction.isEmpty && fraction.all Char.isDigit
      | _ => false
  | _ => false

def isOffset (cs : List Char) : Bool :=
  match cs with
  | ['z'] | ['Z'] => true
  | '+' :: r | '-' :: r =>
    match r.splitOn ':' with
    | [hour, minute] => inBounds 2 0 23 hour && inBounds 2 0 59 minute
    | _ => false
  | _ => false

def isOffsetTime (cs : List Char) : Bool :=
  let mark (c : Char) : Bool := ['z', 'Z', '+', '-'].contains c
  let offset := cs.dropWhile fun c => !mark c
  isTime (cs.takeWhile fun c => !mark c) && (offset.isEmpty || isOffset offset)

/-- A time, a date, or both with a letter or one space between them. -/
def isMoment (cs : List Char) : Bool :=
  isTime cs || isDate cs ||
    (isDate (cs.take 10) && [some 'T', some 't', some ' '].contains cs[10]? &&
      isOffsetTime (cs.drop 11))

-- ---------------------------------------------------------------------------
-- Scalars
-- ---------------------------------------------------------------------------

def isScalar (cs : List Char) : Bool :=
  cs = "true".toList || cs = "false".toList || isInteger cs || isFloat cs || isMoment cs

def afterScalar? (cs : List Char) : Option (List Char) :=
  let scalar := words cs
  if isScalar scalar then some (cs.drop scalar.length) else none

example : isScalar "1_000".toList ∧ ¬ isScalar "01".toList ∧ isScalar "6.02e23".toList := by
  decide +kernel
example : isScalar "1_f".toList ∧ ¬ isScalar "1_g".toList ∧ ¬ isScalar "+_1".toList := by
  decide +kernel
example : isScalar "1_0\tz".toList ∧ ¬ isScalar "1_0 z".toList ∧ ¬ isScalar "10\tz".toList := by
  decide +kernel
example : isScalar "2024-02-29T07:32Z".toList ∧ ¬ isScalar "2023-02-29".toList := by
  decide +kernel
example : afterScalar? "2024-02-29 07:32Z # x".toList = some " # x".toList := by
  decide +kernel

end DebugAdapter.Toml
