import DebugAdapter.Decimal.Numeral
import DebugAdapter.Error
import DebugAdapter.Pattern.Support
import DebugAdapter.Text.Ascii
import DebugAdapter.Text.Utf8

/-!
# Log filters

A filter is a list of directives with commas between them. A directive names a level, or what is
logged, or both: a target, a span in brackets with a field in braces, and the level behind an equals
sign. A field may have a value: a truth value, a number, or a pattern. The filter of the environment
wins over that of the settings if it can be read.
-/

namespace DebugAdapter.LogFilter

open Decimal (unsigned)

inductive FilterError where
  | level
  | directive
  | field (e : Pattern.PatternError)
deriving DecidableEq, Repr

def FilterError.reason : FilterError → String
  | .level =>
    "error parsing level filter: expected one of \"off\", \"error\", \"warn\", \"info\", " ++
      "\"debug\", \"trace\", or a number 0-5"
  | .directive => "invalid filter directive"
  | .field .invalid => "invalid field filter: error building NFA"
  | .field .wordBoundary =>
    "invalid field filter: unsupported regex feature for DFAs: cannot build DFAs for regexes " ++
      "with Unicode word boundaries; switch to ASCII word boundaries, or heuristically enable " ++
      "Unicode word boundaries or use a different regex engine"

-- ---------------------------------------------------------------------------
-- Levels and values
-- ---------------------------------------------------------------------------

def levelNames : List (List Char) :=
  [['o', 'f', 'f'], ['e', 'r', 'r', 'o', 'r'], ['w', 'a', 'r', 'n'], ['i', 'n', 'f', 'o'],
   ['d', 'e', 'b', 'u', 'g'], ['t', 'r', 'a', 'c', 'e']]

/-- A number up to five, or a name in any case. -/
def isLevel (cs : List Char) : Bool :=
  let ds := match cs with
    | '+' :: r => r
    | r => r
  (Decimal.ofNumeral? ds).any (· ≤ 5) || levelNames.contains (Text.lower cs)

/-- The level of a directive may be left empty. -/
def checkLevel (cs : List Char) : Except FilterError Unit :=
  if cs.isEmpty || isLevel cs then .ok () else .error .level

/-- Digits, a point and an exponent, or the name of a value without digits. -/
def isNumber (cs : List Char) : Bool :=
  let whole := cs.takeWhile Char.isDigit
  let rest := cs.dropWhile Char.isDigit
  let fraction := if rest.head? = some '.' then rest.tail.takeWhile Char.isDigit else []
  let rest := if rest.head? = some '.' then rest.tail.dropWhile Char.isDigit else rest
  (["inf", "infinity", "nan"].map String.toList).contains (Text.lower cs) ||
    (!(whole ++ fraction).isEmpty &&
      match rest with
      | [] => true
      | e :: r =>
        (e == 'e' || e == 'E') && !(unsigned r).isEmpty && (unsigned r).all Char.isDigit)

/-- Truth values and numbers are patterns too, but for a number with a plus sign. -/
def checkValue (cs : List Char) : Except FilterError Unit :=
  if cs.head? = some '+' && isNumber cs.tail then .ok ()
  else (Pattern.check cs).mapError .field

/-- A field is a name, with or without a value behind an equals sign. What follows another equals
sign does not count. -/
def checkField (cs : List Char) : Except FilterError Unit :=
  if cs.isEmpty then .error .directive
  else
    match cs.splitOn '=' with
    | _ :: value :: _ => checkValue value
    | _ => .ok ()

-- ---------------------------------------------------------------------------
-- Directives
-- ---------------------------------------------------------------------------

/-- What a directive may begin with, besides a bracket: letters, digits and three marks. -/
def isStart (c : Char) : Bool :=
  Text.isAlphanumeric c || ['-', ':', '_'].contains c

/-- Behind a span: nothing, or a level. A level is cut out of the directive with its blanks. -/
def afterSpan (directive : List Char) (position : Nat) : List Char → Except FilterError Unit
  | [] => .ok ()
  | '=' :: _ => checkLevel (Text.dropBytes (position + 1) directive)
  | _ => .error .directive

/-- Inside the braces of a span. The field, too, is cut out of the directive. -/
def field (directive : List Char) (start position : Nat) : List Char → Except FilterError Unit
  | [] => .error .directive
  | '\x7d' :: r => do
    checkField (Text.slice start position directive)
    match r with
    | ']' :: r => afterSpan directive (position + 2) r
    | _ => .error .directive
  | c :: r => field directive start (position + c.utf8Size) r

def span (directive : List Char) (position : Nat) : List Char → Except FilterError Unit
  | [] => .error .directive
  | ']' :: r => afterSpan directive (position + 1) r
  | '\x7b' :: r => field directive (position + 1) (position + 1) r
  | c :: r => span directive (position + c.utf8Size) r

def target (directive : List Char) (position : Nat) : List Char → Except FilterError Unit
  | [] => .ok ()
  | '=' :: _ => checkLevel (Text.dropBytes (position + 1) directive)
  | '[' :: r => span directive (position + 1) r
  | c :: r => target directive (position + c.utf8Size) r

/-- Blanks around a directive are passed over in looking for its parts, whose positions then count
from its very beginning. -/
def check (directive : List Char) : Except FilterError Unit :=
  match Text.trim directive with
  | [] => .error .directive
  | '[' :: r => span directive 1 r
  | c :: r => if isStart c then target directive c.utf8Size r else .error .directive

-- ---------------------------------------------------------------------------
-- Filters
-- ---------------------------------------------------------------------------

/-- Empty directives are passed over; the first one that cannot be read counts. -/
def checkAll (filter : String) : Except FilterError Unit :=
  ((filter.toList.splitOn ',').filter (!·.isEmpty)).forM check

def choose (configured : String) (environment : Option String) : Except AdapterError String :=
  match environment.filter fun s => (checkAll s).isOk with
  | some s => .ok s
  | none =>
    match checkAll configured with
    | .ok () => .ok configured
    | .error e => .error (.settings s!"log.filter '{configured}': {e.reason}")

/-- Logging is set up once; where it was set up before, a readable filter is refused as well. -/
def install (alreadySet : Bool) (configured : String) (environment : Option String) :
    Except AdapterError String :=
  match choose configured environment with
  | .error e => .error e
  | .ok filter =>
    if alreadySet then
      .error (.settings
        "tracing subscriber: a global default trace dispatcher has already been set")
    else .ok filter

end DebugAdapter.LogFilter
