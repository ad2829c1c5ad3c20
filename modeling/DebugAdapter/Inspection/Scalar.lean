import DebugAdapter.Interpreter.Basic
import DebugAdapter.Decimal.Layout

/-!
# Values as text

How a value that has no children is shown: its text and the name of its type. Functions, user data
and threads have neither.
-/

namespace DebugAdapter

/-- Whole numbers have no point, and zero no sign. -/
def numberText (x : Binary64) : String :=
  if x.isNaN then "nan"
  else if !x.isFinite then if x.isNegative then "-inf" else "inf"
  else if x.isZero then "0"
  else Decimal.plain x

/-- A value that the interpreter could not reach. -/
def unevaluated : String := "[unevaluated]"

def Value.display : Value → String
  | .nil => "nil"
  | .bool true => "True"
  | .bool false => "False"
  | .integer n => toString n
  | .number x => numberText x
  | .text s => s
  | .table | .function | .userdata | .thread => ""

def Value.typeName? : Value → Option String
  | .nil => some "nil"
  | .bool _ => some "boolean"
  | .integer _ | .number _ => some "number"
  | .text _ => some "string"
  | .table | .function | .userdata | .thread => none

end DebugAdapter
