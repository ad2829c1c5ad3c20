import DebugAdapter.Text.Ascii
import DebugAdapter.Text.Blank
import DebugAdapter.Text.Utf8
import DebugAdapter.Decimal.Numeral

/-!
# Packet headers

A packet is a header, an empty line and a body. The header is UTF-8 text in lines that end in a
carriage return and a line feed; the first line named Content-Length, in any case, gives the number
of body bytes. Every other line is ignored, the request line included.
-/

namespace DebugAdapter.Packet

inductive HeaderError where
  | notText
  | lengthMissing
  | lengthInvalid (value : String)
  | tooLong (length : Nat)
deriving DecidableEq, Repr

def maxLength : Nat := 16777216

def HeaderError.reason : HeaderError → String
  | .notText => "header is not utf-8"
  | .lengthMissing => "missing Content-Length header"
  | .lengthInvalid value => s!"invalid Content-Length '{value}'"
  | .tooLong length => s!"Content-Length {length} exceeds {maxLength} bytes"

-- ---------------------------------------------------------------------------
-- Lines and fields
-- ---------------------------------------------------------------------------

/-- The lines of a text, cut at each carriage return that a line feed follows. -/
def lines : List Char → List (List Char)
  | [] => [[]]
  | '\r' :: '\n' :: r => [] :: lines r
  | c :: r => match lines r with
    | [] => [[c]]
    | line :: rest => (c :: line) :: rest

/-- Name and value of a line, cut at its first colon. -/
def field? (line : List Char) : Option (List Char × List Char) :=
  match line.dropWhile (· != ':') with
  | [] => none
  | _ :: value => some (line.takeWhile (· != ':'), value)

def lengthName : List Char := "Content-Length".toList

/-- The value of a line that is named Content-Length, without the blanks around it. -/
def lengthField? (line : List Char) : Option (List Char) :=
  (field? line).bind fun (name, value) =>
    if Text.sameIgnoringCase (Text.trim name) lengthName then some (Text.trim value) else none

-- ---------------------------------------------------------------------------
-- The length
-- ---------------------------------------------------------------------------

/-- A numeral with at most one plus sign in front. -/
def unsigned? (value : List Char) : Option Nat :=
  Decimal.ofNumeral? (match value with
    | '+' :: r => r
    | r => r)

/-- Lengths are counted in 64 bits. -/
def length? (value : List Char) : Except HeaderError Nat :=
  match unsigned? value with
  | none => .error (.lengthInvalid (String.ofList value))
  | some n =>
    if UInt64.size ≤ n then .error (.lengthInvalid (String.ofList value))
    else if maxLength < n then .error (.tooLong n)
    else .ok n

def bodyLength (header : Bytes) : Except HeaderError Nat :=
  match Text.ofUtf8? header with
  | none => .error .notText
  | some text =>
    match (lines text.toList).findSome? lengthField? with
    | none => .error .lengthMissing
    | some value => length? value

end DebugAdapter.Packet
