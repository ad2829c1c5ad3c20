import DebugAdapter.Json.Basic

/-!
# JSON numbers

A numeral without fraction and exponent is an integer while it fits 64 bits, signed or unsigned;
`-0` and everything else is a float. A float is read from a significand of at most 64 bits, further
digits only moving the exponent, and one multiplication or division by a power of ten. A value
beyond the largest float is no number.
-/

namespace DebugAdapter.Json

/-- A numeral taken apart: the digits before and after the point and the exponent, each as
written. -/
structure Numeral where
  negative : Bool
  whole : List Char
  fraction : Option (List Char)
  exponent : Option (Bool × List Char)

/-- Takes a numeral apart, or refuses a text that is none: no leading zeros, at least one digit
before the point, after it and in the exponent, and nothing else. -/
def Numeral.ofChars? (text : List Char) : Option Numeral :=
  let (negative, rest) := match text with
    | '-' :: r => (true, r)
    | r => (false, r)
  let whole := rest.takeWhile Char.isDigit
  let rest := rest.dropWhile Char.isDigit
  if whole.isEmpty || (whole.length > 1 && whole.head? == some '0') then none
  else
    match fractionPart rest with
    | none => none
    | some (fraction, rest) =>
      match exponentPart rest with
      | none => none
      | some exponent => some ⟨negative, whole, fraction, exponent⟩
where
  fractionPart : List Char → Option (Option (List Char) × List Char)
    | '.' :: r =>
      let ds := r.takeWhile Char.isDigit
      if ds.isEmpty then none else some (some ds, r.dropWhile Char.isDigit)
    | r => some (none, r)
  exponentPart : List Char → Option (Option (Bool × List Char))
    | [] => some none
    | e :: r =>
      if e == 'e' || e == 'E' then
        let (positive, ds) := match r with
          | '+' :: ds => (true, ds)
          | '-' :: ds => (false, ds)
          | ds => (true, ds)
        if ds.isEmpty || !ds.all Char.isDigit then none else some (some (positive, ds))
      else none

/-- Appends digits to a significand while it fits 64 bits; the second part counts the digits that
went in. -/
def absorb (significand : Nat) : List Char → Nat × Nat
  | [] => (significand, 0)
  | c :: r =>
    let next := Nat.ofDigitChars 10 [c] significand
    if next < UInt64.size then
      let (s, n) := absorb next r
      (s, n + 1)
    else (significand, 0)

def powerOfTen (n : Nat) : Float := Float.ofScientific 1 false n

/-- `significand * 10 ^ exponent` by one operation, after steps of `10 ^ 308` towards zero where
the exponent is below -308. -/
def scale (fuel : Nat) (value : Float) (exponent : Int) : Option Float :=
  if exponent.natAbs ≤ 308 then
    if 0 ≤ exponent then
      let scaled := value * powerOfTen exponent.natAbs
      if scaled.isInf then none else some scaled
    else some (value / powerOfTen exponent.natAbs)
  else if value == 0.0 then some value
  else if 0 ≤ exponent then none
  else match fuel with
    | 0 => some 0.0
    | fuel + 1 => scale fuel (value / powerOfTen 308) (exponent + 308)

/-- The exponents that can be told apart end here; past them only the sign matters. -/
def exponentLimit : Nat := Nat.pow 2 31

def floatOf (negative : Bool) (significand : Nat) (exponent : Int) : Option Json :=
  -- After three steps every significand of 64 bits is zero.
  (scale 4 (Float.ofNat significand) exponent).map fun x =>
    .float ⟨(if negative then -x else x).toBits⟩

def Numeral.value? (t : Numeral) : Option Json :=
  let (significand, kept) := absorb 0 t.whole
  let dropped := t.whole.length - kept
  match t.fraction, t.exponent with
  | none, none =>
    if dropped > 0 then floatOf t.negative significand dropped
    else if !t.negative then some (.int significand)
    else if significand = 0 || Nat.pow 2 63 < significand then floatOf true significand 0
    else some (.int (-(significand : Int)))
  | fraction, exponent =>
    let (significand, places) := absorb significand (fraction.getD [])
    let shift : Int := (dropped : Int) - places
    match exponent with
    | none => floatOf t.negative significand shift
    | some (positive, ds) =>
      let e := Nat.ofDigitChars 10 ds 0
      if exponentLimit ≤ e then
        if significand = 0 || !positive then floatOf t.negative 0 0 else none
      else floatOf t.negative significand (if positive then shift + e else shift - e)

def ofNumeral? (text : List Char) : Option Json :=
  (Numeral.ofChars? text).bind Numeral.value?

end DebugAdapter.Json
