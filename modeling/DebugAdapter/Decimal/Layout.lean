import DebugAdapter.Decimal.Numeral
import DebugAdapter.Decimal.Shortest

/-!
# Layout of decimals

Two layouts of a finite value. `plain` never uses an exponent: it shows values in variable
listings. `scientificBeyond` is the number text of messages and of decode errors: positional for
leading exponents from -5 to 15 and otherwise with a signed exponent.
-/

namespace DebugAdapter.Decimal

def zeros (n : Nat) : List Char := List.replicate n '0'

/-- The point set `places` digits from the right, with a digit in front of it. -/
def pointed (ds : List Char) (places : Nat) : List Char :=
  let padded := zeros (places + 1 - ds.length) ++ ds
  padded.take (padded.length - places) ++ '.' :: padded.drop (padded.length - places)

/-- Positional form: whole numbers end in `whole`. -/
def positional (whole : List Char) (d : Scaled) : List Char :=
  if d.exponent < 0 then pointed (numeral d.digits) (-d.exponent).toNat
  else numeral d.digits ++ zeros d.exponent.toNat ++ whole

def signed (x : Binary64) (text : List Char) : List Char :=
  if x.isNegative then '-' :: text else text

/-- All digits written out, no exponent, whole numbers without a point; a tie goes away from
zero. -/
def plain (x : Binary64) : String :=
  String.ofList (signed x (positional [] (shortest .away x)))

def Scaled.leading (d : Scaled) : Int := d.exponent + ((numeral d.digits).length : Int) - 1

def exponentText (e : Int) : List Char :=
  (if e < 0 then '-' else '+') :: numeral e.natAbs

def scientific (d : Scaled) : List Char :=
  let ds := numeral d.digits
  ds.take 1 ++ (if ds.length > 1 then '.' :: ds.drop 1 else []) ++ 'e' :: exponentText d.leading

/-- The number text of messages, `.0` after whole numbers; a tie goes to the even digit. -/
def scientificBeyond (x : Binary64) : String :=
  let d := shortest .toEven x
  let body :=
    if d.digits == 0 || (-5 ≤ d.leading && d.leading ≤ 15) then positional ['.', '0'] d
    else scientific d
  String.ofList (signed x body)

end DebugAdapter.Decimal
