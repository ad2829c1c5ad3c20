/-!
# Hexadecimal digits

Letters count as digits in either case.
-/

namespace DebugAdapter.Text

def hexDigits : List Char := "0123456789abcdef".toList

def hexDigit? (c : Char) : Option Nat := hexDigits.findIdx? (· == c.toLower)

def isHexDigit (c : Char) : Bool := (hexDigit? c).isSome

def hexadecimal? (ds : List Char) : Option Nat :=
  ds.foldlM (fun n c => (hexDigit? c).map (n * 16 + ·)) 0

def codePoint? (digits : List Char) : Option Char := do
  let n ← hexadecimal? digits
  if n.isValidChar then some (Char.ofNat n) else none

example : hexadecimal? "fFeF".toList = some 0xFFEF ∧ hexadecimal? "g".toList = none := by
  decide +kernel

end DebugAdapter.Text
