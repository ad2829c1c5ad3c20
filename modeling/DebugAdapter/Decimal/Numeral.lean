/-!
# Numerals

Natural numbers in decimal digits. A number is written without leading zeros, and read with or
without them.
-/

namespace DebugAdapter.Decimal

def numeral (n : Nat) : List Char := Nat.toDigits 10 n

/-- The number that a text of digits writes; there is at least one. -/
def ofNumeral? (ds : List Char) : Option Nat :=
  if ds.isEmpty || !ds.all Char.isDigit then none else some (Nat.ofDigitChars 10 ds 0)

def unsigned : List Char → List Char
  | '+' :: r | '-' :: r => r
  | r => r

theorem numeral_ne_nil (n : Nat) : numeral n ≠ [] := Nat.toDigits_ne_nil

theorem isDigit_of_mem_numeral {n : Nat} {c : Char} (h : c ∈ numeral n) : c.isDigit = true :=
  Nat.isDigit_of_mem_toDigits (by decide) (by decide) h

@[simp] theorem ofNumeral?_numeral (n : Nat) : ofNumeral? (numeral n) = some n := by
  have digits : (numeral n).all Char.isDigit = true :=
    List.all_eq_true.mpr fun _ h => isDigit_of_mem_numeral h
  simp [ofNumeral?, numeral_ne_nil, digits]
  exact Nat.ofDigitChars_toDigits (by decide) (by decide)

end DebugAdapter.Decimal
