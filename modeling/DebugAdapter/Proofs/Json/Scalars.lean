import DebugAdapter.Json.Token
import DebugAdapter.Json.Writer
import Mathlib.Algebra.Group.Int.Defs
import Mathlib.Algebra.Group.Nat.Defs

/-!
# Written numbers and strings are read back

The main statements are `ofNumeral?_integerText`, for every integer of 64 bits, signed or unsigned,
and `token?_quoted`, for every text. A number text is a token as far as the next character that
cannot be in a number (`token?_numeral`).
-/

namespace DebugAdapter.Json

theorem takeWhile_dropWhile_append {p : Char → Bool} {inside rest : List Char}
    (all : ∀ c ∈ inside, p c = true) (ends : ∀ c ∈ rest.head?, p c = false) :
    (inside ++ rest).takeWhile p = inside ∧ (inside ++ rest).dropWhile p = rest := by
  rw [List.takeWhile_append_of_pos all, List.dropWhile_append_of_pos all]
  cases rest with
  | nil => simp
  | cons c rest => simp [ends c (by simp)]

-- ---------------------------------------------------------------------------
-- Integers
-- ---------------------------------------------------------------------------

theorem le_ofDigitChars (ds : List Char) (n : Nat) : n ≤ Nat.ofDigitChars 10 ds n := by
  rw [Nat.ofDigitChars_eq_ofDigitChars_zero]
  have := Nat.le_mul_of_pos_left n (Nat.pow_pos (a := 10) (n := ds.length) (by decide))
  omega

/-- A number that fits 64 bits is absorbed digit by digit to its end. -/
theorem absorb_eq {ds : List Char} {n : Nat} (fits : Nat.ofDigitChars 10 ds n < UInt64.size) :
    absorb n ds = (Nat.ofDigitChars 10 ds n, ds.length) := by
  induction ds generalizing n with
  | nil => simp [absorb]
  | cons c ds ih =>
    have split : Nat.ofDigitChars 10 (c :: ds) n =
        Nat.ofDigitChars 10 ds (Nat.ofDigitChars 10 [c] n) := by
      rw [← List.singleton_append, Nat.ofDigitChars_append]
    rw [split] at fits
    have room : Nat.ofDigitChars 10 [c] n < UInt64.size :=
      Nat.lt_of_le_of_lt (le_ofDigitChars ds _) fits
    rw [absorb, if_pos room, ih fits, split]
    rfl

theorem eq_zero_of_head?_numeral {n : Nat} (h : (Decimal.numeral n).head? = some '0') :
    n = 0 := by
  induction n using Nat.strongRecOn with
  | ind n ih =>
    unfold Decimal.numeral at *
    rw [Nat.toDigits_eq_if (by decide)] at h
    split at h
    · simpa using h
    · rw [List.head?_append, Option.or_of_isSome (by simp [Nat.toDigits_ne_nil])] at h
      have := ih (n / 10) (by omega) h
      omega

theorem Numeral.ofChars?_numeral (n : Nat) (negative : Bool) :
    Numeral.ofChars? (if negative then '-' :: Decimal.numeral n else Decimal.numeral n) =
      some ⟨negative, Decimal.numeral n, none, none⟩ := by
  have digits : ∀ c ∈ Decimal.numeral n, c.isDigit = true :=
    fun _ h => Decimal.isDigit_of_mem_numeral h
  have ⟨whole, nothing⟩ : (Decimal.numeral n).takeWhile Char.isDigit = Decimal.numeral n ∧
      (Decimal.numeral n).dropWhile Char.isDigit = [] := by
    have ends : ∀ c ∈ ([] : List Char).head?, Char.isDigit c = false := by simp
    simpa using takeWhile_dropWhile_append digits ends
  have zeros :
      ((Decimal.numeral n).length > 1 && (Decimal.numeral n).head? == some '0') = false := by
    rw [Bool.and_eq_false_iff]
    by_cases h : (Decimal.numeral n).head? = some '0'
    · obtain rfl := eq_zero_of_head?_numeral h
      decide
    · exact .inr (by simpa using h)
  have unsigned : ∀ r, Decimal.numeral n ≠ '-' :: r := by
    intro r h
    exact absurd (digits '-' (by simp [h])) (by decide)
  unfold ofChars?
  cases negative <;>
    simp [whole, nothing, zeros, Decimal.numeral_ne_nil, ofChars?.fractionPart,
      ofChars?.exponentPart]

theorem ofNumeral?_integerText {n : Int} (low : -2 ^ 63 ≤ n) (high : n < 2 ^ 64) :
    ofNumeral? (integerText n) = some (.int n) := by
  have text : integerText n =
      if decide (n < 0) then '-' :: Decimal.numeral n.natAbs else Decimal.numeral n.natAbs := by
    simp [integerText]
  have value : Nat.ofDigitChars 10 (Decimal.numeral n.natAbs) 0 = n.natAbs :=
    Nat.ofDigitChars_ten_toDigits
  rw [ofNumeral?, text, Numeral.ofChars?_numeral, Option.bind_some, Numeral.value?,
    absorb_eq (by rw [value, UInt64.size]; omega)]
  simp only [value, Nat.sub_self]
  rw [if_neg (Nat.lt_irrefl 0)]
  by_cases negative : n < 0
  · have size : ¬ (n.natAbs = 0 ∨ Nat.pow 2 63 < n.natAbs) := by
      rw [Nat.pow_eq]; omega
    have minus : -(n.natAbs : Int) = n := by omega
    simp only [negative, decide_true, Bool.not_true, Bool.false_eq_true, if_false,
      Bool.or_eq_true, decide_eq_true_eq, if_neg size, minus]
  · have same : (n.natAbs : Int) = n := by omega
    simp only [negative, decide_false, Bool.not_false, if_true, same]

-- ---------------------------------------------------------------------------
-- Number texts as tokens
-- ---------------------------------------------------------------------------

theorem isNumeric_of_isDigit {c : Char} (h : c.isDigit = true) : isNumeric c = true := by
  simp [isNumeric, h]

theorem isNumeric_of_dropWhile {text : List Char}
    (rest : ∀ c ∈ text.dropWhile Char.isDigit, isNumeric c = true) :
    ∀ c ∈ text, isNumeric c = true := by
  intro c h
  rw [← List.takeWhile_append_dropWhile (p := Char.isDigit) (l := text), List.mem_append] at h
  cases h with
  | inl digits => exact isNumeric_of_isDigit (List.all_eq_true.1 List.all_takeWhile c digits)
  | inr h => exact rest c h

theorem isNumeric_of_exponentPart {text : List Char} {e : Option (Bool × List Char)}
    (h : Numeral.ofChars?.exponentPart text = some e) : ∀ c ∈ text, isNumeric c = true := by
  unfold Numeral.ofChars?.exponentPart at h
  split at h
  · simp
  · rename_i e r
    split at h
    · rename_i mark
      have head : isNumeric e = true := by
        simp only [Bool.or_eq_true, beq_iff_eq] at mark
        rcases mark with rfl | rfl <;> decide
      have digits : ∀ ds : List Char, ds.all Char.isDigit = true → ∀ c ∈ ds, isNumeric c = true :=
        fun ds all c hc => isNumeric_of_isDigit (List.all_eq_true.1 all c hc)
      have tail : ∀ c ∈ r, isNumeric c = true := by
        split at h
        rename_i sign ds parts
        split at h
        · cases h
        · rename_i good
          simp only [Bool.or_eq_true, Bool.not_eq_true', not_or, Bool.not_eq_false] at good
          have digits : ∀ c ∈ ds, isNumeric c = true :=
            fun c hc => isNumeric_of_isDigit (List.all_eq_true.1 good.2 c hc)
          split at parts <;> cases parts
          · simpa [show isNumeric '+' = true by decide] using digits
          · simpa [show isNumeric '-' = true by decide] using digits
          · exact digits
      simpa [head] using tail
    · cases h

theorem isNumeric_of_fractionPart {text rest : List Char} {f : Option (List Char)}
    (h : Numeral.ofChars?.fractionPart text = some (f, rest))
    (numeric : ∀ c ∈ rest, isNumeric c = true) : ∀ c ∈ text, isNumeric c = true := by
  unfold Numeral.ofChars?.fractionPart at h
  split at h
  · simp only at h
    split at h
    · cases h
    · cases h
      simpa [show isNumeric '.' = true by decide] using isNumeric_of_dropWhile numeric
  · cases h
    exact numeric

theorem isNumeric_of_ofNumeral? {text : List Char} {j : Json} (h : ofNumeral? text = some j) :
    text ≠ [] ∧ ∀ c ∈ text, isNumeric c = true := by
  obtain ⟨t, ht, -⟩ := Option.bind_eq_some_iff.1 h
  unfold Numeral.ofChars? at ht
  split at ht
  rename_i negative rest parts
  simp only at ht
  split at ht
  · cases ht
  rename_i whole
  split at ht
  · cases ht
  rename_i fraction tail hf
  split at ht
  · cases ht
  rename_i e he
  have numeric :=
    isNumeric_of_dropWhile (isNumeric_of_fractionPart hf (isNumeric_of_exponentPart he))
  split at parts <;> cases parts
  · exact ⟨by simp, by simpa [show isNumeric '-' = true by decide] using numeric⟩
  · refine ⟨?_, numeric⟩
    rintro rfl
    simp at whole

theorem token?_numeral {text rest : List Char} {j : Json} (value : ofNumeral? text = some j)
    (ends : ∀ c ∈ rest.head?, isNumeric c = false) :
    token? (text ++ rest) = some (.scalar j, rest) := by
  obtain ⟨nonempty, numeric⟩ := isNumeric_of_ofNumeral? value
  cases text with
  | nil => exact absurd rfl nonempty
  | cons c r =>
    have first : isNumeric c = true := numeric c (by simp)
    have inside : ∀ c ∈ r, isNumeric c = true := fun c h => numeric c (by simp [h])
    obtain ⟨takes, leaves⟩ := takeWhile_dropWhile_append inside ends
    rw [List.cons_append, token?.eq_def]
    split <;> rename_i heq
    case h_1 => cases heq
    -- No other token starts with a character that may be in a number.
    all_goals
      obtain ⟨rfl, tail⟩ := List.cons.inj heq
      try exact absurd first (by decide)
    subst tail
    rw [if_pos first, takes, leaves, value]

-- ---------------------------------------------------------------------------
-- Strings
-- ---------------------------------------------------------------------------

theorem stringBody_letter {acc rest : List Char} {e c : Char} (value : unescape? e = some c) :
    stringBody acc ('\\' :: e :: rest) = stringBody (c :: acc) rest := by
  rw [stringBody.eq_def]
  split <;> rename_i heq <;> cases heq
  · cases value
  · cases value
  · simp only [value]
  · rename_i other
    exact absurd rfl (other e rest rfl)

/-- A numeric escape of a character outside the surrogates does not depend on what follows. -/
theorem stringBody_unicode {acc rest : List Char} {a b c d : Char} {n : Nat}
    (value : Text.hexadecimal? [a, b, c, d] = some n) (high : isHigh n = false)
    (low : isLow n = false) :
    stringBody acc ('\\' :: 'u' :: a :: b :: c :: d :: rest) =
      stringBody (Char.ofNat n :: acc) rest := by
  rw [stringBody.eq_def]
  split <;> rename_i heq <;> cases heq
  · simp_all
  · simp_all
  · rename_i none_left
    exact absurd rfl (none_left a b c d rest rfl)
  · simp_all

theorem hexadecimal?_control : ∀ n < 0x20,
    Text.hexadecimal? ['0', '0', Nat.digitChar (n / 16), Nat.digitChar (n % 16)] = some n := by
  decide +kernel

theorem stringBody_escape (acc : List Char) (c : Char) (rest : List Char) :
    stringBody acc (escape c ++ rest) = stringBody (c :: acc) rest := by
  unfold escape
  iterate 7
    split
    · subst_vars; exact stringBody_letter rfl
  split
  · rename_i control
    have high : isHigh c.toNat = false := by simp [isHigh]; omega
    have low : isLow c.toNat = false := by simp [isLow]; omega
    simpa using stringBody_unicode (hexadecimal?_control c.toNat control) high low
  · -- The character stands for itself.
    rename_i quote slash _ _ _ _ _ control
    rw [List.singleton_append, stringBody.eq_def]
    split <;> rename_i heq
    case h_1 => cases heq
    all_goals obtain ⟨rfl, rfl⟩ := List.cons.inj heq
    · exact absurd rfl quote
    · exact absurd rfl slash
    · exact absurd rfl slash
    · exact absurd rfl slash
    · simp [control, slash]

theorem stringBody_flatMap_escape (acc cs rest : List Char) :
    stringBody acc (cs.flatMap escape ++ rest) = stringBody (cs.reverse ++ acc) rest := by
  induction cs generalizing acc with
  | nil => rfl
  | cons c cs ih => simp [stringBody_escape, ih]

theorem token?_quoted (s : String) (rest : List Char) :
    token? (quoted s ++ rest) = some (.text s, rest) := by
  have start : quoted s ++ rest = '"' :: (s.toList.flatMap escape ++ '"' :: rest) := by
    simp [quoted]
  have body : stringBody [] (s.toList.flatMap escape ++ '"' :: rest) = some (s.toList, rest) := by
    rw [stringBody_flatMap_escape, List.append_nil, stringBody.eq_def]
    simp only [List.reverse_reverse]
  rw [start, token?.eq_def]
  simp only [body, String.ofList_toList]

end DebugAdapter.Json
