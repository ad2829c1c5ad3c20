/-!
# White space

The characters with the Unicode property White_Space, and trimming by them. Header names and
values, and the check for spaces in an endpoint, use this class; JSON and TOML have smaller ones of
their own.
-/

namespace DebugAdapter.Text

/-- Closed ranges of the code points with the property White_Space, ascending and apart. -/
def blankRanges : List (Nat × Nat) :=
  [(0x09, 0x0D), (0x20, 0x20), (0x85, 0x85), (0xA0, 0xA0), (0x1680, 0x1680), (0x2000, 0x200A),
   (0x2028, 0x2029), (0x202F, 0x202F), (0x205F, 0x205F), (0x3000, 0x3000)]

def inRanges (ranges : List (Nat × Nat)) (n : Nat) : Bool :=
  ranges.any fun r => r.1 ≤ n && n ≤ r.2

/-- Ranges in ascending order, with a gap between neighbours. -/
def areApart (ranges : List (Nat × Nat)) : Bool :=
  ranges.all (fun r => r.1 ≤ r.2) && (ranges.zip ranges.tail).all fun (r, s) => r.2 + 1 < s.1

def isBlank (c : Char) : Bool := inRanges blankRanges c.toNat

def trim (s : List Char) : List Char :=
  ((s.dropWhile isBlank).reverse.dropWhile isBlank).reverse

example : areApart blankRanges := by decide
example : (isBlank '\u0085' && isBlank '\u3000' && !isBlank '\u200b' && !isBlank 'a') = true := by
  decide

@[simp] theorem trim_nil : trim [] = [] := rfl

theorem trim_eq_self {s : List Char} (head : ∀ c ∈ s.head?, isBlank c = false)
    (last : ∀ c ∈ s.getLast?, isBlank c = false) : trim s = s := by
  have front : s.dropWhile isBlank = s := by
    cases s with
    | nil => rfl
    | cons c s => simp [head c (by simp)]
  have back : s.reverse.dropWhile isBlank = s.reverse := by
    cases h : s.reverse with
    | nil => rfl
    | cons c r =>
      have : s.getLast? = some c := by simp [← List.head?_reverse, h]
      simp [last c (by simp [this])]
  simp [trim, front, back]

end DebugAdapter.Text
