/-!
# Shortest decimals

The fewest decimal digits that read back to a binary64 value. A finite value is decoded to
`m * 2 ^ q`; the reals that round to it form an interval, and the search looks for the coarsest
decimal grid with a point inside. All arithmetic is exact, on naturals. How the digits are laid out
is the business of `DebugAdapter.Decimal.Layout`.
-/

namespace DebugAdapter

structure Binary64 where
  bits : UInt64
deriving DecidableEq, Repr, Inhabited

namespace Binary64

def isNegative (x : Binary64) : Bool := x.bits >>> 63 == 1

def exponentField (x : Binary64) : Nat := ((x.bits >>> 52) &&& 0x7FF).toNat

def fractionField (x : Binary64) : Nat := (x.bits &&& 0xFFFFFFFFFFFFF).toNat

def isFinite (x : Binary64) : Bool := x.exponentField != 0x7FF

def isNaN (x : Binary64) : Bool := x.exponentField == 0x7FF && x.fractionField != 0

def isZero (x : Binary64) : Bool := x.exponentField == 0 && x.fractionField == 0

/-- Equality of finite values: zero has two encodings, every other value one. -/
def sameValue (x y : Binary64) : Bool := x == y || (x.isZero && y.isZero)

end Binary64

namespace Decimal

/-- A finite magnitude `m * 2 ^ q`. Below a power of two the gap to the next smaller value is half
the gap to the next larger one. -/
structure Magnitude where
  m : Nat
  q : Int
  narrowBelow : Bool
deriving DecidableEq, Repr

def Magnitude.of (x : Binary64) : Magnitude :=
  let e := x.exponentField
  let f := x.fractionField
  if e == 0 then ⟨f, -1074, false⟩ else ⟨Nat.pow 2 52 + f, (e : Int) - 1075, f == 0 && e > 1⟩

/-- `digits * 10 ^ exponent`. -/
structure Scaled where
  digits : Nat
  exponent : Int
deriving DecidableEq, Repr

/-- Which of two equally near candidates is taken. -/
inductive Tie where
  | toEven
  | away
deriving DecidableEq, Repr

/-- Compares `a * 10 ^ i` with `n * 2 ^ j`. -/
def compareScaled (a : Nat) (i : Int) (n : Nat) (j : Int) : Ordering :=
  compare (a * Nat.pow 10 i.toNat * Nat.pow 2 (-j).toNat)
    (n * Nat.pow 2 j.toNat * Nat.pow 10 (-i).toNat)

/-- Whether `d` lies among the reals that round to `x`; the ends belong to them when `m` is even. -/
def Magnitude.readsBack (x : Magnitude) (d : Scaled) : Bool :=
  let low := if x.narrowBelow then 4 * x.m - 1 else 4 * x.m - 2
  let high := 4 * x.m + 2
  let ends := x.m % 2 == 0
  let below := compareScaled d.digits d.exponent low (x.q - 2)
  let above := compareScaled d.digits d.exponent high (x.q - 2)
  (below == .gt || (ends && below == .eq)) && (above == .lt || (ends && above == .eq))

/-- The point of the grid `10 ^ g` at or just below the value. -/
def Magnitude.floorOn (x : Magnitude) (g : Int) : Nat :=
  (x.m * Nat.pow 2 x.q.toNat * Nat.pow 10 (-g).toNat) /
    (Nat.pow 2 (-x.q).toNat * Nat.pow 10 g.toNat)

/-- The nearer of the two neighbours on the grid `10 ^ g` that reads back, if one does. -/
def Magnitude.onGrid (tie : Tie) (x : Magnitude) (g : Int) : Option Scaled :=
  let lower : Scaled := ⟨x.floorOn g, g⟩
  let upper : Scaled := ⟨lower.digits + 1, g⟩
  match x.readsBack lower, x.readsBack upper with
  | true, false => some lower
  | false, true => some upper
  | false, false => none
  | true, true =>
    -- The midpoint of the two candidates is `(2 * lower + 1) * 10 ^ g / 2`.
    match compareScaled (2 * lower.digits + 1) g x.m (x.q + 1), tie with
    | .gt, _ => some lower
    | .lt, _ => some upper
    | .eq, .away => some upper
    | .eq, .toEven => some (if lower.digits % 2 == 0 then lower else upper)

/-- Least `k` with value below `10 ^ k`, found by stepping up from an estimate that is never too
large. -/
def Magnitude.scale (x : Magnitude) : Int :=
  let estimate : Int := ((x.m.log2 : Int) + x.q) * 30103 / 100000 - 1
  let steps := (List.range 4).map fun (i : Nat) => estimate + (i : Int)
  (steps.find? fun k => compareScaled 1 k x.m x.q == .gt).getD (estimate + 4)

/-- Moves factors of ten from the digits to the exponent. -/
def Scaled.stripZeros (fuel : Nat) (d : Scaled) : Scaled :=
  match fuel with
  | 0 => d
  | fuel + 1 =>
    if d.digits % 10 == 0 && d.digits != 0 then stripZeros fuel ⟨d.digits / 10, d.exponent + 1⟩
    else d

def Magnitude.exact (x : Magnitude) : Scaled :=
  ⟨x.m * Nat.pow 2 x.q.toNat * Nat.pow 5 (-x.q).toNat, -(-x.q).toNat⟩

/-- The fewest digits that read back; of those the nearest, and of two equally near ones the one
that `tie` names. Zero is `0 * 10 ^ 0`. -/
def shortest (tie : Tie) (x : Binary64) : Scaled :=
  let v := Magnitude.of x
  if v.m == 0 then ⟨0, 0⟩
  else
    let k := v.scale
    let grids := (List.range 17).map fun (i : Nat) => k - 1 - (i : Int)
    ((grids.findSome? (v.onGrid tie)).getD v.exact).stripZeros 400

end Decimal

end DebugAdapter
