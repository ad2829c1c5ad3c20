import DebugAdapter.Decimal.Numeral
import DebugAdapter.Text.Hexadecimal

/-!
# Socket addresses

An address and a port. Addresses of four bytes are written in decimal; those of eight groups of 16
bits in brackets and hexadecimal, the longest run of zero groups as two colons.
-/

namespace DebugAdapter

structure Quad where
  a : UInt8
  b : UInt8
  c : UInt8
  d : UInt8
deriving DecidableEq, Repr

inductive SocketAddress where
  | quad (address : Quad) (port : UInt16)
  /-- Eight groups, and the number of the interface if it is not zero. -/
  | groups (address : List UInt16) (scope : UInt32) (port : UInt16)
deriving DecidableEq, Repr

namespace SocketAddress

open Decimal (numeral)

-- ---------------------------------------------------------------------------
-- Reading
-- ---------------------------------------------------------------------------

def number? (cs : List Char) : Option (Nat × List Char) :=
  (Decimal.ofNumeral? (cs.takeWhile Char.isDigit)).map fun n => (n, cs.dropWhile Char.isDigit)

/-- One byte in decimal, without leading zeros. -/
def byte? (cs : List Char) : Option (UInt8 × List Char) := do
  let (n, rest) ← number? cs
  if n < UInt8.size && cs.takeWhile Char.isDigit = numeral n then some (.ofNat n, rest)
  else none

def skip? (c : Char) : List Char → Option (List Char)
  | d :: r => if c = d then some r else none
  | [] => none

def quad? (cs : List Char) : Option (Quad × List Char) := do
  let (a, cs) ← byte? cs
  let (b, cs) ← byte? (← skip? '.' cs)
  let (c, cs) ← byte? (← skip? '.' cs)
  let (d, cs) ← byte? (← skip? '.' cs)
  pure (⟨a, b, c, d⟩, cs)

def Quad.asGroups (q : Quad) : List UInt16 :=
  [q.a.toUInt16 * 256 + q.b.toUInt16, q.c.toUInt16 * 256 + q.d.toUInt16]

/-- One to four hexadecimal digits. -/
def group? (cs : List Char) : Option (UInt16 × List Char) :=
  let ds := cs.takeWhile Text.isHexDigit
  if ds.isEmpty || 4 < ds.length then none
  else (Text.hexadecimal? ds).map fun n => (.ofNat n, cs.dropWhile Text.isHexDigit)

/-- Reads at most `limit` groups with colons between them. Where two groups have room, four bytes in
decimal may stand for the last two; the second part of the answer says so. -/
def groupsUpTo (limit : Nat) (first : Bool) (cs : List Char) : List UInt16 × Bool × List Char :=
  match limit with
  | 0 => ([], false, cs)
  | limit + 1 =>
    let start := if first then some cs else skip? ':' cs
    match start.bind fun cs => if 0 < limit then quad? cs else none with
    | some (q, rest) => (Quad.asGroups q, true, rest)
    | none =>
      match start.bind group? with
      | some (g, rest) =>
        let (gs, ended, rest) := groupsUpTo limit false rest
        (g :: gs, ended, rest)
      | none => ([], false, cs)

/-- Eight groups, or fewer around two colons that stand for at least one group of zeros. -/
def address? (cs : List Char) : Option (List UInt16 × List Char) :=
  let (head, ended, rest) := groupsUpTo 8 true cs
  if head.length = 8 then some (head, rest)
  else if ended then none
  else
    match rest with
    | ':' :: ':' :: rest =>
      let (tail, _, rest) := groupsUpTo (7 - head.length) true rest
      some (head ++ List.replicate (8 - head.length - tail.length) 0 ++ tail, rest)
    | _ => none

/-- A colon and the port, at the end of the text. -/
def port? (cs : List Char) : Option UInt16 := do
  let (n, rest) ← number? (← skip? ':' cs)
  if n < UInt16.size && rest.isEmpty then some (.ofNat n) else none

/-- The interface behind a percent sign; without one it is zero. -/
def scope? : List Char → Option (UInt32 × List Char)
  | '%' :: r => do
    let (n, rest) ← number? r
    if n < UInt32.size then some (.ofNat n, rest) else none
  | cs => some (0, cs)

def ofText? (s : String) : Option SocketAddress :=
  match s.toList with
  | '[' :: cs => do
    let (address, rest) ← address? cs
    let (scope, rest) ← scope? rest
    let port ← port? (← skip? ']' rest)
    pure (.groups address scope port)
  | cs => do
    let (q, rest) ← quad? cs
    let port ← port? rest
    pure (.quad q port)

-- ---------------------------------------------------------------------------
-- Writing
-- ---------------------------------------------------------------------------

def Quad.text (q : Quad) : List Char :=
  numeral q.a.toNat ++ '.' :: numeral q.b.toNat ++ '.' :: numeral q.c.toNat ++
    '.' :: numeral q.d.toNat

/-- Where the longest run of zeros starts and how long it is; of equally long ones the first. -/
def longestRun : List UInt16 → Nat × Nat
  | [] => (0, 0)
  | g :: rest =>
    let here := ((g :: rest).takeWhile (· == 0)).length
    let (start, size) := longestRun rest
    if here < size then (start + 1, size) else (0, here)

def joined (gs : List UInt16) : List Char :=
  List.intercalate [':'] (gs.map fun g => Nat.toDigits 16 g.toNat)

/-- Four bytes behind the groups that mark them are written in decimal. -/
def groupsText (gs : List UInt16) : List Char :=
  match gs with
  | [0, 0, 0, 0, 0, 0xFFFF, x, y] =>
    "::ffff:".toList ++
      Quad.text ⟨(x >>> 8).toUInt8, x.toUInt8, (y >>> 8).toUInt8, y.toUInt8⟩
  | gs =>
    let (start, size) := longestRun gs
    if size > 1 then joined (gs.take start) ++ ':' :: ':' :: joined (gs.drop (start + size))
    else joined gs

def text : SocketAddress → String
  | .quad q port => String.ofList (Quad.text q ++ ':' :: numeral port.toNat)
  | .groups gs scope port =>
    let scope := if scope = 0 then [] else '%' :: numeral scope.toNat
    String.ofList ('[' :: groupsText gs ++ scope ++ ']' :: ':' :: numeral port.toNat)

example : (ofText? "[0001::]:1").map text = some "[1::]:1" := by decide +kernel
example : (ofText? "[64:ff9b::192.0.2.33]:443").map text = some "[64:ff9b::c000:221]:443" := by
  decide +kernel
example : ofText? "0127.0.0.1:80" = none ∧ ofText? "[1::2::3]:4" = none := by decide +kernel

end SocketAddress

end DebugAdapter
